import DocumentStore.Proofs.Store.Identifiers
import DocumentStore.Proofs.Store.Pagination

/- Walks through a collection that others write to. A token is a position, and positions shift: what
   is removed moves all behind it to the front, what is created comes to the end, and what is
   overwritten stays in its place (`Continues`). So a walk may miss documents, but it meets none
   twice, and if nothing is removed it meets all that were there (`walk_among_writers`). -/
namespace DocumentStore

open Json (Value)

/-- What a document keeps until it is removed: its key, and the id that the store gave to it. -/
def Stored.mark (x : Stored) : (List Value × Option String) × Option String :=
  (x.key, x.document.resourceId?)

namespace Store

variable {s t next : Store} {made : Call} {change : Option Change} {c : Container}
  {documents later : List Stored} {history : List Change} {n : Nat}

/-! The ids of a run. -/

theorem created_cases (op : Operation) (s : Store) : op.created s = [] ∨
    ∃ doc, op.created s = [doc] ∧ doc.resourceId? = some (mintedId (s.sequence + 1)) ∧
      (op.next s).sequence = s.sequence + 1 := by
  have number : ∀ doc ∈ op.created s, doc.resourceId? = some (mintedId (s.sequence + 1)) :=
    fun _ h => resourceId_of_created h
  cases op with
  | createDatabase name => exact Or.inl rfl
  | createCollection c => exact Or.inl rfl
  | call made =>
    have grows := sequence_of_effect (effect_call made s)
    simp only [Operation.created, Operation.change?] at number ⊢
    cases wrote : made.change? s with
    | none => exact Or.inl rfl
    | some change =>
      rw [wrote] at number grows
      cases change with
      | removed a => exact Or.inl rfl
      | wrote a doc =>
        simp only [createdBy] at number ⊢
        cases found : s.get a with
        | ok old => exact Or.inl rfl
        | error e =>
          rw [found] at number
          exact Or.inr ⟨doc, rfl, number doc (List.mem_singleton_self _), grows⟩

/-- The ids of created documents are given in the order of their numbers. -/
theorem numbers_of_created (ops : List Operation) : ∃ numbers : List Nat,
    (created ops empty).map Document.resourceId? = numbers.map (fun n => some (mintedId n)) ∧
      numbers.Pairwise (· < ·) ∧ ∀ n ∈ numbers, n ≤ (run ops empty).sequence := by
  refine trace_induction (fun docs s => ∃ numbers : List Nat,
    docs.map Document.resourceId? = numbers.map (fun n => some (mintedId n)) ∧
      numbers.Pairwise (· < ·) ∧ ∀ n ∈ numbers, n ≤ s.sequence) ?_ ops [] empty
    ⟨[], rfl, .nil, List.forall_mem_nil _⟩
  intro docs op s ⟨numbers, ids, order, bound⟩
  rcases created_cases op s with none | ⟨doc, one, hid, grows⟩
  · rw [none, List.append_nil, sequence_next]
    exact ⟨numbers, ids, order, fun n hn => Nat.le_add_right_of_le (bound n hn)⟩
  · rw [one, grows]
    refine ⟨numbers ++ [s.sequence + 1], ?_, ?_, ?_⟩
    · rw [List.map_append, List.map_append, ids, List.map_singleton, List.map_singleton, hid]
    · refine List.pairwise_append.mpr ⟨order, List.pairwise_singleton _ _, fun m hm n hn => ?_⟩
      rw [List.mem_singleton.mp hn]
      exact Nat.lt_succ_of_le (bound m hm)
    · intro n hn
      rcases List.mem_append.mp hn with hn | hn
      · exact Nat.le_succ_of_le (bound n hn)
      · exact Nat.le_of_eq (List.mem_singleton.mp hn)

theorem nodup_run (ops : List Operation) :
    (run ops empty).Each fun _ documents => (documents.map (·.document.resourceId?)).Nodup := by
  intro c documents found
  obtain ⟨numbers, ids, order, -⟩ := numbers_of_created ops
  have distinct : ((created ops empty).map Document.resourceId?).Nodup := by
    rw [ids]
    exact List.Pairwise.map _ (fun m n (h : m < n) same =>
      Nat.ne_of_lt h (mintedId_injective (Option.some.inj same))) order
  exact List.Pairwise.sublist (ordered_run ops c documents found) distinct

/-! A collection goes on. -/

theorem marks_of_effect (identified : Identified t) (found : t.documents? c = .ok documents)
    (effect : Effect made t change next) : ∃ later, next.documents? c = .ok later ∧
      (later.map Stored.mark = documents.map Stored.mark ∨
        (∃ m, m.2 = some (mintedId (t.sequence + 1)) ∧
          later.map Stored.mark = documents.map Stored.mark ++ [m]) ∨
        ((later.map Stored.mark).Sublist (documents.map Stored.mark) ∧
          ∃ a, change = some (.removed a) ∧ a.container = c)) := by
  cases effect with
  | unchanged => exact ⟨documents, found, Or.inl rfl⟩
  | @appended payload doc a listed carried stamped named nonempty there fresh =>
    rw [documents?_with_sequence, documents?_setDocuments there]
    split
    next same =>
      rw [same, there] at found
      cases found
      refine ⟨_, rfl, Or.inr (Or.inl ⟨Stored.mark ⟨a.partition, doc⟩, ?_, List.map_append⟩)⟩
      rw [Stored.mark, stamped, resourceId?_stamp]
    next => exact ⟨documents, found, Or.inl rfl⟩
  | @overwritten payload doc a listed old carried stamped named nonempty there live =>
    rw [documents?_with_sequence, documents?_setDocuments there]
    split
    next same =>
      rw [same, there] at found
      cases found
      -- The document that is overwritten is at the address, and its id is taken over.
      have key : doc.id? = old.document.id? :=
        named.trans (Stored.isAt_iff.mp (List.find?_some live)).2.symm
      obtain ⟨resourceId, hid⟩ := identified _ _ there _ (List.mem_of_find?_eq_some live)
      have id : doc.resourceId? = old.document.resourceId? := by
        rw [stamped, resourceId?_stamp, hid, Option.getD_some]
      exact ⟨_, rfl, Or.inl (Stored.map_overwriteFirst live
        (by rw [Stored.mark, Stored.mark, Stored.key, Stored.key, key, id]))⟩
    next => exact ⟨documents, found, Or.inl rfl⟩
  | @removed a listed old there live =>
    rw [documents?_setDocuments there]
    split
    next same =>
      rw [same, there] at found
      cases found
      exact ⟨_, rfl, Or.inr (Or.inr ⟨(List.eraseP_sublist ..).map _, a, rfl, same.symm⟩)⟩
    next => exact ⟨documents, found, Or.inl rfl⟩

/-- How a collection goes on from these documents after the write with number `n`: some of them are
    left, in their order, and behind them stand those created since. Without a removal all of them
    are left. -/
def Continues (c : Container) (documents : List Stored) (n : Nat) (history : List Change)
    (t : Store) : Prop :=
  n ≤ t.sequence ∧ ∃ later kept fresh, t.documents? c = .ok later ∧
    later.map Stored.mark = kept ++ fresh ∧ kept.Sublist (documents.map Stored.mark) ∧
    (∀ m ∈ fresh, ∃ k, n < k ∧ m.2 = some (mintedId k)) ∧
    ((∀ a, .removed a ∈ history → a.container ≠ c) → kept = documents.map Stored.mark)

theorem continues_of_effect (identified : Identified t) (h : Continues c documents n history t)
    (effect : Effect made t change next) :
    Continues c documents n (history ++ change.toList) next := by
  obtain ⟨since, later, kept, fresh, found, marks, left, new, all⟩ := h
  have since' : n ≤ next.sequence := by
    rw [sequence_of_effect effect]
    exact Nat.le_add_right_of_le since
  have all' : (∀ a, .removed a ∈ history ++ change.toList → a.container ≠ c) →
      kept = documents.map Stored.mark :=
    fun none => all fun a ha => none a (List.mem_append_left _ ha)
  obtain ⟨latest, found', same | ⟨m, hm, longer⟩ | ⟨shorter, a, rfl, here⟩⟩ :=
    marks_of_effect identified found effect
  · exact ⟨since', latest, kept, fresh, found', same.trans marks, left, new, all'⟩
  · refine ⟨since', latest, kept, fresh ++ [m], found', ?_, left, fun k hk => ?_, all'⟩
    · rw [longer, marks, List.append_assoc]
    · rcases List.mem_append.mp hk with hk | hk
      · exact new k hk
      · rw [List.mem_singleton.mp hk]
        exact ⟨_, Nat.lt_succ_of_le since, hm⟩
  · rw [marks] at shorter
    obtain ⟨kept', fresh', split, left', new'⟩ := List.sublist_append_iff.mp shorter
    refine ⟨since', latest, kept', fresh', found', split, left'.trans left,
      fun k hk => new k (new'.mem hk), fun none => ?_⟩
    exact absurd here (none a (by simp))

/-- **A collection goes on** from what it was, whatever is done to the store. -/
theorem continues_run (identified : Identified s) (found : s.documents? c = .ok documents)
    (ops : List Operation) :
    Continues c documents s.sequence (changes ops s) (run ops s) := by
  have start : Continues c documents s.sequence [] s :=
    ⟨Nat.le_refl _, documents, documents.map Stored.mark, [], found, (List.append_nil _).symm,
      .refl _, List.forall_mem_nil _, fun _ => rfl⟩
  refine (run_induction (fun history t => Identified t ∧
    Continues c documents s.sequence history t) ?_ ?_ ?_ ops [] s ⟨identified, start⟩).2
  · rintro history t name ⟨identified, since, later, kept, fresh, found, rest⟩
    exact ⟨each_createDatabase identified name, since, later, kept, fresh,
      documents?_createDatabase_of_found found name, rest⟩
  · rintro history t d ⟨identified, since, later, kept, fresh, found, rest⟩
    exact ⟨each_createCollection identified (List.forall_mem_nil _), since, later, kept, fresh,
      documents?_createCollection_of_found found, rest⟩
  · rintro history t made change next ⟨identified, h⟩ effect
    exact ⟨identified_of_effect identified effect, continues_of_effect identified h effect⟩

/-- Past any position stand only documents that stood past it before, and new ones. -/
theorem Continues.drop (h : Continues c documents n history t) (found : t.documents? c = .ok later)
    {offset : Nat} {id : Option String}
    (hid : id ∈ (later.drop offset).map (·.document.resourceId?)) :
    id ∈ (documents.drop offset).map (·.document.resourceId?) ∨
      ∃ k, n < k ∧ id = some (mintedId k) := by
  obtain ⟨-, listed, kept, fresh, found', marks, left, new, -⟩ := h
  cases found.symm.trans found'
  obtain ⟨x, hx, rfl⟩ := List.mem_map.mp hid
  have hmark : x.mark ∈ (kept ++ fresh).drop offset := by
    rw [← marks, ← List.map_drop]
    exact List.mem_map_of_mem hx
  rw [List.drop_append] at hmark
  rcases List.mem_append.mp hmark with hmark | hmark
  · have hold := (left.drop offset).mem hmark
    rw [← List.map_drop] at hold
    obtain ⟨y, hy, same⟩ := List.mem_map.mp hold
    exact Or.inl (List.mem_map.mpr ⟨y, hy, congrArg Prod.snd same⟩)
  · exact Or.inr (new _ (List.mem_of_mem_drop hmark))

/-! Walks. -/

/-- A walk through a collection: each page is fetched with the token of the page before it, until a
    page has none. The operations of a round are made between two fetches. -/
inductive Walk (pageSize : Nat) : Search → Store → List (List Operation) → List Page → Prop where
  | last {search : Search} {s : Store} {page : Page} (fetched : s.search pageSize search = .ok page)
      (ended : page.next? = none) : Walk pageSize search s [] [page]
  | more {search : Search} {s : Store} {page : Page} {token : String} {round : List Operation}
      {rounds : List (List Operation)} {pages : List Page}
      (fetched : s.search pageSize search = .ok page) (next : page.next? = some token)
      (rest : Walk pageSize { search with continuation := some token } (run round s) rounds pages) :
      Walk pageSize search s (round :: rounds) (page :: pages)

variable {pageSize offset m : Nat} {search : Search} {rounds : List (List Operation)}
  {pages : List Page} {token : String}

theorem offset?_next (next : (pageAt pageSize offset documents).next? = some token)
    (asked : offset? (some token) = .ok m) :
    m = offset + max pageSize 1 ∧ offset + max pageSize 1 < documents.length := by
  rw [next?_pageAt] at next
  split at next
  next more =>
    cases next
    rw [offset?_toString] at asked
    split at asked
    · cases asked
      exact ⟨rfl, more⟩
    · cases asked
  next => cases next

theorem nodup_page_append {α : Type} {page behind rest : List α} {new : α → Prop}
    (distinct : (page ++ behind).Nodup) (once : rest.Nodup)
    (among : ∀ id ∈ rest, id ∈ behind ∨ new id) (old : ∀ id ∈ page, ¬new id) :
    (page ++ rest).Nodup := by
  obtain ⟨page_once, -, apart⟩ := List.nodup_append.mp distinct
  refine List.nodup_append.mpr ⟨page_once, once, ?_⟩
  intro id hid other hother
  rcases among other hother with hbehind | hnew
  · exact apart id hid other hbehind
  · intro same
    exact old id hid (same ▸ hnew)

/-- A walk meets documents that stood where it starts or behind, and documents created since, and it
    meets each of them once. -/
theorem Walk.once (walked : Walk pageSize search s rounds pages) :
    ∀ history, s = run history empty → ∃ documents offset,
      s.documents? search.container = .ok documents ∧ offset? search.continuation = .ok offset ∧
      ((pages.flatMap Page.documents).map Document.resourceId?).Nodup ∧
      ∀ id ∈ (pages.flatMap Page.documents).map Document.resourceId?,
        id ∈ (documents.drop offset).map (·.document.resourceId?) ∨
          ∃ k, s.sequence < k ∧ id = some (mintedId k) := by
  induction walked with
  | last fetched ended =>
    intro history start
    subst start
    obtain ⟨documents, offset, found, asked, rfl⟩ := search_eq_ok fetched
    refine ⟨documents, offset, found, asked, ?_, ?_⟩
    · rw [List.flatMap_singleton, pageAt, List.map_map]
      exact (nodup_run history _ _ found).sublist
        (((List.take_sublist _ _).trans (List.drop_sublist _ _)).map _)
    · intro id hid
      rw [List.flatMap_singleton, pageAt, List.map_map] at hid
      exact Or.inl (((List.take_sublist _ _).map _).mem hid)
  | @more search s page token round rounds pages fetched next rest ih =>
    intro history start
    subst start
    obtain ⟨documents, offset, found, asked, rfl⟩ := search_eq_ok fetched
    obtain ⟨later, m, found', asked', once, among⟩ := ih _ (run_append _ _ _).symm
    obtain ⟨rfl, -⟩ := offset?_next next asked'
    have continues := continues_run (identified_run history) found round
    -- What the rest of the walk meets stands behind the page now, or is new.
    have behind : ∀ id ∈ (pages.flatMap Page.documents).map Document.resourceId?,
        id ∈ (documents.drop (offset + max pageSize 1)).map (·.document.resourceId?) ∨
          ∃ k, (run history empty).sequence < k ∧ id = some (mintedId k) := by
      intro id hid
      rcases among id hid with hid | ⟨k, hk, hid⟩
      · exact continues.drop found' hid
      · exact Or.inr ⟨k, Nat.lt_of_le_of_lt continues.1 hk, hid⟩
    have split : (documents.drop offset).map (·.document.resourceId?) =
        ((documents.drop offset).take (max pageSize 1)).map (·.document.resourceId?) ++
          (documents.drop (offset + max pageSize 1)).map (·.document.resourceId?) := by
      rw [← List.map_append, ← List.drop_drop, List.take_append_drop]
    have distinct := (nodup_run history _ _ found).sublist ((List.drop_sublist offset _).map _)
    rw [split] at distinct
    have known : ∀ id ∈ ((documents.drop offset).take (max pageSize 1)).map
        (·.document.resourceId?), ¬∃ k, (run history empty).sequence < k ∧ id = some (mintedId k) := by
      intro id hid isNew
      obtain ⟨k, hk, hnew⟩ := isNew
      obtain ⟨x, hx, rfl⟩ := List.mem_map.mp hid
      obtain ⟨n, hn, number⟩ := resourceId_of_stored (accounted_run history) found
        (List.mem_of_mem_drop (List.mem_of_mem_take hx))
      have : n = k := mintedId_injective (Option.some.inj (number.symm.trans hnew))
      omega
    refine ⟨documents, offset, found, asked, ?_, ?_⟩
    · rw [List.flatMap_cons, List.map_append, pageAt, List.map_map]
      exact nodup_page_append distinct once behind known
    · intro id hid
      rw [List.flatMap_cons, List.map_append, pageAt, List.map_map] at hid
      rcases List.mem_append.mp hid with hid | hid
      · exact Or.inl (((List.take_sublist _ _).map _).mem hid)
      · refine (behind id hid).imp_left fun hid => ?_
        rw [split]
        exact List.mem_append_right _ hid

/-- The document stood in the collection at some time of these operations. -/
def StoodDuring (ops : List Operation) (s : Store) (c : Container) (x : Stored) : Prop :=
  ∃ before documents, before <+: ops ∧ (run before s).documents? c = .ok documents ∧ x ∈ documents

/-- Where nothing is removed, a walk meets exactly the documents that stand in the end behind the
    place where it starts, in their order, though perhaps in earlier versions. -/
theorem Walk.complete (walked : Walk pageSize search s rounds pages) :
    ∀ history, s = run history empty →
      (∀ a, .removed a ∈ changes rounds.flatten s → a.container ≠ search.container) →
      ∃ (offset : Nat) (final seen : List Stored), offset? search.continuation = .ok offset ∧
        (run rounds.flatten s).documents? search.container = .ok final ∧
        pages.flatMap Page.documents = seen.map Stored.document ∧
        seen.map Stored.mark = (final.drop offset).map Stored.mark ∧
        ∀ x ∈ seen, StoodDuring rounds.flatten s search.container x := by
  induction walked with
  | last fetched ended =>
    intro history start unremoved
    subst start
    obtain ⟨documents, offset, found, asked, rfl⟩ := search_eq_ok fetched
    have all : (documents.drop offset).take (max pageSize 1) = documents.drop offset := by
      rw [next?_pageAt] at ended
      split at ended
      · cases ended
      · exact List.take_of_length_le (by rw [List.length_drop]; omega)
    refine ⟨offset, documents, documents.drop offset, asked, found, ?_, rfl, fun x hx => ?_⟩
    · rw [List.flatMap_singleton, pageAt, all]
    · exact ⟨[], documents, List.nil_prefix, found, List.mem_of_mem_drop hx⟩
  | @more search s page token round rounds pages fetched next rest ih =>
    intro history start unremoved
    subst start
    obtain ⟨documents, offset, found, asked, rfl⟩ := search_eq_ok fetched
    rw [List.flatten_cons] at unremoved ⊢
    obtain ⟨m, final, seen, asked', found', shown, marks, stood⟩ := ih (history ++ round)
      (run_append _ _ _).symm fun a ha => unremoved a (by
        rw [changes, trace_append]
        exact List.mem_append_right _ ha)
    obtain ⟨rfl, more⟩ := offset?_next next asked'
    rw [← run_append] at found'
    obtain ⟨-, later, kept, fresh, found'', final_marks, -, -, all⟩ :=
      continues_run (identified_run history) found (round ++ rounds.flatten)
    cases found''.symm.trans found'
    rw [all unremoved] at final_marks
    -- The documents of the page have kept their places up to the end.
    have page_marks : ((documents.drop offset).take (max pageSize 1)).map Stored.mark =
        ((final.drop offset).take (max pageSize 1)).map Stored.mark := by
      have there : offset + max pageSize 1 ≤ (documents.map Stored.mark).length := by
        rw [List.length_map]
        exact Nat.le_of_lt more
      rw [List.map_take, List.map_drop, List.map_take, List.map_drop, final_marks,
        List.drop_append_of_le_length (by omega),
        List.take_append_of_le_length (by rw [List.length_drop]; omega)]
    refine ⟨offset, final, (documents.drop offset).take (max pageSize 1) ++ seen, asked, found',
      ?_, ?_, ?_⟩
    · rw [List.flatMap_cons, shown, List.map_append, pageAt]
    · rw [List.map_append, page_marks, marks, ← List.map_append, ← List.drop_drop,
        List.take_append_drop]
    · intro x hx
      rcases List.mem_append.mp hx with hx | hx
      · exact ⟨[], documents, List.nil_prefix, found,
          List.mem_of_mem_drop (List.mem_of_mem_take hx)⟩
      · obtain ⟨before, there, early, found, hx⟩ := stood x hx
        refine ⟨round ++ before, there, ?_, (run_append _ _ _).symm ▸ found, hx⟩
        exact (List.prefix_append_right_inj round).mpr early

/-- **Paging among writers.** Let a walk go through a collection of a store, whatever is done to the
    store before it and between its fetches. Then no id of the store is met twice. If no document of
    the collection is removed during the walk, then each document that was there at the first fetch is
    met exactly once, in a version that stood there at some time of the walk, and the documents that
    are met come in the order in which they were created. -/
theorem walk_among_writers (history : List Operation) (search : Search)
    (walked : Walk pageSize { search with continuation := none } (run history empty) rounds pages) :
    let s := run history empty
    let met := pages.flatMap Page.documents
    (met.map Document.resourceId?).Nodup ∧
    ((∀ a, .removed a ∈ changes rounds.flatten s → a.container ≠ search.container) →
      (∀ documents, s.documents? search.container = .ok documents → ∀ x ∈ documents,
        (met.map Document.resourceId?).count x.document.resourceId? = 1 ∧
        ∃ y, y.mark = x.mark ∧ y.document ∈ met ∧
          StoodDuring rounds.flatten s search.container y) ∧
      (met.map Document.resourceId?).Sublist
        ((created (history ++ rounds.flatten) empty).map Document.resourceId?)) := by
  intro s met
  obtain ⟨-, -, -, -, once, -⟩ := walked.once history rfl
  refine ⟨once, fun unremoved => ?_⟩
  obtain ⟨offset, final, seen, asked, found', shown, marks, stood⟩ :=
    walked.complete history rfl unremoved
  cases asked
  have met_eq : met = seen.map Stored.document := shown
  have ids : met.map Document.resourceId? = final.map (·.document.resourceId?) := by
    have both := congrArg (List.map Prod.snd) marks
    rw [List.map_map, List.map_map] at both
    rw [met_eq, List.map_map]
    exact both
  constructor
  · intro documents found x hx
    obtain ⟨-, later, kept, fresh, found'', final_marks, -, -, all⟩ :=
      continues_run (identified_run history) found rounds.flatten
    cases found''.symm.trans found'
    have hmark : x.mark ∈ seen.map Stored.mark := by
      rw [marks, List.drop_zero, final_marks, all unremoved]
      exact List.mem_append_left _ (List.mem_map_of_mem hx)
    obtain ⟨y, hy, same⟩ := List.mem_map.mp hmark
    have hmet : y.document ∈ met := met_eq ▸ List.mem_map_of_mem hy
    have hid : x.document.resourceId? ∈ met.map Document.resourceId? := by
      rw [← show y.document.resourceId? = x.document.resourceId? from congrArg Prod.snd same]
      exact List.mem_map_of_mem hmet
    exact ⟨by rw [once.count, if_pos hid], y, same, hmet, stood y hy⟩
  · rw [ids]
    refine ordered_run (history ++ rounds.flatten) search.container final ?_
    rw [run_append]
    exact found'

/-- Two documents, one to a page. After the first is fetched, both are overwritten and a third is
    created: the first is met in its old version, the second in its new one, and then the third. -/
theorem walk_past_upserts :
    let c : Container := ⟨"d", "c"⟩
    let upsert (id : String) : Operation :=
      .call ⟨1, .zero, .create ⟨c, [.string "p"], true, .ofList [("id", .string id)]⟩⟩
    let page (write given : Nat) (id : String) (token : Option String) : Page :=
      ⟨[stamp .zero write c (mintedId given) (.ofList [("id", .string id)])], token⟩
    let history := [.createCollection c, upsert "a", upsert "b"]
    let rounds := [[upsert "a", upsert "b", upsert "e"], []]
    let pages := [page 1 1 "a" (some "1"), page 4 2 "b" (some "2"), page 5 5 "e" none]
    Walk 1 ⟨c, "", [], true, none⟩ (run history empty) rounds pages ∧
    ((pages.flatMap Page.documents).map Document.resourceId?).Nodup ∧
    ((pages.flatMap Page.documents).map Document.resourceId?).count (some (mintedId 2)) = 1 := by
  intro c upsert page history rounds pages
  have walked : Walk 1 ⟨c, "", [], true, none⟩ (run history empty) rounds pages := by
    refine .more ?_ rfl (.more ?_ rfl (.last ?_ rfl))
    · exact eq_ok_of_toOption (by decide +kernel)
    · exact eq_ok_of_toOption (by decide +kernel)
    · exact eq_ok_of_toOption (by decide +kernel)
  obtain ⟨once, complete⟩ := walk_among_writers history ⟨c, "", [], true, none⟩ walked
  have unremoved : ∀ a, .removed a ∈ changes rounds.flatten (run history empty) →
      a.container ≠ c := by
    have writes : (changes rounds.flatten (run history empty)).all Change.isWrite = true := by
      decide +kernel
    intro a ha
    cases List.all_eq_true.mp writes _ ha
  let b : Stored := ⟨[.string "p"], stamp .zero 2 c (mintedId 2) (.ofList [("id", .string "b")])⟩
  have found : (run history empty).documents? c =
      .ok [⟨[.string "p"], stamp .zero 1 c (mintedId 1) (.ofList [("id", .string "a")])⟩, b] :=
    eq_ok_of_toOption (by decide +kernel)
  have hid : b.document.resourceId? = some (mintedId 2) := resourceId?_stamp
  have metOnce := ((complete unremoved).1 _ found b (by simp)).1
  rw [hid] at metOnce
  exact ⟨walked, once, metOnce⟩

end Store
end DocumentStore
