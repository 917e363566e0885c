import DocumentStore.Proofs.Json.Number
import DocumentStore.Proofs.Statement.Exchange
import DocumentStore.Proofs.Store.Content
import DocumentStore.Proofs.Text.Scan

/- Queries over a store end, and their answers do not depend on the size of the pages
   (`query_complete`). A token is the number of documents before the page that it asks for, so the
   pages of a query are the stretches of one size that the collection falls into, and the fetches are
   counted by the stretches. -/
namespace DocumentStore

open Json (Value Whole)

/-! Tokens. -/

theorem Text.signedIndex?_toString (n : Nat) :
    signedIndex? (toString n).toList = if n < indexLimit then some n else none := by
  obtain ⟨-, digits⟩ := Json.Number.digits_toDigits n
  have written : (toString n).toList = Nat.toDigits 10 n := Nat.toList_repr
  rw [written]
  unfold signedIndex?
  split
  -- A sign is no digit.
  next rest signed => exact absurd (digits '+' (signed ▸ List.mem_cons_self)) (by decide)
  next => exact index?_toDigits n

theorem Store.offset?_toString (n : Nat) :
    offset? (some (toString n)) =
      if n < Text.indexLimit then .ok n else .error (continuationInvalid (toString n)) := by
  have nonempty : toString n ≠ "" := by simp
  simp only [offset?, nonempty, if_false, Text.signedIndex?_toString]
  by_cases fits : n < Text.indexLimit
  · simp only [fits, if_true]
  · simp only [fits, if_false]

/-- The request for the page with this number, from zero: its token is the number of documents on
    the pages before it. -/
def Search.toPage (search : Search) (pageSize i : Nat) : Search :=
  { search with continuation := if i = 0 then none else some (toString (i * max pageSize 1)) }

@[simp] theorem Search.container_toPage (search : Search) (pageSize i : Nat) :
    (search.toPage pageSize i).container = search.container := rfl

@[simp] theorem Search.crossPartition_toPage (search : Search) (pageSize i : Nat) :
    (search.toPage pageSize i).crossPartition = search.crossPartition := rfl

namespace Store

theorem offset?_toPage {search : Search} {pageSize i : Nat}
    (h : i * max pageSize 1 < Text.indexLimit) :
    offset? (search.toPage pageSize i).continuation = .ok (i * max pageSize 1) := by
  cases i with
  | zero => rw [Nat.zero_mul]; rfl
  | succ i => exact (offset?_toString _).trans (if_pos h)

/-! How many pages there are. -/

/-- How many pages so many documents fill: the quotient by the size of a page, rounded up. A
    collection without documents has a page, which is empty. -/
def pageCount (pageSize n : Nat) : Nat :=
  max 1 ((n + (max pageSize 1 - 1)) / max pageSize 1)

theorem succ_lt_pageCount_iff {pageSize n i : Nat} :
    i + 1 < pageCount pageSize n ↔ (i + 1) * max pageSize 1 < n := by
  have positive : 0 < max pageSize 1 := Nat.lt_of_lt_of_le Nat.one_pos (Nat.le_max_right _ _)
  generalize hm : max pageSize 1 = m at positive
  have quotient : i + 1 < (n + (m - 1)) / m ↔ (i + 2) * m ≤ n + (m - 1) :=
    Nat.le_div_iff_mul_le positive
  have step : (i + 2) * m = (i + 1) * m + m := Nat.succ_mul (i + 1) m
  rw [pageCount, hm]
  omega

theorem pageCount_le (pageSize n : Nat) : pageCount pageSize n ≤ n + 1 := by
  have positive : 0 < max pageSize 1 := Nat.lt_of_lt_of_le Nat.one_pos (Nat.le_max_right _ _)
  cases h : pageCount pageSize n with
  | zero => omega
  | succ count =>
    cases count with
    | zero => omega
    | succ i =>
      have more := succ_lt_pageCount_iff.mp (show i + 1 < pageCount pageSize n by omega)
      have := Nat.le_mul_of_pos_right (i + 1) positive
      omega

/-! The page limit of a session is enough. -/

theorem le_foldl {α : Type} {add : Nat → α → Nat} (grows : ∀ n e, n ≤ add n e) (entries : List α)
    (n : Nat) : n ≤ entries.foldl add n := by
  induction entries generalizing n with
  | nil => exact Nat.le_refl n
  | cons e entries ih => exact Nat.le_trans (grows n e) (ih _)

theorem add_le_foldl {α : Type} {add : Nat → α → Nat} (grows : ∀ n e, n ≤ add n e)
    {entries : List α} {e : α} (he : e ∈ entries) {k : Nat} (adds : ∀ n, n + k ≤ add n e)
    (n : Nat) : n + k ≤ entries.foldl add n := by
  induction entries generalizing n with
  | nil => cases he
  | cons first entries ih =>
    rcases List.mem_cons.mp he with rfl | he
    · exact Nat.le_trans (adds n) (le_foldl grows entries _)
    · exact Nat.le_trans (Nat.add_le_add_right (grows n first) k) (ih he _)

variable {s : Store} {search : Search} {documents : List Stored} {pageSize : Nat}

/-- No collection fills more pages than a session fetches. -/
theorem pageCount_le_pageLimit {c : Container} (found : s.documents? c = .ok documents) :
    pageCount pageSize documents.length ≤ s.pageLimit := by
  obtain ⟨collections, hdatabase, hcollection⟩ := documents?_eq_ok.mp found
  -- The collection is in the sum of its database, and the database in the sum of all.
  have collection : ∀ n, n + documents.length ≤
      collections.entries.foldl (fun n collection => n + collection.2.length) n :=
    add_le_foldl (fun _ _ => Nat.le_add_right _ _) (KeyMap.get?_eq_some_iff.mp hcollection)
      fun _ => Nat.le_refl _
  have database : 1 + documents.length ≤ s.pageLimit :=
    add_le_foldl (fun n _ => le_foldl (fun _ _ => Nat.le_add_right _ _) _ n)
      (KeyMap.get?_eq_some_iff.mp hdatabase) collection 1
  calc pageCount pageSize documents.length
      ≤ documents.length + 1 := pageCount_le _ _
    _ = 1 + documents.length := Nat.add_comm _ _
    _ ≤ s.pageLimit := database

/-! One page. -/

/-- The store looks for different partition keys beside the first one only, but it finds any two
    documents that differ. -/
theorem mixPartitions_iff :
    Stored.mixPartitions documents = true ↔
      ∃ x ∈ documents, ∃ y ∈ documents, Value.equalItems x.partition y.partition = false := by
  cases documents with
  | nil => simp [Stored.mixPartitions]
  | cons first rest =>
    rw [Stored.mixPartitions, List.any_eq_true]
    constructor
    · rintro ⟨x, hx, differs⟩
      exact ⟨x, List.mem_cons_of_mem _ hx, first, List.mem_cons_self, by simpa using differs⟩
    · rintro ⟨x, hx, y, hy, differs⟩
      refine Decidable.byContradiction fun none => ?_
      -- All documents have the key of the first, and so the key of each other.
      have same : ∀ z ∈ first :: rest, Value.equalItems z.partition first.partition = true := by
        intro z hz
        rcases List.mem_cons.mp hz with rfl | hz
        · exact Value.equalItems_refl _
        · refine Bool.not_eq_false _ ▸ fun apart => none ⟨z, hz, by rw [apart]; rfl⟩
      have equal := Value.equalItems_trans _ _ _ (same x hx) (Value.equalItems_symm _ _ (same y hy))
      rw [differs] at equal
      cases equal

/-- The store lets the query see the documents of a collection. -/
def Admits (search : Search) (documents : List Stored) : Prop :=
  search.crossPartition = true ∨ Stored.mixPartitions documents = false

theorem search_toPage (found : s.documents? search.container = .ok documents)
    (admitted : Admits search documents) {i : Nat} (fits : i * max pageSize 1 < Text.indexLimit) :
    s.search pageSize (search.toPage pageSize i) =
      .ok (pageAt pageSize (i * max pageSize 1) documents) := by
  have pass : (!search.crossPartition && Stored.mixPartitions documents) = false := by
    rcases admitted with across | same
    · rw [across]; rfl
    · rw [same, Bool.and_false]
  simp only [Store.search, Search.container_toPage, Search.crossPartition_toPage, found, pass,
    Bool.false_eq_true, if_false, offset?_toPage fits]
  rfl

theorem next?_pageAt (offset : Nat) :
    (pageAt pageSize offset documents).next? =
      if offset + max pageSize 1 < documents.length then some (toString (offset + max pageSize 1))
      else none := by
  simp only [Page.next?, pageAt]
  split
  · simp
  · rfl

/-! All pages. -/

/-- The fetches of the first pages. -/
def fetches (search : Search) (pageSize count : Nat) : List Request :=
  (List.range count).map fun i => .search (search.toPage pageSize i)

theorem fetches_succ (search : Search) (pageSize i : Nat) :
    fetches search pageSize (i + 1) =
      fetches search pageSize i ++ [.search (search.toPage pageSize i)] := by
  rw [fetches, List.range_succ, List.map_append]
  rfl

variable {time : Whole}

/-- From each page on, a query fetches the rest of the pages and finds the rest of the documents. -/
theorem pages_toPage (found : s.documents? search.container = .ok documents)
    (admitted : Admits search documents) (fits : documents.length ≤ Text.indexLimit) (limit : Nat) :
    ∀ i, i < pageCount pageSize documents.length → pageCount pageSize documents.length ≤ i + limit →
      Select.pages (transport pageSize time).recorded limit (search.toPage pageSize i)
          (s, fetches search pageSize i) =
        (some (.ok ((documents.drop (i * max pageSize 1)).map (·.document))),
          (s, fetches search pageSize (pageCount pageSize documents.length))) := by
  induction limit with
  | zero =>
    intro i hi enough
    omega
  | succ limit ih =>
    intro i hi enough
    have before : i * max pageSize 1 < Text.indexLimit := by
      cases i with
      | zero => rw [Nat.zero_mul]; decide
      | succ i => exact Nat.lt_of_lt_of_le (succ_lt_pageCount_iff.mp hi) fits
    have fetched : (transport pageSize time).recorded.search (search.toPage pageSize i)
        (s, fetches search pageSize i) =
        (.ok (pageAt pageSize (i * max pageSize 1) documents),
          (s, fetches search pageSize (i + 1))) := by
      rw [fetches_succ]
      simp only [Transport.search, Transport.recorded, transport,
        search_toPage found admitted before]
    -- The page and what follows it are what follows the page before.
    have split : documents.drop (i * max pageSize 1) =
        (documents.drop (i * max pageSize 1)).take (max pageSize 1) ++
          documents.drop ((i + 1) * max pageSize 1) := by
      rw [Nat.succ_mul, ← List.drop_drop, List.take_append_drop]
    have following : i * max pageSize 1 + max pageSize 1 = (i + 1) * max pageSize 1 :=
      (Nat.succ_mul i _).symm
    rw [Select.pages, fetched]
    simp only [next?_pageAt, following, ← succ_lt_pageCount_iff]
    by_cases more : i + 1 < pageCount pageSize documents.length
    · have next : { search.toPage pageSize i with
          continuation := some (toString ((i + 1) * max pageSize 1)) } =
          search.toPage pageSize (i + 1) := rfl
      rw [if_pos more, split, List.map_append]
      simp only [next]
      rw [ih (i + 1) more (by omega)]
      rfl
    · have last : i + 1 = pageCount pageSize documents.length := by omega
      have nothing : documents.drop ((i + 1) * max pageSize 1) = [] :=
        List.drop_eq_nil_of_le (Nat.not_lt.mp (mt succ_lt_pageCount_iff.mpr more))
      rw [if_neg more, split, nothing, List.append_nil, last]
      rfl

end Store

namespace Select

variable {σ : Type}

/-- Writing the requests down changes neither the answer nor what becomes of the store. -/
theorem pages_recorded (t : Transport σ) (limit : Nat) (search : Search) (state : σ)
    (log : List Request) :
    (pages t.recorded limit search (state, log)).1 = (pages t limit search state).1 ∧
      (pages t.recorded limit search (state, log)).2.1 = (pages t limit search state).2 := by
  induction limit generalizing search state log with
  | zero => exact ⟨rfl, rfl⟩
  | succ limit ih =>
    have fetched : t.recorded.search search (state, log) =
        ((t.search search state).1, ((t.search search state).2, log ++ [.search search])) := rfl
    rcases answered : t.search search state with ⟨answer, next⟩
    rw [answered] at fetched
    cases answer with
    | error e =>
      rw [pages_of_refused answered, pages_of_refused fetched]
      exact ⟨rfl, rfl⟩
    | ok page =>
      cases hnext : page.next? with
      | none =>
        rw [pages_of_last answered hnext, pages_of_last fetched hnext]
        exact ⟨rfl, rfl⟩
      | some token =>
        rw [pages_of_next answered hnext, pages_of_next fetched hnext]
        obtain ⟨found, left⟩ := ih { search with continuation := some token } next
          (log ++ [.search search])
        exact ⟨congrArg (Option.map _) found, left⟩

/-- The partition keys of the documents are not all equal. -/
def mixes (documents : List Stored) : Bool :=
  documents.any fun x => documents.any fun y => !Value.equalItems x.partition y.partition

/-- What a query finds in the end, whatever the pages are: all documents of its collection. -/
def answer (q : Select) (s : Store) : Except Error (List Document) :=
  match s.documents? q.container with
  | .error _ => .error .notFound
  | .ok documents =>
    if !q.crossPartition && mixes documents then .error (.transport Store.partitionsMixed)
    else .ok (documents.map (·.document))

/-- How many requests a query makes: one for each page, or the one that is refused. -/
def requestCount (q : Select) (s : Store) (pageSize : Nat) : Nat :=
  match q.answer s with
  | .error _ => 1
  | .ok documents => Store.pageCount pageSize documents.length

theorem mixes_eq (documents : List Stored) : mixes documents = Stored.mixPartitions documents := by
  rw [Bool.eq_iff_iff, Store.mixPartitions_iff]
  simp [mixes]

theorem toError_of_documents? {s : Store} {c : Container} {e : TransportError}
    (missing : s.documents? c = .error e) : e.toError = .notFound := by
  unfold Store.documents? at missing
  split at missing
  · cases missing
    rfl
  · split at missing
    · cases missing
      rfl
    · cases missing

variable {q : Select} {s : Store} {args : List Value} {parameters : List (String × Value)}
  {first : Search} {pageSize limit : Nat} {time : Whole}

theorem pages_refused {e : TransportError} (positive : 1 ≤ limit)
    (refused : s.search pageSize first = .error e) :
    pages (Store.transport pageSize time).recorded limit first (s, []) =
      (some (.error e.toError), (s, [.search first])) := by
  obtain ⟨limit, rfl⟩ : ∃ n, limit = n + 1 := ⟨limit - 1, by omega⟩
  apply pages_of_refused
  simp only [Transport.search, Transport.recorded, Store.transport, refused, List.nil_append]

theorem requestCount_le (q : Select) (s : Store) (pageSize : Nat) :
    q.requestCount s pageSize ≤ s.pageLimit := by
  have positive : 1 ≤ s.pageLimit :=
    Store.le_foldl (fun n database => Store.le_foldl (fun _ _ => Nat.le_add_right _ _) _ n) _ 1
  rw [requestCount, answer]
  cases found : s.documents? q.container with
  | error e => exact positive
  | ok documents =>
    simp only
    split
    next refused => exact positive
    next listed shown =>
      split at shown
      · cases shown
      · cases shown
        rw [List.length_map]
        exact Store.pageCount_le_pageLimit found

theorem pages_eq_answer (container : first.container = q.container)
    (across : first.crossPartition = q.crossPartition) (start : first.continuation = none)
    (fits : ∀ documents, s.documents? q.container = .ok documents →
      documents.length ≤ Text.indexLimit) (enough : q.requestCount s pageSize ≤ limit) :
    pages (Store.transport pageSize time).recorded limit first (s, []) =
      (some (q.answer s), (s, Store.fetches first pageSize (q.requestCount s pageSize))) := by
  have page : first = first.toPage pageSize 0 := by rw [Search.toPage, if_pos rfl, ← start]
  have one : Store.fetches first pageSize 1 = [.search first] :=
    congrArg (fun r => [Request.search r]) page.symm
  rw [requestCount, answer] at enough ⊢
  cases found : s.documents? q.container with
  | error e =>
    rw [found] at enough
    have refused : s.search pageSize first = .error e := by
      simp only [Store.search, container, found]
    rw [pages_refused enough refused, toError_of_documents? found]
    simp only [one]
  | ok documents =>
    rw [found] at enough
    simp only at enough ⊢
    by_cases mixed : (!q.crossPartition && mixes documents) = true
    · rw [if_pos mixed] at enough ⊢
      have refused : s.search pageSize first = .error Store.partitionsMixed := by
        rw [mixes_eq] at mixed
        simp only [Store.search, container, across, found, mixed, if_true]
      rw [pages_refused enough refused]
      simp only [one]
      rfl
    · rw [if_neg mixed] at enough ⊢
      simp only [List.length_map] at enough ⊢
      have admitted : Store.Admits first documents := by
        rw [mixes_eq] at mixed
        rw [Store.Admits, across]
        cases hq : q.crossPartition with
        | true => exact Or.inl rfl
        | false => exact Or.inr (by simpa [hq] using mixed)
      have nonempty : 0 < Store.pageCount pageSize documents.length :=
        Nat.lt_of_lt_of_le Nat.one_pos (Nat.le_max_left _ _)
      have all : pages (Store.transport pageSize time).recorded limit (first.toPage pageSize 0)
          (s, []) = _ :=
        Store.pages_toPage (container ▸ found) admitted (fits documents found) limit 0 nonempty
          (by rwa [Nat.zero_add])
      rw [Nat.zero_mul, List.drop_zero, ← page] at all
      exact all

/-- **Queries are complete.** Let a query be bound, and let the collection have no more documents
    than a token can count. With any page size, and with as many fetches allowed as a session allows
    or as it needs, the query ends. It fetches the pages in order, each of them once, and its answer
    does not depend on their size:

    * a missing database or collection is not found;
    * a query that may not run across partitions is refused if two documents differ in their
      partition key;
    * otherwise the rows are before the first of all documents, in stored order, and took as many
      fetches as their number divided by the page size, rounded up, and at least one. -/
theorem query_complete (q : Select) (s : Store) (accepted : q.bind args = .ok parameters)
    (fits : ∀ documents, s.documents? q.container = .ok documents →
      documents.length ≤ Text.indexLimit) (pageSize : Nat) (time : Whole) :
    let first : Search := ⟨q.container, q.text, parameters, q.crossPartition, none⟩
    let count := q.requestCount s pageSize
    let rows : Except Error Rows := (q.answer s).map fun documents => { documents, position := 0 }
    q.query (Store.transport pageSize time) s.pageLimit args s = (some rows, s) ∧
    ∀ limit, count ≤ limit →
      q.query (Store.transport pageSize time).recorded limit args (s, []) =
        (some rows, (s, Store.fetches first pageSize count)) := by
  intro first count rows
  have bound : q.search args = .ok first := by
    rw [Select.search, accepted]
    rfl
  have recorded : ∀ limit, count ≤ limit →
      pages (Store.transport pageSize time).recorded limit first (s, []) =
        (some (q.answer s), (s, Store.fetches first pageSize count)) :=
    fun limit enough => pages_eq_answer rfl rfl rfl fits enough
  constructor
  · have plain := pages_recorded (Store.transport pageSize time) s.pageLimit first s []
    rw [recorded _ (requestCount_le q s pageSize)] at plain
    rw [query, bound]
    simp only [← plain.1, ← plain.2]
    rfl
  · intro limit enough
    rw [query, bound]
    simp only [recorded limit enough]
    rfl

/-- Two documents in two partitions. -/
def twoPartitions : Store where
  sequence := 2
  databases := .ofList [("d", .ofList [("c",
    [⟨[.string "p"], .ofList [("id", .string "1")]⟩,
      ⟨[.string "q"], .ofList [("id", .string "2")]⟩])])]

/-- With no page size at all, a page holds one document. -/
theorem query_twoPartitions :
    let all : Select := ⟨⟨"d", "c"⟩, true, "SELECT * FROM c", []⟩
    all.bind [] = .ok [] ∧
    (∀ documents, twoPartitions.documents? ⟨"d", "c"⟩ = .ok documents →
      documents.length ≤ Text.indexLimit) ∧
    all.query (Store.transport 0 .zero).recorded 2 [] (twoPartitions, []) =
      (some (.ok {
          documents := [.ofList [("id", .string "1")], .ofList [("id", .string "2")]]
          position := 0 }),
        (twoPartitions, [.search ⟨⟨"d", "c"⟩, "SELECT * FROM c", [], true, none⟩,
          .search ⟨⟨"d", "c"⟩, "SELECT * FROM c", [], true, some "1"⟩])) := by
  intro all
  have bound : all.bind [] = .ok [] := rfl
  have fits : ∀ documents, twoPartitions.documents? ⟨"d", "c"⟩ = .ok documents →
      documents.length ≤ Text.indexLimit := by
    have two : (twoPartitions.documents? ⟨"d", "c"⟩).map List.length = .ok 2 := rfl
    intro documents found
    rw [found] at two
    rw [Except.ok.inj two]
    decide
  exact ⟨bound, fits, (query_complete all twoPartitions bound fits 0 .zero).2 2 (by decide)⟩

end Select

end DocumentStore
