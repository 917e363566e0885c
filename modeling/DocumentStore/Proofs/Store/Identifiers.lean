import DocumentStore.Proofs.Store.Minting

/- Freshness and stability of what the store mints, over every run from the empty store and
   whatever the payloads claim about themselves: a token stands for one document, an id is given
   once and stays with its document, and the collections keep the order of creation
   (`identifiers_of_run`). -/
namespace DocumentStore

/-- The documents that an answer shows. -/
def Request.shown : (request : Request) → Except TransportError request.Answer → List Document
  | .create _, .ok doc => [doc]
  | .get _, .ok doc => [doc]
  | .replace _ _, .ok doc => [doc]
  | .search _, .ok page => page.documents
  | _, _ => []

/-- The change put a document somewhere. -/
def Change.isWrite : Change → Bool
  | .wrote _ _ => true
  | .removed _ => false

/-- The request is one that writes a document, and it succeeded. -/
def Request.wrote : (request : Request) → Except TransportError request.Answer → Bool
  | .create _, .ok _ => true
  | .replace _ _, .ok _ => true
  | _, _ => false

namespace Store

/-- The document of a change that put it where none stood before. -/
def createdBy (s : Store) : Option Change → List Document
  | some (.wrote a doc) =>
    match s.get a with
    | .ok _ => []
    | .error _ => [doc]
  | _ => []

end Store

namespace Operation

def shown : Operation → Store → List Document
  | .call made, s => made.request.shown (made.answer s)
  | _, _ => []

/-- The operation is a successful create, upsert or replace. -/
def wrote : Operation → Store → Bool
  | .call made, s => made.request.wrote (made.answer s)
  | _, _ => false

/-- The document that the operation creates, if it does. -/
def created (op : Operation) (s : Store) : List Document :=
  s.createdBy (op.change? s)

end Operation

namespace Store

/-- The documents that the store shows in the course of a run. -/
def shown : List Operation → Store → List Document :=
  trace Operation.shown

/-- The documents that are created in the course of a run, in order. -/
def created : List Operation → Store → List Document :=
  trace Operation.created

variable {s next : Store} {made : Call} {change : Option Change} {doc : Document}

/-! What is shown was written. -/

theorem named_of_create {time : Json.Whole} {draft : Draft}
    (h : (s.create time draft).1 = .ok doc) : ∃ a, draft.address? = some a := by
  obtain ⟨_, _, -, hid, -⟩ := create_eq_ok h
  exact ⟨_, address?_of_requiredId hid⟩

theorem named_of_replace {time : Json.Whole} {draft : Draft} {token : String}
    (h : (s.replace time draft token).1 = .ok doc) : ∃ a, draft.address? = some a := by
  obtain ⟨_, _, _, -, hid, -⟩ := replace_eq_ok h
  exact ⟨_, address?_of_requiredId hid⟩

theorem search_eq_ok {pageSize : Nat} {search : Search} {page : Page}
    (h : s.search pageSize search = .ok page) : ∃ documents offset,
      s.documents? search.container = .ok documents ∧ offset? search.continuation = .ok offset ∧
        page = pageAt pageSize offset documents := by
  unfold Store.search at h
  split at h
  · cases h
  next documents found =>
    split at h
    · cases h
    next =>
      cases hoff : offset? search.continuation with
      | error e => rw [hoff] at h; cases h
      | ok offset =>
        rw [hoff] at h
        cases h
        exact ⟨documents, offset, found, rfl, rfl⟩

theorem mem_of_search {pageSize : Nat} {search : Search} {page : Page}
    (h : s.search pageSize search = .ok page) (hdoc : doc ∈ page.documents) :
    ∃ c documents x, s.documents? c = .ok documents ∧ x ∈ documents ∧ x.document = doc := by
  obtain ⟨documents, offset, found, -, rfl⟩ := search_eq_ok h
  obtain ⟨x, hx, rfl⟩ := List.mem_map.mp hdoc
  exact ⟨_, documents, x, found, List.mem_of_mem_drop (List.mem_of_mem_take hx), rfl⟩

/-- What a call shows, it has just written, or it was stored before. -/
theorem mem_shown (h : doc ∈ made.request.shown (made.answer s)) :
    (∃ a, made.change? s = some (.wrote a doc)) ∨
      ∃ c documents x, s.documents? c = .ok documents ∧ x ∈ documents ∧ x.document = doc := by
  obtain ⟨pageSize, time, request⟩ := made
  cases request with
  | create draft =>
    cases hc : (s.create time draft).1 with
    | error e => simp [Request.shown, Call.answer, transport, hc] at h
    | ok found =>
      obtain ⟨a, ha⟩ := named_of_create hc
      simp only [Request.shown, Call.answer, transport, hc, List.mem_singleton] at h
      exact Or.inl ⟨a, by simp [Call.change?, Call.answer, transport, Request.change?, hc, ha, h]⟩
  | delete a => simp [Request.shown] at h
  | get a =>
    cases hg : s.get a with
    | error e => simp [Request.shown, Call.answer, transport, hg] at h
    | ok found =>
      obtain ⟨documents, x, hs, hx, rfl⟩ := get_eq_ok.mp hg
      simp only [Request.shown, Call.answer, transport, hg, List.mem_singleton] at h
      exact Or.inr ⟨_, documents, x, hs, List.mem_of_find?_eq_some hx, h.symm⟩
  | replace draft token =>
    cases hr : (s.replace time draft token).1 with
    | error e => simp [Request.shown, Call.answer, transport, hr] at h
    | ok found =>
      obtain ⟨a, ha⟩ := named_of_replace hr
      simp only [Request.shown, Call.answer, transport, hr, List.mem_singleton] at h
      exact Or.inl ⟨a, by simp [Call.change?, Call.answer, transport, Request.change?, hr, ha, h]⟩
  | search search =>
    cases hp : s.search pageSize search with
    | error e => simp [Request.shown, Call.answer, transport, hp] at h
    | ok page =>
      simp only [Request.shown, Call.answer, transport, hp] at h
      exact Or.inr (mem_of_search hp h)

theorem shown_subset_written {ops : List Operation} (h : doc ∈ shown ops empty) :
    doc ∈ written (changes ops empty) := by
  obtain ⟨before, op, after, rfl, hdoc⟩ := mem_trace h
  have split : changes (before ++ op :: after) empty = changes before empty ++
      ((op.change? (run before empty)).toList ++ changes after (op.next (run before empty))) :=
    trace_append before (op :: after) empty
  rw [split, written_append, written_append, List.mem_append, List.mem_append]
  cases op with
  | createDatabase name => simp [Operation.shown] at hdoc
  | createCollection c => simp [Operation.shown] at hdoc
  | call made =>
    -- What is found was stored, hence written by an earlier call.
    rcases mem_shown hdoc with ⟨a, ha⟩ | ⟨c, documents, x, found, hx, rfl⟩
    · refine Or.inr (Or.inl ?_)
      simp [Operation.change?, ha, written, Change.document?]
    · exact Or.inl ((accounted_run before).stored c documents found x hx)

/-! Ids are given once and stay. -/

/-- A document that replaces another keeps its id, and what stands where nothing is written or
    removed stays altogether. -/
theorem resourceId_of_effect {history : List Change} {a : Address} (keyed : Keyed s)
    (accounted : Accounted history s) (effect : Effect made s change next)
    (live : s.at? a = some doc)
    (kept : ∀ b, change = some (.removed b) → b.same a = false) :
    ∃ new, next.at? a = some new ∧ new.resourceId? = doc.resourceId? := by
  rw [at?_of_effect keyed effect a]
  cases effect with
  | unchanged => exact ⟨doc, live, rfl⟩
  | @appended payload new b documents carried stamped named nonempty found fresh =>
    refine ⟨doc, ?_, rfl⟩
    -- Nothing stands at the address of a document that is created.
    have apart : b.same a = false := by
      apply Bool.eq_false_iff.mpr
      intro same
      obtain ⟨hc, hp, hi⟩ := Address.same_iff.mp same
      rw [at?_of_found (hc ▸ found), ← Stored.isAt_congr hp, ← hi, fresh] at live
      cases live
    simp [Change.isAbout, Change.address, apart, live]
  | @overwritten payload new b documents old carried stamped named nonempty found at_b =>
    cases same : b.same a with
    | false => exact ⟨doc, by simp [Change.isAbout, Change.address, same, live], rfl⟩
    | true =>
      obtain ⟨hc, hp, hi⟩ := Address.same_iff.mp same
      rw [at?_of_found (hc ▸ found), ← Stored.isAt_congr hp, ← hi, at_b] at live
      cases live
      obtain ⟨n, -, hid⟩ := resourceId_of_stored accounted found (List.mem_of_find?_eq_some at_b)
      refine ⟨new, by simp [Change.isAbout, Change.address, Change.document?, same], ?_⟩
      rw [stamped, resourceId?_stamp, hid, Option.getD_some]
  | @removed b documents old found at_b =>
    exact ⟨doc, by simp [Change.isAbout, Change.address, kept b rfl, live], rfl⟩

/-- **An id stays** with its document until that is removed. -/
theorem resourceId_of_run {a : Address} (more : List Operation) :
    ∀ {ops : List Operation} {doc : Document}, (run ops empty).at? a = some doc →
      (∀ b, .removed b ∈ changes more (run ops empty) → b.same a = false) →
      ∃ new, (run more (run ops empty)).at? a = some new ∧ new.resourceId? = doc.resourceId? := by
  induction more with
  | nil => exact fun {_ doc} live _ => ⟨doc, live, rfl⟩
  | cons op more ih =>
    intro ops doc live kept
    have hnext : op.next (run ops empty) = run (ops ++ [op]) empty := (run_append ops [op] empty).symm
    have step : ∃ new, (op.next (run ops empty)).at? a = some new ∧
        new.resourceId? = doc.resourceId? := by
      cases op with
      | createDatabase name => exact ⟨doc, (at?_createDatabase name).trans live, rfl⟩
      | createCollection c => exact ⟨doc, at?_createCollection.trans live, rfl⟩
      | call made =>
        refine resourceId_of_effect (represents_run ops).keyed (accounted_run ops)
          (effect_call made _) live fun b hb => kept b ?_
        exact List.mem_append_left _ (by simp [Operation.change?, hb])
    obtain ⟨mid, hmid, hid⟩ := step
    rw [hnext] at hmid
    have kept' : ∀ b, .removed b ∈ changes more (run (ops ++ [op]) empty) → b.same a = false :=
      fun b hb => kept b (List.mem_append_right _ (by rw [hnext]; exact hb))
    obtain ⟨new, hnew, hid'⟩ := ih hmid kept'
    exact ⟨new, by rw [run, hnext]; exact hnew, hid'.trans hid⟩

theorem resourceId_of_created {op : Operation} (h : doc ∈ op.created s) :
    doc.resourceId? = some (mintedId (s.sequence + 1)) := by
  cases op with
  | createDatabase name => simp [Operation.created, Operation.change?, createdBy] at h
  | createCollection c => simp [Operation.created, Operation.change?, createdBy] at h
  | call made =>
    have effect := effect_call made s
    simp only [Operation.created, Operation.change?] at h
    generalize made.change? s = change at effect h
    generalize made.next s = next at effect
    cases effect with
    | unchanged => simp [createdBy] at h
    | appended carried stamped named nonempty found fresh =>
      simp only [createdBy, get_eq_of_found found, fresh, List.mem_singleton] at h
      rw [h, stamped, resourceId?_stamp]
    | overwritten carried stamped named nonempty found live =>
      simp [createdBy, get_eq_of_found found, live] at h
    | removed found live => simp [createdBy] at h

/-! The order of creation. -/

/-- The ids along each collection are ids of `docs`, in the same order. -/
def Ordered (docs : List Document) (s : Store) : Prop :=
  s.Each fun _ documents => (documents.map (·.document.resourceId?)).Sublist
    (docs.map Document.resourceId?)

/-- Every stored document has an id of the store. -/
def Identified (s : Store) : Prop :=
  s.Each fun _ documents => ∀ x ∈ documents, ∃ resourceId, x.document.resourceId? = some resourceId

theorem identified_of_effect (h : Identified s) (effect : Effect made s change next) :
    Identified next := by
  apply each_stored_of_effect h effect
  · rintro payload doc a - rfl -
    exact ⟨_, resourceId?_stamp⟩
  · rintro payload doc a old - rfl - -
    exact ⟨_, resourceId?_stamp⟩

theorem identified_run (ops : List Operation) : Identified (run ops empty) := by
  intro c documents found x hx
  obtain ⟨n, -, hid⟩ := resourceId_of_stored (accounted_run ops) found hx
  exact ⟨_, hid⟩

theorem ordered_of_effect {docs : List Document} (identified : Identified s) (h : Ordered docs s)
    (effect : Effect made s change next) : Ordered (docs ++ s.createdBy change) next := by
  -- A collection need not hold all that was created.
  have longer : ∀ more, Ordered (docs ++ more) s := fun more c documents found =>
    (h c documents found).trans (by rw [List.map_append]; exact List.sublist_append_left _ _)
  cases effect with
  | unchanged => exact longer _
  | appended carried stamped named nonempty found fresh =>
    simp only [createdBy, get_eq_of_found found, fresh]
    apply each_setDocuments (longer _) found
    rw [List.map_append, List.map_append]
    exact (h _ _ found).append (List.Sublist.refl _)
  | overwritten carried stamped named nonempty found live =>
    apply each_setDocuments (longer _) found
    -- Overwritten in its place, the document keeps its id, and the list of ids is the same.
    obtain ⟨resourceId, hid⟩ := identified _ _ found _ (List.mem_of_find?_eq_some live)
    rw [Stored.map_overwriteFirst live
      (by rw [stamped, resourceId?_stamp, hid, Option.getD_some])]
    exact longer _ _ _ found
  | removed found live =>
    apply each_setDocuments (longer _) found
    exact ((List.eraseP_sublist ..).map _).trans (longer _ _ _ found)

/-- **Collections stand in the order of creation.** -/
theorem ordered_run (ops : List Operation) : Ordered (created ops empty) (run ops empty) := by
  refine (trace_induction (fun docs s => Identified s ∧ Ordered docs s) ?_ ops [] empty
    ⟨each_empty, each_empty⟩).2
  intro docs op s ⟨identified, ordered⟩
  cases op with
  | createDatabase name =>
    simp only [Operation.created, Operation.change?, createdBy, List.append_nil]
    exact ⟨each_createDatabase identified name, each_createDatabase ordered name⟩
  | createCollection c =>
    simp only [Operation.created, Operation.change?, createdBy, List.append_nil]
    exact ⟨each_createCollection identified (List.forall_mem_nil _),
      each_createCollection ordered (List.nil_sublist _)⟩
  | call made =>
    have effect := effect_call made s
    exact ⟨identified_of_effect identified effect, ordered_of_effect identified ordered effect⟩

/-! The counter. -/

theorem sequence_of_effect (h : Effect made s change next) :
    next.sequence = s.sequence + if change.any Change.isWrite then 1 else 0 := by
  cases h <;> rfl

theorem wrote_eq_change (made : Call) (s : Store) :
    made.request.wrote (made.answer s) = (made.change? s).any Change.isWrite := by
  obtain ⟨pageSize, time, request⟩ := made
  cases request with
  | create draft =>
    cases hc : (s.create time draft).1 with
    | error e => simp [Request.wrote, Call.change?, Call.answer, transport, Request.change?, hc]
    | ok doc =>
      obtain ⟨a, ha⟩ := named_of_create hc
      simp [Request.wrote, Call.change?, Call.answer, transport, Request.change?, hc, ha,
        Change.isWrite]
  | delete a =>
    cases hd : (s.delete a).1 <;>
      simp [Request.wrote, Call.change?, Call.answer, transport, Request.change?, hd, Change.isWrite]
  | get a => simp [Request.wrote, Call.change?, Request.change?]
  | replace draft token =>
    cases hr : (s.replace time draft token).1 with
    | error e => simp [Request.wrote, Call.change?, Call.answer, transport, Request.change?, hr]
    | ok doc =>
      obtain ⟨a, ha⟩ := named_of_replace hr
      simp [Request.wrote, Call.change?, Call.answer, transport, Request.change?, hr, ha,
        Change.isWrite]
  | search search => simp [Request.wrote, Call.change?, Request.change?]

/-- **The counter** grows by one with each successful write and stays otherwise. -/
theorem sequence_next (op : Operation) (s : Store) :
    (op.next s).sequence = s.sequence + if op.wrote s then 1 else 0 := by
  cases op with
  | createDatabase name => rfl
  | createCollection c => rfl
  | call made =>
    rw [Operation.wrote, wrote_eq_change]
    exact sequence_of_effect (effect_call made s)

/-- **Identifiers.** Of every run from the empty store:

    * documents shown at any times, with the same token, are the same document, and each has one;
    * a document that the next operation creates has an id that no document shown before has;
    * a document that is there keeps its id through all that follows, until it is removed;
    * the documents of a collection stand in the order in which they were created;
    * each of them links to itself by its id;
    * the counter grows by one on a successful create, upsert or replace, and else stays. -/
theorem identifiers_of_run (ops : List Operation) :
    let s := run ops empty
    (∀ d ∈ shown ops empty, d.token?.isSome ∧ ∀ e ∈ shown ops empty, d.token? = e.token? → d = e) ∧
    (∀ (op : Operation), ∀ doc ∈ op.created s, ∃ resourceId, doc.resourceId? = some resourceId ∧
      ∀ d ∈ shown ops empty, d.resourceId? ≠ some resourceId) ∧
    (∀ more a doc, s.get a = .ok doc →
      (∀ b, .removed b ∈ changes more s → b.same a = false) →
      ∃ new, (run more s).get a = .ok new ∧ new.resourceId? = doc.resourceId?) ∧
    (∀ c documents, s.documents? c = .ok documents →
      (documents.map (·.document.resourceId?)).Sublist
        ((created ops empty).map Document.resourceId?)) ∧
    (∀ c documents, s.documents? c = .ok documents → ∀ x ∈ documents,
      ∃ resourceId, x.document.resourceId? = some resourceId ∧
        x.document.text? "_self" = some
          ("dbs/" ++ c.database ++ "/colls/" ++ c.collection ++ "/docs/" ++ resourceId ++ "/")) ∧
    (∀ (op : Operation), (op.next s).sequence = s.sequence + if op.wrote s then 1 else 0) := by
  intro s
  have accounted := accounted_run ops
  refine ⟨?_, ?_, ?_, ordered_run ops, ?_, fun op => sequence_next op s⟩
  · intro d hd
    have hwritten := shown_subset_written hd
    obtain ⟨i, hi⟩ := List.getElem?_of_mem hwritten
    refine ⟨by rw [accounted.tokens i d hi]; rfl, fun e he token => ?_⟩
    exact eq_of_token accounted hwritten (shown_subset_written he) token
  · intro op doc hdoc
    -- An id that was shown has a number up to the counter, and the new one is past it.
    refine ⟨_, resourceId_of_created hdoc, fun d hd hid => ?_⟩
    obtain ⟨n, hn, hid'⟩ := accounted.ids d (shown_subset_written hd)
    have hsame : n = s.sequence + 1 := mintedId_injective (Option.some.inj (hid'.symm.trans hid))
    have hbound : n ≤ s.sequence := hn
    omega
  · intro more a doc hget kept
    obtain ⟨new, hnew, hid⟩ := resourceId_of_run more (get_eq_ok_iff.mp hget) kept
    exact ⟨new, get_eq_ok_iff.mpr hnew, hid⟩
  · intro c documents found x hx
    obtain ⟨n, -, hid⟩ := resourceId_of_stored accounted found hx
    exact ⟨_, hid, by rw [accounted.links c documents found x hx, hid]; rfl⟩

/-- Two documents whose payloads bring an id and a token of their own, which count for nothing. The
    first of them is overwritten, and shown again with the id that it has. -/
theorem identifiers_of_run_overwritten :
    let c : Container := ⟨"d", "c"⟩
    let upsert (id : String) : Operation :=
      .call ⟨1, .zero, .create ⟨c, [.string "p"], true,
        .ofList [("_etag", .string "x"), ("_rid", .string "x"), ("id", .string id)]⟩⟩
    let ops := [.createCollection c, upsert "a", upsert "b", upsert "a"]
    let s := run ops empty
    (shown ops empty).map (fun d => (d.id?, d.resourceId?)) =
      [(some "a", some "rid00000001=="), (some "b", some "rid00000002=="),
        (some "a", some "rid00000001==")] ∧
    (∀ d ∈ shown ops empty, ∀ e ∈ shown ops empty, d.token? = e.token? → d = e) ∧
    (∃ doc, (upsert "e").created s = [doc] ∧ doc.resourceId? = some "rid00000004==" ∧
      ∀ d ∈ shown ops empty, d.resourceId? ≠ some "rid00000004==") ∧
    (∃ documents, s.documents? c = .ok documents ∧
      documents.map (·.document.id?) = [some "a", some "b"] ∧
      ∀ x ∈ documents, ∃ resourceId, x.document.resourceId? = some resourceId ∧
        x.document.text? "_self" = some ("dbs/d/colls/c/docs/" ++ resourceId ++ "/")) ∧
    ((upsert "e").next s).sequence = s.sequence + 1 := by
  intro c upsert ops s
  obtain ⟨tokens, fresh, -, -, links, counter⟩ := identifiers_of_run ops
  have stored : (s.documents? c).toOption.map (List.map (·.document.id?)) =
      some [some "a", some "b"] := by
    decide +kernel
  obtain ⟨documents, hdocuments, ids⟩ := Option.map_eq_some_iff.mp stored
  have found : s.documents? c = .ok documents := eq_ok_of_toOption hdocuments
  have created : ((upsert "e").created s).map Document.resourceId? = [some "rid00000004=="] := by
    decide +kernel
  obtain ⟨doc, hdoc, number⟩ := List.map_eq_singleton_iff.mp created
  obtain ⟨resourceId, hid, unseen⟩ := fresh (upsert "e") doc (hdoc ▸ List.mem_singleton_self doc)
  cases hid.symm.trans number
  have writes : (upsert "e").wrote s = true := by decide +kernel
  refine ⟨by decide +kernel, fun d hd => (tokens d hd).2, ⟨doc, hdoc, number, unseen⟩,
    ⟨documents, found, ids, links c documents found⟩, ?_⟩
  rw [counter, writes]
  rfl

end Store

end DocumentStore
