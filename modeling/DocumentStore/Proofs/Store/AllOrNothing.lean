import DocumentStore.Proofs.Store.Requests

/- All or nothing. A statement that does not succeed leaves the store as it was, counter included.
   One that succeeds changes one document of one collection: it puts it at the end, overwrites it in
   its place or removes it, and leaves all others as they are (`all_or_nothing`). -/
namespace DocumentStore

open Json (Value Whole)

/-! What can become of a collection. -/

namespace Stored

/-- No document stands at the address, and a new one is put at the end. -/
def Appended (a : Address) (documents later : List Stored) : Prop :=
  (∀ x ∈ documents, isAt a.partition a.id x = false) ∧
    ∃ doc, doc.id? = some a.id ∧ later = documents ++ [⟨a.partition, doc⟩]

/-- A document that stands at the address is overwritten in its place, and all others are left. -/
def Overwritten (a : Address) (documents later : List Stored) : Prop :=
  ∃ before x after doc, documents = before ++ x :: after ∧ isAt a.partition a.id x = true ∧
    doc.id? = some a.id ∧ later = before ++ { x with document := doc } :: after

/-- A document that stands at the address is taken out, and all others are left. -/
def Removed (a : Address) (documents later : List Stored) : Prop :=
  ∃ before x after, documents = before ++ x :: after ∧ isAt a.partition a.id x = true ∧
    later = before ++ after

variable {a : Address} {documents later : List Stored} {old : Stored} {doc : Document}
  {p : Stored → Bool}

theorem overwriteFirst_append {before after : List Stored} (others : ∀ x ∈ before, p x = false)
    (here : p old = true) : overwriteFirst p doc (before ++ old :: after) =
      before ++ { old with document := doc } :: after := by
  induction before with
  | nil => rw [List.nil_append, overwriteFirst, if_pos here, List.nil_append]
  | cons first rest ih =>
    obtain ⟨hfirst, hrest⟩ := List.forall_mem_cons.mp others
    rw [List.cons_append, overwriteFirst, hfirst, if_neg Bool.false_ne_true, ih hrest]
    rfl

theorem overwritten_of_find? (live : documents.find? (isAt a.partition a.id) = some old)
    (named : doc.id? = some a.id) :
    Overwritten a documents (overwriteFirst (isAt a.partition a.id) doc documents) := by
  obtain ⟨here, before, after, rfl, others⟩ := List.find?_eq_some_iff_append.mp live
  refine ⟨before, old, after, doc, rfl, here, named, overwriteFirst_append ?_ here⟩
  intro x hx
  simpa using others x hx

theorem removed_of_find? (live : documents.find? (isAt a.partition a.id) = some old) :
    Removed a documents (documents.eraseP (isAt a.partition a.id)) := by
  obtain ⟨x, before, after, -, here, rfl, rest⟩ :=
    List.exists_of_eraseP (List.mem_of_find?_eq_some live) (List.find?_some live)
  exact ⟨before, x, after, rfl, here, rest⟩

theorem Appended.ne (h : Appended a documents later) : documents ≠ later := by
  obtain ⟨-, doc, -, rfl⟩ := h
  simp

theorem Removed.ne (h : Removed a documents later) : documents ≠ later := by
  obtain ⟨before, x, after, rfl, -, rfl⟩ := h
  simp

end Stored

namespace Store

/-- The two stores differ in one collection only, and there as `alter` says. -/
def DiffersOnlyIn (c : Container) (alter : List Stored → List Stored → Prop)
    (s next : Store) : Prop :=
  ∃ documents later, s.documents? c = .ok documents ∧ next.documents? c = .ok later ∧
    documents ≠ later ∧ alter documents later ∧ ∀ d, d ≠ c → next.documents? d = s.documents? d

variable {s next : Store} {c : Container} {documents later : List Stored} {history : List Change}
  {time : Whole} {draft : Draft} {doc : Document} {a : Address}

theorem DiffersOnlyIn.mono {alter alter' : List Stored → List Stored → Prop}
    (h : DiffersOnlyIn c alter s next)
    (weaker : ∀ documents later, alter documents later → alter' documents later) :
    DiffersOnlyIn c alter' s next := by
  obtain ⟨documents, later, found, found', differs, alters, others⟩ := h
  exact ⟨documents, later, found, found', differs, weaker _ _ alters, others⟩

theorem differsOnlyIn_setDocuments {alter : List Stored → List Stored → Prop}
    (found : s.documents? c = .ok documents) (differs : documents ≠ later)
    (alters : alter documents later) (n : Nat) :
    DiffersOnlyIn c alter s { s.setDocuments c later with sequence := n } := by
  refine ⟨documents, later, found, ?_, differs, alters, fun d other => ?_⟩
  · rw [documents?_with_sequence, documents?_setDocuments found, if_pos rfl]
  · rw [documents?_with_sequence, documents?_setDocuments found, if_neg other]

/-- A document that is overwritten changes: the new token was not given before. -/
theorem overwriteFirst_ne {old : Stored} {p : Stored → Bool} (accounted : Accounted history s)
    (found : s.documents? c = .ok documents) (live : documents.find? p = some old)
    (token : doc.token? = some (mintedToken (s.sequence + 1))) :
    documents ≠ Stored.overwriteFirst p doc documents := by
  obtain ⟨here, before, after, rfl, others⟩ := List.find?_eq_some_iff_append.mp live
  obtain ⟨n, hn, given⟩ := token_of_stored accounted found (List.mem_of_find?_eq_some live)
  rw [Stored.overwriteFirst_append (fun x hx => by simpa using others x hx) here]
  intro same
  have hold : old = { old with document := doc } :=
    (List.cons.inj (List.append_cancel_left same)).1
  have hdoc : old.document = doc := congrArg Stored.document hold
  rw [hdoc, token] at given
  have : s.sequence + 1 = n := mintedToken_injective (Option.some.inj given)
  omega

/-! Each request. -/

theorem differsOnlyIn_append {id : String} (time : Whole)
    (found : s.documents? draft.container = .ok documents) (named : draft.payload.id? = some id)
    (fresh : documents.find? (Stored.isAt draft.partition id) = none) :
    DiffersOnlyIn draft.container (Stored.Appended ⟨draft.container, draft.partition, id⟩) s
      (s.append time draft documents).2 := by
  have appended : Stored.Appended ⟨draft.container, draft.partition, id⟩ documents
      (documents ++ [⟨draft.partition, (s.append time draft documents).1⟩]) := by
    refine ⟨fun x hx => ?_, _, id?_stamp.trans named, rfl⟩
    simpa using List.find?_eq_none.mp fresh x hx
  exact differsOnlyIn_setDocuments found appended.ne appended _

theorem differsOnlyIn_overwrite {old : Stored} {id : String} (accounted : Accounted history s)
    (time : Whole) (found : s.documents? draft.container = .ok documents)
    (named : draft.payload.id? = some id)
    (live : documents.find? (Stored.isAt draft.partition id) = some old) :
    DiffersOnlyIn draft.container (Stored.Overwritten ⟨draft.container, draft.partition, id⟩) s
      (s.overwrite time draft id old documents).2 := by
  apply differsOnlyIn_setDocuments found
  · exact overwriteFirst_ne accounted found live token?_stamp
  · exact Stored.overwritten_of_find? live (id?_stamp.trans named)

theorem differsOnlyIn_create (accounted : Accounted history s)
    (created : (s.create time draft).1 = .ok doc) : ∃ id, draft.payload.id? = some id ∧
      DiffersOnlyIn draft.container (fun documents later =>
        Stored.Appended ⟨draft.container, draft.partition, id⟩ documents later ∨
          draft.upsert = true ∧
            Stored.Overwritten ⟨draft.container, draft.partition, id⟩ documents later)
        s (s.create time draft).2 := by
  obtain ⟨documents, id, found, hid, written⟩ := create_eq_ok created
  obtain ⟨named, -⟩ := requiredId_eq_ok.mp hid
  refine ⟨id, named, ?_⟩
  obtain ⟨fresh, appended⟩ | ⟨old, live, upsert, overwritten⟩ := written
  · rw [appended]
    exact (differsOnlyIn_append time found named fresh).mono fun _ _ => Or.inl
  · rw [overwritten]
    exact (differsOnlyIn_overwrite accounted time found named live).mono
      fun _ _ here => Or.inr ⟨upsert, here⟩

theorem differsOnlyIn_replace {token : String} (accounted : Accounted history s)
    (replaced : (s.replace time draft token).1 = .ok doc) : ∃ id, draft.payload.id? = some id ∧
      DiffersOnlyIn draft.container (Stored.Overwritten ⟨draft.container, draft.partition, id⟩) s
        (s.replace time draft token).2 := by
  obtain ⟨documents, id, old, found, hid, live, -, written⟩ := replace_eq_ok replaced
  obtain ⟨named, -⟩ := requiredId_eq_ok.mp hid
  rw [written]
  exact ⟨id, named, differsOnlyIn_overwrite accounted time found named live⟩

theorem differsOnlyIn_delete (deleted : (s.delete a).1 = .ok ()) :
    DiffersOnlyIn a.container (Stored.Removed a) s (s.delete a).2 := by
  cases found : s.documents? a.container with
  | error e => simp [delete, found] at deleted
  | ok documents =>
    cases live : documents.find? (Stored.isAt a.partition a.id) with
    | none =>
      rw [delete_of_fresh found live] at deleted
      cases deleted
    | some old =>
      rw [delete_of_live found live]
      have removed := Stored.removed_of_find? live
      exact differsOnlyIn_setDocuments found removed.ne removed s.sequence

end Store

/-! Each statement. -/

namespace Statement

/-- The document that a writing statement is about. -/
def address? (args : List Value) : Statement → Option Address
  | .insert s => (s.draft args).toOption.bind Draft.address?
  | .delete s => (s.address args).toOption
  | .update s => (s.bind args).toOption.map Update.Bound.address
  | .select _ => none

/-- What a statement makes of the collection of its document: an INSERT puts it at the end, and so
    does an UPSERT where none stands, an UPSERT and an UPDATE overwrite the one that stands there,
    and a DELETE removes it. -/
def Alters (a : Address) (documents later : List Stored) : Statement → Prop
  | .insert s => Stored.Appended a documents later ∨
      s.upsert = true ∧ Stored.Overwritten a documents later
  | .update _ => Stored.Overwritten a documents later
  | .delete _ => Stored.Removed a documents later
  | .select _ => False

variable {statement : Statement} {args : List Value} {pageSize : Nat} {time : Whole}
  {policy : StalePolicy}

/-- **A statement that succeeds** alters one document, under the partition key that is its last
    argument. -/
theorem alters_of_succeeded (history : List Operation)
    (h : succeeded (statement.exec (Store.transport pageSize time) policy args
      (Store.run history Store.empty)).1 = true) :
    ∃ a last, statement.address? args = some a ∧ args.getLast? = some last ∧ a.partition = [last] ∧
      Store.DiffersOnlyIn a.container (fun documents later => statement.Alters a documents later)
        (Store.run history Store.empty) (statement.exec (Store.transport pageSize time) policy args
          (Store.run history Store.empty)).2 := by
  have accounted := Store.accounted_run history
  cases asked : statement.request? args (Store.run history Store.empty) with
  | none =>
    rw [(exec_of_no_request asked).2] at h
    cases h
  | some request =>
    obtain ⟨left, granted⟩ := exec_of_request pageSize time policy asked
    rw [left]
    rw [granted] at h
    obtain ⟨answer, hanswer⟩ := Option.isSome_iff_exists.mp h
    have answered := eq_ok_of_toOption hanswer
    cases statement with
    | insert statement =>
      obtain ⟨draft, hdraft, rfl⟩ := Option.map_eq_some_iff.mp asked
      obtain ⟨id, named, differs⟩ := Store.differsOnlyIn_create accounted answered
      have hbound := Insert.draft_eq_ok (eq_ok_of_toOption hdraft)
      obtain ⟨entries, partition, -, hpartition, rfl⟩ := hbound
      obtain ⟨last, hlast, rfl⟩ := partitionKey_eq_ok hpartition
      refine ⟨⟨statement.container, [last], id⟩, last, ?_, hlast, rfl, differs⟩
      rw [address?, hdraft, Option.bind_some, Draft.address?, named, Option.map_some]
    | delete statement =>
      obtain ⟨a, haddress, rfl⟩ := Option.map_eq_some_iff.mp asked
      have hbound := Delete.address_eq_ok (eq_ok_of_toOption haddress)
      obtain ⟨id, partition, -, hpartition, rfl⟩ := hbound
      obtain ⟨last, hlast, rfl⟩ := partitionKey_eq_ok hpartition
      exact ⟨_, last, haddress, hlast, rfl, Store.differsOnlyIn_delete answered⟩
    | update statement =>
      obtain ⟨bound, hbind, read⟩ := Option.bind_eq_some_iff.mp asked
      obtain ⟨current, hget, rfl⟩ := Option.map_eq_some_iff.mp read
      obtain ⟨id, named, differs⟩ := Store.differsOnlyIn_replace accounted answered
      -- What is replaced is what was read, whatever id is assigned.
      have target := (Store.target_of_replaced history (eq_ok_of_toOption hget) rfl rfl
        (show ((Store.serve [] _).replace _ _ _).1 = .ok answer from answered)).2
      cases named.symm.trans target
      have hbound := Update.bind_eq_ok (eq_ok_of_toOption hbind)
      obtain ⟨id, partition, values, -, hpartition, -, rfl⟩ := hbound
      obtain ⟨last, hlast, rfl⟩ := partitionKey_eq_ok hpartition
      refine ⟨⟨statement.container, [last], id⟩, last, ?_, hlast, rfl, differs⟩
      rw [address?, hbind]
      rfl
    | select statement => cases asked

end Statement

namespace Session

/-- **All or nothing.** Take the store after any history, and any text run as a statement with any
    arguments, under either policy:

    * if it fails or reports no success, the store is left as it was, counter included;
    * if it succeeds, the text denotes a statement about a document whose partition key is the last
      argument. Exactly the collection of that document differs, and in it one document was put at
      the end, overwritten in its place or removed, as the statement says, and all others are left;
    * run as a query, it leaves the store as it was. -/
theorem all_or_nothing (history : List Operation) (pageSize : Nat) (time : Whole)
    (settings : Settings) (text : String) (args : List Value) :
    let s := Store.run history Store.empty
    let session := ofStore pageSize time settings
    (succeeded (session.exec text args s).1 = false → (session.exec text args s).2 = s) ∧
    (succeeded (session.exec text args s).1 = true →
      ∃ statement a last, Statement.parse text = .ok statement ∧ statement.address? args = some a ∧
        args.getLast? = some last ∧ a.partition = [last] ∧
        Store.DiffersOnlyIn a.container
          (fun documents later => statement.Alters a documents later) s
          (session.exec text args s).2) ∧
    (session.query text args s).2 = s := by
  intro s session
  refine ⟨store_of_not_succeeded, fun h => ?_, query_store⟩
  cases hparse : Statement.parse text with
  | error e =>
    rw [exec_of_fault hparse] at h
    cases h
  | ok statement =>
    rw [exec_of_parsed hparse] at h ⊢
    obtain ⟨a, last, address, hlast, partition, differs⟩ := Statement.alters_of_succeeded history h
    exact ⟨statement, a, last, rfl, address, hlast, partition, differs⟩

end Session

end DocumentStore
