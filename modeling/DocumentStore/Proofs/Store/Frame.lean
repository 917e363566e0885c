import DocumentStore.Proofs.Store.AllOrNothing
import DocumentStore.Proofs.Store.Replacement
import DocumentStore.Store.Snapshot

/- What an UPDATE leaves alone in any store, also in one that was loaded and whose documents have no
   attributes of the store. It reads the document that its condition names and writes to the one
   whose id it comes to (`Update.Bound.target`). The two differ if it assigns an id, and then only
   the token that was read stands between it and another document (`Update.Bound.Strays`). If it
   does not stray, it leaves all documents but its own (`Update.others_left`). In the store of a run
   it never strays, since no two documents there have one token (`Update.not_strays_run`); a document
   without a token opens every document of its partition to it (`Update.another_overwritten`). -/
namespace DocumentStore

open Json (Value Whole)

theorem Stored.Overwritten.find?_eq {a : Address} {partition : List Value} {id : String}
    {documents later : List Stored} (h : Overwritten a documents later)
    (apart : ¬(Value.equalItems a.partition partition = true ∧ a.id = id)) :
    later.find? (isAt partition id) = documents.find? (isAt partition id) := by
  obtain ⟨before, x, after, doc, rfl, here, named, rfl⟩ := h
  have away : isAt partition id x = false := isAt_apart apart here
  have away' : isAt partition id { x with document := doc } = false :=
    isAt_apart apart (isAt_overwritten named here)
  simp only [List.find?_append, List.find?_cons, away, away']

namespace Store

variable {s next : Store} {a b : Address} {time : Whole} {draft : Draft} {id : String}
  {documents : List Stored} {old : Stored}

/-- The store is as before, but for a document at this address that may have been overwritten in
    its place. -/
inductive LeavesOthers (a : Address) (s : Store) : Store → Prop where
  | unchanged : LeavesOthers a s s
  | overwritten {next : Store} {documents later : List Stored}
      (found : s.documents? a.container = .ok documents)
      (left : next.documents? a.container = .ok later)
      (one : Stored.Overwritten a documents later)
      (elsewhere : ∀ c, c ≠ a.container → next.documents? c = s.documents? c) :
      LeavesOthers a s next

theorem LeavesOthers.get (h : s.LeavesOthers a next) (apart : a.same b = false) :
    next.get b = s.get b := by
  cases h with
  | unchanged => rfl
  | overwritten found left one elsewhere =>
    by_cases container : b.container = a.container
    · have apart : ¬(Value.equalItems a.partition b.partition = true ∧ a.id = b.id) := by
        intro same
        rw [Address.same_iff.mpr ⟨container.symm, same⟩] at apart
        cases apart
      rw [← container] at found left
      rw [get_eq_of_found found, get_eq_of_found left, one.find?_eq apart]
    · rw [Store.get, Store.get, elsewhere _ container]

theorem leavesOthers_overwrite (time : Whole) (found : s.documents? draft.container = .ok documents)
    (named : draft.payload.id? = some id)
    (live : documents.find? (Stored.isAt draft.partition id) = some old) :
    s.LeavesOthers ⟨draft.container, draft.partition, id⟩
      (s.overwrite time draft id old documents).2 :=
  .overwritten found ((documents?_setDocuments found).trans (if_pos rfl))
    (Stored.overwritten_of_find? live (id?_stamp.trans named))
    fun _ apart => (documents?_setDocuments found).trans (if_neg apart)

theorem get_overwrite (time : Whole) (found : s.documents? draft.container = .ok documents)
    (named : draft.payload.id? = some id)
    (live : documents.find? (Stored.isAt draft.partition id) = some old) :
    (s.overwrite time draft id old documents).2.get ⟨draft.container, draft.partition, id⟩ =
      .ok (s.overwrite time draft id old documents).1 := by
  have named : Document.id? (s.overwrite time draft id old documents).1 = some id :=
    id?_stamp.trans named
  refine get_eq_ok.mpr ⟨_, { old with document := (s.overwrite time draft id old documents).1 },
    (documents?_setDocuments found).trans (if_pos rfl), ?_, rfl⟩
  have kept (x : Stored) (here : x.isAt draft.partition id = true) :=
    Stored.isAt_overwritten named here
  exact (Stored.find?_overwriteFirst kept).trans (congrArg (Option.map _) live)

theorem id?_of_get {doc : Document} (read : s.get a = .ok doc) : doc.id? = some a.id := by
  obtain ⟨documents, x, -, live, rfl⟩ := get_eq_ok.mp read
  exact (Stored.isAt_iff.mp (List.find?_some live)).2

end Store

namespace Update

variable {u : Update} {args : List Value} {b : Bound} {s : Store} {id : String}
  {old other : Document}

/-- The statement has read one document and writes to another: it assigns the id of that one, and
    the token read lets it pass. -/
structure Bound.Strays (b : Bound) (s : Store) (id : String) (old other : Document) : Prop where
  read : s.get b.address = .ok old
  assigned : b.target = .ok id
  apart : id ≠ b.address.id
  there : s.get { b.address with id } = .ok other
  pass : Store.admits (old.token?.getD "") other = true

/-- **In the store of a run** no UPDATE strays. -/
theorem not_strays_run (history : List Operation) :
    ¬b.Strays (Store.run history Store.empty) id old other := by
  intro h
  have hid := (requiredId_draft (Store.id?_of_get h.read)).trans h.assigned
  obtain ⟨documents, x, found, live, rfl⟩ := Store.get_eq_ok.mp h.read
  obtain ⟨listed, y, hlisted, there, rfl⟩ := Store.get_eq_ok.mp h.there
  cases hlisted.symm.trans found
  have refused := replace_run history .zero found live
  simp only [h.assigned, h.apart, if_false] at refused
  have found : (Store.run history Store.empty).documents? (b.draft x.document).container =
    .ok documents := found
  rw [Store.replace_of_live found hid there, if_pos h.pass, if_pos (Stored.any_of_live there)]
    at refused
  cases refused

/-- An UPDATE that strays overwrites the other document. -/
theorem exec_of_strays (bound : u.bind args = .ok b) (h : b.Strays s id old other)
    (pageSize : Nat) (time : Whole) (policy : StalePolicy) :
    ∃ next, u.exec (Store.transport pageSize time) policy args s = (.ok .applied, next) ∧
      s.LeavesOthers { b.address with id } next ∧
      next.get { b.address with id } = .ok (Store.stamp time (s.sequence + 1) b.address.container
        (other.resourceId?.getD (Store.mintedId (s.sequence + 1)))
        (old.payload.insertAll b.values)) := by
  obtain ⟨documents, x, found, live, rfl⟩ := Store.get_eq_ok.mp h.there
  have hid : Store.requiredId (b.draft old).payload = .ok id :=
    (requiredId_draft (Store.id?_of_get h.read)).trans h.assigned
  have named := (Store.requiredId_eq_ok.mp hid).1
  have found : s.documents? (b.draft old).container = .ok documents := found
  have live : documents.find? (Stored.isAt (b.draft old).partition id) = some x := live
  refine ⟨(s.overwrite time (b.draft old) id x documents).2, ?_,
    Store.leavesOthers_overwrite time found named live, Store.get_overwrite time found named live⟩
  rw [exec_eq bound, h.read]
  simp only [Store.replace_of_live found hid live, h.pass, if_true]

/-- An UPDATE that does not stray leaves the others. -/
theorem leavesOthers_exec (bound : u.bind args = .ok b)
    (stays : ¬∃ id old other, b.Strays s id old other)
    (pageSize : Nat) (time : Whole) (policy : StalePolicy) :
    s.LeavesOthers b.address (u.exec (Store.transport pageSize time) policy args s).2 := by
  rw [exec_eq bound]
  cases read : s.get b.address with
  | error e => exact .unchanged
  | ok old =>
    rcases hreplace : s.replace time (b.draft old) (old.token?.getD "") with ⟨answer, next⟩
    cases answer with
    | error e =>
      simp only [hreplace, Store.replace_error hreplace]
      exact .unchanged
    | ok doc =>
      obtain ⟨documents, id, x, found, hid, live, pass, written⟩ :=
        Store.replace_eq_ok (congrArg Prod.fst hreplace)
      have assigned : b.target = .ok id :=
        (requiredId_draft (Store.id?_of_get read)).symm.trans hid
      have same : id = b.address.id := by
        refine Decidable.byContradiction fun apart => ?_
        exact stays ⟨id, old, x.document, read, assigned, apart,
          Store.get_eq_ok.mpr ⟨documents, x, found, live, rfl⟩, pass⟩
      subst same
      simp only [written]
      exact Store.leavesOthers_overwrite time found (Store.requiredId_eq_ok.mp hid).1 live

/-- **An UPDATE leaves the other documents alone unless it strays.** Take any store, and an UPDATE
    with any arguments:

    * if it cannot be bound to them, the store stays as it is;
    * otherwise the document it is about has the id that its condition gives and the partition key
      in the last argument, and unless it strays, the store is as before but for this document;
    * if it strays, it succeeds, and the store is as before but for the document under the id that
      it assigns, which is the one read with the assigned values. -/
theorem others_left (u : Update) (args : List Value) (s : Store) (pageSize : Nat) (time : Whole)
    (policy : StalePolicy) :
    let next := (u.exec (Store.transport pageSize time) policy args s).2
    (∀ e, u.bind args = .error e → next = s) ∧
    ∀ b, u.bind args = .ok b →
      (b.address.container = u.container ∧ u.id.resolve args = .ok b.address.id ∧
        ∃ v, args.getLast? = some v ∧ b.address.partition = [v]) ∧
      ((¬∃ id old other, b.Strays s id old other) → s.LeavesOthers b.address next) ∧
      ∀ id old other, b.Strays s id old other →
        (u.exec (Store.transport pageSize time) policy args s).1 = .ok .applied ∧
        s.LeavesOthers { b.address with id } next ∧
        next.get { b.address with id } =
          .ok (Store.stamp time (s.sequence + 1) u.container
            (other.resourceId?.getD (Store.mintedId (s.sequence + 1)))
            (old.payload.insertAll b.values)) := by
  intro next
  refine ⟨fun e unbound => ?_, fun b bound => ⟨?_, fun stays => ?_, fun id old other h => ?_⟩⟩
  · simp only [next, exec, unbound]
  · obtain ⟨id, partition, values, hid, hpartition, -, rfl⟩ := bind_eq_ok bound
    exact ⟨rfl, hid, partitionKey_eq_ok hpartition⟩
  · exact leavesOthers_exec bound stays pageSize time policy
  · obtain ⟨after, ran, left, written⟩ := exec_of_strays bound h pageSize time policy
    obtain ⟨id, partition, values, -, -, -, rfl⟩ := bind_eq_ok bound
    simp only [next, ran]
    exact ⟨trivial, left, written⟩

/-! Two documents, one of which is given the id of the other. -/

/-- The store that holds two documents in one partition. -/
def twoStored (x y : Document) : Store :=
  ⟨0, KeyMap.ofList [("d", KeyMap.ofList [("c", [⟨[.string "p"], x⟩, ⟨[.string "p"], y⟩])])]⟩

/-- `UPDATE d.c SET id=:1 WHERE id=a`. -/
def moving : Update :=
  ⟨⟨"d", "c"⟩, .literal "a", [("id", .placeholder 1)]⟩

def movingArgs : List Value :=
  [.string "b", .string "p"]

theorem bind_moving : moving.bind movingArgs =
    .ok ⟨⟨⟨"d", "c"⟩, [.string "p"], "a"⟩, [("id", .string "b")]⟩ := rfl

/-- The tokens of the two documents differ, so the one read does not open the other. -/
theorem others_left_tokens :
    let doc (id token : String) : Document :=
      KeyMap.ofList [("_etag", .string token), ("id", .string id)]
    let s := twoStored (doc "a" "1") (doc "b" "2")
    s.LeavesOthers ⟨⟨"d", "c"⟩, [.string "p"], "a"⟩
      (moving.exec (Store.transport 1 .zero) .suppress movingArgs s).2 := by
  intro doc s
  obtain ⟨-, left, -⟩ :=
    (others_left moving movingArgs s 1 .zero .suppress).2 _ bind_moving
  refine left ?_
  rintro ⟨id, old, other, read, assigned, -, there, pass⟩
  cases assigned
  cases read
  cases there
  exact absurd pass (by decide)

/-- **Another document is overwritten** in a store that was loaded, where no document has a
    token. -/
theorem another_overwritten :
    let text := "\x7b\"databases\": \x7b\"d\": \x7b\"c\": [" ++
      "\x7b\"partition_key\": [\"p\"], \"document\": \x7b\"id\": \"a\"\x7d\x7d, " ++
      "\x7b\"partition_key\": [\"p\"], \"document\": \x7b\"id\": \"b\"\x7d\x7d]\x7d\x7d\x7d"
    ∃ s u b, Store.load? text = some s ∧
      Statement.parse "UPDATE d.c SET id=:1 WHERE id=a" = .ok (.update u) ∧
      u.bind [.string "b", .string "p"] = .ok b ∧
      ¬s.LeavesOthers b.address (u.exec (Store.transport Store.defaultPageSize .zero) .suppress
        [.string "b", .string "p"] s).2 := by
  intro text
  refine ⟨twoStored (KeyMap.ofList [("id", .string "a")]) (KeyMap.ofList [("id", .string "b")]),
    moving, _, by decide +kernel, eq_ok_of_toOption (by decide +kernel), bind_moving,
    fun left => ?_⟩
  have kept := congrArg Except.toOption
    (left.get (b := ⟨⟨"d", "c"⟩, [.string "p"], "b"⟩) (by decide))
  exact absurd kept (by decide +kernel)

end Update

end DocumentStore
