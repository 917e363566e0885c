import DocumentStore.Proofs.Store.Requests
import DocumentStore.Proofs.Store.Rewriting

/- What an UPDATE does to the store of a run. Its result is decided by the keys of its collection
   and by what it assigns (`Update.Bound.verdict`), and if it succeeds its document is rewritten in
   place (`Update.Bound.rewrite`). Its token is stale only where it has assigned another id, since
   there it is compared with that of another document (`Update.replace_run`). -/
namespace DocumentStore

open Json (Value Whole)

namespace Stored

/-- The key is this partition key with this id. -/
def isKey (partition : List Value) (id : String) (k : List Value × Option String) : Bool :=
  Value.equalItems k.1 partition && k.2 == some id

theorem any_isKey (partition : List Value) (id : String) (documents : List Stored) :
    (documents.map key).any (isKey partition id) = documents.any (isAt partition id) :=
  List.any_map

end Stored

namespace Store

/-- The keys of a collection in the order of its documents. -/
def keys? (s : Store) (c : Container) : Except TransportError (List (List Value × Option String)) :=
  (s.documents? c).map (List.map Stored.key)

theorem admits_own (doc : Document) : admits (doc.token?.getD "") doc = true := by
  unfold admits
  cases doc.token? with
  | none => rfl
  | some token => simp

end Store

namespace Update.Bound

/-- The id that the document is written under. The statement may have assigned it. -/
def target (b : Bound) : Except TransportError String :=
  Store.requiredId (KeyMap.ofList (("id", .string b.address.id) :: b.values))

/-- The result in a collection with these keys. -/
def verdict (b : Bound) (policy : StalePolicy) :
    Except TransportError (List (List Value × Option String)) → Except Error Outcome
  | .error e => e.unlessMissing
  | .ok keys =>
    if keys.any (Stored.isKey b.address.partition b.address.id) then
      match b.target with
      | .error e => refused policy e
      | .ok id =>
        if id = b.address.id then .ok .applied
        -- The document under another id has a token of its own.
        else if keys.any (Stored.isKey b.address.partition id) then refused policy Store.tokenStale
        else refused policy (Store.documentMissing id)
    else (Store.documentMissing b.address.id).unlessMissing

/-- What the write with this number makes of the document. -/
def overwritten (b : Bound) (time : Whole) (n : Nat) (doc : Document) : Document :=
  Store.stamp time n b.address.container (doc.resourceId?.getD (Store.mintedId n))
    (doc.payload.insertAll b.values)

/-- A stored document after the write with this number: changed if it is the one. -/
def touch (b : Bound) (time : Whole) (n : Nat) (c : Container) (x : Stored) : Stored :=
  if c = b.address.container then
    if x.isAt b.address.partition b.address.id then
      { x with document := b.overwritten time n x.document }
    else x
  else x

/-- The store after the write. -/
def rewrite (b : Bound) (time : Whole) (s : Store) : Store :=
  { s.mapStored (b.touch time (s.sequence + 1)) with sequence := s.sequence + 1 }

variable {b : Bound} {policy : StalePolicy}

theorem target_of_succeeded {keys? : Except TransportError (List (List Value × Option String))}
    (h : succeeded (b.verdict policy keys?) = true) : b.target = .ok b.address.id := by
  unfold verdict at h
  split at h
  · rw [not_succeeded_unlessMissing] at h
    cases h
  · split at h
    · split at h
      · rw [not_succeeded_refused] at h
        cases h
      next id assigned =>
        split at h
        next same => rw [assigned, same]
        next =>
          split at h
          · rw [not_succeeded_refused] at h
            cases h
          · rw [not_succeeded_refused] at h
            cases h
    · rw [not_succeeded_unlessMissing] at h
      cases h

end Update.Bound

/-! The id of the new document. -/

namespace Document

variable {doc other : Document}

theorem id?_payload (doc : Document) : doc.payload.id? = doc.id? := by
  have own : isSystemField "id" = false := by decide
  rw [id?, id?, text?, text?, payload, KeyMap.get?_filterKeys, own]
  rfl

theorem id?_insertAll (h : doc.id? = other.id?) (values : List (String × Value)) :
    Document.id? (doc.insertAll values) = Document.id? (other.insertAll values) := by
  rw [id?, id?, text?, text?, KeyMap.get?_insertAll, KeyMap.get?_insertAll]
  cases values.reverse.lookup "id" with
  | none => exact h
  | some value => rfl

end Document

namespace Update

variable {b : Bound} {documents : List Stored} {old : Stored} {s : Store} {time : Whole}

theorem id?_draft {doc : Document} (named : doc.id? = some b.address.id) :
    (b.draft doc).payload.id? =
      Document.id? (KeyMap.ofList (("id", .string b.address.id) :: b.values)) := by
  have same : doc.payload.id? =
      Document.id? (KeyMap.ofList [("id", .string b.address.id)]) := by
    rw [Document.id?_payload, named]
    rfl
  exact Document.id?_insertAll same b.values

theorem requiredId_draft {doc : Document} (named : doc.id? = some b.address.id) :
    Store.requiredId (b.draft doc).payload = b.target := by
  rw [Bound.target, Store.requiredId, id?_draft named]
  rfl

/-- To overwrite the document is to rewrite it in place. -/
theorem overwrite_eq_rewrite (found : s.documents? b.address.container = .ok documents)
    (distinct : Stored.Distinct documents)
    (live : documents.find? (Stored.isAt b.address.partition b.address.id) = some old) :
    (s.overwrite time (b.draft old.document) b.address.id old documents).2 = b.rewrite time s := by
  have rewritten := Store.setDocuments_overwriteFirst found distinct live
    (b.overwritten time (s.sequence + 1))
  exact congrArg (fun t : Store => { t with sequence := s.sequence + 1 }) rewritten

/-- **The write of an UPDATE** that has found its document. Its token does not stand in its way. -/
theorem replace_run (history : List Operation) (time : Whole)
    (found : (Store.run history Store.empty).documents? b.address.container = .ok documents)
    (live : documents.find? (Stored.isAt b.address.partition b.address.id) = some old) :
    let s := Store.run history Store.empty
    s.replace time (b.draft old.document) (old.document.token?.getD "") =
      match b.target with
      | .error e => (.error e, s)
      | .ok id =>
        if id = b.address.id then
          (.ok (b.overwritten time (s.sequence + 1) old.document), b.rewrite time s)
        else if documents.any (Stored.isAt b.address.partition id) then (.error Store.tokenStale, s)
        else (.error (Store.documentMissing id), s) := by
  intro s
  have named : old.document.id? = some b.address.id := (Stored.isAt_iff.mp (List.find?_some live)).2
  have hid := requiredId_draft named
  cases assigned : b.target with
  | error e => exact Store.replace_of_unnamed found (hid.trans assigned)
  | ok id =>
    have hid := hid.trans assigned
    by_cases same : id = b.address.id
    · subst same
      have keyed := (Store.represents_run history).keyed _ _ found
      simp only [if_true]
      rw [Store.replace_of_live found hid live, if_pos (Store.admits_own _),
        overwrite_eq_rewrite found keyed live]
      rfl
    · simp only [same, if_false]
      cases there : documents.find? (Stored.isAt b.address.partition id) with
      | none =>
        rw [Store.replace_of_fresh found hid there, Stored.not_any_of_fresh there]
        rfl
      | some other =>
        -- If the token let the write pass, it would go to the document that was read.
        have stale : Store.admits (old.document.token?.getD "") other.document = false := by
          refine Bool.eq_false_iff.mpr fun pass => same ?_
          have read : s.get b.address = .ok old.document :=
            Store.get_eq_ok.mpr ⟨documents, old, found, live, rfl⟩
          have replaced : ((Store.serve [] s).replace time (b.draft old.document)
              (old.document.token?.getD "")).1 =
              .ok (s.overwrite time (b.draft old.document) id other documents).1 := by
            show (s.replace time _ _).1 = _
            rw [Store.replace_of_live found hid there, if_pos pass]
          have target := (Store.target_of_replaced history read rfl rfl replaced).2
          exact Option.some.inj ((Store.requiredId_eq_ok.mp hid).1.symm.trans target)
        rw [Store.replace_of_live found hid there, stale, Stored.any_of_live there]
        rfl

/-- **An UPDATE over the store of a run.** The keys of its collection decide its result, and if it
    succeeds its document is rewritten in place. -/
theorem exec_run {u : Update} {args : List Value} (history : List Operation)
    (bound : u.bind args = .ok b) (pageSize : Nat) (time : Whole) (policy : StalePolicy) :
    let s := Store.run history Store.empty
    let result := b.verdict policy (s.keys? b.address.container)
    u.exec (Store.transport pageSize time) policy args s =
      (result, if succeeded result then b.rewrite time s else s) := by
  intro s result
  rw [exec_eq bound]
  cases found : s.documents? b.address.container with
  | error e =>
    have decided : result = e.unlessMissing := by
      simp only [result, Store.keys?, found]
      rfl
    have missing : s.get b.address = .error e := by
      simp only [Store.get, found]
    rw [missing, decided, not_succeeded_unlessMissing]
    rfl
  | ok documents =>
    have keys : s.keys? b.address.container = .ok (documents.map Stored.key) := by
      rw [Store.keys?, found]
      rfl
    cases live : documents.find? (Stored.isAt b.address.partition b.address.id) with
    | none =>
      have decided : result = (Store.documentMissing b.address.id).unlessMissing := by
        simp only [result, keys, Bound.verdict, Stored.any_isKey,
          Stored.not_any_of_fresh live]
        rfl
      rw [Store.get_eq_of_found found, live, decided, not_succeeded_unlessMissing]
      rfl
    | some old =>
      have read : s.get b.address = .ok old.document :=
        Store.get_eq_ok.mpr ⟨documents, old, found, live, rfl⟩
      have written : s.replace time (b.draft old.document) (old.document.token?.getD "") = _ :=
        replace_run history time found live
      simp only [read, written, result, keys, Bound.verdict, Stored.any_isKey,
        Stored.any_of_live live, if_true]
      cases b.target with
      | error e =>
        simp only [not_succeeded_refused]
        rfl
      | ok id =>
        by_cases same : id = b.address.id
        · simp only [same, if_true]
          rfl
        · simp only [same, if_false]
          cases documents.any (Stored.isAt b.address.partition id) with
          | true =>
            simp only [not_succeeded_refused, if_true]
            rfl
          | false =>
            simp only [not_succeeded_refused, Bool.false_eq_true, if_false]
            rfl

end Update

end DocumentStore
