import DocumentStore.Execution
import DocumentStore.Proofs.Store.Minting

/- An UPDATE among other clients. It reads its document, the others make their calls, and then it
   writes. Whatever they do, the token decides: either the document is still the one that was read,
   and the UPDATE does what it would do alone after them, or it changes nothing (`no_lost_update`). -/
namespace DocumentStore

open Json (Value Whole)

namespace Store

/-- Calls of other clients, one after another. -/
def serve (calls : List Call) : Store → Store :=
  run (calls.map .call)

/-- The store for a client that shares it. The calls of the others wait until it has read a
    document, and are made before it goes on. -/
def shared (pageSize : Nat) (time : Whole) : Transport (Store × List Call) where
  respond
    | .get address, (s, waiting) => (s.get address, (serve waiting s, []))
    | request, (s, waiting) =>
      let (answer, s) := (transport pageSize time).respond request s
      (answer, (s, waiting))

end Store

/-- The statement has changed a document. -/
def succeeded : Except Error Outcome → Bool
  | .ok outcome => outcome.successful
  | .error _ => false

namespace Update

/-- Runs the statement with calls of others between its read and its write. Calls that it did not
    wait for are made in the end. -/
def execAmong (u : Update) (pageSize : Nat) (time : Whole) (policy : StalePolicy)
    (args : List Value) (others : List Call) (s : Store) : Except Error Outcome × Store :=
  let (result, (next, waiting)) := u.exec (Store.shared pageSize time) policy args (s, others)
  (result, Store.serve waiting next)

end Update

namespace Store

variable {s next : Store} {a : Address} {doc : Document} {history more : List Change}

/-! What others leave alone stays. -/

theorem get_congr {t : Store}
    (container : (s.documents? a.container).map (fun _ => ()) =
      (t.documents? a.container).map fun _ => ())
    (document : s.at? a = t.at? a) : s.get a = t.get a := by
  rw [get_eq_at?, get_eq_at?, document]
  cases hs : s.documents? a.container <;> cases ht : t.documents? a.container <;>
    simp_all [Except.map]

theorem lastWritten?_untouched (untouched : ∀ change ∈ more, change.isAbout a = false) :
    lastWritten? a (history ++ more) = lastWritten? a history := by
  induction more generalizing history with
  | nil => rw [List.append_nil]
  | cons change more ih =>
    rw [List.append_cons, ih fun change h => untouched change (List.mem_cons_of_mem _ h),
      lastWritten?_append, untouched change List.mem_cons_self]
    rfl

theorem documents?_serve (calls : List Call) (s : Store) (c : Container) :
    ((serve calls s).documents? c).map (fun _ => ()) = (s.documents? c).map fun _ => () := by
  induction calls generalizing s with
  | nil => rfl
  | cons made calls ih =>
    refine (ih (made.next s)).trans ?_
    have effect := effect_call made s
    rw [documents?_of_hasDatabase, documents?_of_hasDatabase, hasDatabase_of_effect effect,
      hasCollection_of_effect effect]

theorem get_untouched (ops : List Operation) {others : List Call}
    (untouched : ∀ change ∈ changes (others.map .call) (run ops empty), change.isAbout a = false) :
    (serve others (run ops empty)).get a = (run ops empty).get a := by
  apply get_congr (documents?_serve others _ _)
  have after := (represents_run (ops ++ others.map .call)).lookup a
  rw [run_append, changes, trace_append] at after
  rw [(represents_run ops).lookup a]
  exact after.trans (lastWritten?_untouched untouched)

/-! What others change does not come back. -/

/-- What stands at an address in the end was written since, or nothing has touched it since. -/
theorem lastWritten?_cases (last : lastWritten? a (history ++ more) = some doc) :
    doc ∈ written more ∨ ∀ change ∈ more, change.isAbout a = false := by
  -- The induction needs of the history before that it left the document.
  suffices h : ∀ history, lastWritten? a (history ++ more) = some doc → doc ∈ written more ∨
      lastWritten? a history = some doc ∧ ∀ change ∈ more, change.isAbout a = false from
    (h history last).imp_right And.right
  clear last
  induction more with
  | nil =>
    intro history last
    exact Or.inr ⟨by rwa [List.append_nil] at last, fun _ h => (nomatch h)⟩
  | cons change more ih =>
    intro history last
    rw [List.append_cons] at last
    have hw : written (change :: more) = written [change] ++ written more :=
      written_append [change] more
    rw [hw, List.mem_append]
    rcases ih _ last with later | ⟨here, untouched⟩
    · exact Or.inl (Or.inr later)
    · rw [lastWritten?_append] at here
      split at here
      next => exact Or.inl (Or.inl (List.mem_filterMap.mpr ⟨change, List.mem_singleton_self _, here⟩))
      next apart =>
        refine Or.inr ⟨here, fun other h => ?_⟩
        rcases List.mem_cons.mp h with rfl | h
        · exact Bool.eq_false_iff.mpr apart
        · exact untouched other h

/-- What has been written is not written again: the new document would have a later token. -/
theorem not_rewritten (h : Accounted (history ++ more) s) (hd : doc ∈ written history) :
    doc ∉ written more := by
  intro hd'
  obtain ⟨i, hi⟩ := List.getElem?_of_mem hd
  obtain ⟨j, hj⟩ := List.getElem?_of_mem hd'
  have hlen : i < (written history).length := (List.getElem?_eq_some_iff.mp hi).1
  have first := h.tokens i doc (by rw [written_append, List.getElem?_append_left hlen, hi])
  have second := h.tokens ((written history).length + j) doc (by
    rw [written_append, List.getElem?_append_right (Nat.le_add_right _ _), Nat.add_sub_cancel_left,
      hj])
  have same := mintedToken_injective (Option.some.inj (first.symm.trans second))
  omega

/-- **A document that is found again** under its address was not touched in between, not even
    removed and written anew. -/
theorem untouched_of_get (ops : List Operation) {others : List Call}
    (before : (run ops empty).get a = .ok doc)
    (after : (serve others (run ops empty)).get a = .ok doc) :
    ∀ change ∈ changes (others.map .call) (run ops empty), change.isAbout a = false := by
  have accounted := accounted_run (ops ++ others.map .call)
  have represents := (represents_run (ops ++ others.map .call)).lookup a
  rw [run_append, changes, trace_append] at accounted represents
  obtain ⟨documents, x, found, hx, rfl⟩ := get_eq_ok.mp before
  -- It was written before the others came, and a document is written only once.
  have old : x.document ∈ written (changes ops empty) :=
    (accounted_run ops).stored _ _ found x (List.mem_of_find?_eq_some hx)
  have last := represents.symm.trans (get_eq_ok_iff.mp after)
  exact (lastWritten?_cases last).resolve_left (not_rewritten accounted old)

/-! The two halves of an UPDATE. -/

theorem replace_error {time : Whole} {draft : Draft} {token : String} {e : TransportError}
    (h : s.replace time draft token = (.error e, next)) : next = s := by
  unfold replace at h
  repeat' split at h
  all_goals cases h
  all_goals rfl

/-- **The token decides.** If the document that was read can be replaced after the others have
    been served, it still stands under its address, and it is the one that is replaced: assigning
    another id does not help. -/
theorem target_of_replaced (ops : List Operation) {others : List Call} {time : Whole} {draft : Draft}
    {new : Document} (read : (run ops empty).get a = .ok doc)
    (container : draft.container = a.container) (partition : draft.partition = a.partition)
    (replaced : ((serve others (run ops empty)).replace time draft (doc.token?.getD "")).1 =
      .ok new) :
    (serve others (run ops empty)).get a = .ok doc ∧ draft.payload.id? = some a.id := by
  have accounted := accounted_run (ops ++ others.map .call)
  rw [run_append, changes, trace_append] at accounted
  obtain ⟨documents, x, found, hx, rfl⟩ := get_eq_ok.mp read
  have old : x.document ∈ written (changes ops empty) :=
    (accounted_run ops).stored _ _ found x (List.mem_of_find?_eq_some hx)
  obtain ⟨i, hi⟩ := List.getElem?_of_mem old
  have token := (accounted_run ops).tokens i _ hi
  have id : x.document.id? = some a.id := (Stored.isAt_iff.mp (List.find?_some hx)).2
  obtain ⟨listed, target, y, hlisted, htarget, hy, pass, -⟩ := replace_eq_ok replaced
  -- The two documents have one token, which is not the empty one.
  have nonempty : mintedToken (i + 1) ≠ "" := by simp [mintedToken]
  have htoken : y.document.token? = x.document.token? := by
    simpa [admits, token, nonempty] using pass
  have hwritten := accounted.stored _ _ hlisted y (List.mem_of_find?_eq_some hy)
  have same : y.document = x.document :=
    eq_of_token accounted hwritten (by rw [written_append]; exact List.mem_append_left _ old) htoken
  -- The target is the id of the new document, which the UPDATE may have assigned.
  have hid : y.document.id? = some target := (Stored.isAt_iff.mp (List.find?_some hy)).2
  rw [same, id] at hid
  cases hid
  exact ⟨get_eq_ok.mpr ⟨listed, y, container ▸ hlisted, partition ▸ hy, same⟩,
    (requiredId_eq_ok.mp htarget).1⟩

theorem get_of_replaced (ops : List Operation) {others : List Call} {time : Whole} {draft : Draft}
    {new : Document} (read : (run ops empty).get a = .ok doc)
    (container : draft.container = a.container) (partition : draft.partition = a.partition)
    (replaced : ((serve others (run ops empty)).replace time draft (doc.token?.getD "")).1 =
      .ok new) :
    (serve others (run ops empty)).get a = .ok doc :=
  (target_of_replaced ops read container partition replaced).1

end Store

namespace Update

variable {u : Update} {pageSize : Nat} {time : Whole} {policy : StalePolicy} {args : List Value}
  {others : List Call} {s : Store} {bound : Bound}

theorem not_succeeded_unlessMissing (e : TransportError) : succeeded e.unlessMissing = false := by
  unfold TransportError.unlessMissing
  split <;> rfl

theorem not_succeeded_refused (e : TransportError) : succeeded (refused policy e) = false := by
  unfold refused
  split
  · cases policy <;> rfl
  · exact not_succeeded_unlessMissing e

theorem exec_eq (hbind : u.bind args = .ok bound) :
    u.exec (Store.transport pageSize time) policy args s =
      match s.get bound.address with
      | .error e => (e.unlessMissing, s)
      | .ok current =>
        match s.replace time (bound.draft current) (current.token?.getD "") with
        | (.ok _, next) => (.ok .applied, next)
        | (.error e, next) => (refused policy e, next) := by
  cases hget : s.get bound.address with
  | error e => simp only [exec, hbind, Transport.get, Store.transport, hget]
  | ok current =>
    simp only [exec, hbind, Transport.get, Transport.replace, Store.transport, hget]
    obtain ⟨answer, next⟩ := s.replace time (bound.draft current) (current.token?.getD "")
    cases answer <;> rfl

/-- The statement among others: it reads before them and writes after them. -/
theorem execAmong_eq (hbind : u.bind args = .ok bound) :
    u.execAmong pageSize time policy args others s =
      match s.get bound.address with
      | .error e => (e.unlessMissing, Store.serve others s)
      | .ok current =>
        match (Store.serve others s).replace time (bound.draft current) (current.token?.getD "") with
        | (.ok _, next) => (.ok .applied, next)
        | (.error e, next) => (refused policy e, next) := by
  cases hget : s.get bound.address with
  | error e => simp only [execAmong, exec, hbind, Transport.get, Store.shared, hget]; rfl
  | ok current =>
    simp only [execAmong, exec, hbind, Transport.get, Transport.replace, Store.shared,
      Store.transport, hget]
    obtain ⟨answer, next⟩ := (Store.serve others s).replace time (bound.draft current)
      (current.token?.getD "")
    cases answer <;> rfl

theorem execAmong_of_unbound {e : Error} (hbind : u.bind args = .error e) :
    u.execAmong pageSize time policy args others s = (.error e, Store.serve others s) := by
  simp only [execAmong, exec, hbind]

/-- If the others leave what the statement reads, it might as well come after them. -/
theorem execAmong_of_get (hbind : u.bind args = .ok bound)
    (same : (Store.serve others s).get bound.address = s.get bound.address) :
    u.execAmong pageSize time policy args others s =
      u.exec (Store.transport pageSize time) policy args (Store.serve others s) := by
  rw [execAmong_eq hbind, exec_eq hbind, same]

theorem execAmong_of_not_succeeded
    (h : succeeded (u.execAmong pageSize time policy args others s).1 = false) :
    (u.execAmong pageSize time policy args others s).2 = Store.serve others s := by
  cases hbind : u.bind args with
  | error e => rw [execAmong_of_unbound hbind]
  | ok bound =>
    rw [execAmong_eq hbind] at h ⊢
    cases hget : s.get bound.address with
    | error e => rfl
    | ok current =>
      simp only [hget] at h ⊢
      split at h
      next => cases h
      next e next hreplace => exact Store.replace_error hreplace

theorem replaced_of_succeeded
    (h : succeeded (u.execAmong pageSize time policy args others s).1 = true) :
    ∃ bound doc new, u.bind args = .ok bound ∧ s.get bound.address = .ok doc ∧
      ((Store.serve others s).replace time (bound.draft doc) (doc.token?.getD "")).1 = .ok new := by
  cases hbind : u.bind args with
  | error e =>
    rw [execAmong_of_unbound hbind] at h
    cases h
  | ok bound =>
    rw [execAmong_eq hbind] at h
    cases hget : s.get bound.address with
    | error e =>
      simp only [hget, not_succeeded_unlessMissing] at h
      cases h
    | ok current =>
      simp only [hget] at h
      split at h
      next new next hreplace => exact ⟨bound, current, new, rfl, hget, by rw [hreplace]⟩
      next e next hreplace =>
        rw [not_succeeded_refused] at h
        cases h

/-- **No lost update.** Take the store after any history, and any calls of others between the read
    and the write of an UPDATE:

    * if it succeeds, none of the others wrote or removed its document, which they leave as it was
      read, and its result and the store are those of the statement run alone after them;
    * if it does not, the store is as the others left it;
    * if none of the others wrote or removed its document, its result and the store are those of
      the statement run alone after them. -/
theorem no_lost_update (history : List Operation) (others : List Call) (u : Update)
    (policy : StalePolicy) (args : List Value) (pageSize : Nat) (time : Whole) :
    let s := Store.run history Store.empty
    let s' := Store.serve others s
    let among := u.execAmong pageSize time policy args others s
    let alone := u.exec (Store.transport pageSize time) policy args s'
    let untouched := fun bound : Bound =>
      ∀ change ∈ Store.changes (others.map .call) s, change.isAbout bound.address = false
    (succeeded among.1 = true → among = alone ∧ ∃ bound doc, u.bind args = .ok bound ∧
      s.get bound.address = .ok doc ∧ s'.get bound.address = .ok doc ∧ untouched bound) ∧
    (succeeded among.1 = false → among.2 = s') ∧
    ((∀ bound, u.bind args = .ok bound → untouched bound) → among = alone) := by
  intro s s' among alone untouched
  refine ⟨fun success => ?_, execAmong_of_not_succeeded, fun calm => ?_⟩
  -- The token says that the document is still the one that was read; nobody has touched it then.
  · obtain ⟨bound, doc, new, hbind, read, replaced⟩ := replaced_of_succeeded success
    have after : s'.get bound.address = .ok doc :=
      Store.get_of_replaced history read rfl rfl replaced
    exact ⟨execAmong_of_get hbind (after.trans read.symm), bound, doc, hbind, read, after,
      Store.untouched_of_get history read after⟩
  · cases hbind : u.bind args with
    | error e =>
      have alone_eq : alone = (.error e, s') := by
        simp only [alone, exec, hbind]
      exact (execAmong_of_unbound hbind).trans alone_eq.symm
    | ok bound => exact execAmong_of_get hbind (Store.get_untouched history (calm bound hbind))

end Update

end DocumentStore
