import DocumentStore.Proofs.Store.Replacement

/- UPDATEs that do not get in each other's way. An UPDATE keeps the keys of every collection, so
   that another one comes to the same result before it and after it (`exec_after`); and two that are
   about different documents, or assign different fields, rewrite each document to the same fields
   in either order (`unversioned_touch_touch`). What differs is which of them was first: the tokens
   and the times (`updates_commute`). -/
namespace DocumentStore

open Json (Value Whole)

namespace Update.Bound

variable {b b' : Bound} {time later time' later' : Whole} {n m n' m' : Nat} {c : Container}
  {x : Stored}

/-- The statement is about the stored document. -/
def isFor (b : Bound) (c : Container) (x : Stored) : Bool :=
  c == b.address.container && x.isAt b.address.partition b.address.id

theorem touch_eq : b.touch time n c x =
    if b.isFor c x then { x with document := b.overwritten time n x.document } else x := by
  unfold touch isFor
  by_cases here : c = b.address.container
  · simp [here]
  · simp [here]

theorem touch_of_isFor (about : b.isFor c x = true) :
    b.touch time n c x = { x with document := b.overwritten time n x.document } := by
  rw [touch_eq, if_pos about]

theorem touch_of_not_isFor (apart : b.isFor c x = false) : b.touch time n c x = x := by
  rw [touch_eq, apart]
  rfl

theorem same_of_isFor (about : b.isFor c x = true) (about' : b'.isFor c x = true) :
    b.address.same b'.address = true := by
  obtain ⟨here, hx⟩ := Bool.and_eq_true_iff.mp about
  obtain ⟨here', hx'⟩ := Bool.and_eq_true_iff.mp about'
  obtain ⟨partition, id⟩ := Stored.sameKey_of_isAt hx hx'
  exact Address.same_iff.mpr ⟨(eq_of_beq here).symm.trans (eq_of_beq here'), partition, id⟩

theorem key_touch (own : b.target = .ok b.address.id) (time : Whole) (n : Nat) (c : Container)
    (x : Stored) : (b.touch time n c x).key = x.key := by
  rw [touch_eq]
  split
  next about =>
    have named : x.document.id? = some b.address.id :=
      (Stored.isAt_iff.mp (Bool.and_eq_true_iff.mp about).2).2
    have kept : (b.overwritten time n x.document).id? = some b.address.id := by
      rw [overwritten, Store.id?_stamp]
      exact (Store.requiredId_eq_ok.mp ((requiredId_draft named).trans own)).1
    rw [Stored.key, Stored.key, kept, named]
  next => rfl

theorem isFor_touch (own : b.target = .ok b.address.id) (time : Whole) (n : Nat) :
    b'.isFor c (b.touch time n c x) = b'.isFor c x := by
  show (_ && Stored.isKey _ _ (b.touch time n c x).key) = (_ && Stored.isKey _ _ x.key)
  rw [key_touch own]

theorem keys?_rewrite (own : b.target = .ok b.address.id) (s : Store) (c : Container) :
    (b.rewrite time s).keys? c = s.keys? c := by
  show ((s.mapStored _).documents? c).map _ = _
  rw [Store.documents?_mapStored, Store.keys?]
  cases s.documents? c with
  | error e => rfl
  | ok documents =>
    show Except.ok ((documents.map _).map Stored.key) = Except.ok _
    rw [List.map_map]
    exact congrArg Except.ok (List.map_congr_left fun x _ => key_touch own _ _ c x)

/-- When it is written does not matter for a document that has its id from the store. -/
theorem unversioned_touch {resourceId : String} (known : x.document.resourceId? = some resourceId) :
    (b.touch time n c x).unversioned = (b.touch later m c x).unversioned := by
  rw [touch_eq, touch_eq]
  split
  next =>
    refine congrArg (Stored.mk x.partition) ?_
    show (b.overwritten time n x.document).unversioned =
      (b.overwritten later m x.document).unversioned
    rw [overwritten, overwritten, known, Option.getD_some, Option.getD_some]
    exact Store.unversioned_stamp
  next => rfl

theorem overwritten_overwritten (own : ∀ e ∈ b.values, Document.isSystemField e.1 = false)
    (doc : Document) : b'.overwritten later m (b.overwritten time n doc) =
      Store.stamp later m b'.address.container (doc.resourceId?.getD (Store.mintedId n))
        ((doc.payload.insertAll b.values).insertAll b'.values) := by
  rw [overwritten, overwritten, Store.resourceId?_stamp, Store.payload_stamp,
    Document.payload_insertAll own, Document.payload_payload]
  rfl

/-- The two statements are about different documents or assign different fields. -/
def Independent (b b' : Bound) : Prop :=
  b.address.same b'.address = false ∨ ∀ e ∈ b.values, ∀ e' ∈ b'.values, e.1 ≠ e'.1

/-- The id is left as it is, and no attribute of the store is assigned. -/
structure Plain (b : Bound) : Prop where
  target : b.target = .ok b.address.id
  fields : ∀ e ∈ b.values, Document.isSystemField e.1 = false

/-- **One document** comes to the same fields in either order. -/
theorem unversioned_touch_touch (plain : b.Plain) (plain' : b'.Plain) (apart : Independent b b')
    {resourceId : String} (known : x.document.resourceId? = some resourceId) :
    (b'.touch later m c (b.touch time n c x)).unversioned =
      (b.touch later' m' c (b'.touch time' n' c x)).unversioned := by
  cases about : b.isFor c x with
  | false =>
    have about' := (isFor_touch plain'.target time' n').trans about
    rw [touch_of_not_isFor about, touch_of_not_isFor about']
    exact unversioned_touch known
  | true =>
    cases about' : b'.isFor c x with
    | false =>
      have apart' := (isFor_touch plain.target time n).trans about'
      rw [touch_of_not_isFor about', touch_of_not_isFor apart']
      exact unversioned_touch known
    | true =>
      have same := same_of_isFor about about'
      have fields : ∀ e ∈ b.values, ∀ e' ∈ b'.values, e.1 ≠ e'.1 :=
        apart.resolve_left (by rw [same]; decide)
      have container := (Address.same_iff.mp same).1
      rw [touch_of_isFor ((isFor_touch plain.target time n).trans about'), touch_of_isFor about,
        touch_of_isFor ((isFor_touch plain'.target time' n').trans about), touch_of_isFor about']
      refine congrArg (Stored.mk x.partition) ?_
      show (b'.overwritten later m (b.overwritten time n x.document)).unversioned =
        (b.overwritten later' m' (b'.overwritten time' n' x.document)).unversioned
      rw [overwritten_overwritten plain.fields, overwritten_overwritten plain'.fields, known,
        Option.getD_some, Option.getD_some, container, KeyMap.insertAll_comm _ fields]
      exact Store.unversioned_stamp

/-! The whole store. -/

variable {s : Store}

theorem unversioned_rewrite (identified : s.Identified) :
    (b.rewrite time s).unversioned = (b.rewrite later s).unversioned := by
  simp only [Store.unversioned, rewrite, Store.mapStored_with_sequence, Store.mapStored_mapStored]
  refine congrArg (fun t : Store => { t with sequence := s.sequence + 1 }) ?_
  apply Store.mapStored_congr
  intro c documents found x hx
  obtain ⟨resourceId, known⟩ := identified c documents found x hx
  exact unversioned_touch known

/-- **Two rewritings** come to one store in either order, up to the tokens and the times. -/
theorem unversioned_rewrite_rewrite (plain : b.Plain) (plain' : b'.Plain)
    (apart : Independent b b') (identified : s.Identified) :
    (b'.rewrite later (b.rewrite time s)).unversioned =
      (b.rewrite later' (b'.rewrite time' s)).unversioned := by
  simp only [Store.unversioned, rewrite, Store.mapStored_with_sequence, Store.mapStored_mapStored]
  refine congrArg (fun t : Store => { t with sequence := s.sequence + 1 + 1 }) ?_
  apply Store.mapStored_congr
  intro c documents found x hx
  obtain ⟨resourceId, known⟩ := identified c documents found x hx
  exact unversioned_touch_touch plain plain' apart known

theorem unversioned_comm {done done' : Bool} (plain : done = true → b.Plain)
    (plain' : done' = true → b'.Plain) (apart : Independent b b') (identified : s.Identified) :
    let first := if done then b.rewrite time s else s
    let first' := if done' then b'.rewrite time' s else s
    (if done then b.rewrite later' first' else first').unversioned =
      (if done' then b'.rewrite later first else first).unversioned := by
  cases done with
  | false =>
    cases done' with
    | false => simp only [Bool.false_eq_true, if_false]
    | true =>
      simp only [if_true, Bool.false_eq_true, if_false]
      exact unversioned_rewrite identified
  | true =>
    cases done' with
    | false =>
      simp only [if_true, Bool.false_eq_true, if_false]
      exact unversioned_rewrite identified
    | true =>
      simp only [if_true]
      exact (unversioned_rewrite_rewrite (plain rfl) (plain' rfl) apart identified).symm

end Update.Bound

/-! Two statements. -/

namespace Update

variable {u : Update} {args : List Value} {b : Bound}

theorem field_of_bind (bound : u.bind args = .ok b) : ∀ e ∈ b.values, e.1 ∈ u.fields := by
  obtain ⟨id, partition, values, -, -, hvalues, rfl⟩ := bind_eq_ok bound
  intro e he
  rw [fields, ← Operand.fields_resolveAll hvalues]
  exact List.mem_map_of_mem he

theorem plain_of_succeeded (bound : u.bind args = .ok b)
    (own : ∀ field ∈ u.fields, Document.isSystemField field = false) {policy : StalePolicy}
    {keys? : Except TransportError (List (List Value × Option String))}
    (h : succeeded (b.verdict policy keys?) = true) : b.Plain where
  target := Bound.target_of_succeeded h
  fields := fun e he => own e.1 (field_of_bind bound e he)

theorem keys?_exec (history : List Operation) (bound : u.bind args = .ok b) (pageSize : Nat)
    (time : Whole) (policy : StalePolicy) (c : Container) :
    (u.exec (Store.transport pageSize time) policy args (Store.run history Store.empty)).2.keys? c =
      (Store.run history Store.empty).keys? c := by
  rw [exec_run history bound]
  show (if _ then _ else _ : Store).keys? c = _
  split
  next success => exact Bound.keys?_rewrite (Bound.target_of_succeeded success) _ c
  next => rfl

/-- After another statement, one comes to the result that it would have had before. -/
theorem exec_after (history : List Operation) {u u' : Update} {args args' : List Value}
    {b b' : Bound} (bound : u.bind args = .ok b) (bound' : u'.bind args' = .ok b') (pageSize : Nat)
    (time later : Whole) (policy : StalePolicy) :
    let s := Store.run history Store.empty
    let next := (u.exec (Store.transport pageSize time) policy args s).2
    let result := b'.verdict policy (s.keys? b'.address.container)
    u'.exec (Store.transport pageSize later) policy args' next =
      (result, if succeeded result then b'.rewrite later next else next) := by
  intro s next result
  have keys : next.keys? b'.address.container = s.keys? b'.address.container :=
    keys?_exec history bound pageSize time policy _
  -- The other statement has left the store of a run.
  obtain ⟨ops, reached⟩ := Statement.exists_run history (.update u) pageSize time policy args
  have reached : next = Store.run ops Store.empty := reached
  rw [reached] at keys ⊢
  have ran := exec_run ops bound' pageSize later policy
  simp only [keys] at ran
  exact ran

/-- **UPDATEs of independent fields commute.** Take the store after any history, and two UPDATEs
    with arguments that they can be bound to, which assign no attributes of the store and are about
    different documents or assign different fields. Run in either order, at any times, each has the
    same result, and the store is left the same up to the values of `_etag` and `_ts`. -/
theorem updates_commute (history : List Operation) {u u' : Update} {args args' : List Value}
    {b b' : Bound} (bound : u.bind args = .ok b) (bound' : u'.bind args' = .ok b')
    (own : ∀ field ∈ u.fields, Document.isSystemField field = false)
    (own' : ∀ field ∈ u'.fields, Document.isSystemField field = false)
    (independent : b.address.same b'.address = false ∨ ∀ field ∈ u.fields, field ∉ u'.fields)
    (pageSize : Nat) (time later time' later' : Whole) (policy : StalePolicy) :
    let s := Store.run history Store.empty
    let first := u.exec (Store.transport pageSize time) policy args s
    let second := u'.exec (Store.transport pageSize later) policy args' first.2
    let first' := u'.exec (Store.transport pageSize time') policy args' s
    let second' := u.exec (Store.transport pageSize later') policy args first'.2
    second'.1 = first.1 ∧ first'.1 = second.1 ∧ second'.2.unversioned = second.2.unversioned := by
  intro s first second first' second'
  have apart : b.Independent b' := independent.imp_right fun disjoint e he e' he' same =>
    disjoint e.1 (field_of_bind bound e he) (same ▸ field_of_bind bound' e' he')
  have identified : s.Identified := Store.identified_run history
  have ran : first = _ := exec_run history bound pageSize time policy
  have ran' : first' = _ := exec_run history bound' pageSize time' policy
  have next : second = _ := exec_after history bound bound' pageSize time later policy
  have next' : second' = _ := exec_after history bound' bound pageSize time' later' policy
  refine ⟨by rw [next', ran], by rw [ran', next], ?_⟩
  have left := congrArg Prod.snd ran
  have left' := congrArg Prod.snd ran'
  rw [next', next, left, left']
  exact Bound.unversioned_comm (plain_of_succeeded bound own) (plain_of_succeeded bound' own') apart
    identified

/-- Two fields of one document are assigned, in either order. -/
theorem updates_commute_fields :
    let c : Container := ⟨"d", "c"⟩
    let payload : Document := KeyMap.ofList [("id", .string "o1"), ("x", .null)]
    let history : List Operation :=
      [.createCollection c, .call ⟨1, .zero, .create ⟨c, [.string "p"], false, payload⟩⟩]
    let args : List Value := [.string "o1", .bool true, .string "p"]
    let u : Update := ⟨c, .placeholder 1, [("x", .placeholder 2)]⟩
    let u' : Update := ⟨c, .placeholder 1, [("y", .placeholder 2)]⟩
    let exec := fun (u : Update) (time : Whole) (s : Store) =>
      u.exec (Store.transport 1 time) .surface args s
    let s := Store.run history Store.empty
    (exec u .zero s).1 = .ok .applied ∧ (exec u' .zero s).1 = .ok .applied ∧
      (exec u .zero (exec u' .zero s).2).1 = (exec u .zero s).1 ∧
      (exec u .zero (exec u' .zero s).2).2.unversioned =
        (exec u' .zero (exec u .zero s).2).2.unversioned := by
  intro c payload history args u u' exec s
  have bound : u.bind args = .ok ⟨⟨c, [.string "p"], "o1"⟩, [("x", .bool true)]⟩ := rfl
  have bound' : u'.bind args = .ok ⟨⟨c, [.string "p"], "o1"⟩, [("y", .bool true)]⟩ := rfl
  obtain ⟨result, -, left⟩ := updates_commute history bound bound' (by decide) (by decide)
    (.inr (by decide)) 1 .zero .zero .zero .zero .surface
  refine ⟨eq_ok_of_toOption ?_, eq_ok_of_toOption ?_, result, left⟩
  · decide +kernel
  · decide +kernel

end Update

end DocumentStore
