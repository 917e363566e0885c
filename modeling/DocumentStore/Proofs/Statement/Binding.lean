import DocumentStore.Execution
import DocumentStore.Proofs.KeyMap

/- What a statement is bound to. The values that it writes are its literals and its arguments, and
   for an UPDATE those of the document that it has read: what holds of these holds of all that it
   writes (`Insert.holds_draft`, `Update.holds_draft`). The partition key is the last argument. -/
namespace DocumentStore

open Json (Value)

variable {args : List Value} {p : Value → Prop}

/-! The parts of a binding. -/

theorem map_eq_ok {α β : Type} {f : α → β} {r : Except Error α} {b : β} (h : r.map f = .ok b) :
    ∃ a, r = .ok a ∧ f a = b := by
  cases r with
  | error e => cases h
  | ok a =>
    cases h
    exact ⟨a, rfl, rfl⟩

theorem map_eq_error {α β : Type} {f : α → β} {r : Except Error α} {e : Error}
    (h : r.map f = .error e) : r = .error e := by
  cases r with
  | error e =>
    cases h
    rfl
  | ok a => cases h

theorem partitionKey_eq_ok {partition : List Value} (h : partitionKey args = .ok partition) :
    ∃ last, args.getLast? = some last ∧ partition = [last] := by
  unfold partitionKey at h
  split at h <;> cases h
  next last hlast => exact ⟨last, hlast, rfl⟩

theorem Insert.draft_eq_ok {s : Insert} {draft : Draft} (h : s.draft args = .ok draft) :
    ∃ entries partition, Operand.resolveAll args (s.fields.zip s.values) = .ok entries ∧
      partitionKey args = .ok partition ∧
      draft = ⟨s.container, partition, s.upsert, KeyMap.ofList entries⟩ := by
  simp only [Insert.draft, bind, Except.bind, pure, Except.pure] at h
  split at h
  · cases h
  · split at h
    · cases h
    next entries hentries =>
      split at h <;> cases h
      next partition hpartition => exact ⟨entries, partition, hentries, hpartition, rfl⟩

theorem Delete.address_eq_ok {s : Delete} {a : Address} (h : s.address args = .ok a) :
    ∃ id partition, s.id.resolve args = .ok id ∧ partitionKey args = .ok partition ∧
      a = ⟨s.container, partition, id⟩ := by
  simp only [address, bind, Except.bind, pure, Except.pure] at h
  split at h
  · cases h
  · split at h
    · cases h
    next id hid =>
      split at h <;> cases h
      next partition hpartition => exact ⟨id, partition, hid, hpartition, rfl⟩

theorem Update.bind_eq_ok {s : Update} {bound : Bound} (h : s.bind args = .ok bound) :
    ∃ id partition values, s.id.resolve args = .ok id ∧ partitionKey args = .ok partition ∧
      Operand.resolveAll args s.assignments = .ok values ∧
      bound = ⟨⟨s.container, partition, id⟩, values⟩ := by
  simp only [Update.bind, Bind.bind, Except.bind, pure, Except.pure] at h
  split at h
  · cases h
  · split at h
    · cases h
    next id hid =>
      split at h
      · cases h
      next partition hpartition =>
        split at h <;> cases h
        next values hvalues => exact ⟨id, partition, values, hid, hpartition, hvalues, rfl⟩

theorem Operand.fields_resolveAll {assignments : List (String × Operand)}
    {values : List (String × Value)} (h : resolveAll args assignments = .ok values) :
    values.map (·.1) = assignments.map (·.1) := by
  induction assignments generalizing values with
  | nil =>
    cases h
    rfl
  | cons assignment assignments ih =>
    obtain ⟨field, operand⟩ := assignment
    rw [resolveAll] at h
    split at h
    · cases h
    next v hv =>
      obtain ⟨others, hothers, rfl⟩ := map_eq_ok h
      rw [List.map_cons, List.map_cons, ih hothers]

/-- Of two operands for one field the later counts, in what they are resolved to as well. -/
theorem lookup_resolveAll {assignments : List (String × Operand)} {entries : List (String × Value)}
    (h : Operand.resolveAll args assignments = .ok entries) (field : String) :
    (entries.reverse.lookup field).map .ok =
      (assignments.reverse.lookup field).map (Operand.resolve args) := by
  induction assignments generalizing entries with
  | nil =>
    cases h
    rfl
  | cons assignment assignments ih =>
    obtain ⟨name, operand⟩ := assignment
    rw [Operand.resolveAll] at h
    split at h
    next => cases h
    next v hv =>
      obtain ⟨others, hothers, rfl⟩ := map_eq_ok h
      rw [List.reverse_cons, List.reverse_cons, List.lookup_append, List.lookup_append,
        Option.map_or, Option.map_or, ih hothers, KeyMap.lookup_cons_eq, KeyMap.lookup_cons_eq]
      split
      next => rw [Option.map_some, Option.map_some, hv]
      next => rfl

/-! What holds of literals and arguments. -/

/-- If the operand is a literal, its value has the property. -/
def Operand.Holds (p : Value → Prop) : Operand → Prop
  | .literal v => p v
  | .placeholder _ => True

/-- The values that a statement assigns have the property. -/
def Statement.Holds (p : Value → Prop) : Statement → Prop
  | .insert s => ∀ operand ∈ s.values, operand.Holds p
  | .update s => ∀ assignment ∈ s.assignments, assignment.2.Holds p
  | .delete _ | .select _ => True

theorem Operand.Holds.and {q : Value → Prop} {operand : Operand} (h : operand.Holds p)
    (h' : operand.Holds q) : operand.Holds fun v => p v ∧ q v := by
  cases operand with
  | literal v => exact ⟨h, h'⟩
  | placeholder index => trivial

theorem Statement.Holds.and {q : Value → Prop} {s : Statement} (h : s.Holds p) (h' : s.Holds q) :
    s.Holds fun v => p v ∧ q v := by
  cases s with
  | insert s => exact fun operand hoperand => (h operand hoperand).and (h' operand hoperand)
  | update s =>
    exact fun assignment hassignment => (h assignment hassignment).and (h' assignment hassignment)
  | delete s => trivial
  | select s => trivial

/-- What a draft would store has the property. -/
structure Draft.Holds (p : Value → Prop) (draft : Draft) : Prop where
  partition : ∀ v ∈ draft.partition, p v
  payload : ∀ e ∈ draft.payload.entries, p e.2

theorem holds_resolve (hargs : ∀ v ∈ args, p v) {operand : Operand} {v : Value}
    (holds : operand.Holds p) (h : operand.resolve args = .ok v) : p v := by
  cases operand with
  | literal w =>
    cases h
    exact holds
  | placeholder index =>
    rw [Operand.resolve, Placeholder.resolve] at h
    split at h
    · cases h
    · split at h <;> cases h
      next hv => exact hargs _ (List.mem_of_getElem? hv)

theorem holds_resolveAll (hargs : ∀ v ∈ args, p v) {assignments : List (String × Operand)}
    {entries : List (String × Value)} (holds : ∀ assignment ∈ assignments, assignment.2.Holds p)
    (h : Operand.resolveAll args assignments = .ok entries) : ∀ e ∈ entries, p e.2 := by
  induction assignments generalizing entries with
  | nil =>
    cases h
    exact List.forall_mem_nil _
  | cons assignment assignments ih =>
    obtain ⟨first, others⟩ := List.forall_mem_cons.mp holds
    rw [Operand.resolveAll] at h
    split at h
    next => cases h
    next v hv =>
      cases hrest : Operand.resolveAll args assignments with
      | error e =>
        rw [hrest] at h
        cases h
      | ok rest =>
        rw [hrest] at h
        cases h
        exact List.forall_mem_cons.mpr ⟨holds_resolve hargs first hv, ih others hrest⟩

theorem holds_partitionKey (hargs : ∀ v ∈ args, p v) {partition : List Value}
    (h : partitionKey args = .ok partition) : ∀ v ∈ partition, p v := by
  obtain ⟨last, hlast, rfl⟩ := partitionKey_eq_ok h
  intro v hv
  rw [List.mem_singleton.mp hv]
  exact hargs _ (List.mem_of_getLast? hlast)

theorem Insert.holds_draft (hargs : ∀ v ∈ args, p v) {s : Insert} {draft : Draft}
    (holds : ∀ operand ∈ s.values, operand.Holds p) (h : s.draft args = .ok draft) :
    draft.Holds p := by
  obtain ⟨entries, partition, hentries, hpartition, rfl⟩ := draft_eq_ok h
  have assigned : ∀ assignment ∈ s.fields.zip s.values, assignment.2.Holds p :=
    fun assignment h => holds _ (List.of_mem_zip h).2
  exact ⟨holds_partitionKey hargs hpartition,
    fun e he => holds_resolveAll hargs assigned hentries e (KeyMap.mem_ofList he)⟩

theorem Update.holds_draft (hargs : ∀ v ∈ args, p v) {s : Update} {bound : Bound}
    (holds : ∀ assignment ∈ s.assignments, assignment.2.Holds p) (h : s.bind args = .ok bound)
    {current : Document} (hcurrent : ∀ e ∈ current.entries, p e.2) :
    (bound.draft current).Holds p := by
  obtain ⟨id, partition, values, -, hpartition, hvalues, rfl⟩ := bind_eq_ok h
  refine ⟨holds_partitionKey hargs hpartition, fun e he => ?_⟩
  -- A field is assigned, or it is left of the document.
  rcases KeyMap.mem_insertAll he with he | he
  · exact hcurrent e (List.mem_filter.mp he).1
  · exact holds_resolveAll hargs holds hvalues e he

end DocumentStore
