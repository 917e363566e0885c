import DocumentStore.Proofs.Statement.Exchange
import DocumentStore.Proofs.Statement.Reading
import DocumentStore.Proofs.Store.Content
import DocumentStore.Transport.Script

/- A statement whose arguments do not fit asks nothing of its transport (`fail_fast`). Binding is
   decided by the placeholders alone: by how many there are, and by the first that refers to no
   argument. A statement that is bound makes a request, and how that is answered is not blamed on
   the arguments. -/
namespace DocumentStore

open Json (Value)

variable {σ : Type} {args : List Value} {e : Error}

/-! Placeholders. -/

/-- The placeholder refers to no argument, or to the partition key. -/
def Placeholder.dangles (args : List Value) (index : Nat) : Bool :=
  index = 0 || args.length ≤ index

def IdTerm.placeholders : IdTerm → List Nat
  | .literal _ => []
  | .placeholder index => [index]

def Operand.placeholder? : Operand → Option Nat
  | .literal _ => none
  | .placeholder index => some index

/-- The indices of all placeholders in a statement, that of the id before those of the values. -/
def Statement.placeholders : Statement → List Nat
  | .insert s => s.values.filterMap Operand.placeholder?
  | .delete s => s.id.placeholders
  | .update s => s.id.placeholders ++ s.values.filterMap Operand.placeholder?
  | .select s => s.indices

/-- Fails with the first placeholder that dangles. -/
def checkPlaceholders (args : List Value) (indices : List Nat) : Except Error Unit :=
  match indices.find? (Placeholder.dangles args) with
  | some index => .error (.placeholderIndex index)
  | none => .ok ()

theorem length_filterMap_placeholder? (operands : List Operand) :
    (operands.filterMap Operand.placeholder?).length = Operand.countPlaceholders operands := by
  rw [List.length_filterMap_eq_countP, Operand.countPlaceholders]
  congr
  funext operand
  cases operand <;> rfl

theorem length_placeholders (id : IdTerm) : id.placeholders.length = id.countPlaceholders := by
  cases id <;> rfl

theorem checkPlaceholders_append (args : List Value) (indices more : List Nat) :
    checkPlaceholders args (indices ++ more) =
      (checkPlaceholders args indices).bind fun _ => checkPlaceholders args more := by
  rw [checkPlaceholders, checkPlaceholders, List.find?_append]
  cases indices.find? (Placeholder.dangles args) <;> rfl

/-! Resolving fails as the check does. -/

theorem resolve_eq_check (index : Nat) :
    (Placeholder.resolve args index).map (fun _ => ()) = checkPlaceholders args [index] := by
  rw [checkPlaceholders, List.find?_singleton, Placeholder.resolve]
  by_cases h : index = 0 ∨ args.length ≤ index
  · have dangles : Placeholder.dangles args index = true := by simpa [Placeholder.dangles] using h
    rw [if_pos h, if_pos dangles]
    rfl
  · have refers : ¬Placeholder.dangles args index = true := by simpa [Placeholder.dangles] using h
    have inside : index - 1 < args.length := by omega
    rw [if_neg h, if_neg refers, List.getElem?_eq_getElem inside]
    rfl

theorem resolveId_eq_check (id : IdTerm) :
    (id.resolve args).map (fun _ => ()) = checkPlaceholders args id.placeholders := by
  cases id with
  | literal id => rfl
  | placeholder index =>
    rw [IdTerm.placeholders, ← resolve_eq_check, IdTerm.resolve]
    cases Placeholder.resolve args index <;> rfl

/-- Operands are resolved from the left, so that the first failure is the one reported. -/
theorem resolveAll_eq_check (args : List Value) (assignments : List (String × Operand)) :
    (Operand.resolveAll args assignments).map (fun _ => ()) =
      checkPlaceholders args ((assignments.map (·.2)).filterMap Operand.placeholder?) := by
  induction assignments with
  | nil => rfl
  | cons assignment assignments ih =>
    obtain ⟨field, operand⟩ := assignment
    cases operand with
    | literal v =>
      simp only [Operand.resolveAll, Operand.resolve, List.map_cons, List.filterMap_cons,
        Operand.placeholder?]
      rw [← ih]
      cases Operand.resolveAll args assignments <;> rfl
    | placeholder index =>
      have split := checkPlaceholders_append args [index]
        ((assignments.map (·.2)).filterMap Operand.placeholder?)
      rw [← resolve_eq_check, ← ih] at split
      simp only [Operand.resolveAll, Operand.resolve, List.map_cons, List.filterMap_cons,
        Operand.placeholder?]
      refine Eq.trans ?_ split.symm
      cases Placeholder.resolve args index with
      | error e => rfl
      | ok v => cases Operand.resolveAll args assignments <;> rfl

/-! Statements. -/

theorem partitionKey_of_count {n : Nat} (h : checkCount (1 + n) args = .ok ()) :
    ∃ partition, partitionKey args = .ok partition := by
  unfold checkCount at h
  split at h
  next count =>
    have nonempty : args ≠ [] := by
      rintro rfl
      exact absurd count (by simp; omega)
    rw [partitionKey, List.getLast?_eq_some_getLast nonempty]
    exact ⟨_, rfl⟩
  next => cases h

theorem Insert.counts_of_ofLists {container : Container} {upsert : Bool} {fields values : List Char}
    {s : Insert} (h : ofLists container upsert fields values = .ok s) :
    s.fields.length = s.values.length := by
  obtain ⟨operands, -, full, rfl⟩ := ofLists_eq_ok.mp h
  exact full

theorem binding_insert {s : Insert} (full : s.fields.length = s.values.length) :
    (Statement.insert s).binding args =
      (checkCount (1 + (Statement.insert s).placeholders.length) args).bind fun _ =>
        checkPlaceholders args (Statement.insert s).placeholders := by
  have values : (s.fields.zip s.values).map (·.2) = s.values :=
    List.map_snd_zip (Nat.le_of_eq full.symm)
  have resolved := resolveAll_eq_check args (s.fields.zip s.values)
  rw [values] at resolved
  simp only [Statement.binding, Statement.placeholders, Insert.draft, Insert.numInput,
    length_filterMap_placeholder?, bind, Except.bind, pure, Except.pure]
  cases count : checkCount (1 + Operand.countPlaceholders s.values) args with
  | error e => rfl
  | ok done =>
    obtain ⟨partition, hpartition⟩ := partitionKey_of_count count
    simp only [← resolved, hpartition]
    cases Operand.resolveAll args (s.fields.zip s.values) <;> rfl

theorem binding_delete (s : Delete) :
    (Statement.delete s).binding args =
      (checkCount (1 + (Statement.delete s).placeholders.length) args).bind fun _ =>
        checkPlaceholders args (Statement.delete s).placeholders := by
  simp only [Statement.binding, Statement.placeholders, Delete.address, Delete.numInput,
    length_placeholders, bind, Except.bind, pure, Except.pure]
  cases count : checkCount (1 + s.id.countPlaceholders) args with
  | error e => rfl
  | ok done =>
    obtain ⟨partition, hpartition⟩ := partitionKey_of_count count
    simp only [← resolveId_eq_check, hpartition]
    cases s.id.resolve args <;> rfl

theorem binding_update (s : Update) :
    (Statement.update s).binding args =
      (checkCount (1 + (Statement.update s).placeholders.length) args).bind fun _ =>
        checkPlaceholders args (Statement.update s).placeholders := by
  have resolved := resolveAll_eq_check args s.assignments
  simp only [Statement.binding, Statement.placeholders, Update.bind, Update.numInput, Update.values,
    List.length_append, length_filterMap_placeholder?, length_placeholders, ← Nat.add_assoc,
    Bind.bind, Except.bind, pure, Except.pure]
  cases count : checkCount (1 + s.id.countPlaceholders + Operand.countPlaceholders
    (s.assignments.map (·.2))) args with
  | error e => rfl
  | ok done =>
    rw [Nat.add_assoc] at count
    obtain ⟨partition, hpartition⟩ := partitionKey_of_count count
    simp only [checkPlaceholders_append, ← resolveId_eq_check, ← resolved, hpartition]
    cases s.id.resolve args with
    | error e => rfl
    | ok id => cases Operand.resolveAll args s.assignments <;> rfl

theorem binding_eq {s : Statement} (made : s.Made) (writes : ∀ q, s ≠ .select q) :
    s.binding args = (checkCount (1 + s.placeholders.length) args).bind fun _ =>
      checkPlaceholders args s.placeholders := by
  cases made with
  | insert h => exact binding_insert (Insert.counts_of_ofLists h)
  | delete h => exact binding_delete _
  | update h => exact binding_update _
  | select h => exact absurd rfl (writes _)

/-! Requests. -/

/-- The arguments do not fit the statement. -/
def Error.isMisfit : Error → Bool
  | .argumentCount _ _ | .placeholderIndex _ => true
  | _ => false

/-- If the computation fails, then not for its arguments. -/
def Answered {α : Type} (r : Except Error α) : Prop :=
  ∀ e, r = .error e → e.isMisfit = false

theorem answered_ok {α : Type} (a : α) : Answered (.ok a : Except Error α) :=
  fun _ h => (nomatch h)

theorem answered_toError {α : Type} (e : TransportError) :
    Answered (.error e.toError : Except Error α) := by
  intro _ h
  cases h
  unfold TransportError.toError
  repeat' split
  all_goals rfl

theorem answered_unlessMissing (e : TransportError) : Answered e.unlessMissing := by
  unfold TransportError.unlessMissing
  split
  · exact answered_ok _
  · exact answered_toError e

theorem answered_refused (policy : StalePolicy) (e : TransportError) :
    Answered (Update.refused policy e) := by
  unfold Update.refused
  split
  · cases policy with
    | suppress => exact answered_ok _
    | surface => exact fun _ h => by cases h; rfl
  · exact answered_unlessMissing e

/-- However a statement is answered, it has made a request, and its arguments are not blamed. -/
theorem Statement.Ran.answered {policy : StalePolicy} {s : Statement} {log : List Exchange}
    {result : Except Error Outcome} (ran : s.Ran policy args log result) :
    log ≠ [] ∧ Answered result := by
  cases ran with
  | inserted | deleted | replaced => exact ⟨List.cons_ne_nil _ _, answered_ok _⟩
  | notInserted => exact ⟨List.cons_ne_nil _ _, answered_toError _⟩
  | notDeleted | notRead => exact ⟨List.cons_ne_nil _ _, answered_unlessMissing _⟩
  | notReplaced => exact ⟨List.cons_ne_nil _ _, answered_refused policy _⟩

namespace Select

theorem pages_transcribed (t : Transport σ) (limit : Nat) (search : Search) (state : σ)
    (log : List Exchange) :
    (∃ more, (pages t.transcribed limit search (state, log)).2.2 = log ++ more ∧
      (0 < limit → more ≠ [])) ∧
    ∀ found, (pages t.transcribed limit search (state, log)).1 = some found → Answered found := by
  induction limit generalizing search state log with
  | zero =>
    exact ⟨⟨[], (List.append_nil log).symm, fun h => (nomatch h)⟩, fun _ h => (nomatch h)⟩
  | succ limit ih =>
    rcases answered : t.respond (.search search) state with ⟨answer, next⟩
    have answered := Transport.transcribed_respond answered log
    cases answer with
    | error e =>
      rw [pages_of_refused answered]
      refine ⟨⟨_, rfl, fun _ => List.cons_ne_nil _ _⟩, fun found h => ?_⟩
      cases h
      exact answered_toError e
    | ok page =>
      cases hnext : page.next? with
      | none =>
        rw [pages_of_last answered hnext]
        refine ⟨⟨_, rfl, fun _ => List.cons_ne_nil _ _⟩, fun found h => ?_⟩
        cases h
        exact answered_ok _
      | some token =>
        rw [pages_of_next answered hnext]
        obtain ⟨⟨more, longer, -⟩, others⟩ := ih { search with continuation := some token } next
          (log ++ [⟨.search search, .ok page⟩])
        refine ⟨⟨⟨.search search, .ok page⟩ :: more, ?_, fun _ => List.cons_ne_nil _ _⟩,
          fun found h => ?_⟩
        · rw [longer, List.append_assoc, List.singleton_append]
        · obtain ⟨rest, hrest, rfl⟩ := Option.map_eq_some_iff.mp h
          cases rest with
          | error e => exact fun _ same => others _ hrest _ (by cases same; rfl)
          | ok rest => exact answered_ok _

theorem query_of_unbound {q : Select} (h : q.bind args = .error e) (t : Transport σ) (limit : Nat)
    (state : σ) : q.query t limit args state = (some (.error e), state) := by
  simp only [query, search, h, Bind.bind, Except.bind]

theorem query_of_bound {q : Select} {parameters : List (String × Value)}
    (h : q.bind args = .ok parameters) (t : Transport σ) (limit : Nat) (state : σ) :
    (q.query t.transcribed (limit + 1) args (state, [])).2.2 ≠ [] ∧
      ∀ found, (q.query t.transcribed (limit + 1) args (state, [])).1 = some found →
        Answered found := by
  simp only [query, search, h, Bind.bind, Except.bind, pure, Except.pure]
  obtain ⟨⟨more, longer, nonempty⟩, answered⟩ := pages_transcribed t (limit + 1)
    ⟨q.container, q.text, parameters, q.crossPartition, none⟩ state []
  refine ⟨?_, fun found h => ?_⟩
  · rw [longer]
    exact nonempty (Nat.succ_pos limit)
  · obtain ⟨rest, hrest, rfl⟩ := Option.map_eq_some_iff.mp h
    cases rest with
    | error e => exact fun _ same => answered _ hrest _ (by cases same; rfl)
    | ok rest => exact answered_ok _

end Select

namespace Statement

theorem binding_cases {s : Statement} (made : s.Made) (writes : ∀ q, s ≠ .select q)
    (args : List Value) :
    (args.length ≠ 1 + s.placeholders.length ∧
      s.binding args = .error (.argumentCount (1 + s.placeholders.length) args.length)) ∨
    (args.length = 1 + s.placeholders.length ∧ ∃ index,
      s.placeholders.find? (Placeholder.dangles args) = some index ∧
      s.binding args = .error (.placeholderIndex index)) ∨
    (args.length = 1 + s.placeholders.length ∧
      s.placeholders.find? (Placeholder.dangles args) = none ∧ s.binding args = .ok ()) := by
  rw [binding_eq made writes, checkCount]
  by_cases fits : args.length = 1 + s.placeholders.length
  · rw [if_pos fits, Except.bind, checkPlaceholders]
    cases found : s.placeholders.find? (Placeholder.dangles args) with
    | some index => exact .inr (.inl ⟨fits, index, rfl, rfl⟩)
    | none => exact .inr (.inr ⟨fits, rfl, rfl⟩)
  · rw [if_neg fits]
    exact .inl ⟨fits, rfl⟩

/-- **Fail fast.** Take a statement that has been read from a text, any transport and any arguments.
    A writing statement

    * fails by the number of arguments exactly if this is not one more than the placeholders in it,
    * and else by the index of its first placeholder that is zero or reaches the partition key, in
      the order of the id and the values, if there is one;
    * in both cases it makes no request, and in any other case it makes one at least.

    A query makes no request if it is not bound, and else at least one, and is not blamed on the
    arguments then. Nor is a request made if a statement is run in the other mode. -/
theorem fail_fast {text : String} {s : Statement} (parsed : parse text = .ok s) (t : Transport σ)
    (policy : StalePolicy) (args : List Value) (limit : Nat) (state : σ) :
    let ran := s.exec t.transcribed policy args (state, [])
    let asked := s.query t.transcribed (limit + 1) args (state, [])
    let count := 1 + s.placeholders.length
    let dangling := s.placeholders.find? fun index => index = 0 || args.length ≤ index
    match s with
    | .select q =>
      ran = (.error (.unsupported .query), state, []) ∧
      (∀ e, q.bind args = .error e → asked = (some (.error e), state, [])) ∧
      (∀ parameters, q.bind args = .ok parameters → asked.2.2 ≠ [] ∧
        ∀ found, asked.1 = some found → Answered found)
    | _ =>
      asked = (some (.error (.unsupported .exec)), state, []) ∧
      (∀ expected actual, ran.1 = .error (.argumentCount expected actual) ↔
        args.length ≠ count ∧ expected = count ∧ actual = args.length) ∧
      (∀ index, ran.1 = .error (.placeholderIndex index) ↔
        args.length = count ∧ dangling = some index) ∧
      (args.length ≠ count ∨ dangling ≠ none → ran.2 = (state, [])) ∧
      (args.length = count ∧ dangling = none → ran.2.2 ≠ []) := by
  intro ran asked count dangling
  have writing (writes : ∀ q, s ≠ .select q) :
      (∀ expected actual, ran.1 = .error (.argumentCount expected actual) ↔
        args.length ≠ count ∧ expected = count ∧ actual = args.length) ∧
      (∀ index, ran.1 = .error (.placeholderIndex index) ↔
        args.length = count ∧ dangling = some index) ∧
      (args.length ≠ count ∨ dangling ≠ none → ran.2 = (state, [])) ∧
      (args.length = count ∧ dangling = none → ran.2.2 ≠ []) := by
    rcases binding_cases (made_of_parse parsed) writes args with
      ⟨misfit, unbound⟩ | ⟨fits, index, found, unbound⟩ | ⟨fits, found, bound⟩
    · have hran : ran = (.error (.argumentCount count args.length), state, []) :=
        exec_of_unbound unbound writes t.transcribed policy (state, [])
      have misfit : args.length ≠ count := misfit
      simp [hran, misfit, eq_comm]
    · have hran : ran = (.error (.placeholderIndex index), state, []) :=
        exec_of_unbound unbound writes t.transcribed policy (state, [])
      have hdangling : dangling = some index := found
      simp [hran, fits, hdangling, count]
    · obtain ⟨nonempty, answered⟩ := (ran_of_bound bound writes t policy state).answered
      have hdangling : dangling = none := found
      refine ⟨fun expected actual => ⟨fun h => ?_, fun h => absurd fits h.1⟩,
        fun index => ⟨fun h => ?_, fun h => ?_⟩, fun h => ?_, fun _ => nonempty⟩
      · exact absurd (answered _ h) (by simp [Error.isMisfit])
      · exact absurd (answered _ h) (by simp [Error.isMisfit])
      · exact absurd (hdangling.symm.trans h.2) (by simp)
      · exact absurd hdangling (h.resolve_left fun h => h fits)
  cases s with
  | insert | delete | update => exact ⟨rfl, writing fun q h => nomatch h⟩
  | select q =>
    refine ⟨rfl, fun e h => ?_, fun parameters h => ?_⟩
    · exact Select.query_of_unbound h t.transcribed (limit + 1) (state, [])
    · exact Select.query_of_bound h t limit state

/-- Of the placeholders 1, 3 and 0 of this UPDATE the last dangles. It is looked at before anything
    is asked of the transport. -/
theorem fail_fast_of_zero :
    let text := "UPDATE d.c SET x=:3, y=:0 WHERE id=:1"
    let s : Update := ⟨⟨"d", "c"⟩, .placeholder 1, [("x", .placeholder 3), ("y", .placeholder 0)]⟩
    let args : List Value := [.string "o1", .null, .bool true, .string "p"]
    parse text = .ok (.update s) ∧
      (exec (.update s) Script.transport.transcribed .suppress args ({}, [])).1 =
        .error (.placeholderIndex 0) ∧
      (exec (.update s) Script.transport.transcribed .suppress args ({}, [])).2.2 = [] := by
  intro text s args
  have parsed : parse text = .ok (.update s) := eq_ok_of_toOption (by decide +kernel)
  obtain ⟨-, -, index, idle, -⟩ := fail_fast parsed Script.transport .suppress args 0 {}
  have dangling : (s.id.placeholders ++ s.values.filterMap Operand.placeholder?).find?
      (fun index => index = 0 || args.length ≤ index) = some 0 := by decide
  refine ⟨parsed, (index 0).mpr ⟨rfl, dangling⟩, congrArg Prod.snd (idle (.inr ?_))⟩
  exact fun none => nomatch dangling.symm.trans none

end Statement

end DocumentStore
