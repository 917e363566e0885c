import DocumentStore.Proofs.Statement.Parameters
import Mathlib.Data.List.Dedup

/- How many arguments a statement takes. A writing statement counts them before it asks for
   anything, so that each of its requests was made with as many as `numInput` says. A query asks
   instead which indices its placeholders have, and `numInput` counts their places. So it takes one
   argument for each index (`Select.length_eq_dedup`), and a query that repeats an index is never run
   with `numInput` arguments (`counted_by_index`). -/
namespace DocumentStore

open Json (Value)

variable {σ : Type} {args : List Value}

/-! Writing statements. -/

theorem length_of_checkCount {expected : Nat} (h : checkCount expected args = .ok ()) :
    args.length = expected := by
  unfold checkCount at h
  split at h
  next same => exact same
  next => cases h

theorem Statement.length_of_binding {s : Statement} (h : s.binding args = .ok ())
    (writes : ∀ q, s ≠ .select q) : args.length = s.numInput := by
  have counted : checkCount s.numInput args = .ok () := by
    cases s with
    | insert s =>
      obtain ⟨draft, hdraft, -⟩ := map_eq_ok h
      simp only [Insert.draft, bind, Except.bind] at hdraft
      split at hdraft
      · cases hdraft
      next count => exact count
    | delete s =>
      obtain ⟨address, haddress, -⟩ := map_eq_ok h
      simp only [Delete.address, bind, Except.bind] at haddress
      split at haddress
      · cases haddress
      next count => exact count
    | update s =>
      obtain ⟨bound, hbound, -⟩ := map_eq_ok h
      simp only [Update.bind, Bind.bind, Except.bind] at hbound
      split at hbound
      · cases hbound
      next count => exact count
    | select q => exact absurd rfl (writes q)
  exact length_of_checkCount counted

theorem Statement.binding_of_asked {s : Statement} (writes : ∀ q, s ≠ .select q) (t : Transport σ)
    (policy : StalePolicy) (state : σ)
    (asked : (s.exec t.transcribed policy args (state, [])).2.2 ≠ []) : s.binding args = .ok () := by
  cases bound : s.binding args with
  | ok done => rfl
  | error e =>
    rw [exec_of_unbound bound writes] at asked
    exact absurd rfl asked

/-! Queries. -/

namespace Select

variable {s : Select} {parameters : List (String × Value)}

/-- **The arguments of a query** are as many as its indices, each of them counted once. -/
theorem length_eq_dedup (h : s.bind args = .ok parameters) (nonzero : 0 ∉ s.indices) :
    args.length = s.indices.dedup.length := by
  obtain ⟨exact, -⟩ := bind_eq_ok_iff.mp h
  have perm : (List.range' 1 args.length).Perm s.indices.dedup := by
    apply (List.perm_ext_iff_of_nodup (List.nodup_range' 1) (List.nodup_dedup _)).mpr
    intro i
    rw [List.mem_dedup]
    by_cases zero : i = 0
    · subst zero
      simp [nonzero]
    · rw [exact i zero, List.mem_range'_1]
      omega
  calc args.length = (List.range' 1 args.length).length := List.length_range'.symm
    _ = s.indices.dedup.length := perm.length_eq

theorem length_eq_numInput_iff (h : s.bind args = .ok parameters) (nonzero : 0 ∉ s.indices) :
    args.length = s.numInput ↔ s.indices.Nodup := by
  rw [length_eq_dedup h nonzero, numInput]
  constructor
  · intro same
    exact List.dedup_eq_self.mp ((List.dedup_sublist s.indices).eq_of_length same)
  · intro distinct
    rw [distinct.dedup]

theorem bind_of_asked (t : Transport σ) (limit : Nat) (state : σ)
    (asked : (s.query t.transcribed limit args (state, [])).2.2 ≠ []) :
    ∃ parameters, s.bind args = .ok parameters := by
  cases bound : s.bind args with
  | ok parameters => exact ⟨parameters, rfl⟩
  | error e =>
    rw [query_of_unbound bound] at asked
    exact absurd rfl asked

end Select

namespace Statement

/-- **The number of arguments.** Take any statement, any transport and any arguments. If run as a
    writing statement it makes a request, there are as many arguments as `numInput` says. If run as
    a query it makes one, `numInput` counts its placeholders, and unless one of them has the index
    zero there are as many arguments as these have different indices: as many as `numInput` says
    exactly if no two have the same index. -/
theorem counted_by_index (s : Statement) (t : Transport σ) (policy : StalePolicy)
    (args : List Value) (limit : Nat) (state : σ) :
    ((s.exec t.transcribed policy args (state, [])).2.2 ≠ [] → args.length = s.numInput) ∧
    ((s.query t.transcribed limit args (state, [])).2.2 ≠ [] →
      s.numInput = s.placeholders.length ∧
      (0 ∉ s.placeholders → args.length = s.placeholders.dedup.length ∧
        (args.length = s.numInput ↔ s.placeholders.Nodup))) := by
  cases s with
  | insert s | delete s | update s =>
    refine ⟨fun asked => ?_, fun asked => absurd rfl asked⟩
    exact length_of_binding (binding_of_asked nofun t policy state asked) nofun
  | select q =>
    refine ⟨fun asked => absurd rfl asked, fun asked => ⟨rfl, fun nonzero => ?_⟩⟩
    obtain ⟨parameters, bound⟩ := Select.bind_of_asked t limit state asked
    exact ⟨Select.length_eq_dedup bound nonzero, Select.length_eq_numInput_iff bound nonzero⟩

/-- A query with two places for one argument. It is run with one argument, it cannot be run with
    two, and it says that it takes two. -/
theorem not_counted_twice :
    let s : Select := ⟨⟨"d", "c"⟩, false, "SELECT * FROM c WHERE c.a = @_1 OR c.b = @_1", [1, 1]⟩
    let query := fun args => (select s).query Script.transport.transcribed 1 args ({}, [])
    parse "SELECT * FROM c WHERE c.a = :1 OR c.b = :1 WITH db=d" = .ok (.select s) ∧
      (select s).numInput = 2 ∧ (query [.string "x"]).2.2 ≠ [] ∧
      query [.string "x", .string "y"] = (some (.error (.missingParameter 2)), {}, []) := by
  intro s query
  have parsed : parse "SELECT * FROM c WHERE c.a = :1 OR c.b = :1 WITH db=d" = .ok (.select s) :=
    eq_ok_of_toOption (by decide +kernel)
  exact ⟨parsed, rfl, List.cons_ne_nil _ _, rfl⟩

end Statement

end DocumentStore
