import DocumentStore.Proofs.Json.Value
import DocumentStore.Proofs.Statement.Progress
import DocumentStore.Proofs.Statement.Reading

/- The values that a statement brings along. Each literal of a statement was read from a JSON text,
   so its objects are in key order (`sorted_parse`). -/
namespace DocumentStore

open Json (Value)

/-! Reading. -/

namespace ValueList

/-- If the reader finds an operand, its literal is in key order. -/
def FindsSorted (found : Option (Step Operand)) : Prop :=
  ∀ operand rest, found = some (.ok operand, rest) → operand.Holds Value.Sorted

theorem findsSorted_orElse {first second : Option (Step Operand)} (h : FindsSorted first)
    (h' : FindsSorted second) : FindsSorted (first <|> second) := by
  intro operand rest found
  cases first with
  | none => exact h' operand rest found
  | some step => exact h operand rest found

theorem findsSorted_placeholder? (cs : List Char) : FindsSorted (placeholder? cs) := by
  intro operand rest found
  unfold placeholder? at found
  split at found
  · split at found
    · simp only at found
      split at found <;> cases found
      trivial
    · cases found
  · cases found

theorem findsSorted_bareWord? {v : Value} (sorted : v.Sorted) (word : String) (cs : List Char) :
    FindsSorted (bareWord? word v cs) := by
  intro operand rest found
  unfold bareWord? at found
  split at found
  · split at found <;> cases found
    exact sorted
  · cases found

theorem findsSorted_number? (cs : List Char) : FindsSorted (number? cs) := by
  intro operand rest found
  unfold number? at found
  split at found
  · simp only at found
    split at found
    next v hv =>
      split at found <;> cases found
      exact Value.sorted_of_read? hv
    next => cases found
  · cases found

theorem sorted_content {literal : String} {v : Value} (h : content literal = .ok v) : v.Sorted := by
  unfold content at h
  split at h
  · cases h
  · split at h
    · cases h
    next hv =>
      cases h
      exact Value.sorted_of_read? hv

theorem findsSorted_quoted? (cs : List Char) : FindsSorted (quoted? cs) := by
  intro operand rest found
  unfold quoted? at found
  split at found
  · split at found
    · cases found
    next body tail _ =>
      rw [Option.some.injEq, Prod.mk.injEq] at found
      cases hv : content (String.ofList ('"' :: body)) with
      | error e =>
        rw [hv] at found
        cases found.1
      | ok v =>
        rw [hv] at found
        cases found.1
        exact sorted_content hv
  · cases found

theorem sorted_of_findsSorted {found : Option (Step Operand)} {fault : ParseFault}
    {cs rest : List Char} {operand : Operand} (sound : FindsSorted found)
    (h : found.getD (fail fault cs) = (.ok operand, rest)) : operand.Holds Value.Sorted := by
  cases found with
  | none => cases h
  | some step => exact sound operand rest (congrArg some h)

theorem sorted_operand {cs rest : List Char} {found : Operand}
    (h : operand cs = (.ok found, rest)) : found.Holds Value.Sorted :=
  sorted_of_findsSorted
    (findsSorted_orElse (findsSorted_placeholder? cs)
      (findsSorted_orElse (findsSorted_bareWord? (v := .null) trivial "null" cs)
        (findsSorted_orElse (findsSorted_number? cs)
          (findsSorted_orElse (findsSorted_bareWord? (v := .bool true) trivial "true" cs)
            (findsSorted_orElse (findsSorted_bareWord? (v := .bool false) trivial "false" cs)
              (findsSorted_quoted? cs)))))) h

theorem sorted_next {cs rest : List Char} {found : Operand}
    (h : next cs = (.ok (some found), rest)) : found.Holds Value.Sorted := by
  unfold next at h
  split at h
  · cases h
  · split at h
    next hfound =>
      cases h
      exact sorted_operand hfound
    next => cases h

theorem sorted_operands {cs : List Char} {found : List Operand} (h : operands cs = .ok found) :
    ∀ operand ∈ found, operand.Holds Value.Sorted := by
  intro operand hoperand
  obtain ⟨_, _, hnext⟩ := (operands_eq_ok.mp h).exists_round operand hoperand
  exact sorted_next hnext

theorem steps_of_assignments {clause : List Char} {found : List (String × Operand)}
    (h : assignments clause = .ok found) : ∀ assignment ∈ found, ∃ start behind rest,
      field start = (.ok assignment.1, behind) ∧ next behind = (.ok (some assignment.2), rest) := by
  intro assignment hassignment
  obtain ⟨start, rest, hround⟩ := (assignments_eq_ok.mp h).exists_round assignment hassignment
  obtain ⟨behind, hfield, hnext⟩ := assignment_eq_found.mp hround
  exact ⟨start, behind, rest, hfield, hnext⟩

end ValueList

/-! Statements. -/

theorem sorted_ofLists {container : Container} {upsert : Bool} {fields values : List Char}
    {s : Insert} (h : Insert.ofLists container upsert fields values = .ok s) :
    ∀ operand ∈ s.values, operand.Holds Value.Sorted := by
  obtain ⟨operands, hoperands, -, rfl⟩ := Insert.ofLists_eq_ok.mp h
  exact ValueList.sorted_operands hoperands

theorem sorted_ofClauses {container : Container} {clause id : List Char} {s : Update}
    (h : Update.ofClauses container clause id = .ok s) :
    ∀ assignment ∈ s.assignments, assignment.2.Holds Value.Sorted := by
  obtain ⟨term, assignments, -, hassignments, -, -, rfl⟩ := Update.ofClauses_eq_ok.mp h
  intro assignment hassignment
  obtain ⟨_, _, _, -, hnext⟩ := ValueList.steps_of_assignments hassignments assignment hassignment
  exact ValueList.sorted_next hnext

namespace Statement

/-- **The literals** of a statement are in key order. -/
theorem sorted_parse {text : String} {s : Statement} (h : parse text = .ok s) :
    s.Holds Value.Sorted := by
  cases made_of_parse h with
  | insert hs => exact sorted_ofLists hs
  | delete hs => trivial
  | update hs => exact sorted_ofClauses hs
  | select hs => trivial

end Statement

end DocumentStore
