import DocumentStore.Proofs.Statement.Clauses
import DocumentStore.Proofs.Statement.SelectText

/- Which queries run across partitions: those with the marker after their keyword, and those with the
   option (`Select.cross_partition_of_parse`). The value of the option is checked only where the
   marker is missing. With the marker a query is read that refuses with its option what the marker
   asks for (`Select.not_checked_with_marker`). -/
namespace DocumentStore.Select

open Text
open Options (Clauses capitals unquote)

variable {cs rest : List Char} {word : String} {marked allowed : Bool} {options : Options}
  {s : Select}

/-! The start of a query. -/

/-- The text is the word in any case, all the white space behind it, and then the rest. -/
def Leads (word : String) (cs rest : List Char) : Prop :=
  NoBlankFirst rest ∧ ∃ found gap, Folds word found ∧ IsGap gap ∧ cs = found ++ (gap ++ rest)

/-- What follows the keyword, and the marker for all partitions where that is the next. -/
inductive Headed (cs : List Char) : Bool → List Char → Prop where
  | marked {afterSelect afterCross rest : List Char} : Leads "SELECT" cs afterSelect →
      Leads "CROSS" afterSelect afterCross → Leads "PARTITION" afterCross rest → Headed cs true rest
  | unmarked {rest : List Char} : Leads "SELECT" cs rest →
      (¬∃ afterCross more, Leads "CROSS" rest afterCross ∧ Leads "PARTITION" afterCross more) →
      Headed cs false rest

theorem leads_iff : (keyword? word cs).bind blanks? = some rest ↔ Leads word cs rest := by
  rw [Option.bind_eq_some_iff]
  constructor
  · intro h
    obtain ⟨afterWord, hword, hgap⟩ := h
    obtain ⟨found, folds, rfl⟩ := keyword?_eq_some.mp hword
    obtain ⟨first, gap, isGap, rfl⟩ := blanks?_eq_some.mp hgap
    exact ⟨first, found, gap, folds, isGap, rfl⟩
  · intro h
    obtain ⟨first, found, gap, folds, isGap, rfl⟩ := h
    exact ⟨gap ++ rest, keyword?_eq_some.mpr ⟨found, folds, rfl⟩,
      blanks?_eq_some.mpr ⟨first, gap, isGap, rfl⟩⟩

theorem keywords?_eq_some {first second : String} : keywords? first second cs = some rest ↔
    ∃ between, Leads first cs between ∧ Leads second between rest := by
  rw [keywords?, Option.bind_eq_some_iff]
  simp only [leads_iff]

theorem headed_of_head? (h : head? cs = some (marked, rest)) : Headed cs marked rest := by
  obtain ⟨afterSelect, hselect, hmarker⟩ := Option.map_eq_some_iff.mp h
  have select := leads_iff.mp hselect
  split at hmarker
  next more found =>
    cases hmarker
    obtain ⟨afterCross, cross, partition⟩ := keywords?_eq_some.mp found
    exact .marked select cross partition
  next missing =>
    cases hmarker
    refine .unmarked select fun marker => ?_
    obtain ⟨afterCross, more, found⟩ := marker
    rw [keywords?_eq_some.mpr ⟨afterCross, found⟩] at missing
    cases missing

/-! The option. -/

/-- The marker or the option is enough, and without the marker the option must say yes. -/
theorem crossPartition?_eq_ok : crossPartition? marked options = .ok allowed ↔
    allowed = (marked || (options.value? "CROSS_PARTITION").isSome) ∧
      (marked = false → ∀ flag, options.value? "CROSS_PARTITION" = some flag → isYes flag = true) := by
  rw [crossPartition?]
  cases options.value? "CROSS_PARTITION" with
  | none =>
    rw [Except.ok.injEq, Option.isSome_none, Bool.or_false]
    exact ⟨fun same => ⟨same.symm, nofun⟩, fun h => h.1.symm⟩
  | some flag =>
    cases hpass : marked || isYes flag with
    | true =>
      simp only [hpass, if_true, Except.ok.injEq, Option.isSome_some, Bool.or_true]
      refine ⟨fun same => ⟨same.symm, fun unmarked given hgiven => ?_⟩, fun h => h.1.symm⟩
      cases hgiven
      rwa [unmarked, Bool.false_or] at hpass
    | false =>
      obtain ⟨unmarked, no⟩ := Bool.or_eq_false_iff.mp hpass
      simp [unmarked, no]

/-- **Across partitions.** If a query is read, its text starts with the keyword and possibly the
    marker, and the end that is split from it consists of clauses:

    * it may run across partitions exactly if it has the marker or one of the clauses is the option;
    * without the marker the last of the clauses that are the option says yes. -/
theorem cross_partition_of_parse (parsed : Select.parse cs = .ok s) :
    ∃ marked rest clauses, Headed (trim cs) marked rest ∧ Clauses (Options.split rest).2 clauses ∧
      (s.crossPartition = true ↔
        marked = true ∨ ∃ clause ∈ clauses, capitals clause.1 = "CROSS_PARTITION") ∧
      (marked = false → ∀ before key value after, clauses = before ++ (key, value) :: after →
        capitals key = "CROSS_PARTITION" →
        (∀ clause ∈ after, capitals clause.1 ≠ "CROSS_PARTITION") →
          String.ofList (unquote value) ∈ ["1", "t", "T", "true", "TRUE", "True"]) := by
  obtain ⟨marked, rest, options, hhead, hoptions, made⟩ := parse_eq_ok.mp parsed
  obtain ⟨clauses, written⟩ := Options.clauses_split rest
  have name : capitals "CROSS_PARTITION".toList = "CROSS_PARTITION" := by decide
  obtain ⟨_, r, chosen, -, -, -, rfl⟩ := ofParts_eq_ok.mp made
  obtain ⟨allowed, yes⟩ := crossPartition?_eq_ok.mp chosen
  refine ⟨marked, rest, clauses, headed_of_head? hhead, written, ?_, ?_⟩
  · rw [allowed, Bool.or_eq_true, written.isSome_value? hoptions, name]
  · intro unmarked before key value after split here last
    rw [← name] at here last
    exact of_decide_eq_true (yes unmarked _ (written.value?_of_last hoptions split here last))

/-- Of two clauses that are the option, only the last says yes. -/
theorem cross_partition_of_parse_twice :
    let cs := "SELECT * FROM c WITH db=d WITH cross_partition=no, WITH Cross_Partition=T".toList
    ∃ s, Select.parse cs = .ok s ∧ s.crossPartition = true ∧
      ∃ marked rest clauses, Headed (trim cs) marked rest ∧ Clauses (Options.split rest).2 clauses ∧
        (marked = true ∨ ∃ clause ∈ clauses, capitals clause.1 = "CROSS_PARTITION") := by
  intro cs
  have parsed : Select.parse cs = .ok ⟨⟨"d", "c"⟩, true, "SELECT * FROM c", []⟩ :=
    eq_ok_of_toOption (by decide +kernel)
  obtain ⟨marked, rest, clauses, headed, written, runs, -⟩ := cross_partition_of_parse parsed
  exact ⟨_, parsed, rfl, marked, rest, clauses, headed, written, runs.mp rfl⟩

/-- **With the marker the option is not checked**, even if it says no. -/
theorem not_checked_with_marker :
    let cs := "SELECT CROSS PARTITION * FROM c WITH db=d WITH cross_partition=false".toList
    (∃ s, Select.parse cs = .ok s) ∧ ∃ rest before, Headed (trim cs) true rest ∧
      Clauses (Options.split rest).2 (before ++ [("cross_partition".toList, "false".toList)]) ∧
      String.ofList (unquote "false".toList) ∉ ["1", "t", "T", "true", "TRUE", "True"] := by
  intro cs
  have parsed : Select.parse cs = .ok ⟨⟨"d", "c"⟩, true, "SELECT * FROM c", []⟩ :=
    eq_ok_of_toOption (by decide +kernel)
  let rest := "* FROM c WITH db=d WITH cross_partition=false".toList
  have headed : Headed (trim cs) true rest := headed_of_head? (by decide +kernel)
  obtain ⟨clauses, written⟩ := Options.clauses_split rest
  have read : clauses = [("db".toList, "d".toList)] ++ [("cross_partition".toList, "false".toList)] :=
    (written.reads _ (Nat.le_refl _)).symm.trans (by decide +kernel)
  exact ⟨⟨_, parsed⟩, rest, _, headed, read ▸ written, by decide⟩

end DocumentStore.Select
