import DocumentStore.Proofs.Statement.IdGrammar
import DocumentStore.Proofs.Statement.Parameters
import DocumentStore.Proofs.Statement.Progress

/- A text that is one placeholder and nothing else: a sigil and the digits of an index
   (`Placeholder.IsWritten`). There is a reader for just such a text, but a list of operands, a query
   and an id are each read in a way of their own, and may turn out to be one placeholder. They do so
   for the same texts, with the same index (`Placeholder.one_placeholder`). Blanks and commas are left
   out, as lists and ids pass over them. -/
namespace DocumentStore

open Text
open QueryText (NoDigitFirst Parametrized Rewrites parameterName parametrize)

variable {cs rest : List Char} {n : Nat}

/-- No blank and no comma stands in the text. -/
def Unseparated (cs : List Char) : Prop :=
  ∀ c ∈ cs, isBlank c = false ∧ c ≠ ','

instance (cs : List Char) : Decidable (Unseparated cs) :=
  inferInstanceAs (Decidable (∀ c ∈ cs, _))

theorem Unseparated.of_suffix (h : Unseparated cs) (suffix : rest <:+ cs) : Unseparated rest :=
  fun c hc => h c (suffix.subset hc)

theorem Unseparated.noGapFirst (h : Unseparated cs) : NoGapFirst cs :=
  fun c hc => h c (List.mem_of_head? hc)

theorem Unseparated.noBlankLast (h : Unseparated cs) : NoBlankLast cs :=
  fun c hc => (h c (List.mem_of_getLast? hc)).1

namespace Placeholder

/-- The text is a sigil with the digits of the index behind it, which is below the limit of indices. -/
def IsWritten (n : Nat) (cs : List Char) : Prop :=
  ∃ sigil digits, cs = sigil :: digits ∧ isSigil sigil = true ∧ digits ≠ [] ∧
    (∀ d ∈ digits, d.isDigit = true) ∧ Nat.ofDigitChars 10 digits 0 = n ∧ n < indexLimit

theorem isWritten_iff : IsWritten n cs ↔
    ∃ sigil digits, cs = sigil :: digits ∧ isSigil sigil = true ∧ index? digits = some n := by
  simp only [IsWritten, index?_eq_some]

theorem ofText?_eq_some : ofText? cs = some n ↔ IsWritten n cs := by
  rw [isWritten_iff]
  cases cs with
  | nil => exact ⟨nofun, nofun⟩
  | cons sigil digits =>
    rw [ofText?, Option.ite_none_right_eq_some]
    constructor
    · rintro ⟨hsigil, hindex⟩
      exact ⟨sigil, digits, rfl, hsigil, hindex⟩
    · rintro ⟨_, _, split, hsigil, hindex⟩
      cases split
      exact ⟨hsigil, hindex⟩

end Placeholder

open Placeholder (IsWritten isWritten_iff)

/-! A list of operands. -/

namespace ValueList

theorem isWritten_of_operands (plain : Unseparated cs) (h : operands cs = .ok [.placeholder n]) :
    IsWritten n cs := by
  cases operands_eq_ok.mp h with
  | @more _ rest _ _ _ hnext later =>
    obtain ⟨behind, taken, rfl⟩ := next_eq_found hnext
    rw [skipBlanks_of_noBlankFirst plain.noGapFirst.noBlankFirst] at taken
    have others : Unseparated behind := plain.of_suffix taken.suffix
    have skipped : skipSeparator behind = behind := gap_nil.skipSeparator others.noGapFirst
    rw [skipped] at later
    cases taken with
    | @placeholder sigil digits _ _ hsigil hindex split =>
      subst split
      have nothing : behind = [] := by
        cases later with
        | done hend =>
          have blank := next_eq_none.mp (congrArg Prod.fst hend)
          refine List.eq_nil_iff_forall_not_mem.mpr fun c hc => ?_
          have apart := (others c hc).1
          rw [blank c hc] at apart
          cases apart
      rw [nothing, List.append_nil]
      exact isWritten_iff.mpr ⟨sigil, digits, rfl, hsigil, hindex⟩

theorem operands_of_isWritten (h : IsWritten n cs) : operands cs = .ok [.placeholder n] := by
  obtain ⟨sigil, digits, rfl, hsigil, hindex⟩ := isWritten_iff.mp h
  have written := Operand.Written.placeholder hsigil hindex
  have read := operands_written (.cons written .nil)
  rwa [List.intercalate_singleton] at read

end ValueList

/-! A query. -/

namespace QueryText

variable {r : Parametrized}

theorem Rewrites.sign_mem (h : Rewrites cs r) (some : r.indices ≠ []) : '@' ∈ r.text := by
  obtain ⟨index, others, hindices⟩ := List.exists_cons_of_ne_nil some
  obtain ⟨before, after, text, -⟩ := h.hasParameter (hindices ▸ List.mem_cons_self)
  rw [text, toList_parameterName]
  simp

theorem Rewrites.eq_nil (h : Rewrites cs r) (empty : r.text = []) : cs = [] := by
  cases h with
  | nil => rfl
  | keep _ _ => cases empty
  | placeholder _ _ _ _ _ =>
    rw [toList_parameterName] at empty
    cases empty

/-- The one parameter of a text is all of it only where a placeholder was all of it. -/
theorem isWritten_of_parametrize (h : parametrize cs = .ok r)
    (text : r.text = (parameterName n).toList) (one : r.indices.length = 1) : IsWritten n cs := by
  have number : ∀ c ∈ Nat.toDigits 10 n, c.isDigit = true :=
    fun c => Nat.isDigit_of_mem_toDigits (by decide) (by decide)
  cases rewrites_of_parametrize h with
  | nil => cases one
  | @keep _ _ r _ rewritten =>
    -- The sign was kept, so the parameter is behind it, and has a sign of its own.
    have some : r.indices ≠ [] := List.ne_nil_of_length_eq_add_one one
    have sign := rewritten.sign_mem some
    rw [toList_parameterName] at text
    rw [(List.cons.inj text).2] at sign
    rcases List.mem_cons.mp sign with sign | sign
    · cases sign
    · cases number '@' sign
  | @placeholder sigil digits rest index r hsigil hdigits stop hindex rewritten =>
    have digits_append : Nat.toDigits 10 index ++ r.text = Nat.toDigits 10 n := by
      simpa [toList_parameterName] using text
    have nothing : r.text = [] := by
      cases behind : r.text with
      | nil => rfl
      | cons c more =>
        have mem : c ∈ Nat.toDigits 10 n := by
          rw [← digits_append, behind]
          exact List.mem_append_right _ List.mem_cons_self
        have digit : isDecimalDigit c = true := class_of_isDigit (by decide) (number c mem)
        rw [rewritten.noDigitFirst stop c (by rw [behind]; rfl)] at digit
        cases digit
    obtain rfl : rest = [] := rewritten.eq_nil nothing
    have same : index = n := by
      dsimp only at text
      rw [nothing, List.append_nil] at text
      exact parameterName_injective (String.toList_inj.mp text)
    rw [List.append_nil, ← same]
    exact isWritten_iff.mpr ⟨sigil, digits, rfl, hsigil, hindex⟩

theorem parametrize_of_isWritten (h : IsWritten n cs) :
    parametrize cs = .ok ⟨(parameterName n).toList, [n]⟩ := by
  obtain ⟨sigil, digits, rfl, hsigil, hindex⟩ := isWritten_iff.mp h
  obtain ⟨-, hdigits⟩ := digits_of_index? hindex
  have decimal : ∀ d ∈ digits, isDecimalDigit d = true :=
    fun d hd => class_of_isDigit (by decide) (hdigits d hd)
  have rewritten := Rewrites.placeholder hsigil decimal noDigitFirst_nil hindex .nil
  rw [List.append_nil] at rewritten
  have read := rewritten.parametrize
  rwa [List.append_nil] at read

end QueryText

/-! An id. -/

theorem IdTerm.parse_eq_placeholder (plain : Unseparated cs) (positive : 1 ≤ n) :
    parse cs = .ok (.placeholder n) ↔ IsWritten n cs := by
  rw [parse, trim_eq plain.noGapFirst.noBlankFirst plain.noBlankLast]
  constructor
  · intro read
    rcases ofTrimmed_eq_ok.mp read with denoted | ⟨-, literal⟩
    · cases denoted with
      | placeholder hsigil nonempty digits number _ fits =>
        exact ⟨_, _, rfl, hsigil, nonempty, digits, number, fits⟩
    · cases literal
  · intro h
    obtain ⟨sigil, digits, rfl, hsigil, hindex⟩ := isWritten_iff.mp h
    exact ofTrimmed_placeholder hsigil hindex (by omega)

/-- **One placeholder.** For a text without blanks and commas it is the same

    * to be read as the placeholder of an index;
    * to be a sigil with the digits of the index;
    * to be the list of that one operand;
    * to be the query that is rewritten to the parameter of the index, with one placeholder in it;
    * unless the index is zero, to be the id that stands for the argument. -/
theorem Placeholder.one_placeholder (plain : Unseparated cs) (n : Nat) :
    (ofText? cs = some n ↔ IsWritten n cs) ∧
    (ofText? cs = some n ↔ ValueList.operands cs = .ok [.placeholder n]) ∧
    (ofText? cs = some n ↔ ∃ r, parametrize cs = .ok r ∧
      r.text = (parameterName n).toList ∧ r.indices.length = 1) ∧
    (1 ≤ n → (ofText? cs = some n ↔ IdTerm.parse cs = .ok (.placeholder n))) := by
  rw [ofText?_eq_some]
  refine ⟨Iff.rfl, ⟨ValueList.operands_of_isWritten, ValueList.isWritten_of_operands plain⟩,
    ⟨fun h => ?_, ?_⟩, fun positive => (IdTerm.parse_eq_placeholder plain positive).symm⟩
  · exact ⟨_, QueryText.parametrize_of_isWritten h, rfl, rfl⟩
  · rintro ⟨r, h, text, one⟩
    exact QueryText.isWritten_of_parametrize h text one

/-- Zeros before the index do not show in the parameter. -/
theorem Placeholder.one_placeholder_zeros :
    let cs := "$0042".toList
    Unseparated cs ∧ ofText? cs = some 42 ∧ ValueList.operands cs = .ok [.placeholder 42] ∧
      (∃ r, parametrize cs = .ok r ∧ r.text = "@_42".toList ∧ r.indices.length = 1) ∧
      IdTerm.parse cs = .ok (.placeholder 42) := by
  intro cs
  have plain : Unseparated cs := by decide
  have read : ofText? cs = some 42 := by decide
  obtain ⟨-, operands, query, id⟩ := one_placeholder plain 42
  exact ⟨plain, read, operands.mp read, query.mp read, (id (by decide)).mp read⟩

/-- With a comma or a blank at its ends a text is more than a placeholder, but reads as one. -/
example : ValueList.operands ":1,".toList = .ok [.placeholder 1] ∧
    IdTerm.parse " :1".toList = .ok (.placeholder 1) ∧
    Placeholder.ofText? ":1,".toList = none ∧ Placeholder.ofText? " :1".toList = none := by
  decide

end DocumentStore
