import DocumentStore.Json.Quoted

/- A written string is read back unit by unit, whatever text follows it (`units?_renderUnits`), and
   the units of a text denote the text (`text?_ofText`). -/
namespace DocumentStore.Json

/-- A unit that a string can hold: any character, or a surrogate half. -/
def Unit16.Valid : Unit16 → Prop
  | .char _ => True
  | .half code => Quoted.isHalf code = true

namespace Quoted

variable {c letter : Char} {rest : List Char}

/-! Escapes. -/

theorem hexDigit?_digitChar : ∀ {d : Nat}, d < 16 → hexDigit? d.digitChar = some d := by
  decide

/-- Four digits are the code again, as long as it has no more than four. -/
theorem units?_hex4 {code : Nat} (h : code < 0x10000) :
    units? ('\\' :: 'u' :: (hex4 code ++ rest)) = (units? rest).map (cons (unitOf code)) := by
  have digits : code / 4096 % 16 * 4096 + code / 256 % 16 * 256 + code / 16 % 16 * 16 + code % 16 =
      code := by omega
  simp only [hex4, List.cons_append, List.nil_append, units?, ofHex?,
    hexDigit?_digitChar (Nat.mod_lt _ (by decide : 0 < 16)), digits]

theorem ofLetter?_letterOf? (h : letterOf? c = some letter) :
    ofLetter? letter = some c ∧ letter ≠ 'u' := by
  unfold letterOf? at h
  repeat' split at h
  all_goals cases h
  all_goals
    subst c
    decide

theorem units?_letter (h : letterOf? c = some letter) :
    units? ('\\' :: letter :: rest) = (units? rest).map (cons (.char c)) := by
  obtain ⟨back, apart⟩ := ofLetter?_letterOf? h
  rw [units?, back]
  exact fun a b c d tail hletter _ => apart hletter

theorem units?_plain (h : letterOf? c = none) (visible : isControl c = false) :
    units? (c :: rest) = (units? rest).map (cons (.char c)) := by
  have quote : c ≠ '"' := by
    rintro rfl
    exact absurd h (by decide)
  have backslash : c ≠ '\\' := by
    rintro rfl
    exact absurd h (by decide)
  rw [units?, visible, Bool.false_or, if_neg (by simp [backslash])]
  -- It neither closes the string nor opens an escape.
  · exact quote
  · exact fun a b c d tail h _ => backslash h
  · exact fun a tail h _ => backslash h

/-! Units. -/

theorem units?_renderUnit {u : Unit16} (valid : u.Valid) :
    units? (renderUnit u ++ rest) = (units? rest).map (cons u) := by
  cases u with
  | half code =>
    have hcode : isHalf code = true := valid
    have bound : code < 0x10000 := by
      simp only [isHalf, Bool.and_eq_true, decide_eq_true_eq] at hcode
      omega
    rw [renderUnit, List.cons_append, List.cons_append, units?_hex4 bound, unitOf, if_pos hcode]
  | char c =>
    cases hletter : letterOf? c with
    | some letter =>
      simp only [renderUnit, hletter]
      exact units?_letter hletter
    | none =>
      cases hcontrol : isControl c with
      | false =>
        simp only [renderUnit, hletter, hcontrol, Bool.false_eq_true, if_false]
        exact units?_plain hletter hcontrol
      | true =>
        -- The code of a control character is far below the surrogates.
        have bound : c.toNat < 0x20 := by simpa [isControl] using hcontrol
        have whole : isHalf c.toNat = false := by
          simp only [isHalf, Bool.and_eq_false_iff, decide_eq_false_iff_not]
          omega
        simp only [renderUnit, hletter, hcontrol, if_true, List.cons_append]
        rw [units?_hex4 (by omega), unitOf, whole, if_neg Bool.false_ne_true, Char.ofNat_toNat]

/-- **A written string** is read back, up to its closing quote. -/
theorem units?_renderUnits {units : List Unit16} (valid : ∀ u ∈ units, u.Valid) :
    units? (renderUnits units rest) = some (units, rest) := by
  induction units with
  | nil => simp [renderUnits, units?]
  | cons u units ih =>
    rw [renderUnits, units?_renderUnit (valid u List.mem_cons_self),
      ih fun v hv => valid v (List.mem_cons_of_mem _ hv)]
    rfl

/-! Texts. -/

theorem valid_ofText (s : String) : ∀ u ∈ ofText s, u.Valid := by
  intro u hu
  obtain ⟨c, -, rfl⟩ := List.mem_map.mp hu
  trivial

theorem decode?_chars (cs : List Char) : decode? (cs.map .char) = some cs := by
  induction cs with
  | nil => rfl
  | cons c cs ih => rw [List.map_cons, decode?, ih, Option.map_some]

@[simp] theorem text?_ofText (s : String) : text? (ofText s) = some s := by
  rw [text?, ofText, decode?_chars, Option.map_some, String.ofList_toList]

end Quoted

end DocumentStore.Json
