import DocumentStore.Json.Numeral
import DocumentStore.Proofs.Text.Scan

/- A written number is read back, whatever follows it, unless that would continue it
   (`read?_render`). -/
namespace DocumentStore.Json.Numeral

/-- Digits, of which there is at least one. -/
def Digits (ds : List Char) : Prop :=
  ds ≠ [] ∧ ∀ d ∈ ds, d.isDigit = true

/-- The form that JSON demands of a number. -/
structure Valid (n : Numeral) : Prop where
  whole : Digits n.whole
  /-- A zero leads only if it stands alone. -/
  leading : n.whole = ['0'] ∨ n.whole.head? ≠ some '0'
  fraction : ∀ ds, n.fraction = some ds → Digits ds
  exponent : ∀ e, n.exponent = some e → Digits e.digits

/-- The character would continue a number. -/
def continues (c : Char) : Bool :=
  c.isDigit || c == '.' || c == 'e' || c == 'E'

/-- The text does not continue a number. -/
def Ends (rest : List Char) : Prop :=
  ∀ c, rest.head? = some c → continues c = false

variable {rest : List Char} {c : Char}

theorem ends_nil : Ends [] :=
  fun _ h => (nomatch h)

theorem ends_cons (h : continues c = false) : Ends (c :: rest) := by
  intro d hd
  cases hd
  exact h

/-! Runs of digits. -/

theorem run?_digits {ds : List Char} (h : Digits ds) (stop : ∀ c, rest.head? = some c →
    c.isDigit = false) : Text.run? Char.isDigit (ds ++ rest) = some (ds, rest) :=
  Text.run?_append h.1 h.2 stop

theorem Digits.exists_cons {ds : List Char} (h : Digits ds) :
    ∃ d tail, ds = d :: tail ∧ d.isDigit = true := by
  obtain ⟨nonempty, all⟩ := h
  cases ds with
  | nil => exact absurd rfl nonempty
  | cons d tail => exact ⟨d, tail, rfl, all d List.mem_cons_self⟩

theorem Ends.not_digit (h : Ends rest) : ∀ c, rest.head? = some c → c.isDigit = false := by
  intro c hc
  have hcontinues := h c hc
  simp only [continues, Bool.or_eq_false_iff] at hcontinues
  exact hcontinues.1.1.1

/-! The parts. -/

theorem whole?_append {ds : List Char} (h : Digits ds) (leading : ds = ['0'] ∨ ds.head? ≠ some '0')
    (stop : ∀ c, rest.head? = some c → c.isDigit = false) :
    whole? (ds ++ rest) = some (ds, rest) := by
  rw [whole?, run?_digits h stop]
  obtain ⟨d, tail, rfl, -⟩ := h.exists_cons
  rcases leading with leading | leading
  · rw [leading]
    rfl
  -- Without a zero that leads the digits are taken as they are.
  · split
    next heq =>
      cases heq
      exact absurd rfl leading
    next => rfl

theorem not_digit_after_whole {n : Numeral} (ends : Ends rest) :
    ∀ c, (renderFraction n.fraction ++ (renderExponent n.exponent ++ rest)).head? = some c →
      c.isDigit = false := by
  intro c
  cases n.fraction with
  | some ds =>
    rintro ⟨⟩
    decide
  | none =>
    cases n.exponent with
    | some e =>
      rintro ⟨⟩
      decide
    | none => exact ends.not_digit c

theorem fraction?_append {fraction : Option (List Char)}
    (h : ∀ ds, fraction = some ds → Digits ds) {tail : List Char}
    (stop : ∀ c, tail.head? = some c → c.isDigit = false ∧ c ≠ '.') :
    fraction? (renderFraction fraction ++ tail) = some (fraction, tail) := by
  cases fraction with
  | some ds =>
    rw [renderFraction, List.cons_append, fraction?, run?_digits (h ds rfl) fun c hc => (stop c hc).1]
    rfl
  | none =>
    rw [renderFraction, List.nil_append, fraction?]
    rintro cs rfl
    exact (stop '.' rfl).2 rfl

theorem sign_append {e : Exponent} (h : Digits e.digits) :
    sign ((e.sign.map Sign.render).toList ++ e.digits ++ rest) = (e.sign, e.digits ++ rest) := by
  obtain ⟨d, tail, hd, digit⟩ := h.exists_cons
  obtain ⟨found, digits⟩ := e
  cases hd
  cases found with
  | some s => cases s <;> rfl
  | none =>
    simp only [Option.map_none, Option.toList_none, List.nil_append, List.cons_append]
    -- The first digit is taken for no sign.
    rw [sign]
    · rintro cs ⟨⟩
      exact absurd digit (by decide)
    · rintro cs ⟨⟩
      exact absurd digit (by decide)

theorem exponent?_append {exponent : Option Exponent}
    (h : ∀ e, exponent = some e → Digits e.digits) (ends : Ends rest) :
    exponent? (renderExponent exponent ++ rest) = some (exponent, rest) := by
  cases exponent with
  | some e =>
    rw [renderExponent, List.cons_append, exponent?, exponentDigits?, sign_append (h e rfl)]
    simp only [run?_digits (h e rfl) ends.not_digit, Option.map_some]
  | none =>
    rw [renderExponent, List.nil_append, exponent?]
    · rintro cs rfl
      exact absurd (ends 'e' rfl) (by decide)
    · rintro cs rfl
      exact absurd (ends 'E' rfl) (by decide)

/-! The whole number. -/

theorem not_point_after_fraction {n : Numeral} (ends : Ends rest) :
    ∀ c, (renderExponent n.exponent ++ rest).head? = some c → c.isDigit = false ∧ c ≠ '.' := by
  intro c
  cases n.exponent with
  | some e =>
    rintro ⟨⟩
    decide
  | none =>
    intro hc
    refine ⟨ends.not_digit c hc, ?_⟩
    rintro rfl
    exact absurd (ends '.' hc) (by decide)

theorem unsigned?_append {n : Numeral} (h : n.Valid) (ends : Ends rest) :
    unsigned? n.negative (n.whole ++ (renderFraction n.fraction ++ (renderExponent n.exponent ++ rest))) =
      some (n, rest) := by
  rw [unsigned?, whole?_append h.whole h.leading (not_digit_after_whole ends)]
  simp only [fraction?_append h.fraction (not_point_after_fraction ends),
    exponent?_append h.exponent ends]

theorem exists_render_cons {n : Numeral} (h : n.Valid) :
    ∃ c tail, n.render = c :: tail ∧ (c = '-' ∨ c.isDigit = true) := by
  obtain ⟨d, tail, hd, digit⟩ := h.whole.exists_cons
  cases hn : n.negative with
  | true => exact ⟨'-', _, by simp only [render, hn, if_true, List.cons_append]; rfl, Or.inl rfl⟩
  | false =>
    refine ⟨d, tail ++ renderFraction n.fraction ++ renderExponent n.exponent, ?_, Or.inr digit⟩
    simp only [render, hn, Bool.false_eq_true, if_false, List.nil_append, hd, List.cons_append]

/-- **A written number** is read back, if what follows does not continue it. -/
theorem read?_render {n : Numeral} (h : n.Valid) (ends : Ends rest) :
    read? (n.render ++ rest) = some (n, rest) := by
  have parts := unsigned?_append h ends
  cases hn : n.negative with
  | true =>
    simp only [render, hn, if_true, List.append_assoc, List.cons_append, List.nil_append] at parts ⊢
    rw [read?, parts]
  | false =>
    obtain ⟨d, tail, hd, digit⟩ := h.whole.exists_cons
    simp only [render, hn, Bool.false_eq_true, if_false, List.append_assoc, List.nil_append] at parts ⊢
    rw [read?, parts]
    -- The first digit is taken for no minus sign.
    rw [hd]
    rintro cs ⟨⟩
    exact absurd digit (by decide)

end DocumentStore.Json.Numeral
