import DocumentStore.Json.Record
import DocumentStore.Proofs.Json.Numeral
import DocumentStore.Proofs.Number.Shortest

/- Numbers are written as JSON demands, whatever their kind (`valid_toNumeral`), and a whole number
   reads back as itself (`ofNumeral?_whole`). A binary64 number is written with the fewest digits
   that denote it, but the reader rounds more than once: it may miss the number (`ReadsBack`). -/
namespace DocumentStore.Json

open Numeral (Digits)

/-- The number is found again in what is written of it. -/
def Number.ReadsBack (n : Number) : Prop :=
  Number.ofNumeral? n.toNumeral = some n

instance : DecidablePred Number.ReadsBack := fun n =>
  inferInstanceAs (Decidable (Number.ofNumeral? n.toNumeral = some n))

namespace Number

/-! Digits. -/

theorem digits_toDigits (n : Nat) : Digits (Nat.toDigits 10 n) :=
  ⟨Nat.toDigits_ne_nil, fun _ h => Nat.isDigit_of_mem_toDigits (by decide) (by decide) h⟩

theorem head?_toDigits {n : Nat} (h : n ≠ 0) : (Nat.toDigits 10 n).head? ≠ some '0' := by
  have small : ∀ d, d < 10 → d ≠ 0 → some d.digitChar ≠ some '0' := by decide
  induction n using Nat.strongRecOn with
  | ind n ih =>
    rw [Nat.toDigits_eq_if (by decide)]
    split
    next lt => exact small n lt h
    -- The first digit is that of the number without its last one.
    next ge =>
      have hn := ih (n / 10) (by omega) (by omega)
      rw [List.head?_append]
      cases hd : (Nat.toDigits 10 (n / 10)).head? with
      | none => exact absurd (List.head?_eq_none_iff.mp hd) Nat.toDigits_ne_nil
      | some d => rwa [hd] at hn

theorem leading_toDigits (n : Nat) :
    Nat.toDigits 10 n = ['0'] ∨ (Nat.toDigits 10 n).head? ≠ some '0' := by
  by_cases h : n = 0
  · exact Or.inl (by rw [h, Nat.toDigits_zero])
  · exact Or.inr (head?_toDigits h)

/-! Written forms. -/

variable {negative : Bool} {digits : List Char} {exponent : Int}

theorem digits_zero : Digits ['0'] :=
  ⟨List.cons_ne_nil _ _, fun _ h => by rw [List.mem_singleton.mp h]; rfl⟩

theorem isDigit_of_mem_zeros {k : Nat} {d : Char} (h : d ∈ List.replicate k '0') :
    d.isDigit = true := by
  rw [List.eq_of_mem_replicate h]
  rfl

theorem valid_positional (h : Digits digits) (leading : digits.head? ≠ some '0') :
    (positional negative digits exponent).Valid := by
  obtain ⟨nonempty, all⟩ := h
  rw [positional]
  split
  -- Zeros after the digits, and one after the point.
  next =>
    refine ⟨⟨by simp [nonempty], ?_⟩, Or.inr ?_, ?_, fun _ he => (nomatch he)⟩
    · intro d hd
      rcases List.mem_append.mp hd with hd | hd
      · exact all d hd
      · exact isDigit_of_mem_zeros hd
    · cases digits with
      | nil => exact absurd rfl nonempty
      | cons d ds => exact leading
    · rintro ds ⟨⟩
      exact digits_zero
  next negativeExponent =>
    simp only
    split
    -- A point between the digits.
    next places =>
      refine ⟨⟨?_, fun d hd => all d (List.mem_of_mem_take hd)⟩, Or.inr ?_, ?_,
        fun _ he => (nomatch he)⟩
      · intro h
        have := congrArg List.length h
        simp only [List.length_take, List.length_nil] at this
        omega
      · rw [List.head?_take, if_neg (by omega)]
        exact leading
      · rintro ds ⟨⟩
        refine ⟨fun h => ?_, fun d hd => all d (List.mem_of_mem_drop hd)⟩
        have := congrArg List.length h
        simp only [List.length_drop, List.length_nil] at this
        omega
    -- Zeros before the digits, the first of them before the point.
    next =>
      refine ⟨digits_zero, Or.inl rfl, ?_, fun _ he => (nomatch he)⟩
      rintro ds ⟨⟩
      refine ⟨by simp [nonempty], fun d hd => ?_⟩
      rcases List.mem_append.mp hd with hd | hd
      · exact isDigit_of_mem_zeros hd
      · exact all d hd

theorem valid_scientific (h : Digits digits) (leading : digits.head? ≠ some '0') :
    (scientific negative digits exponent).Valid := by
  obtain ⟨nonempty, all⟩ := h
  rw [scientific]
  refine ⟨⟨by simp [nonempty], fun d hd => all d (List.mem_of_mem_take hd)⟩, Or.inr ?_, ?_, ?_⟩
  · rw [List.head?_take, if_neg (by decide)]
    exact leading
  · intro ds hds
    simp only at hds
    split at hds
    · cases hds
    next long =>
      cases hds
      refine ⟨fun h => ?_, fun d hd => all d (List.mem_of_mem_drop hd)⟩
      have := congrArg List.length h
      simp only [List.length_drop, List.length_nil] at this
      omega
  · rintro e ⟨⟩
    exact digits_toDigits _

theorem valid_realNumeral (x : Binary64) : (realNumeral x).Valid := by
  rw [realNumeral]
  split
  next =>
    refine ⟨digits_zero, Or.inl rfl, ?_, fun _ he => (nomatch he)⟩
    rintro ds ⟨⟩
    exact digits_zero
  next positive =>
    have leading := head?_toDigits (Magnitude.shortest_digits_ne_zero positive)
    simp only
    split
    · exact valid_positional (digits_toDigits _) leading
    · exact valid_scientific (digits_toDigits _) leading

/-- **A written number** has the form that JSON demands. -/
theorem valid_toNumeral (n : Number) : n.toNumeral.Valid := by
  cases n with
  | whole n => exact ⟨digits_toDigits _, leading_toDigits _, fun _ h => (nomatch h),
      fun _ h => (nomatch h)⟩
  | real x => exact valid_realNumeral x

/-! Whole numbers. -/

theorem le_ofDigitChars (ds : List Char) (n : Nat) : n ≤ Nat.ofDigitChars 10 ds n := by
  induction ds generalizing n with
  | nil => exact Nat.le_refl _
  | cons d ds ih =>
    rw [Nat.ofDigitChars_cons]
    have := ih (10 * n + (d.toNat - '0'.toNat))
    omega

theorem takeDigits_of_lt {ds : List Char} {n : Nat}
    (h : Nat.ofDigitChars 10 ds n < significandLimit) :
    takeDigits n ds = (Nat.ofDigitChars 10 ds n, 0) := by
  induction ds generalizing n with
  | nil => rfl
  | cons d ds ih =>
    rw [Nat.ofDigitChars_cons, Nat.mul_comm] at h ⊢
    have := le_ofDigitChars ds (n * 10 + (d.toNat - '0'.toNat))
    simp only [takeDigits]
    rw [if_pos (by omega), ih h]

theorem ofNumeral?_of_lt {n : Nat} (h : n < significandLimit) :
    ofNumeral? ⟨negative, Nat.toDigits 10 n, none, none⟩ = ofSignificand? negative n := by
  have value : Nat.ofDigitChars 10 (Nat.toDigits 10 n) 0 = n := Nat.ofDigitChars_ten_toDigits
  have taken := takeDigits_of_lt (value.symm ▸ h)
  rw [value] at taken
  simp only [ofNumeral?, taken]

/-- **A whole number** reads back as itself. -/
theorem ofNumeral?_whole (n : Whole) : ofNumeral? (toNumeral (.whole n)) = some (.whole n) := by
  obtain ⟨val, fits⟩ := n
  have bound : val.natAbs < significandLimit := by
    rw [significandLimit]
    omega
  rw [toNumeral, ofNumeral?_of_lt bound, ofSignificand?]
  by_cases hneg : val < 0
  · have positive : ¬val.natAbs = 0 := by omega
    have back : -(val.natAbs : Int) = val := by omega
    simp only [hneg, decide_true, Bool.true_and, positive, decide_false, Bool.false_eq_true,
      if_false, if_true, back, Whole.ofInt?, fits, and_self, dif_pos]
  · have back : (val.natAbs : Int) = val := by omega
    simp only [hneg, decide_false, Bool.false_and, Bool.false_eq_true, if_false, back,
      Whole.ofInt?, fits, and_self, dif_pos]

theorem readsBack_whole (n : Whole) : (Number.whole n).ReadsBack :=
  ofNumeral?_whole n

end Number

/-! Counters. -/

namespace Record

theorem valid_natural (n : Nat) : (⟨false, Nat.toDigits 10 n, none, none⟩ : Numeral).Valid :=
  ⟨Number.digits_toDigits n, Number.leading_toDigits n, fun _ h => (nomatch h),
    fun _ h => (nomatch h)⟩

theorem natural?_lt {t : Tree} {n : Nat} (h : natural? t = some n) :
    n < Number.significandLimit := by
  unfold natural? at h
  split at h
  next =>
    split at h
    next w hw =>
      split at h
      · cases h
        have := w.fits.2
        rw [Number.significandLimit]
        omega
      · cases h
    next => cases h
  next => cases h

/-- A counter is read back exactly if 64 bits hold it. -/
theorem natural?_writeNatural (n : Nat) :
    natural? (writeNatural n) = some n ↔ n < Number.significandLimit := by
  by_cases h : n < Number.significandLimit
  -- A counter is written as the whole number that it is.
  · refine iff_of_true ?_ h
    have fits : -0x8000000000000000 ≤ (n : Int) ∧ (n : Int) < 0x10000000000000000 := by
      rw [Number.significandLimit] at h
      omega
    have back := Number.ofNumeral?_whole ⟨n, fits⟩
    have positive : decide ((n : Int) < 0) = false := decide_eq_false (by omega)
    rw [Number.toNumeral, positive, Int.natAbs_natCast] at back
    rw [writeNatural, natural?, back]
    exact (if_pos (Int.natCast_nonneg n)).trans (congrArg some (Int.toNat_natCast n))
  · exact iff_of_false (fun back => h (natural?_lt back)) h

end Record

end DocumentStore.Json
