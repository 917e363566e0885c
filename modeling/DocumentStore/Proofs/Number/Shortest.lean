import DocumentStore.Number.Shortest

/- The shortest decimal of a positive magnitude has digits (`shortest_digits_ne_zero`): a decimal
   that reads back to the magnitude is not zero, and neither is the one on the finest grid, which
   is fine enough to have a point below the magnitude. -/
namespace DocumentStore.Magnitude

variable {m : Magnitude} {exponent : Int}

theorem unitsPerOne_pos : 0 < unitsPerOne := by
  decide

theorem powerOfTen_pos (k : Nat) : 0 < powerOfTen k :=
  Nat.pow_pos (by decide)

theorem powerOfTen_mono {j k : Nat} (h : j ≤ k) : powerOfTen j ≤ powerOfTen k :=
  Nat.pow_le_pow_right (by decide) h

theorem units_pos (h : m.coefficient ≠ 0) : 0 < m.units := by
  rw [units, Nat.shiftLeft_eq]
  exact Nat.mul_pos (Nat.pos_of_ne_zero h) (Nat.two_pow_pos _)

/-! Decimals that read back. -/

theorem ofUnits?_zero {den : Nat} (hden : 0 < den) : ofUnits? 0 den = some zero := by
  have hnearest : nearest 0 den = 0 := by
    simp only [nearest, Nat.zero_div, Nat.zero_mod, Nat.mul_zero]
    rw [if_neg]
    rintro (h | ⟨h, -⟩) <;> omega
  have hshift : (0 / den).log2 - 52 = 0 := by rw [Nat.zero_div]; rfl
  rw [ofUnits?]
  simp only [hshift, Nat.shiftLeft_zero, hnearest]
  rfl

theorem ofDecimal?_zero (exponent : Int) : ofDecimal? 0 exponent = some zero := by
  rw [ofDecimal?]
  split
  · rw [Nat.zero_mul, Nat.zero_mul, ofUnits?_zero (by decide)]
  · rw [Nat.zero_mul, ofUnits?_zero (powerOfTen_pos _)]

theorem digits_ne_zero_of_reads {digits : Nat} (h : m.coefficient ≠ 0)
    (reads : ofDecimal? digits exponent = some m) : digits ≠ 0 := by
  rintro rfl
  rw [ofDecimal?_zero] at reads
  cases reads
  exact h rfl

theorem nearest_eq (num den : Nat) :
    nearest num den = num / den ∨ nearest num den = num / den + 1 := by
  rw [nearest]
  split
  · exact Or.inr rfl
  · exact Or.inl rfl

theorem onGrid?_reads {d : Decimal} (h : m.onGrid? exponent = some d) :
    ofDecimal? d.digits exponent = some m := by
  simp only [onGrid?] at h
  split at h
  next below =>
    split at h
    next above =>
      cases h
      rcases nearest_eq (m.scaled exponent).1 (m.scaled exponent).2 with hn | hn
      · rw [hn]
        exact below
      · rw [hn]
        exact above
    next =>
      cases h
      exact below
  next =>
    split at h
    next above =>
      cases h
      exact above
    next => cases h

/-! The finest grid. -/

theorem firstGrid_digits_ne_zero (h : m.coefficient ≠ 0) (grids : Nat)
    (fine : (m.scaled (exponent - grids)).1 / (m.scaled (exponent - grids)).2 ≠ 0) :
    (m.firstGrid grids exponent).digits ≠ 0 := by
  induction grids generalizing exponent with
  | zero =>
    rw [Int.natCast_zero, Int.sub_zero] at fine
    exact fine
  | succ grids ih =>
    rw [firstGrid]
    split
    next d found => exact digits_ne_zero_of_reads h (onGrid?_reads found)
    next =>
      apply ih
      rw [show exponent - 1 - (grids : Int) = exponent - (grids + 1 : Nat) by omega]
      exact fine

/-- A number is at least the power of ten with one digit less than it has. -/
theorem powerOfTen_le {n : Nat} (h : 0 < n) : powerOfTen (digitCount n - 1) ≤ n := by
  by_cases hk : 0 < digitCount n - 1
  · apply Nat.not_lt.mp
    intro lt
    have := (Nat.length_toDigits_le_iff (by decide) hk).mpr lt
    rw [digitCount] at hk this
    omega
  · rw [show digitCount n - 1 = 0 by omega]
    exact h

theorem lt_powerOfTen (n : Nat) : n < powerOfTen (digitCount n) :=
  (Nat.length_toDigits_le_iff (by decide) Nat.length_toDigits_pos).mp (Nat.le_refl _)

theorem scaled_ne_zero (h : m.coefficient ≠ 0) (grids : Nat) :
    (m.scaled (m.decimalExponent - grids)).1 / (m.scaled (m.decimalExponent - grids)).2 ≠ 0 := by
  have hunits := units_pos h
  suffices reached : (m.scaled (m.decimalExponent - grids)).2 ≤
      (m.scaled (m.decimalExponent - grids)).1 by
    have hden : 0 < (m.scaled (m.decimalExponent - grids)).2 := by
      rw [scaled]
      split
      · exact Nat.mul_pos unitsPerOne_pos (powerOfTen_pos _)
      · exact unitsPerOne_pos
    exact Nat.ne_of_gt (Nat.div_pos reached hden)
  by_cases large : unitsPerOne ≤ m.units
  -- From one on, the exponent counts the digits before the point.
  · have hq : 0 < m.units / unitsPerOne := Nat.div_pos large unitsPerOne_pos
    rw [decimalExponent, if_pos large, scaled]
    split
    next =>
      have lower : powerOfTen ((digitCount (m.units / unitsPerOne) : Int) - 1 - grids).toNat ≤
          m.units / unitsPerOne :=
        Nat.le_trans (powerOfTen_mono (by omega)) (powerOfTen_le hq)
      calc unitsPerOne * powerOfTen ((digitCount (m.units / unitsPerOne) : Int) - 1 - grids).toNat
          ≤ unitsPerOne * (m.units / unitsPerOne) := Nat.mul_le_mul_left _ lower
        _ ≤ m.units := Nat.mul_div_le _ _
    next => exact Nat.le_trans large (Nat.le_mul_of_pos_right _ (powerOfTen_pos _))
  -- Below one, it counts the digits of how often the magnitude goes into one.
  · rw [decimalExponent, if_neg large, scaled]
    have hcount : 0 < digitCount ((unitsPerOne - 1) / m.units) := Nat.length_toDigits_pos
    rw [if_neg (by omega)]
    have bound := lt_powerOfTen ((unitsPerOne - 1) / m.units)
    rw [Nat.div_lt_iff_lt_mul hunits] at bound
    have grows : powerOfTen (digitCount ((unitsPerOne - 1) / m.units)) ≤
        powerOfTen (-(-(digitCount ((unitsPerOne - 1) / m.units) : Int) - grids)).toNat :=
      powerOfTen_mono (by omega)
    have scaledUp := Nat.mul_le_mul_right m.units grows
    have one := unitsPerOne_pos
    rw [Nat.mul_comm m.units]
    omega

/-! Without zeros at the end. -/

theorem strip_digits_ne_zero (places : Nat) {d : Decimal} (h : d.digits ≠ 0) :
    (d.strip places).digits ≠ 0 := by
  induction places generalizing d with
  | zero => exact h
  | succ places ih =>
    rw [Decimal.strip]
    split
    next hmod =>
      apply ih
      show d.digits / 10 ≠ 0
      omega
    next => exact h

/-- **A positive magnitude** has digits. -/
theorem shortest_digits_ne_zero (h : m.coefficient ≠ 0) : m.shortest.digits ≠ 0 :=
  strip_digits_ne_zero 17 (firstGrid_digits_ne_zero h 17 (scaled_ne_zero h 17))

end DocumentStore.Magnitude
