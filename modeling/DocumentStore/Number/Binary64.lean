/- Finite numbers of the binary64 format, held exactly. A magnitude is a whole number of units,
   the unit being the least positive number of the format, 2^-1074. Every operation computes the
   exact quotient in units first and rounds once, to the nearest magnitude, ties to even. -/
namespace DocumentStore

/-- The greatest power of ten in the range of the format is `10^308`. -/
def greatestPowerOfTen : Nat :=
  308

def powerOfTen (k : Nat) : Nat :=
  Nat.pow 10 k

/-- The highest of the 53 bits of a coefficient, 2^52. -/
def leadingBit : Nat :=
  0x10000000000000

/-- The greatest shift of a coefficient. -/
def greatestShift : Nat :=
  2045

/-- A finite binary64 number without its sign: `coefficient * 2^shift` units. The coefficient
    has 53 bits, or fewer only where the shift is zero, so each magnitude is written in one
    way. -/
structure Magnitude where
  coefficient : Nat
  shift : Nat
  canonical : coefficient < 2 * leadingBit ∧ shift ≤ greatestShift ∧
    (shift = 0 ∨ leadingBit ≤ coefficient)
  deriving DecidableEq

namespace Magnitude

def zero : Magnitude :=
  ⟨0, 0, by decide⟩

/-- How many units make one. -/
def unitsPerOne : Nat :=
  1 <<< 1074

def units (m : Magnitude) : Nat :=
  m.coefficient <<< m.shift

/-- The whole number nearest to `num / den`, the even one of two equally near. -/
def nearest (num den : Nat) : Nat :=
  let below := num / den
  let rest := num % den
  if 2 * rest > den ∨ (2 * rest = den ∧ below % 2 = 1) then below + 1 else below

/-- The magnitude with this coefficient and shift; a coefficient of 2^53 moves one bit into the
    shift. There is none above the largest finite number. -/
def make? (coefficient shift : Nat) : Option Magnitude :=
  if coefficient = 2 * leadingBit then
    if h : shift + 1 ≤ greatestShift then
      some ⟨leadingBit, shift + 1, by decide, h, Or.inr (Nat.le_refl _)⟩
    else none
  else if h : coefficient < 2 * leadingBit ∧ shift ≤ greatestShift ∧
      (shift = 0 ∨ leadingBit ≤ coefficient) then
    some ⟨coefficient, shift, h⟩
  else none

/-- The magnitude nearest to `num / den` units, none if that is past the largest finite one. -/
def ofUnits? (num den : Nat) : Option Magnitude :=
  let shift := (num / den).log2 - 52
  make? (nearest num (den <<< shift)) shift

/-- The magnitude nearest to a whole number. -/
def ofNat? (n : Nat) : Option Magnitude :=
  ofUnits? (n * unitsPerOne) 1

/-- The magnitude nearest to `digits * 10^exponent`. -/
def ofDecimal? (digits : Nat) (exponent : Int) : Option Magnitude :=
  if 0 ≤ exponent then ofUnits? (digits * powerOfTen exponent.toNat * unitsPerOne) 1
  else ofUnits? (digits * unitsPerOne) (powerOfTen (-exponent).toNat)

/-- The rounded product. -/
def mul? (m n : Magnitude) : Option Magnitude :=
  ofUnits? (m.units * n.units) unitsPerOne

/-- The rounded quotient. -/
def div? (m n : Magnitude) : Option Magnitude :=
  ofUnits? (m.units * unitsPerOne) n.units

/-- The magnitude nearest to `10^k`. -/
def ofPowerOfTen? (k : Nat) : Option Magnitude :=
  ofNat? (powerOfTen k)

end Magnitude

/-- A finite binary64 number. Zero keeps its sign. -/
structure Binary64 where
  negative : Bool
  magnitude : Magnitude
  deriving DecidableEq

namespace Binary64

/-- The two denote the same number: they are equal, or both are zero. -/
def equal (a b : Binary64) : Bool :=
  a.magnitude == b.magnitude && (a.negative == b.negative || a.magnitude.coefficient == 0)

end Binary64

end DocumentStore
