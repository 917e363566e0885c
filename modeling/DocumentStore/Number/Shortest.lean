import DocumentStore.Number.Binary64

/- The shortest decimal digits of a binary64 magnitude: the fewest digits that read back to it,
   and of these the nearest. A grid of decimals with a given number of digits is tried from one
   digit upwards. If a point of a grid reads back, so does one of the two points next to the
   magnitude, so only these are tested. -/
namespace DocumentStore.Magnitude

/-- How many decimal digits a number has. -/
def digitCount (n : Nat) : Nat :=
  (Nat.toDigits 10 n).length

/-- The exponent `e` with `10^e ≤ m < 10^(e+1)`, for a positive magnitude. -/
def decimalExponent (m : Magnitude) : Int :=
  if unitsPerOne ≤ m.units then (digitCount (m.units / unitsPerOne) : Int) - 1
  else -(digitCount ((unitsPerOne - 1) / m.units) : Int)

/-- A decimal number `digits * 10^exponent`. -/
structure Decimal where
  digits : Nat
  exponent : Int
  deriving DecidableEq

/-- `m / 10^exponent` as a fraction. -/
def scaled (m : Magnitude) (exponent : Int) : Nat × Nat :=
  if 0 ≤ exponent then (m.units, unitsPerOne * powerOfTen exponent.toNat)
  else (m.units * powerOfTen (-exponent).toNat, unitsPerOne)

/-- The decimal with the given exponent that reads back to `m`, the nearer one if both
    neighbours do, the even one if they are equally near. -/
def onGrid? (m : Magnitude) (exponent : Int) : Option Decimal :=
  let (num, den) := m.scaled exponent
  let below := num / den
  let readsBack := fun digits => ofDecimal? digits exponent = some m
  if readsBack below then
    if readsBack (below + 1) then some ⟨nearest num den, exponent⟩ else some ⟨below, exponent⟩
  else if readsBack (below + 1) then some ⟨below + 1, exponent⟩
  else none

/-- The first grid with a point that reads back, from the grid of the leading digit down through
    `grids` further ones. -/
def firstGrid (m : Magnitude) : Nat → Int → Decimal
  | 0, exponent => ⟨(m.scaled exponent).1 / (m.scaled exponent).2, exponent⟩
  | grids + 1, exponent =>
    match m.onGrid? exponent with
    | some d => d
    | none => firstGrid m grids (exponent - 1)

/-- A decimal without zeros at the end of its digits, of which there are at most `places`. -/
def Decimal.strip (d : Decimal) : Nat → Decimal
  | 0 => d
  | places + 1 =>
    if d.digits ≠ 0 ∧ d.digits % 10 = 0 then strip ⟨d.digits / 10, d.exponent + 1⟩ places else d

/-- The shortest decimal of a positive magnitude. Seventeen digits always suffice. -/
def shortest (m : Magnitude) : Decimal :=
  (m.firstGrid 17 m.decimalExponent).strip 17

end DocumentStore.Magnitude
