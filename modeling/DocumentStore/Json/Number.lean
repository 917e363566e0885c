import DocumentStore.Json.Numeral
import DocumentStore.Number.Shortest

/- JSON numbers as values: whole numbers of 64 bits and binary64 numbers. A whole number that is
   written without fraction and exponent and fits stays whole; any other number becomes binary64.

   Reading a binary64 number is not a correct rounding of what is written. The digits are taken
   into a significand of 64 bits as long as they fit, the significand is rounded once, and the
   product with or quotient by a rounded power of ten is rounded again. Writing gives the
   shortest digits that denote the number. -/
namespace DocumentStore.Json

/-- A whole number that 64 bits hold, signed below zero and unsigned above: from -2^63 up to
    2^64. -/
structure Whole where
  val : Int
  fits : -0x8000000000000000 ≤ val ∧ val < 0x10000000000000000
  deriving DecidableEq

/-- A JSON number. -/
inductive Number where
  | whole (n : Whole)
  | real (x : Binary64)
  deriving DecidableEq

namespace Whole

def zero : Whole :=
  ⟨0, by decide⟩

def ofInt? (n : Int) : Option Whole :=
  if h : -0x8000000000000000 ≤ n ∧ n < 0x10000000000000000 then some ⟨n, h⟩ else none

end Whole

namespace Number

/-- Numbers are equal within their kind: a whole number never equals a binary64 one. -/
def equal : Number → Number → Bool
  | .whole m, .whole n => m.val == n.val
  | .real x, .real y => x.equal y
  | _, _ => false

/-! Reading. -/

/-- Bound of the significand, 2^64. -/
def significandLimit : Nat :=
  0x10000000000000000

/-- Adds digits to the significand up to the first that would take it past the limit. The
    second component counts the digits that are left. -/
def takeDigits (significand : Nat) : List Char → Nat × Nat
  | [] => (significand, 0)
  | d :: digits =>
    let next := significand * 10 + (d.toNat - '0'.toNat)
    if next < significandLimit then takeDigits next digits
    else (significand, (d :: digits).length)

/-- Divides by `10^308` as often as `steps` says, or until nothing is left, then by
    `10^last`. -/
def divPowers (last : Nat) : Nat → Magnitude → Option Magnitude
  | 0, m => (Magnitude.ofPowerOfTen? last).bind m.div?
  | steps + 1, m =>
    if m.coefficient = 0 then some m
    else ((Magnitude.ofPowerOfTen? greatestPowerOfTen).bind m.div?).bind (divPowers last steps)

/-- `m * 10^exponent`, each step rounded. None if the result is past the largest number. -/
def scale? (m : Magnitude) (exponent : Int) : Option Magnitude :=
  if 0 ≤ exponent then
    if exponent ≤ greatestPowerOfTen then (Magnitude.ofPowerOfTen? exponent.toNat).bind m.mul?
    else if m.coefficient = 0 then some m
    else none
  else
    let k := (-exponent).toNat
    let steps := (k - 1) / greatestPowerOfTen
    divPowers (k - steps * greatestPowerOfTen) steps m

/-- A written exponent is held in 32 bits, one of them the sign. -/
def greatestExponent : Nat :=
  0x7FFFFFFF

/-- The magnitude of `significand * 10^(scale + e)`. An exponent too large to be held leaves
    zero, or is refused if the number would not be zero. -/
def magnitude? (significand : Nat) (scale : Int) : Option Exponent → Option Magnitude
  | none => (Magnitude.ofNat? significand).bind (scale? · scale)
  | some e =>
    let written := Nat.ofDigitChars 10 e.digits 0
    if written ≤ greatestExponent then
      let exponent := if e.sign = some .minus then scale - written else scale + written
      (Magnitude.ofNat? significand).bind (scale? · exponent)
    else if significand = 0 ∨ e.sign = some .minus then some .zero
    else none

/-- A number written without fraction and exponent whose digits all fit. Minus zero is kept by
    binary64 alone. -/
def ofSignificand? (negative : Bool) (significand : Nat) : Option Number :=
  let whole := if negative && significand = 0 then none
    else Whole.ofInt? (if negative then -significand else significand)
  match whole with
  | some n => some (.whole n)
  | none => (Magnitude.ofNat? significand).map fun m => .real ⟨negative, m⟩

/-- The number that a numeral denotes. -/
def ofNumeral? (n : Numeral) : Option Number :=
  let (significand, dropped) := takeDigits 0 n.whole
  match n.fraction, n.exponent, dropped with
  | none, none, 0 => ofSignificand? n.negative significand
  | fraction, exponent, dropped =>
    let digits := fraction.getD []
    let (significand, left) := takeDigits significand digits
    let scale : Int := dropped - (digits.length - left : Nat)
    (magnitude? significand scale exponent).map fun m => .real ⟨n.negative, m⟩

/-! Writing. -/

/-- Decimal exponents of the numbers written positionally. -/
def leastPositional : Int := -5
def greatestPositional : Int := 15

/-- The positional form of `digits * 10^exponent`, always with a fraction. -/
def positional (negative : Bool) (digits : List Char) (exponent : Int) : Numeral :=
  if 0 ≤ exponent then
    ⟨negative, digits ++ List.replicate exponent.toNat '0', some ['0'], none⟩
  else
    let places := (-exponent).toNat
    if places < digits.length then
      ⟨negative, digits.take (digits.length - places), some (digits.drop (digits.length - places)),
        none⟩
    else ⟨negative, ['0'], some (List.replicate (places - digits.length) '0' ++ digits), none⟩

/-- The form with one digit before the point and a signed exponent. -/
def scientific (negative : Bool) (digits : List Char) (exponent : Int) : Numeral :=
  ⟨negative, digits.take 1, if digits.length ≤ 1 then none else some (digits.drop 1),
    some ⟨some (if exponent < 0 then .minus else .plus), Nat.toDigits 10 exponent.natAbs⟩⟩

/-- The written form of a binary64 number. -/
def realNumeral (x : Binary64) : Numeral :=
  if x.magnitude.coefficient = 0 then ⟨x.negative, ['0'], some ['0'], none⟩
  else
    let shortest := x.magnitude.shortest
    let digits := Nat.toDigits 10 shortest.digits
    let leading := shortest.exponent + digits.length - 1
    if leastPositional ≤ leading ∧ leading ≤ greatestPositional then
      positional x.negative digits shortest.exponent
    else scientific x.negative digits leading

/-- The written form of a number. -/
def toNumeral : Number → Numeral
  | .whole n => ⟨n.val < 0, Nat.toDigits 10 n.val.natAbs, none, none⟩
  | .real x => realNumeral x

end Number

end DocumentStore.Json
