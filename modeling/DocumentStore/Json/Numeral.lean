import DocumentStore.Text.Scan

/- The written form of a JSON number: its sign, its whole part, and the fraction and the exponent
   if they are written. Digits stay as written, so a numeral of any length is kept. -/
namespace DocumentStore.Json

/-- A written sign. -/
inductive Sign where
  | plus
  | minus
  deriving DecidableEq, Repr

/-- A written exponent. -/
structure Exponent where
  sign : Option Sign
  digits : List Char
  deriving DecidableEq, Repr

/-- A written number. -/
structure Numeral where
  negative : Bool
  whole : List Char
  fraction : Option (List Char)
  exponent : Option Exponent
  deriving DecidableEq, Repr

namespace Sign

def render : Sign → Char
  | .plus => '+'
  | .minus => '-'

end Sign

namespace Numeral

/-! Writing. -/

def renderFraction : Option (List Char) → List Char
  | none => []
  | some digits => '.' :: digits

def renderExponent : Option Exponent → List Char
  | none => []
  | some e => 'e' :: ((e.sign.map Sign.render).toList ++ e.digits)

def render (n : Numeral) : List Char :=
  (if n.negative then ['-'] else []) ++ n.whole ++ renderFraction n.fraction ++
    renderExponent n.exponent

/-! Reading. -/

/-- The whole part: a zero alone, or digits of which the first is not zero. -/
def whole? (cs : List Char) : Option (List Char × List Char) :=
  match Text.run? Char.isDigit cs with
  | some ('0' :: _ :: _, _) => none
  | found => found

/-- A point demands a digit after it. -/
def fraction? : List Char → Option (Option (List Char) × List Char)
  | '.' :: cs => (Text.run? Char.isDigit cs).map fun (digits, rest) => (some digits, rest)
  | cs => some (none, cs)

def sign : List Char → Option Sign × List Char
  | '+' :: cs => (some .plus, cs)
  | '-' :: cs => (some .minus, cs)
  | cs => (none, cs)

/-- The digits that an exponent demands, after its sign if it has one. -/
def exponentDigits? (cs : List Char) : Option (Option Exponent × List Char) :=
  let (sign, cs) := sign cs
  (Text.run? Char.isDigit cs).map fun (digits, rest) => (some ⟨sign, digits⟩, rest)

def exponent? : List Char → Option (Option Exponent × List Char)
  | 'e' :: cs => exponentDigits? cs
  | 'E' :: cs => exponentDigits? cs
  | cs => some (none, cs)

/-- The numeral without its sign. -/
def unsigned? (negative : Bool) (cs : List Char) : Option (Numeral × List Char) :=
  match whole? cs with
  | none => none
  | some (whole, cs) =>
    match fraction? cs with
    | none => none
    | some (fraction, cs) =>
      match exponent? cs with
      | none => none
      | some (exponent, cs) => some (⟨negative, whole, fraction, exponent⟩, cs)

/-- The numeral at the start of the text, and what follows it. -/
def read? : List Char → Option (Numeral × List Char)
  | '-' :: cs => unsigned? true cs
  | cs => unsigned? false cs

end Numeral

end DocumentStore.Json
