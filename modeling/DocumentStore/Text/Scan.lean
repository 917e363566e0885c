import DocumentStore.Text.CharClass

/- Scanning steps shared by the readers. A step looks at the start of a text and answers with
   what remains after the part it recognised, so steps compose by feeding one rest to the next. -/
namespace DocumentStore.Text

/-! Blanks. -/

def skipBlanks (cs : List Char) : List Char :=
  cs.dropWhile isBlank

/-- Skips blanks, of which there must be at least one. -/
def blanks? : List Char → Option (List Char)
  | [] => none
  | c :: cs => if isBlank c then some (skipBlanks cs) else none

/-- Skips blanks with at most one comma among them. -/
def skipSeparator (cs : List Char) : List Char :=
  match skipBlanks cs with
  | ',' :: rest => skipBlanks rest
  | rest => rest

/-- Drops the longest end of `cs` whose characters all satisfy `p`. A program is built without
    Mathlib, where this is `List.rdropWhile`. -/
def dropEndWhile (p : Char → Bool) (cs : List Char) : List Char :=
  (cs.reverse.dropWhile p).reverse

/-- The text without the blanks around it. -/
def trim (cs : List Char) : List Char :=
  dropEndWhile isBlank (skipBlanks cs)

/-! Words of the language. -/

/-- The same ASCII letter in either case, or the same character. -/
def sameLetter (k c : Char) : Bool :=
  k.toLower == c.toLower

/-- The same letter under simple case folding, which adds the long s to S and the Kelvin sign
    to K. -/
def sameFolded (k c : Char) : Bool :=
  sameLetter k c || (k.toLower == 's' && c == 'ſ') || (k.toLower == 'k' && c == '\u212A')

/-- What follows `word` when the text starts with it, letter by letter under `same`. -/
def after? (same : Char → Char → Bool) : List Char → List Char → Option (List Char)
  | [], cs => some cs
  | _ :: _, [] => none
  | k :: word, c :: cs => if same k c then after? same word cs else none

/-- What follows a keyword of the statement grammar. -/
def keyword? (word : String) (cs : List Char) : Option (List Char) :=
  after? sameFolded word.toList cs

/-- What follows two keywords and the blanks after each. -/
def keywords? (first second : String) (cs : List Char) : Option (List Char) :=
  ((keyword? first cs).bind blanks?).bind fun cs => (keyword? second cs).bind blanks?

/-- What follows the character `c`. -/
def char? (c : Char) : List Char → Option (List Char)
  | [] => none
  | d :: cs => if d = c then some cs else none

/-- The longest nonempty run of characters satisfying `p`, and what follows it. -/
def run? (p : Char → Bool) (cs : List Char) : Option (List Char × List Char) :=
  match cs.takeWhile p with
  | [] => none
  | c :: run => some (c :: run, cs.dropWhile p)

/-- A database, collection or option name, and what follows it. -/
def name? (cs : List Char) : Option (List Char × List Char) :=
  run? isName cs

/-- `cs` starts where a word ends or before one starts, `before` being the character before. -/
def atWordBoundary (before : Option Char) (cs : List Char) : Bool :=
  before.any isWord != cs.head?.any isWord

/-- The longest nonempty runs of characters that are no separators. -/
def runsFrom (separates : Char → Bool) (current : List Char) : List Char → List (List Char)
  | [] => if current.isEmpty then [] else [current]
  | c :: cs =>
    if separates c then
      (if current.isEmpty then [] else [current]) ++ runsFrom separates [] cs
    else runsFrom separates (current ++ [c]) cs

def runs (separates : Char → Bool) (cs : List Char) : List (List Char) :=
  runsFrom separates [] cs

/-! Indices. -/

/-- Bound of the indices and counters that a text can denote, 2^64. -/
def indexLimit : Nat :=
  0x10000000000000000

/-- The number that a nonempty run of ASCII digits denotes, if it is below the limit. -/
def index? (digits : List Char) : Option Nat :=
  if digits ≠ [] ∧ digits.all Char.isDigit ∧ Nat.ofDigitChars 10 digits 0 < indexLimit then
    some (Nat.ofDigitChars 10 digits 0)
  else none

/-- An index with an optional plus sign before it. -/
def signedIndex? : List Char → Option Nat
  | '+' :: digits => index? digits
  | digits => index? digits

end DocumentStore.Text
