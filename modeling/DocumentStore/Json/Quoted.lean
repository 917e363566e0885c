import DocumentStore.Text.Scan

/- The written form of a JSON string. Between the quotes stand characters and surrogate halves;
   a half comes only from a `\u` escape, and a text holds it only as one of a pair. Writing
   escapes what must be escaped and nothing else. -/
namespace DocumentStore.Json

/-- One element of a written string. -/
inductive Unit16 where
  | char (c : Char)
  | half (code : Nat)
  deriving DecidableEq, Repr

namespace Quoted

/-! Writing. -/

/-- The letter of the short escape for `c`, if it is written by one. -/
def letterOf? (c : Char) : Option Char :=
  if c = '"' then some '"'
  else if c = '\\' then some '\\'
  else if c = '\x08' then some 'b'
  else if c = '\x0C' then some 'f'
  else if c = '\n' then some 'n'
  else if c = '\r' then some 'r'
  else if c = '\t' then some 't'
  else none

/-- Four lower-case hexadecimal digits. -/
def hex4 (code : Nat) : List Char :=
  [(code / 4096 % 16).digitChar, (code / 256 % 16).digitChar, (code / 16 % 16).digitChar,
    (code % 16).digitChar]

/-- Control characters have to be escaped. -/
def isControl (c : Char) : Bool :=
  c.toNat < 0x20

def renderUnit : Unit16 → List Char
  | .half code => '\\' :: 'u' :: hex4 code
  | .char c =>
    match letterOf? c with
    | some letter => ['\\', letter]
    | none => if isControl c then '\\' :: 'u' :: hex4 c.toNat else [c]

/-- Puts the units and the closing quote before `rest`. -/
def renderUnits : List Unit16 → List Char → List Char
  | [], rest => '"' :: rest
  | u :: units, rest => renderUnit u ++ renderUnits units rest

/-- Puts a written string with its quotes before `rest`. -/
def render (units : List Unit16) (rest : List Char) : List Char :=
  '"' :: renderUnits units rest

/-! Reading. -/

/-- The character that a short escape stands for. -/
def ofLetter? (letter : Char) : Option Char :=
  if letter = '"' then some '"'
  else if letter = '\\' then some '\\'
  else if letter = '/' then some '/'
  else if letter = 'b' then some '\x08'
  else if letter = 'f' then some '\x0C'
  else if letter = 'n' then some '\n'
  else if letter = 'r' then some '\r'
  else if letter = 't' then some '\t'
  else none

def hexDigit? (c : Char) : Option Nat :=
  if '0' ≤ c ∧ c ≤ '9' then some (c.toNat - 48)
  else if 'a' ≤ c ∧ c ≤ 'f' then some (c.toNat - 87)
  else if 'A' ≤ c ∧ c ≤ 'F' then some (c.toNat - 55)
  else none

def isHalf (code : Nat) : Bool :=
  0xD800 ≤ code && code < 0xE000

/-- The unit with the given code: a half if the code is a surrogate, else a character. -/
def unitOf (code : Nat) : Unit16 :=
  if isHalf code then .half code else .char (Char.ofNat code)

/-- The unit that four hexadecimal digits denote. -/
def ofHex? (a b c d : Char) : Option Unit16 :=
  match hexDigit? a, hexDigit? b, hexDigit? c, hexDigit? d with
  | some a, some b, some c, some d => some (unitOf (a * 4096 + b * 256 + c * 16 + d))
  | _, _, _, _ => none

/-- Puts a unit before the units of a string that is already read. -/
def cons (u : Unit16) (found : List Unit16 × List Char) : List Unit16 × List Char :=
  (u :: found.1, found.2)

/-- The units up to the closing quote, and what follows it. -/
def units? : List Char → Option (List Unit16 × List Char)
  | [] => none
  | '"' :: rest => some ([], rest)
  | '\\' :: 'u' :: a :: b :: c :: d :: rest =>
    match ofHex? a b c d with
    | none => none
    | some u => (units? rest).map (cons u)
  | '\\' :: letter :: rest =>
    match ofLetter? letter with
    | none => none
    | some c => (units? rest).map (cons (.char c))
  | c :: rest =>
    if isControl c || c == '\\' then none else (units? rest).map (cons (.char c))

/-! The text of the units. -/

/-- A high half starts a pair. -/
def isHigh (code : Nat) : Bool :=
  0xD800 ≤ code && code < 0xDC00

/-- A low half ends a pair. -/
def isLow (code : Nat) : Bool :=
  0xDC00 ≤ code && code < 0xE000

/-- The character that a pair of halves denotes. -/
def ofPair (high low : Nat) : Char :=
  Char.ofNat (0x10000 + (high - 0xD800) * 0x400 + (low - 0xDC00))

/-- The characters of the units, if each half is one of a pair. -/
def decode? : List Unit16 → Option (List Char)
  | [] => some []
  | .char c :: rest => (decode? rest).map (c :: ·)
  | .half high :: .half low :: rest =>
    if isHigh high && isLow low then (decode? rest).map (ofPair high low :: ·) else none
  | .half _ :: _ => none

/-- The text of the units. -/
def text? (units : List Unit16) : Option String :=
  (decode? units).map String.ofList

/-- The units of a text. -/
def ofText (s : String) : List Unit16 :=
  s.toList.map .char

end Quoted

end DocumentStore.Json
