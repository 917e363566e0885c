import DocumentStore.Operand

/- Reading operands and assignments from a list separated by blanks and commas. Each step starts
   where the one before it stopped and answers with what it found and the text that remains,
   also when it fails, so that a reader may go on after a failure.

   An operand is a placeholder, `null`, a number, `true`, `false`, or a JSON text inside a JSON
   string literal. -/
namespace DocumentStore.ValueList

open Json (Value)
open Text

/-- What a step found, and the remaining text. -/
abbrev Step (α : Type) :=
  Except Error α × List Char

def fail {α : Type} (fault : ParseFault) (rest : List Char) : Step α :=
  (.error (.parse fault), rest)

/-! Recognisers. Each answers none where its kind of operand does not start. -/

/-- A sigil and ASCII digits. -/
def placeholder? : List Char → Option (Step Operand)
  | sigil :: d :: cs =>
    if Placeholder.isSigil sigil && d.isDigit then
      let digits := (d :: cs).takeWhile Char.isDigit
      let rest := (d :: cs).dropWhile Char.isDigit
      match index? digits with
      | some index => some (.ok (.placeholder index), rest)
      | none => some (fail (.token (String.ofList (sigil :: digits))) rest)
    else none
  | _ => none

/-- A character that would continue a bare word. -/
def continuesWord (c : Char) : Bool :=
  isAlphanumeric c || c == '_'

/-- A bare word for a value. -/
def bareWord? (word : String) (v : Value) (cs : List Char) : Option (Step Operand) :=
  match after? sameLetter word.toList cs with
  | some rest => if rest.head?.any continuesWord then none else some (.ok (.literal v), rest)
  | none => none

def startsNumber (c : Char) : Bool :=
  c.isDigit || c == '-' || c == '+' || c == '.'

def continuesNumber (c : Char) : Bool :=
  c.isAlphanum || c == '-' || c == '+' || c == '.'

/-- A run of number characters, which has to be a JSON number as a whole. -/
def number? (cs : List Char) : Option (Step Operand) :=
  if cs.head?.any startsNumber then
    let text := String.ofList (cs.takeWhile continuesNumber)
    let rest := cs.dropWhile continuesNumber
    match Value.read? text with
    | some v => if v.isNumber then some (.ok (.literal v), rest) else some (fail (.number text) rest)
    | none => some (fail (.number text) rest)
  else none

/-- Puts characters before a text that is already split. -/
def cons (cs : List Char) (split : List Char × List Char) : List Char × List Char :=
  (cs ++ split.1, split.2)

/-- Splits a text after the quote that closes a literal. A backslash hides the character after
    it. -/
def closing? : List Char → Option (List Char × List Char)
  | [] => none
  | '\\' :: c :: cs => (closing? cs).map (cons ['\\', c])
  | c :: cs =>
    if c = '"' then some (['"'], cs)
    else (closing? cs).map (cons [c])

/-- The value whose JSON text a string literal holds. -/
def content (literal : String) : Except Error Value :=
  match (Value.read? literal).bind Value.text? with
  | none => .error (.parse (.literal literal))
  | some text =>
    match Value.read? text with
    | none => .error (.parse (.content text))
    | some v => .ok v

/-- A string literal. -/
def quoted? : List Char → Option (Step Operand)
  | '"' :: cs =>
    match closing? cs with
    | none => some (fail (.unterminated (String.ofList ('"' :: cs))) [])
    | some (body, rest) =>
      some ((content (String.ofList ('"' :: body))).map .literal, rest)
  | _ => none

/-- The operand at the start of a text. -/
def operand (cs : List Char) : Step Operand :=
  (placeholder? cs
    <|> bareWord? "null" .null cs
    <|> number? cs
    <|> bareWord? "true" (.bool true) cs
    <|> bareWord? "false" (.bool false) cs
    <|> quoted? cs).getD (fail (.token (String.ofList cs)) cs)

/-! Steps. -/

/-- Only blanks are left. -/
def atEnd (cs : List Char) : Bool :=
  (skipBlanks cs).isEmpty

/-- The next operand, none at the end of the text. -/
def next (cs : List Char) : Step (Option Operand) :=
  match skipBlanks cs with
  | [] => (.ok none, [])
  | c :: cs =>
    match operand (c :: cs) with
    | (.ok found, rest) => (.ok (some found), skipSeparator rest)
    | (.error e, rest) => (.error e, rest)

/-- The name of the next assignment. The step ends after the equals sign. -/
def field (cs : List Char) : Step String :=
  let start := skipBlanks cs
  match start.takeWhile isFieldName, skipBlanks (start.dropWhile isFieldName) with
  | c :: name, '=' :: rest => (.ok (String.ofList (c :: name)), rest)
  | _, _ => fail (.field (String.ofList start)) start

/-- The next assignment of a clause, none at its end. A name needs an operand behind it; where it
    has none, the whole clause is reported. -/
def assignment (clause cs : List Char) : Step (Option (String × Operand)) :=
  if atEnd cs then (.ok none, skipBlanks cs)
  else
    match field cs with
    | (.error e, rest) => (.error e, rest)
    | (.ok name, behind) =>
      match next behind with
      | (.error e, rest) => (.error e, rest)
      | (.ok none, rest) => fail (.token (String.ofList (trim clause))) rest
      | (.ok (some found), rest) => (.ok (some (name, found)), rest)

/-! Whole lists. A round that finds something takes at least one character, so as many rounds as the
    text has characters, and one more, reach its end. -/

/-- What so many rounds find, one after the other, up to the first that finds nothing. -/
def collect {α : Type} (round : List Char → Step (Option α)) : Nat → List Char →
    Except Error (List α)
  | 0, _ => .ok []
  | fuel + 1, cs =>
    match round cs with
    | (.error e, _) => .error e
    | (.ok none, _) => .ok []
    | (.ok (some found), rest) => (collect round fuel rest).map (found :: ·)

/-- The operands of a whole text. -/
def operands (cs : List Char) : Except Error (List Operand) :=
  collect next (cs.length + 1) cs

/-- The assignments of a whole SET clause. -/
def assignments (clause : List Char) : Except Error (List (String × Operand)) :=
  collect (assignment clause) (clause.length + 1) clause

end DocumentStore.ValueList
