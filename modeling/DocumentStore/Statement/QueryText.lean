import DocumentStore.Operand

/- The text of a query, with placeholders among its characters. A placeholder is a sigil and the
   longest run of decimal digits after it. For the store each becomes a parameter named after its
   index. -/
namespace DocumentStore.QueryText

open Text

/-- A part of a query text. -/
inductive Part where
  | char (c : Char)
  | placeholder (sigil : Char) (digits : List Char)
  deriving DecidableEq

/-- Takes digits off the start of a text that is already split. -/
def digitsBefore : List Part → List Char × List Part
  | .char c :: parts =>
    if isDecimalDigit c then
      match digitsBefore parts with
      | (digits, rest) => (c :: digits, rest)
    else ([], .char c :: parts)
  | parts => ([], parts)

/-- Puts a character before a text that is already split. A sigil takes the digits that
    follow. -/
def addChar (c : Char) (parts : List Part) : List Part :=
  if Placeholder.isSigil c then
    match digitsBefore parts with
    | ([], _) => .char c :: parts
    | (digits, rest) => .placeholder c digits :: rest
  else .char c :: parts

/-- The parts of a text. -/
def parts (cs : List Char) : List Part :=
  cs.foldr addChar []

/-- The name of the parameter for an index. -/
def parameterName (index : Nat) : String :=
  "@_" ++ toString index

/-- A text for the store, and the indices of its parameters in the order of their places. -/
structure Parametrized where
  text : List Char
  indices : List Nat
  deriving DecidableEq

/-- Turns the placeholders into parameters, from the left. The first that has no index is
    reported. -/
def parametrizeParts : List Part → Except Error Parametrized
  | [] => .ok ⟨[], []⟩
  | .char c :: parts => (parametrizeParts parts).map fun r => ⟨c :: r.text, r.indices⟩
  | .placeholder sigil digits :: parts =>
    match index? digits with
    | none => .error (.parse (.token (String.ofList (sigil :: digits))))
    | some index =>
      (parametrizeParts parts).map fun r =>
        ⟨(parameterName index).toList ++ r.text, index :: r.indices⟩

/-- Turns the placeholders of a text into parameters. -/
def parametrize (cs : List Char) : Except Error Parametrized :=
  parametrizeParts (parts cs)

end DocumentStore.QueryText
