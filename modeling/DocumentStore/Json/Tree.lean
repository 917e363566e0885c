import DocumentStore.Json.Numeral
import DocumentStore.Json.Quoted

/- JSON text as a tree of what is written. Numbers and strings keep their written form and an
   object keeps every member in order, so reading a tree decides only whether a text is JSON,
   and what the text means is decided by whoever takes the tree. -/
namespace DocumentStore.Json

/-- A JSON text. -/
inductive Tree where
  | null
  | bool (b : Bool)
  | number (n : Numeral)
  | string (units : List Unit16)
  | array (items : List Tree)
  | object (members : List (List Unit16 × Tree))

/-- White space of a written tree: `gap depth` stands between the brackets and elements of a
    container whose elements are `depth` levels deep, `colon` between a key and its value. -/
structure Layout where
  gap : Nat → List Char
  colon : List Char

namespace Layout

/-- No white space at all. -/
def compact : Layout where
  gap _ := []
  colon := [':']

/-- One element a line, two blanks a level. -/
def pretty : Layout where
  gap depth := '\n' :: List.replicate (2 * depth) ' '
  colon := [':', ' ']

end Layout

namespace Tree

/-! Writing. The text of a tree is put before the text that follows it, so that no text is
    copied on the way out of a container. -/

mutual

/-- Puts the text of a tree that stands `depth` levels deep before `rest`. -/
def render (l : Layout) (depth : Nat) : Tree → List Char → List Char
  | .null, rest => 'n' :: 'u' :: 'l' :: 'l' :: rest
  | .bool true, rest => 't' :: 'r' :: 'u' :: 'e' :: rest
  | .bool false, rest => 'f' :: 'a' :: 'l' :: 's' :: 'e' :: rest
  | .number n, rest => n.render ++ rest
  | .string units, rest => Quoted.render units rest
  | .array [], rest => '[' :: ']' :: rest
  | .array (t :: items), rest =>
    '[' :: (l.gap (depth + 1) ++ render l (depth + 1) t
      (renderItems l (depth + 1) items (l.gap depth ++ ']' :: rest)))
  | .object [], rest => '\x7b' :: '\x7d' :: rest
  | .object ((key, t) :: members), rest =>
    '\x7b' :: (l.gap (depth + 1) ++ Quoted.render key (l.colon ++ render l (depth + 1) t
      (renderMembers l (depth + 1) members (l.gap depth ++ '\x7d' :: rest))))

/-- Puts the items after the first before `rest`. -/
def renderItems (l : Layout) (depth : Nat) : List Tree → List Char → List Char
  | [], rest => rest
  | t :: items, rest =>
    ',' :: (l.gap depth ++ render l depth t (renderItems l depth items rest))

/-- Puts the members after the first before `rest`. -/
def renderMembers (l : Layout) (depth : Nat) :
    List (List Unit16 × Tree) → List Char → List Char
  | [], rest => rest
  | (key, t) :: members, rest =>
    ',' :: (l.gap depth ++ Quoted.render key (l.colon ++ render l depth t
      (renderMembers l depth members rest)))

end

/-- The text of a tree. -/
def write (l : Layout) (t : Tree) : String :=
  String.ofList (t.render l 0 [])

/-! Reading. -/

/-- White space of JSON. -/
def isSpace (c : Char) : Bool :=
  c = ' ' || c = '\t' || c = '\n' || c = '\r'

def skipSpaces (cs : List Char) : List Char :=
  cs.dropWhile isSpace

mutual

/-- The value at the start of the text, and what follows it. -/
def value? : Nat → List Char → Option (Tree × List Char)
  | 0, _ => none
  | fuel + 1, cs =>
    match skipSpaces cs with
    | 'n' :: 'u' :: 'l' :: 'l' :: rest => some (.null, rest)
    | 't' :: 'r' :: 'u' :: 'e' :: rest => some (.bool true, rest)
    | 'f' :: 'a' :: 'l' :: 's' :: 'e' :: rest => some (.bool false, rest)
    | '"' :: rest => (Quoted.units? rest).map fun (units, rest) => (.string units, rest)
    | '[' :: rest =>
      match skipSpaces rest with
      | ']' :: rest => some (.array [], rest)
      | rest => (items? fuel rest).map fun (items, rest) => (.array items, rest)
    | '\x7b' :: rest =>
      match skipSpaces rest with
      | '\x7d' :: rest => some (.object [], rest)
      | rest => (members? fuel rest).map fun (members, rest) => (.object members, rest)
    | cs => (Numeral.read? cs).map fun (n, rest) => (.number n, rest)

/-- The items up to the closing bracket, of which there is at least one. -/
def items? : Nat → List Char → Option (List Tree × List Char)
  | 0, _ => none
  | fuel + 1, cs =>
    match value? fuel cs with
    | none => none
    | some (t, cs) =>
      match skipSpaces cs with
      | ',' :: rest => (items? fuel rest).map fun (items, rest) => (t :: items, rest)
      | ']' :: rest => some ([t], rest)
      | _ => none

/-- The members up to the closing brace, of which there is at least one. -/
def members? : Nat → List Char → Option (List (List Unit16 × Tree) × List Char)
  | 0, _ => none
  | fuel + 1, cs =>
    match skipSpaces cs with
    | '"' :: cs =>
      match Quoted.units? cs with
      | none => none
      | some (key, cs) =>
        match skipSpaces cs with
        | ':' :: cs =>
          match value? fuel cs with
          | none => none
          | some (t, cs) =>
            match skipSpaces cs with
            | ',' :: rest => (members? fuel rest).map fun (ms, rest) => ((key, t) :: ms, rest)
            | '\x7d' :: rest => some ([(key, t)], rest)
            | _ => none
        | _ => none
    | _ => none

end

/-- The tree of a whole text: one value with nothing but white space around it. A level of
    nesting takes at least one character and two steps, so the steps suffice. -/
def read? (cs : List Char) : Option Tree :=
  match value? (2 * cs.length + 2) cs with
  | some (t, rest) => if skipSpaces rest = [] then some t else none
  | none => none

end Tree

end DocumentStore.Json
