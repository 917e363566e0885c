import DocumentStore.Operand

/- The id in the condition of a statement: a quoted text, a placeholder, or a text that stands for
   itself. -/
namespace DocumentStore

open Json (Value)
open Text

/-- The id of the document that a statement is about. -/
inductive IdTerm where
  | literal (id : String)
  | placeholder (index : Nat)
  deriving DecidableEq, Repr

namespace IdTerm

/-- A sigil with a digit after it stands somewhere in the text. -/
def mentionsPlaceholder : List Char → Bool
  | [] => false
  | c :: cs => Placeholder.isSigil c && cs.head?.any isDecimalDigit || mentionsPlaceholder cs

/-- The id of a text without blanks around it. A quote at one end needs one at the other, and a
    text without quotes that mentions a placeholder has to be one, with an index from one. -/
def ofTrimmed (cs : List Char) : Except Error IdTerm :=
  let invalid := Except.error (Error.parse (.id (String.ofList cs)))
  let opened := cs.head? == some '"'
  let closed := decide (1 < cs.length) && cs.getLast? == some '"'
  if opened != closed then invalid
  else if opened then .ok (.literal (String.ofList (trim cs.tail.dropLast)))
  else if mentionsPlaceholder cs then
    match Placeholder.ofText? cs with
    | some (index + 1) => .ok (.placeholder (index + 1))
    | _ => invalid
  else .ok (.literal (String.ofList cs))

/-- The id that a text denotes. -/
def parse (cs : List Char) : Except Error IdTerm :=
  ofTrimmed (trim cs)

def isPlaceholder : IdTerm → Bool
  | .literal _ => false
  | .placeholder _ => true

def isEmpty : IdTerm → Bool
  | .literal id => id == ""
  | .placeholder _ => false

/-- The id under the given arguments. An argument that is no string counts by its JSON text. -/
def resolve (args : List Value) : IdTerm → Except Error String
  | .literal id => .ok id
  | .placeholder index =>
    (Placeholder.resolve args index).map fun v => v.text?.getD v.compact

/-- How many arguments the id takes. -/
def countPlaceholders (id : IdTerm) : Nat :=
  if id.isPlaceholder then 1 else 0

end IdTerm

end DocumentStore
