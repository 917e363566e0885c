import DocumentStore.Error
import DocumentStore.Json.Value
import DocumentStore.Text.Scan

/- Operands of a statement and the placeholders among them. A placeholder refers to an argument
   by its position, counted from one. The last argument of a writing statement is its partition
   key, so a placeholder never refers to that. -/
namespace DocumentStore

open Json (Value)

namespace Placeholder

/-- A placeholder starts with one of three characters. -/
def isSigil (c : Char) : Bool :=
  c == '$' || c == '@' || c == ':'

/-- The index of a text that is one placeholder and nothing else. -/
def ofText? : List Char → Option Nat
  | [] => none
  | c :: digits => if isSigil c then Text.index? digits else none

/-- The argument at a position, unless it is the last one. -/
def resolve (args : List Value) (index : Nat) : Except Error Value :=
  if index = 0 ∨ args.length ≤ index then .error (.placeholderIndex index)
  else
    match args[index - 1]? with
    | some v => .ok v
    | none => .error (.placeholderIndex index)

end Placeholder

/-- A value written in a statement, or the position of the argument that takes its place. -/
inductive Operand where
  | literal (v : Value)
  | placeholder (index : Nat)
  deriving DecidableEq

namespace Operand

def isPlaceholder : Operand → Bool
  | .literal _ => false
  | .placeholder _ => true

/-- The value of an operand under the given arguments. -/
def resolve (args : List Value) : Operand → Except Error Value
  | .literal v => .ok v
  | .placeholder index => Placeholder.resolve args index

/-- How many of the operands are placeholders. -/
def countPlaceholders (operands : List Operand) : Nat :=
  operands.countP isPlaceholder

end Operand

end DocumentStore
