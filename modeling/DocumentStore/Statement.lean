import DocumentStore.Statement.Delete
import DocumentStore.Statement.Insert
import DocumentStore.Statement.Select
import DocumentStore.Statement.Update

/- Statements. Case does not matter in keywords, nor do blanks around a statement and semicolons
   after it. -/
namespace DocumentStore

open Text

/-- A statement. -/
inductive Statement where
  | insert (s : Insert)
  | delete (s : Delete)
  | update (s : Update)
  | select (s : Select)
  deriving DecidableEq

namespace Statement

/-- How many arguments the statement takes. -/
def numInput : Statement → Nat
  | .insert s => s.numInput
  | .delete s => s.numInput
  | .update s => s.numInput
  | .select s => s.numInput

/-- The text without blanks around it and without the semicolons at its end. -/
def normalize (cs : List Char) : List Char :=
  dropEndWhile isBlank (dropEndWhile (· == ';') (trim cs))

/-- A query is told by its keyword alone. -/
def isSelect (cs : List Char) : Bool :=
  (after? sameLetter "SELECT".toList cs).isSome

/-- The statement of a normalized text. -/
def ofNormalized (cs : List Char) : Except Error Statement :=
  match Insert.parse? cs with
  | some s => s.map .insert
  | none =>
    match Delete.parse? cs with
    | some s => s.map .delete
    | none =>
      match Update.parse? cs with
      | some s => s.map .update
      | none =>
        if isSelect cs then (Select.parse cs).map .select
        else .error (.parse (.statement (String.ofList cs)))

/-- The statement that a text denotes. -/
def parse (text : String) : Except Error Statement :=
  ofNormalized (normalize text.toList)

end Statement

end DocumentStore
