import DocumentStore.Statement.Target
import DocumentStore.ValueList

/- `INSERT INTO db.coll (field, ...) VALUES (value, ...)`, and UPSERT in place of INSERT to allow
   that the document exists. -/
namespace DocumentStore

open Json (Value)
open Text

/-- Creates one document. -/
structure Insert where
  container : Container
  upsert : Bool
  fields : List String
  values : List Operand
  deriving DecidableEq

namespace Insert

/-- How many arguments the statement takes: one for each placeholder, and the partition key. -/
def numInput (s : Insert) : Nat :=
  1 + Operand.countPlaceholders s.values

/-! Reading. -/

/-- Field names are separated by commas and blanks. -/
def separatesFields (c : Char) : Bool :=
  c == ',' || isBlank c

def fieldsOf (cs : List Char) : List String :=
  (runs separatesFields cs).map String.ofList

/-- The statement with the given field list and value list, which have to be equally long. -/
def ofLists (container : Container) (upsert : Bool) (fields values : List Char) :
    Except Error Insert :=
  match ValueList.operands values with
  | .error e => .error e
  | .ok operands =>
    let s : Insert := ⟨container, upsert, fieldsOf fields, operands⟩
    if s.fields.length = s.values.length then .ok s
    else .error (.validation (.counts s.fields.length s.values.length))

/-- What follows `) VALUES (`. -/
def valuesHead? (cs : List Char) : Option (List Char) :=
  ((char? ')' cs).bind fun cs => keyword? "VALUES" (skipBlanks cs)).bind fun cs =>
    char? '(' (skipBlanks cs)

/-- Splits a text at the first place where the field list ends and the value list starts. -/
def lists? : List Char → Option (List Char × List Char)
  | [] => none
  | c :: cs =>
    match valuesHead? (c :: cs) with
    | some values => some ([], values)
    | none => (lists? cs).map fun (fields, values) => (c :: fields, values)

/-- The keyword of the statement and the next one. -/
def head? (cs : List Char) : Option (List Char) :=
  keywords? "INSERT" "INTO" cs <|> keywords? "UPSERT" "INTO" cs

/-- The statement allows that the document exists. -/
def isUpsert (cs : List Char) : Bool :=
  (after? sameLetter "UPSERT".toList cs).isSome

/-- The parts of a text that has the form of the statement: the container, the field list and
    the value list. The list of values ends with the text. -/
def parts? (cs : List Char) : Option (Container × List Char × List Char) :=
  match (head? cs).bind Target.container? with
  | none => none
  | some (container, cs) =>
    match (char? '(' (skipBlanks cs)).bind lists? with
    | none => none
    | some (fields, values) =>
      if values.getLast? = some ')' then some (container, fields, values.dropLast) else none

/-- The statement of a text, none if the text does not have its form. -/
def parse? (cs : List Char) : Option (Except Error Insert) :=
  (parts? cs).map fun (container, fields, values) =>
    ofLists container (isUpsert cs) fields values

end Insert

end DocumentStore
