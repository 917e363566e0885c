import DocumentStore.Statement.IdTerm
import DocumentStore.Statement.Target
import DocumentStore.ValueList

/- `UPDATE db.coll SET field=value, ... WHERE id=...`. -/
namespace DocumentStore

open Json (Value)
open Text

/-- Assigns fields of one document. -/
structure Update where
  container : Container
  id : IdTerm
  assignments : List (String × Operand)
  deriving DecidableEq

namespace Update

/-- The assigned fields in order. -/
def fields (s : Update) : List String :=
  s.assignments.map (·.1)

/-- The assigned values in order. -/
def values (s : Update) : List Operand :=
  s.assignments.map (·.2)

/-- How many arguments the statement takes: one for each placeholder, and the partition key. -/
def numInput (s : Update) : Nat :=
  1 + s.id.countPlaceholders + Operand.countPlaceholders s.values

/-- The statement with the given SET clause and condition. -/
def ofClauses (container : Container) (clause id : List Char) : Except Error Update :=
  match IdTerm.parse id with
  | .error e => .error e
  | .ok id =>
    match ValueList.assignments clause with
    | .error e => .error e
    | .ok assignments =>
      if id.isEmpty then .error (.validation .missingId)
      else if assignments.isEmpty then .error (.validation .nothingAssigned)
      else .ok ⟨container, id, assignments⟩

/-- Splits a text at the last place where the condition starts: a WHERE with its equals sign
    that no character of a word stands before. -/
def clauses? (before : Option Char) : List Char → Option (List Char × List Char)
  | [] => none
  | c :: cs =>
    match clauses? (some c) cs with
    | some (clause, id) => some (c :: clause, id)
    | none =>
      if before.any isWord then none
      else (Target.condition? (c :: cs)).map fun id => ([], id)

/-- What follows the keyword SET, which ends there. -/
def set? (cs : List Char) : Option (List Char) :=
  (keyword? "SET" cs).filter fun cs => !cs.head?.any isWord

/-- The parts of a text that has the form of the statement: the container, the SET clause and
    the id. -/
def parts? (cs : List Char) : Option (Container × List Char × List Char) :=
  match ((keyword? "UPDATE" cs).bind blanks?).bind Target.container? with
  | none => none
  | some (container, cs) =>
    (((blanks? cs).bind set?).bind (clauses? (some 'T'))).map fun (clause, id) =>
      (container, clause, id)

/-- The statement of a text, none if the text does not have its form. -/
def parse? (cs : List Char) : Option (Except Error Update) :=
  (parts? cs).map fun (container, clause, id) => ofClauses container clause id

end Update

end DocumentStore
