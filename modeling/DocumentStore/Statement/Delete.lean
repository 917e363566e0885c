import DocumentStore.Statement.IdTerm
import DocumentStore.Statement.Target

/- `DELETE FROM db.coll WHERE id=...`. -/
namespace DocumentStore

open Text

/-- Removes one document. -/
structure Delete where
  container : Container
  id : IdTerm
  deriving DecidableEq

namespace Delete

/-- How many arguments the statement takes: one for a placeholder, and the partition key. -/
def numInput (s : Delete) : Nat :=
  1 + s.id.countPlaceholders

/-- The statement with the given condition. -/
def ofCondition (container : Container) (id : List Char) : Except Error Delete :=
  match IdTerm.parse id with
  | .error e => .error e
  | .ok id => if id.isEmpty then .error (.validation .missingId) else .ok ⟨container, id⟩

/-- The parts of a text that has the form of the statement: the container and the id. -/
def parts? (cs : List Char) : Option (Container × List Char) :=
  match (keywords? "DELETE" "FROM" cs).bind Target.container? with
  | none => none
  | some (container, cs) => ((blanks? cs).bind Target.condition?).map fun id => (container, id)

/-- The statement of a text, none if the text does not have its form. -/
def parse? (cs : List Char) : Option (Except Error Delete) :=
  (parts? cs).map fun (container, id) => ofCondition container id

end Delete

end DocumentStore
