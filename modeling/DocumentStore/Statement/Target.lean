import DocumentStore.Text.Scan
import DocumentStore.Transport

/- The parts that the writing statements share: the container they name and the condition on the
   id. -/
namespace DocumentStore.Target

open Text

/-- `database.collection` at the start of a text, and what follows it. -/
def container? (cs : List Char) : Option (Container × List Char) :=
  match name? cs with
  | none => none
  | some (database, cs) =>
    match (char? '.' cs).bind name? with
    | none => none
    | some (collection, cs) => some (⟨String.ofList database, String.ofList collection⟩, cs)

/-- What follows `WHERE id=` and the blanks after it. -/
def condition? (cs : List Char) : Option (List Char) :=
  ((keyword? "WHERE" cs).bind blanks?).bind fun cs =>
    ((keyword? "id" cs).bind fun cs => char? '=' (skipBlanks cs)).map skipBlanks

end DocumentStore.Target
