import DocumentStore.Json.Value

/- Documents: JSON objects with an id that their author chooses and attributes that the store
   adds. The names of the store's attributes start with an underscore. -/
namespace DocumentStore

open Json (Value)

/-- A document. -/
abbrev Document :=
  KeyMap Value

namespace Document

/-- The text of a field that holds a string. -/
def text? (doc : Document) (field : String) : Option String :=
  (doc.get? field).bind Value.text?

def id? (doc : Document) : Option String :=
  doc.text? "id"

/-- The id that the store gave to the document when it was created. -/
def resourceId? (doc : Document) : Option String :=
  doc.text? "_rid"

/-- The token that changes with every write to the document. -/
def token? (doc : Document) : Option String :=
  doc.text? "_etag"

def isSystemField (field : String) : Bool :=
  field.toList.head? == some '_'

/-- The document without the attributes of the store. -/
def payload (doc : Document) : Document :=
  doc.filterKeys fun field => !isSystemField field

def toValue (doc : Document) : Value :=
  .object doc.entries

/-- The document that an object is. -/
def ofValue? : Value → Option Document
  | .object members => some (KeyMap.ofList members)
  | _ => none

end Document

end DocumentStore
