/- Failures of parsing, validating and executing a statement, each with its cause, and the text
   that reports it. -/
namespace DocumentStore

/-- A call that a document store refused or did not answer. -/
structure TransportError where
  status : Nat
  message : String
  deriving DecidableEq, Repr

/-! Status codes that the statements give a meaning to. -/

namespace Status

def badRequest : Nat := 400
def forbidden : Nat := 403
def notFound : Nat := 404
def conflict : Nat := 409
def preconditionFailed : Nat := 412

end Status

/-- What a text lacks to be a statement. -/
inductive ParseFault where
  /-- No operand, clause or placeholder starts here. -/
  | token (text : String)
  /-- Written like a number, but none. -/
  | number (text : String)
  /-- A string literal that is no JSON string. -/
  | literal (text : String)
  /-- The content of a string literal is no JSON text. -/
  | content (text : String)
  /-- No assignment starts here. -/
  | field (text : String)
  /-- A string literal without its closing quote. -/
  | unterminated (text : String)
  | id (text : String)
  | statement (text : String)
  /-- A value of the cross-partition option that does not say yes. -/
  | crossPartition (flag : String)
  deriving DecidableEq, Repr

/-- What a well-formed statement lacks to be meaningful. -/
inductive ValidationFault where
  | counts (fields values : Nat)
  | missingId
  | nothingAssigned
  | missingContainer
  deriving DecidableEq, Repr

/-- The two ways to run a statement. -/
inductive Mode where
  | exec
  | query
  deriving DecidableEq, Repr

/-- Why a statement was not run, or not to its end. -/
inductive Error where
  | parse (fault : ParseFault)
  | validation (fault : ValidationFault)
  /-- A placeholder refers to no argument. -/
  | placeholderIndex (index : Nat)
  | argumentCount (expected actual : Nat)
  /-- An argument that no placeholder of the query refers to. -/
  | missingParameter (index : Nat)
  /-- The statement has to be run in the other mode. -/
  | unsupported (use : Mode)
  | forbidden
  | notFound
  | conflict
  | transport (error : TransportError)
  deriving DecidableEq, Repr

namespace TransportError

def text (e : TransportError) : String :=
  "status " ++ toString e.status ++ ": " ++ e.message

/-- How a message names the kind of the resource if a document is missing. -/
def documentMarker : String :=
  "ResourceType: Document"

/-- `part` stands somewhere in `cs`. -/
def occursIn (part : List Char) : List Char → Bool
  | [] => part.isEmpty
  | c :: cs => part.isPrefixOf (c :: cs) || occursIn part cs

/-- A document is missing, rather than its database or collection. Only the text of the message
    tells the two apart. -/
def isDocumentMissing (e : TransportError) : Bool :=
  e.status == Status.notFound && occursIn documentMarker.toList e.message.toList

/-- The failure of the statement whose call failed with `e`. -/
def toError (e : TransportError) : Error :=
  if e.status = Status.forbidden then .forbidden
  else if e.status = Status.notFound then .notFound
  else if e.status = Status.conflict then .conflict
  else .transport e

end TransportError

namespace ParseFault

def text : ParseFault → String
  | .token t => "invalid token at: " ++ t
  | .number t => "(number) invalid token at: " ++ t
  | .literal t => "(unquote) invalid token at: " ++ t
  | .content t => "(unmarshal) invalid token at: " ++ t
  | .field t => "(field) invalid token at: " ++ t
  | .unterminated t => "unterminated string at: " ++ t
  | .id t => "invalid id literal: " ++ t
  | .statement t => "unsupported statement: " ++ t
  | .crossPartition flag =>
    "the only accepted value for cross_partition is true, invalid token at: " ++ flag

end ParseFault

namespace ValidationFault

def text : ValidationFault → String
  | .counts fields values =>
    "number of field (" ++ toString fields ++ ") does not match number of input value (" ++
      toString values ++ ")"
  | .missingId => "id value is missing"
  | .nothingAssigned => "SET clause is empty"
  | .missingContainer => "database or collection is not specified"

end ValidationFault

namespace Mode

def name : Mode → String
  | .exec => "exec"
  | .query => "query"

end Mode

namespace Error

/-- The text that reports the failure. -/
def message : Error → String
  | .parse fault => "cannot parse query: " ++ fault.text
  | .validation fault => "invalid query: " ++ fault.text
  | .placeholderIndex index => "invalid value index " ++ toString index
  | .argumentCount expected actual =>
    "expected " ++ toString expected ++ " argument(s), got " ++ toString actual
  | .missingParameter index => "there is no placeholder number " ++ toString index
  | .unsupported use => "this operation is not supported, please use " ++ use.name
  | .forbidden => "forbidden"
  | .notFound => "not found"
  | .conflict => "conflict"
  | .transport e => e.text

end Error

end DocumentStore
