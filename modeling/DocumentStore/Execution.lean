import DocumentStore.Rows
import DocumentStore.Statement

/- Running statements over a transport. A statement is bound to its arguments first; only if that
   succeeds is the store asked. -/
namespace DocumentStore

open Json (Value)

variable {σ : Type}

/-- What an UPDATE does when the document has changed since it was read. -/
inductive StalePolicy where
  /-- Report that nothing was changed. -/
  | suppress
  /-- Fail with a conflict. -/
  | surface
  deriving DecidableEq, Repr

/-- The result of a writing statement. -/
structure Outcome where
  successful : Bool
  /-- The id that the store gave to a created document. -/
  insertId : Option String
  deriving DecidableEq, Repr

namespace Outcome

def applied : Outcome :=
  ⟨true, none⟩

/-- Nothing was changed, and that is no failure. -/
def unchanged : Outcome :=
  ⟨false, none⟩

/-- How many documents were written or removed. -/
def rowsAffected (o : Outcome) : Nat :=
  if o.successful then 1 else 0

end Outcome

/-! Binding. -/

namespace Operand

/-- The values of assigned operands under the given arguments, or the first failure. -/
def resolveAll (args : List Value) : List (String × Operand) →
    Except Error (List (String × Value))
  | [] => .ok []
  | (field, operand) :: rest =>
    match operand.resolve args with
    | .error e => .error e
    | .ok v => (resolveAll args rest).map ((field, v) :: ·)

end Operand

/-- Fails unless there are as many arguments as expected. -/
def checkCount (expected : Nat) (args : List Value) : Except Error Unit :=
  if args.length = expected then .ok () else .error (.argumentCount expected args.length)

/-- The partition key of a writing statement: its last argument. -/
def partitionKey (args : List Value) : Except Error (List Value) :=
  match args.getLast? with
  | some v => .ok [v]
  | none => .error (.argumentCount 1 0)

namespace Insert

/-- The document to create. Of two values for one field the later counts. -/
def draft (s : Insert) (args : List Value) : Except Error Draft := do
  checkCount s.numInput args
  let entries ← Operand.resolveAll args (s.fields.zip s.values)
  let partition ← partitionKey args
  return ⟨s.container, partition, s.upsert, KeyMap.ofList entries⟩

end Insert

namespace Delete

/-- The document to delete. -/
def address (s : Delete) (args : List Value) : Except Error Address := do
  checkCount s.numInput args
  let id ← s.id.resolve args
  let partition ← partitionKey args
  return ⟨s.container, partition, id⟩

end Delete

namespace Update

/-- An UPDATE under its arguments: the document it is about and the values it assigns. -/
structure Bound where
  address : Address
  values : List (String × Value)
  deriving DecidableEq

def bind (s : Update) (args : List Value) : Except Error Bound := do
  checkCount s.numInput args
  let id ← s.id.resolve args
  let partition ← partitionKey args
  let values ← Operand.resolveAll args s.assignments
  return ⟨⟨s.container, partition, id⟩, values⟩

/-- What replaces the current document: its payload with the assigned values laid over it. -/
def Bound.draft (b : Bound) (current : Document) : Draft :=
  ⟨b.address.container, b.address.partition, false, current.payload.insertAll b.values⟩

end Update

namespace Select

/-- The request for the first page. -/
def search (s : Select) (args : List Value) : Except Error Search := do
  let parameters ← s.bind args
  return ⟨s.container, s.text, parameters, s.crossPartition, none⟩

end Select

/-! Running. -/

/-- A refused call in which a missing document is no failure. -/
def TransportError.unlessMissing (e : TransportError) : Except Error Outcome :=
  if e.isDocumentMissing then .ok .unchanged else .error e.toError

namespace Insert

def exec (s : Insert) (t : Transport σ) (args : List Value) (state : σ) :
    Except Error Outcome × σ :=
  match s.draft args with
  | .error e => (.error e, state)
  | .ok draft =>
    match t.create draft state with
    | (.ok doc, state) => (.ok ⟨true, doc.resourceId?⟩, state)
    | (.error e, state) => (.error e.toError, state)

end Insert

namespace Delete

def exec (s : Delete) (t : Transport σ) (args : List Value) (state : σ) :
    Except Error Outcome × σ :=
  match s.address args with
  | .error e => (.error e, state)
  | .ok address =>
    match t.delete address state with
    | (.ok (), state) => (.ok .applied, state)
    | (.error e, state) => (e.unlessMissing, state)

end Delete

namespace Update

/-- The result when the store refuses to replace the document. -/
def refused (policy : StalePolicy) (e : TransportError) : Except Error Outcome :=
  if e.status = Status.preconditionFailed then
    match policy with
    | .suppress => .ok .unchanged
    | .surface => .error .conflict
  else e.unlessMissing

/-- Reads the document and replaces it, provided that its token is still the one read. -/
def exec (s : Update) (t : Transport σ) (policy : StalePolicy) (args : List Value) (state : σ) :
    Except Error Outcome × σ :=
  match s.bind args with
  | .error e => (.error e, state)
  | .ok bound =>
    match t.get bound.address state with
    | (.error e, state) => (e.unlessMissing, state)
    | (.ok current, state) =>
      match t.replace (bound.draft current) (current.token?.getD "") state with
      | (.ok _, state) => (.ok .applied, state)
      | (.error e, state) => (refused policy e, state)

end Update

namespace Select

/-- The documents of all pages from the given one on, each page fetched with the token of the
    page before. None if the last page is not reached within the limit. -/
def pages (t : Transport σ) : (limit : Nat) → Search → σ →
    Option (Except Error (List Document)) × σ
  | 0, _, state => (none, state)
  | limit + 1, search, state =>
    match t.search search state with
    | (.error e, state) => (some (.error e.toError), state)
    | (.ok page, state) =>
      match page.next? with
      | none => (some (.ok page.documents), state)
      | some token =>
        let (rest, state) := pages t limit { search with continuation := some token } state
        (rest.map fun found => found.map (page.documents ++ ·), state)

/-- The rows of the query. None if it has more pages than the limit allows. -/
def query (s : Select) (t : Transport σ) (limit : Nat) (args : List Value) (state : σ) :
    Option (Except Error Rows) × σ :=
  match s.search args with
  | .error e => (some (.error e), state)
  | .ok search =>
    let (found, state) := pages t limit search state
    (found.map fun found => found.map Rows.ofDocuments, state)

end Select

namespace Statement

/-- Runs a writing statement. -/
def exec (s : Statement) (t : Transport σ) (policy : StalePolicy) (args : List Value)
    (state : σ) : Except Error Outcome × σ :=
  match s with
  | .insert s => s.exec t args state
  | .delete s => s.exec t args state
  | .update s => s.exec t policy args state
  | .select _ => (.error (.unsupported .query), state)

/-- Runs a query. -/
def query (s : Statement) (t : Transport σ) (limit : Nat) (args : List Value) (state : σ) :
    Option (Except Error Rows) × σ :=
  match s with
  | .select s => s.query t limit args state
  | _ => (some (.error (.unsupported .exec)), state)

end Statement

end DocumentStore
