import DocumentStore.Error
import DocumentStore.Document

/- What a statement may ask of a document store. A transport answers one request at a time and
   carries its own state from one to the next: the store itself, a list of answers to give, or a
   record of what was asked. -/
namespace DocumentStore

open Json (Value)

/-- A collection of a database. -/
structure Container where
  database : String
  collection : String
  deriving DecidableEq, Repr

/-- Where a document stands: its container, the values of its partition key and its id. -/
structure Address where
  container : Container
  partition : List Value
  id : String
  deriving DecidableEq

/-- A document to be written. The payload carries the id. -/
structure Draft where
  container : Container
  partition : List Value
  upsert : Bool
  payload : Document
  deriving DecidableEq

/-- A query for one page of results. -/
structure Search where
  container : Container
  text : String
  parameters : List (String × Value)
  crossPartition : Bool
  continuation : Option String
  deriving DecidableEq

/-- One page of results. -/
structure Page where
  documents : List Document
  continuation : Option String
  deriving DecidableEq

namespace Page

def last : Page :=
  ⟨[], none⟩

/-- The token that continues after this page. An empty token says that nothing follows. -/
def next? (page : Page) : Option String :=
  page.continuation.filter fun token => token ≠ ""

end Page

/-- A request to a document store. -/
inductive Request where
  | create (draft : Draft)
  | delete (address : Address)
  | get (address : Address)
  /-- Overwrites a document, provided that its token is still the given one. -/
  | replace (draft : Draft) (token : String)
  | search (search : Search)
  deriving DecidableEq

namespace Request

/-- What a successful request is answered with. -/
abbrev Answer : Request → Type
  | .create _ | .get _ | .replace _ _ => Document
  | .delete _ => Unit
  | .search _ => Page

end Request

/-- Answers requests, one after another, over a state `σ`. -/
structure Transport (σ : Type) where
  respond : (request : Request) → σ → Except TransportError request.Answer × σ

namespace Transport

variable {σ : Type}

def create (t : Transport σ) (draft : Draft) (s : σ) : Except TransportError Document × σ :=
  t.respond (.create draft) s

def delete (t : Transport σ) (address : Address) (s : σ) : Except TransportError Unit × σ :=
  t.respond (.delete address) s

def get (t : Transport σ) (address : Address) (s : σ) : Except TransportError Document × σ :=
  t.respond (.get address) s

def replace (t : Transport σ) (draft : Draft) (token : String) (s : σ) :
    Except TransportError Document × σ :=
  t.respond (.replace draft token) s

def search (t : Transport σ) (search : Search) (s : σ) : Except TransportError Page × σ :=
  t.respond (.search search) s

/-- The same transport, writing down each request in the order of asking. -/
def recorded (t : Transport σ) : Transport (σ × List Request) where
  respond request s :=
    let (answer, state) := t.respond request s.1
    (answer, (state, s.2 ++ [request]))

end Transport

end DocumentStore
