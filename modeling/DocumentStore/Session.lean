import DocumentStore.Execution
import DocumentStore.Json.Record
import DocumentStore.Store

/- Running statement texts. A session holds what all its statements share: the transport, the
   policy for stale tokens and a bound on the pages of a query. -/
namespace DocumentStore

open Json (Value Tree)
open Json

/-! Settings. -/

namespace StalePolicy

def name : StalePolicy → String
  | .suppress => "suppress"
  | .surface => "surface"

def ofName? (name : String) : Option StalePolicy :=
  if name = "suppress" then some .suppress
  else if name = "surface" then some .surface
  else none

/-- A name that no policy has, in small letters. -/
structure Unknown where
  name : String
  deriving DecidableEq, Repr

def Unknown.message (u : Unknown) : String :=
  "unknown precondition policy '" ++ u.name ++ "', expected 'suppress' or 'surface'"

/-- The policy of a name in any case. -/
def parse (text : String) : Except Unknown StalePolicy :=
  let name := String.ofList (text.toList.map Char.toLower)
  match ofName? name with
  | some policy => .ok policy
  | none => .error ⟨name⟩

/-- The policy in a record: its name, or an object that holds null under its name. -/
def ofTree? : Tree → Option StalePolicy
  | .string units => (Quoted.text? units).bind ofName?
  | .object [(key, .null)] => (Quoted.text? key).bind ofName?
  | _ => none

end StalePolicy

/-- What the statements of a session share apart from the store. -/
structure Settings where
  policy : StalePolicy := .suppress
  deriving DecidableEq, Repr

namespace Settings

def toTree (s : Settings) : Tree :=
  Record.write [("precondition_policy", Record.writeText s.policy.name)]

def ofTree? (t : Tree) : Option Settings :=
  match Record.fields? ["precondition_policy"] t with
  | some [none] => some {}
  | some [some t] => (StalePolicy.ofTree? t).map fun policy => ⟨policy⟩
  | _ => none

/-- The text of the settings. -/
def save (s : Settings) : String :=
  s.toTree.write .compact

/-- The settings of a text. -/
def load? (text : String) : Option Settings :=
  (Tree.read? text.toList).bind ofTree?

end Settings

/-! Sessions. -/

/-- A transport with settings, and a number of pages that no query over it exceeds. -/
structure Session (σ : Type) where
  transport : Transport σ
  settings : Settings
  pageLimit : σ → Nat

namespace Session

variable {σ : Type}

/-- A session over a store. -/
def ofStore (pageSize : Nat) (time : Whole) (settings : Settings) : Session Store where
  transport := Store.transport pageSize time
  settings := settings
  pageLimit := Store.pageLimit

/-- Runs the text of a writing statement. -/
def exec (session : Session σ) (text : String) (args : List Value) (state : σ) :
    Except Error Outcome × σ :=
  match Statement.parse text with
  | .error e => (.error e, state)
  | .ok s => s.exec session.transport session.settings.policy args state

/-- Runs the text of a query. -/
def query (session : Session σ) (text : String) (args : List Value) (state : σ) :
    Option (Except Error Rows) × σ :=
  match Statement.parse text with
  | .error e => (some (.error e), state)
  | .ok s => s.query session.transport (session.pageLimit state) args state

end Session

end DocumentStore
