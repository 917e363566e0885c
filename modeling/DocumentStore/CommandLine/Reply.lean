import DocumentStore.CommandLine.Invocation
import DocumentStore.Store.Snapshot

/- What a command answers. A command is a function of the content of the snapshot file and the
   clock: it answers with the text to print and, if the file has to change, its new content. -/
namespace DocumentStore.CommandLine

open Json

/-- The content of the snapshot file. -/
inductive Content where
  | absent
  /-- There is something, but not a file of text. -/
  | unreadable
  | text (s : String)
  deriving DecidableEq

/-- Why a command fails. -/
inductive Failure where
  | unreadable (path : String)
  | invalidSnapshot (path : String)
  | unwritable (path : String)
  | statement (error : Error)
  /-- A query that does not come to an end. -/
  | unfinished
  deriving DecidableEq

def Failure.message : Failure → String
  | .unreadable path => "failed to read " ++ path
  | .invalidSnapshot path => "invalid snapshot in " ++ path
  | .unwritable path => "failed to write " ++ path
  | .statement error => error.message
  | .unfinished => "the query does not end"

/-- The store in a snapshot file. A file that does not exist holds the empty store. -/
def loadStore (path : String) : Content → Except Failure Store
  | .absent => .ok .empty
  | .unreadable => .error (.unreadable path)
  | .text s =>
    match Store.load? s with
    | some store => .ok store
    | none => .error (.invalidSnapshot path)

/-! Printed results. -/

/-- The printed result of a writing statement. -/
def outcomeText (o : Outcome) : String :=
  Tree.write .pretty (Record.write
    ([("successful", .bool o.successful), ("rows_affected", Record.writeNatural o.rowsAffected)] ++
      (o.insertId.map fun id => ("insert_id", Record.writeText id)).toList))

/-- The printed result of a query. -/
def rowsText (rows : Rows) : String :=
  Tree.write .pretty (Record.write
    [("columns", .array (rows.columns.map Record.writeText)),
      ("rows", .array (rows.toList.map fun row => .array (row.map Value.toTree)))])

/-! Commands. -/

namespace Command

/-- Runs a command on a store. Answers with the text to print, and the store as the command
    leaves it. -/
def run (session : Session Store) : Command → Store → Except Failure String × Store
  | .createCollection c, store => (.ok "", store.createCollection c)
  | .exec statement args, store =>
    match session.exec statement args store with
    | (.error e, store) => (.error (.statement e), store)
    | (.ok outcome, store) => (.ok (outcomeText outcome ++ "\n"), store)
  | .query statement args, store =>
    match session.query statement args store with
    | (none, store) => (.error .unfinished, store)
    | (some (.error e), store) => (.error (.statement e), store)
    | (some (.ok rows), store) => (.ok (rowsText rows ++ "\n"), store)

/-- The command may change the store. -/
def writes : Command → Bool
  | .createCollection _ => true
  | .exec _ _ => true
  | .query _ _ => false

end Command

/-- The answer of a successful command. -/
structure Reply where
  /-- The new content of the snapshot file, if it has to be written. -/
  saved : Option String
  printed : String
  deriving DecidableEq

/-- Runs a command line on the content of its snapshot file. Only a writing command that succeeds
    has its store saved. -/
def Invocation.run (i : Invocation) (time : Whole) (content : Content) : Except Failure Reply :=
  match loadStore i.data content with
  | .error e => .error e
  | .ok store =>
    match i.command.run (.ofStore i.pageSize time i.settings) store with
    | (.error e, _) => .error e
    | (.ok printed, store) =>
      .ok ⟨if i.command.writes then some store.save else none, printed⟩

end DocumentStore.CommandLine
