import DocumentStore.CommandLine.Reply
import Std.Time

/- The command line: reads the snapshot file, runs the command, writes the file if it has to
   change and prints the result. All that is decided is decided by `Invocation.parse?` and
   `Invocation.run`. -/
namespace DocumentStore.CommandLine

/-- The content of the file at a path. -/
def readContent (path : String) : IO Content := do
  if ← (System.mkFilePath [path]).pathExists then
    try
      return .text (← IO.FS.readFile path)
    catch _ =>
      return .unreadable
  else
    return .absent

/-- Seconds since the epoch, zero before it. -/
def clock : IO Json.Whole := do
  let now ← Std.Time.Timestamp.now
  return (Json.Whole.ofInt? (max 0 now.toSecondsSinceUnixEpoch.val)).getD .zero

/-- The environment, read before the words of the command line are. -/
def environment : IO (String → Option String) := do
  let data ← IO.getEnv dataVariable
  let precondition ← IO.getEnv preconditionVariable
  return fun name =>
    if name = dataVariable then data
    else if name = preconditionVariable then precondition
    else none

def fail (failure : Failure) : IO UInt32 := do
  IO.eprintln ("Error: " ++ failure.message)
  return 1

/-- Writes the file, if it has to change, before anything is printed. -/
def deliver (path : String) (reply : Reply) : IO UInt32 := do
  let written ← match reply.saved with
    | none => pure true
    | some text =>
      try
        IO.FS.writeFile path text
        pure true
      catch _ => pure false
  if written then
    IO.print reply.printed
    return 0
  else
    fail (.unwritable path)

def usage : String :=
  "usage: [-d FILE] [-p POLICY] [--page-size N] [-v] COMMAND\n" ++
    "commands: create-collection DB COLL | exec SQL [ARG..] | query SQL [ARG..]"

def run (words : List String) : IO UInt32 := do
  match Invocation.parse? (← environment) words with
  | none =>
    IO.eprintln usage
    return 2
  | some invocation =>
    let content ← readContent invocation.data
    let time ← clock
    match invocation.run time content with
    | .error failure => fail failure
    | .ok reply => deliver invocation.data reply

end DocumentStore.CommandLine

def main (words : List String) : IO UInt32 :=
  DocumentStore.CommandLine.run words
