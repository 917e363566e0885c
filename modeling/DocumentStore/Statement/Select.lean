import DocumentStore.Statement.Options
import DocumentStore.Statement.QueryText
import DocumentStore.Transport

/- `SELECT ...` in the language of the store, which is passed on with parameters in place of its
   placeholders. A marker in front or an option at the end says that the query may run across
   partitions. Options name the database and the collection; without an option the collection is
   the one after FROM. -/
namespace DocumentStore

open Json (Value)
open Text

/-- Queries one collection. The indices are those of the placeholders in the order of their
    places. -/
structure Select where
  container : Container
  crossPartition : Bool
  text : String
  indices : List Nat
  deriving DecidableEq, Repr

namespace Select

/-- How many placeholders the query has. -/
def numInput (s : Select) : Nat :=
  s.indices.length

/-! Reading. -/

/-- What follows the keyword, and whether the marker for all partitions stands after it. -/
def head? (cs : List Char) : Option (Bool × List Char) :=
  ((keyword? "SELECT" cs).bind blanks?).map fun cs =>
    match keywords? "CROSS" "PARTITION" cs with
    | some rest => (true, rest)
    | none => (false, cs)

/-- The name after the first FROM that no character of a word stands before. -/
def from? (before : Option Char) : List Char → Option (List Char)
  | [] => none
  | c :: cs =>
    let here := if atWordBoundary before (c :: cs) then
        ((keyword? "FROM" (c :: cs)).bind blanks?).bind name?
      else none
    match here with
    | some (name, _) => some name
    | none => from? (some c) cs

/-- The ways to say yes to a query across partitions. -/
def isYes (flag : String) : Bool :=
  flag ∈ ["1", "t", "T", "true", "TRUE", "True"]

/-- Whether the query may run across partitions. The option is looked at only where the marker
    is missing. -/
def crossPartition? (marked : Bool) (options : Options) : Except Error Bool :=
  match options.value? "CROSS_PARTITION" with
  | none => .ok marked
  | some flag =>
    if marked || isYes flag then .ok true else .error (.parse (.crossPartition flag))

/-- The container that the options and the body of the query name. What is not named is
    empty. -/
def containerOf (options : Options) (body : List Char) : Container where
  database := (options.firstOf? ["DATABASE", "DB"]).getD ""
  collection := (options.firstOf? ["COLLECTION", "TABLE"]).getD
    (String.ofList ((from? none body).getD []))

/-- The statement with the given body and options. -/
def ofParts (marked : Bool) (body : List Char) (options : Options) : Except Error Select :=
  match crossPartition? marked options with
  | .error e => .error e
  | .ok crossPartition =>
    match QueryText.parametrize ("SELECT ".toList ++ body) with
    | .error e => .error e
    | .ok query =>
      let container := containerOf options body
      if container.database = "" ∨ container.collection = "" then
        .error (.validation .missingContainer)
      else .ok ⟨container, crossPartition, String.ofList query.text, query.indices⟩

/-- The statement that a text denotes. -/
def parse (cs : List Char) : Except Error Select :=
  match head? (trim cs) with
  | none => .error (.parse (.token (String.ofList cs)))
  | some (marked, cs) =>
    let (body, tail) := Options.split cs
    match Options.parse tail with
    | .error e => .error e
    | .ok options => ofParts marked body options

/-! Binding. -/

/-- The highest index of a placeholder, if there are any. -/
def highest? (s : Select) : Option Nat :=
  s.indices.max?

/-- The parameters for the arguments from position `index` on. -/
def parametersFrom (s : Select) (index : Nat) : List Value → Except Error (List (String × Value))
  | [] => .ok []
  | v :: args =>
    if index ∈ s.indices then
      (s.parametersFrom (index + 1) args).map ((QueryText.parameterName index, v) :: ·)
    else .error (.missingParameter index)

/-- The parameters for the arguments. Every placeholder needs an argument, and every argument a
    placeholder. -/
def bind (s : Select) (args : List Value) : Except Error (List (String × Value)) :=
  match s.highest? with
  | none => s.parametersFrom 1 args
  | some highest =>
    if args.length < highest then .error (.placeholderIndex highest)
    else s.parametersFrom 1 args

end Select

end DocumentStore
