import DocumentStore.Error
import DocumentStore.KeyMap
import DocumentStore.Text.Scan

/- Options of a query: `WITH key=value` clauses at the end of its text. A splitter finds the
   longest end of a text that consists of clauses, and a reader takes the options out of such an
   end. -/
namespace DocumentStore

open Text

/-- The options of a query by their names in capitals. -/
abbrev Options :=
  KeyMap String

namespace Options

/-! One clause. -/

/-- A value ends before a blank or a comma. -/
def isValue (c : Char) : Bool :=
  !isBlank c && c != ','

/-- The key and the value of a clause, and what follows it. -/
structure Clause where
  key : List Char
  value : List Char
  rest : List Char

/-- The clause at the start of a text. -/
def clause? (cs : List Char) : Option Clause :=
  match (keyword? "WITH" cs).bind blanks? with
  | none => none
  | some cs =>
    match name? cs with
    | none => none
    | some (key, cs) =>
      match (char? '=' (skipBlanks cs)).bind fun cs => run? isValue (skipBlanks cs) with
      | none => none
      | some (value, rest) => some ⟨key, value, rest⟩

/-! Splitting. -/

/-- The text consists of clauses with at least one blank before each, and a comma after any
    value. As many steps as it has characters reach its end. -/
def clausesOnly : Nat → List Char → Bool
  | 0, _ => false
  | fuel + 1, cs =>
    match (blanks? cs).bind clause? with
    | none => false
    | some found =>
      match skipBlanks found.rest with
      | [] => true
      | ',' :: rest => (skipBlanks rest).isEmpty || clausesOnly fuel rest
      | _ => clausesOnly fuel found.rest

def isTail (cs : List Char) : Bool :=
  clausesOnly cs.length cs

/-- Splits a text before the first place from which on it consists of clauses. -/
def split : List Char → List Char × List Char
  | [] => ([], [])
  | c :: cs =>
    if isTail (c :: cs) then ([], c :: cs)
    else
      match split cs with
      | (body, tail) => (c :: body, tail)

/-! Reading. -/

/-- The next clause may start inside the run of characters that a value is taken from, if the
    run ends with the word WITH and something stands before that. Answers with the run's end
    from there on. -/
def clauseInside? (value : List Char) : Option (List Char) :=
  let word := value.drop (value.length - 4)
  if 4 < value.length ∧ keyword? "WITH" word = some [] then some word else none

/-- The text, whose first character is no blank, consists of clauses. -/
def blockOnly : Nat → List Char → Bool
  | 0, cs => cs.isEmpty
  | fuel + 1, cs =>
    cs.isEmpty ||
      match clause? cs with
      | none => false
      | some found =>
        blockOnly fuel (skipSeparator found.rest) ||
          match clauseInside? found.value with
          | none => false
          | some word => blockOnly fuel (word ++ found.rest)

/-- The text consists of clauses, separated by blanks and commas or not at all. -/
def isBlock (cs : List Char) : Bool :=
  blockOnly cs.length (skipBlanks cs)

/-- The clauses of a text from left to right, wherever they start. -/
def clausesIn : Nat → List Char → List (List Char × List Char)
  | 0, _ => []
  | _ + 1, [] => []
  | fuel + 1, c :: cs =>
    match clause? (c :: cs) with
    | some found => (found.key, found.value) :: clausesIn fuel found.rest
    | none => clausesIn fuel cs

def isQuote (c : Char) : Bool :=
  c == '"' || c == '\x27'

/-- A value without the quotes around it. -/
def unquote (value : List Char) : List Char :=
  dropEndWhile isQuote (value.dropWhile isQuote)

/-- A key in capitals. -/
def capitals (key : List Char) : String :=
  String.ofList (key.map Char.toUpper)

/-- The options of a text that consists of clauses. Of two clauses with one key the later
    counts. -/
def parse (cs : List Char) : Except Error Options :=
  if isBlock cs then
    .ok (KeyMap.ofList ((clausesIn cs.length cs).map fun (key, value) =>
      (capitals key, String.ofList (unquote value))))
  else .error (.parse (.token (String.ofList (trim cs))))

/-- The value of an option; case does not matter in the key. -/
def value? (options : Options) (key : String) : Option String :=
  options.get? (capitals key.toList)

/-- The value of the first of these options that is given. -/
def firstOf? (options : Options) (keys : List String) : Option String :=
  keys.findSome? options.value?

end Options

end DocumentStore
