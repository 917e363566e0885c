import DocumentStore.Session

/- What the words of a command line ask for. Options stand before the command. An option's value
   stands in the same word or is the next word; a next word that looks like an option itself is no
   value. The words after the statement of `exec` and `query` are its arguments, whatever they look
   like, but for a call for help right after the statement. -/
namespace DocumentStore.CommandLine

open Json (Value)

/-! Words. -/

/-- How a word looks. -/
inductive Word where
  /-- Two dashes alone: what follows is no option. -/
  | separator
  | long (name : List Char) (value : Option (List Char))
  | short (letters : List Char)
  | plain
  deriving DecidableEq

/-- Splits a long option at its equals sign. -/
def Word.ofLong (cs : List Char) : Word :=
  match cs.dropWhile (· != '=') with
  | [] => .long cs none
  | _ :: value => .long (cs.takeWhile (· != '=')) (some value)

def Word.of (word : String) : Word :=
  match word.toList with
  | ['-', '-'] => .separator
  | '-' :: '-' :: cs => .ofLong cs
  | '-' :: c :: cs => .short (c :: cs)
  | _ => .plain

def Word.isPlain (word : String) : Bool :=
  Word.of word = .plain

/-! Options. -/

/-- An option that takes a value. -/
inductive Setting where
  | data
  | precondition
  | pageSize
  deriving DecidableEq

namespace Setting

def ofName? (name : List Char) : Option Setting :=
  if name = "data".toList then some .data
  else if name = "precondition".toList then some .precondition
  else if name = "page-size".toList then some .pageSize
  else none

def ofLetter? (letter : Char) : Option Setting :=
  if letter = 'd' then some .data
  else if letter = 'p' then some .precondition
  else none

end Setting

/-- The options found so far. -/
structure Given where
  data : Option String := none
  precondition : Option String := none
  pageSize : Option String := none
  verbose : Bool := false
  deriving DecidableEq

namespace Given

/-- Sets an option, which may be given only once. -/
def set? (g : Given) (setting : Setting) (value : String) : Option Given :=
  match setting with
  | .data => if g.data.isSome then none else some { g with data := some value }
  | .precondition =>
    if g.precondition.isSome then none else some { g with precondition := some value }
  | .pageSize => if g.pageSize.isSome then none else some { g with pageSize := some value }

def setVerbose? (g : Given) : Option Given :=
  if g.verbose then none else some { g with verbose := true }

end Given

/-- What a cluster of short options leaves to be done: nothing, or to take the next word as the
    value of an option. -/
structure Cluster where
  given : Given
  waiting : Option Setting

/-- Reads a cluster of short options. The first that takes a value takes the rest of the
    cluster. -/
def cluster? (g : Given) : List Char → Option Cluster
  | [] => some ⟨g, none⟩
  | c :: cs =>
    if c = 'v' then g.setVerbose?.bind fun g => cluster? g cs
    else
      match Setting.ofLetter? c, cs with
      | none, _ => none
      | some setting, [] => some ⟨g, some setting⟩
      | some setting, '=' :: value =>
        (g.set? setting (String.ofList value)).map fun g => ⟨g, none⟩
      | some setting, value => (g.set? setting (String.ofList value)).map fun g => ⟨g, none⟩

/-- Reads a long option. -/
def long? (g : Given) (name : List Char) (value : Option (List Char)) : Option Cluster :=
  if name = "verbose".toList then
    if value.isSome then none else g.setVerbose?.map fun g => ⟨g, none⟩
  else
    match Setting.ofName? name, value with
    | none, _ => none
    | some setting, none => some ⟨g, some setting⟩
    | some setting, some value =>
      (g.set? setting (String.ofList value)).map fun g => ⟨g, none⟩

/-- The options at the start of the words, with the word that ends them and what follows it. -/
def options? (g : Given) : List String → Option (Given × String × List String)
  | [] => none
  | word :: words =>
    let found := match Word.of word with
      | .separator => none
      | .plain => some none
      | .long name value => (long? g name value).map some
      | .short letters => (cluster? g letters).map some
    match found, words with
    | none, _ => none
    | some none, words => some (g, word, words)
    | some (some ⟨g, none⟩), words => options? g words
    | some (some ⟨_, some _⟩), [] => none
    | some (some ⟨g, some setting⟩), value :: words =>
      if Word.isPlain value then (g.set? setting value).bind fun g => options? g words else none

/-! Commands. -/

/-- What is to be done. -/
inductive Command where
  | createCollection (container : Container)
  | exec (statement : String) (args : List Value)
  | query (statement : String) (args : List Value)
  deriving DecidableEq

/-- The value of an argument word: that of its JSON text, else the word itself. -/
def argument (word : String) : Value :=
  (Value.read? word).getD (.string word)

/-- Drops the first separator. None if a word before it looks like an option. -/
def operands? : List String → Option (List String)
  | [] => some []
  | word :: words =>
    match Word.of word with
    | .separator => some words
    | .plain => (operands? words).map (word :: ·)
    | _ => none

/-- The word is the option `--help`, with or without a value. -/
def Word.asksHelp (word : String) : Bool :=
  match Word.of word with
  | .long name _ => name = "help".toList
  | _ => false

/-- A statement and its arguments. A separator right before the statement or right after it is
    dropped. Without one, a call for help in the place of the first argument is no argument. -/
def statement? : List String → Option (String × List Value)
  | [] => none
  | word :: words =>
    match Word.of word, words with
    | .separator, statement :: args => some (statement, args.map argument)
    | .plain, "--" :: args => some (word, args.map argument)
    | .plain, args => if args.head?.any Word.asksHelp then none else some (word, args.map argument)
    | _, _ => none

/-- The command of the given name with the words after it. -/
def command? (name : String) (words : List String) : Option Command :=
  if name = "create-collection" then
    match operands? words with
    | some [database, collection] => some (.createCollection ⟨database, collection⟩)
    | _ => none
  else if name = "exec" then (statement? words).map fun (s, args) => .exec s args
  else if name = "query" then (statement? words).map fun (s, args) => .query s args
  else none

/-! The whole command line. -/

/-- Variables that stand in for options that are not given. -/
def dataVariable : String :=
  "DOCSQL_DATA"

def preconditionVariable : String :=
  "DOCSQL_PRECONDITION"

/-- The snapshot file unless another is named. -/
def defaultData : String :=
  "docsql.json"

/-- A command with the options it is run under. -/
structure Invocation where
  data : String
  settings : Settings
  pageSize : Nat
  command : Command
  deriving DecidableEq

/-- The file to use, whose name must not be empty. -/
def data? (env : String → Option String) (g : Given) : Option String :=
  let name := ((g.data <|> env dataVariable).getD defaultData)
  if name = "" then none else some name

def settings? (env : String → Option String) (g : Given) : Option Settings :=
  match g.precondition <|> env preconditionVariable with
  | none => some {}
  | some name => (StalePolicy.parse name).toOption.map fun policy => ⟨policy⟩

def pageSize? (g : Given) : Option Nat :=
  match g.pageSize with
  | none => some Store.defaultPageSize
  | some size => Text.signedIndex? size.toList

/-- What the words of a command line ask for in an environment, none if they are not
    understood. -/
def Invocation.parse? (env : String → Option String) (words : List String) : Option Invocation := do
  let (given, name, rest) ← options? {} words
  let command ← command? name rest
  let data ← data? env given
  let settings ← settings? env given
  let pageSize ← pageSize? given
  return ⟨data, settings, pageSize, command⟩

end DocumentStore.CommandLine
