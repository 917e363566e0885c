import DocumentStore.Json.Value

/- Records in JSON: objects whose members are fields of known names, or arrays that give the
   fields in order. Members of other names are passed over whatever they hold; a known name may
   stand only once. -/
namespace DocumentStore.Json.Record

/-- The members of an object with their keys as texts. -/
def members? : List (List Unit16 × Tree) → Option (List (String × Tree))
  | [] => some []
  | (key, t) :: members =>
    match Quoted.text? key, members? members with
    | some k, some ms => some ((k, t) :: ms)
    | _, _ => none

/-- The tree of a field, if the field is there; none if it is there more than once. -/
def field? (members : List (String × Tree)) (name : String) : Option (Option Tree) :=
  match members.filter fun m => m.1 == name with
  | [] => some none
  | [m] => some (some m.2)
  | _ :: _ :: _ => none

/-- The trees of the fields with the given names, in the order of the names. -/
def fields? (names : List String) : Tree → Option (List (Option Tree))
  | .array items =>
    if items.length ≤ names.length then
      some (items.map some ++ List.replicate (names.length - items.length) none)
    else none
  | .object members => (members? members).bind fun ms => names.mapM (field? ms)
  | _ => none

/-- The entries of an object, each read by `read`. Of two with one key the later counts. -/
def map? {α : Type} (read : Tree → Option α) : Tree → Option (KeyMap α)
  | .object members =>
    (members? members).bind fun ms =>
      (ms.mapM fun m => (read m.2).map fun a => (m.1, a)).map KeyMap.ofList
  | _ => none

/-- The items of an array, each read by `read`. -/
def list? {α : Type} (read : Tree → Option α) : Tree → Option (List α)
  | .array items => items.mapM read
  | _ => none

/-- A whole number from zero that 64 bits hold. -/
def natural? : Tree → Option Nat
  | .number n =>
    match Number.ofNumeral? n with
    | some (.whole w) => if 0 ≤ w.val then some w.val.toNat else none
    | _ => none
  | _ => none

/-! Writing. -/

/-- A record with the given fields in order. -/
def write (fields : List (String × Tree)) : Tree :=
  .object (fields.map fun f => (Quoted.ofText f.1, f.2))

/-- An object with the entries of a map. -/
def writeMap {α : Type} (write : α → Tree) (m : KeyMap α) : Tree :=
  .object (m.entries.map fun e => (Quoted.ofText e.1, write e.2))

def writeNatural (n : Nat) : Tree :=
  .number ⟨false, Nat.toDigits 10 n, none, none⟩

def writeText (s : String) : Tree :=
  .string (Quoted.ofText s)

end DocumentStore.Json.Record
