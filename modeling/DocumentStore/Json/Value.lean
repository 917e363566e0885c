import DocumentStore.KeyMap
import DocumentStore.Json.Number
import DocumentStore.Json.Tree

/- JSON values. The members of an object stand in increasing key order without repetition in
   every value that a reader produces, so equal values are equal terms there, the sign of a zero
   apart. -/
namespace DocumentStore.Json

/-- A JSON value. -/
inductive Value where
  | null
  | bool (b : Bool)
  | number (n : Number)
  | string (s : String)
  | array (items : List Value)
  | object (members : List (String × Value))
  deriving Inhabited

namespace Value

/-! Equality. -/

mutual

def decEq : (a b : Value) → Decidable (a = b)
  | .null, .null => isTrue rfl
  | .bool a, .bool b => if h : a = b then isTrue (h ▸ rfl) else isFalse fun e => h (by injection e)
  | .number a, .number b =>
    if h : a = b then isTrue (h ▸ rfl) else isFalse fun e => h (by injection e)
  | .string a, .string b =>
    if h : a = b then isTrue (h ▸ rfl) else isFalse fun e => h (by injection e)
  | .array a, .array b =>
    match decEqItems a b with
    | isTrue h => isTrue (h ▸ rfl)
    | isFalse h => isFalse fun e => h (by injection e)
  | .object a, .object b =>
    match decEqMembers a b with
    | isTrue h => isTrue (h ▸ rfl)
    | isFalse h => isFalse fun e => h (by injection e)
  | .null, .bool _ | .null, .number _ | .null, .string _ | .null, .array _ | .null, .object _
  | .bool _, .null | .bool _, .number _ | .bool _, .string _ | .bool _, .array _
  | .bool _, .object _
  | .number _, .null | .number _, .bool _ | .number _, .string _ | .number _, .array _
  | .number _, .object _
  | .string _, .null | .string _, .bool _ | .string _, .number _ | .string _, .array _
  | .string _, .object _
  | .array _, .null | .array _, .bool _ | .array _, .number _ | .array _, .string _
  | .array _, .object _
  | .object _, .null | .object _, .bool _ | .object _, .number _ | .object _, .string _
  | .object _, .array _ => isFalse nofun

def decEqItems : (a b : List Value) → Decidable (a = b)
  | [], [] => isTrue rfl
  | [], _ :: _ => isFalse nofun
  | _ :: _, [] => isFalse nofun
  | v :: a, w :: b =>
    match decEq v w, decEqItems a b with
    | isTrue h, isTrue hs => isTrue (h ▸ hs ▸ rfl)
    | isFalse h, _ => isFalse fun e => h (by injection e)
    | _, isFalse hs => isFalse fun e => hs (by injection e)

def decEqMembers : (a b : List (String × Value)) → Decidable (a = b)
  | [], [] => isTrue rfl
  | [], _ :: _ => isFalse nofun
  | _ :: _, [] => isFalse nofun
  | (k, v) :: a, (l, w) :: b =>
    match decEq v w, decEqMembers a b with
    | isTrue h, isTrue hs =>
      if hk : k = l then isTrue (by rw [hk, h, hs])
      else isFalse fun e => hk (congrArg Prod.fst (List.cons.inj e).1)
    | isFalse h, _ => isFalse fun e => h (congrArg Prod.snd (List.cons.inj e).1)
    | _, isFalse hs => isFalse fun e => hs (by injection e)

end

instance : DecidableEq Value := decEq

mutual

/-- Equality of JSON values: zeros are equal whatever their sign. -/
def equal : Value → Value → Bool
  | .null, .null => true
  | .bool a, .bool b => a == b
  | .number a, .number b => a.equal b
  | .string a, .string b => a == b
  | .array a, .array b => equalItems a b
  | .object a, .object b => equalMembers a b
  | _, _ => false

/-- The same values in the same order. -/
def equalItems : List Value → List Value → Bool
  | [], [] => true
  | v :: a, w :: b => equal v w && equalItems a b
  | _, _ => false

/-- The same keys with equal values. -/
def equalMembers : List (String × Value) → List (String × Value) → Bool
  | [], [] => true
  | (k, v) :: a, (l, w) :: b => k == l && equal v w && equalMembers a b
  | _, _ => false

end

/-! The written form. -/

/-- How many levels of arrays and objects a reader enters. -/
def depthLimit : Nat :=
  127

mutual

/-- The value of a tree whose arrays and objects nest at most `depth` levels. Of two members
    with one key the later counts. -/
def ofTree? : Nat → Tree → Option Value
  | _, .null => some .null
  | _, .bool b => some (.bool b)
  | _, .number n => (Number.ofNumeral? n).map .number
  | _, .string units => (Quoted.text? units).map .string
  | 0, .array _ => none
  | 0, .object _ => none
  | depth + 1, .array items => (itemsOfTrees? depth items).map .array
  | depth + 1, .object members =>
    (membersOfTrees? depth members).map fun ms => .object (KeyMap.ofList ms).entries

def itemsOfTrees? (depth : Nat) : List Tree → Option (List Value)
  | [] => some []
  | t :: items =>
    match ofTree? depth t, itemsOfTrees? depth items with
    | some v, some vs => some (v :: vs)
    | _, _ => none

def membersOfTrees? (depth : Nat) : List (List Unit16 × Tree) → Option (List (String × Value))
  | [] => some []
  | (key, t) :: members =>
    match Quoted.text? key, ofTree? depth t, membersOfTrees? depth members with
    | some k, some v, some ms => some ((k, v) :: ms)
    | _, _, _ => none

end

mutual

def toTree : Value → Tree
  | .null => .null
  | .bool b => .bool b
  | .number n => .number n.toNumeral
  | .string s => .string (Quoted.ofText s)
  | .array items => .array (treesOfItems items)
  | .object members => .object (treesOfMembers members)

def treesOfItems : List Value → List Tree
  | [] => []
  | v :: items => v.toTree :: treesOfItems items

def treesOfMembers : List (String × Value) → List (List Unit16 × Tree)
  | [] => []
  | (key, v) :: members => (Quoted.ofText key, v.toTree) :: treesOfMembers members

end

/-- The value that a text denotes. -/
def read? (text : String) : Option Value :=
  (Tree.read? text.toList).bind (ofTree? depthLimit)

/-- The text of a value without white space. -/
def compact (v : Value) : String :=
  v.toTree.write .compact

/-! Views. -/

/-- The text of a string value. -/
def text? : Value → Option String
  | .string s => some s
  | _ => none

def isNumber : Value → Bool
  | .number _ => true
  | _ => false

mutual

/-- How many levels of arrays and objects nest in a value. -/
def depth : Value → Nat
  | .array items => depthItems items + 1
  | .object members => depthMembers members + 1
  | _ => 0

def depthItems : List Value → Nat
  | [] => 0
  | v :: items => max v.depth (depthItems items)

def depthMembers : List (String × Value) → Nat
  | [] => 0
  | (_, v) :: members => max v.depth (depthMembers members)

end

end Value

end DocumentStore.Json
