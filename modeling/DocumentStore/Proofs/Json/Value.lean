import DocumentStore.Json.Value
import DocumentStore.Proofs.Json.Number
import DocumentStore.Proofs.Json.Tree
import DocumentStore.Proofs.KeyMap

/- Values and their written forms. Every value is written as a text that is JSON
   (`printable_toTree`), and it is read from its written form exactly if it does not nest too deep
   and each of its numbers reads back (`ofTree?_toTree`). This is said of values whose objects are
   in key order (`Sorted`), which all values are that a reader produces (`shape_of_ofTree?`). -/
namespace DocumentStore.Json.Value

mutual

/-- The members of every object in the value stand in key order. -/
def Sorted : Value → Prop
  | .array items => SortedItems items
  | .object members => KeysIncrease members ∧ SortedMembers members
  | _ => True

def SortedItems : List Value → Prop
  | [] => True
  | v :: items => v.Sorted ∧ SortedItems items

def SortedMembers : List (String × Value) → Prop
  | [] => True
  | (_, v) :: members => v.Sorted ∧ SortedMembers members

end

mutual

/-- Every number in the value reads back. -/
def NumbersReadBack : Value → Prop
  | .number n => n.ReadsBack
  | .array items => NumbersReadBackItems items
  | .object members => NumbersReadBackMembers members
  | _ => True

def NumbersReadBackItems : List Value → Prop
  | [] => True
  | v :: items => v.NumbersReadBack ∧ NumbersReadBackItems items

def NumbersReadBackMembers : List (String × Value) → Prop
  | [] => True
  | (_, v) :: members => v.NumbersReadBack ∧ NumbersReadBackMembers members

end

mutual

/-- Every number in the value is whole. -/
def Integral : Value → Prop
  | .number (.real _) => False
  | .array items => IntegralItems items
  | .object members => IntegralMembers members
  | _ => True

def IntegralItems : List Value → Prop
  | [] => True
  | v :: items => v.Integral ∧ IntegralItems items

def IntegralMembers : List (String × Value) → Prop
  | [] => True
  | (_, v) :: members => v.Integral ∧ IntegralMembers members

end

/-! Whole numbers read back. -/

mutual

theorem numbersReadBack_of_integral : ∀ v : Value, v.Integral → v.NumbersReadBack
  | .null, _ => trivial
  | .bool _, _ => trivial
  | .string _, _ => trivial
  | .number (.whole n), _ => Number.readsBack_whole n
  | .number (.real _), h => h.elim
  | .array items, h => numbersReadBackItems_of_integral items h
  | .object members, h => numbersReadBackMembers_of_integral members h

theorem numbersReadBackItems_of_integral : ∀ items : List Value, IntegralItems items →
    NumbersReadBackItems items
  | [], _ => trivial
  | v :: items, h =>
    ⟨numbersReadBack_of_integral v h.1, numbersReadBackItems_of_integral items h.2⟩

theorem numbersReadBackMembers_of_integral : ∀ members : List (String × Value),
    IntegralMembers members → NumbersReadBackMembers members
  | [], _ => trivial
  | (_, v) :: members, h =>
    ⟨numbersReadBack_of_integral v h.1, numbersReadBackMembers_of_integral members h.2⟩

end

/-! Members one by one. -/

theorem sortedMembers_iff {members : List (String × Value)} :
    SortedMembers members ↔ ∀ e ∈ members, e.2.Sorted := by
  induction members with
  | nil => simp [SortedMembers]
  | cons e members ih => simp [SortedMembers, ih]

theorem depthMembers_le_iff {members : List (String × Value)} {d : Nat} :
    depthMembers members ≤ d ↔ ∀ e ∈ members, e.2.depth ≤ d := by
  induction members with
  | nil => simp [depthMembers]
  | cons e members ih => rw [depthMembers, Nat.max_le, ih, List.forall_mem_cons]

theorem numbersReadBackMembers_iff {members : List (String × Value)} :
    NumbersReadBackMembers members ↔ ∀ e ∈ members, e.2.NumbersReadBack := by
  induction members with
  | nil => simp [NumbersReadBackMembers]
  | cons e members ih => simp [NumbersReadBackMembers, ih]

/-! Writing. -/

mutual

/-- **A value** is written as JSON. -/
theorem printable_toTree : ∀ v : Value, v.toTree.Printable
  | .null => trivial
  | .bool _ => trivial
  | .number n => n.valid_toNumeral
  | .string s => Quoted.valid_ofText s
  | .array items => printable_treesOfItems items
  | .object members => printable_treesOfMembers members

theorem printable_treesOfItems : ∀ items : List Value, Tree.PrintableItems (treesOfItems items)
  | [] => trivial
  | v :: items => ⟨printable_toTree v, printable_treesOfItems items⟩

theorem printable_treesOfMembers : ∀ members : List (String × Value),
    Tree.PrintableMembers (treesOfMembers members)
  | [] => trivial
  | (key, v) :: members =>
    ⟨Quoted.valid_ofText key, printable_toTree v, printable_treesOfMembers members⟩

end

/-! Reading. -/

mutual

/-- What is read from a tree is in key order and nests no deeper than the reader goes. -/
theorem shape_of_ofTree? : ∀ (t : Tree) (d : Nat) {v : Value}, ofTree? d t = some v →
    v.Sorted ∧ v.depth ≤ d
  | .null, d, v, h => by
    rw [ofTree?] at h
    cases h
    exact ⟨trivial, Nat.zero_le d⟩
  | .bool b, d, v, h => by
    rw [ofTree?] at h
    cases h
    exact ⟨trivial, Nat.zero_le d⟩
  | .number n, d, v, h => by
    rw [ofTree?] at h
    obtain ⟨x, -, rfl⟩ := Option.map_eq_some_iff.mp h
    exact ⟨trivial, Nat.zero_le d⟩
  | .string units, d, v, h => by
    rw [ofTree?] at h
    obtain ⟨x, -, rfl⟩ := Option.map_eq_some_iff.mp h
    exact ⟨trivial, Nat.zero_le d⟩
  | .array items, 0, v, h => by
    rw [ofTree?] at h
    cases h
  | .array items, d + 1, v, h => by
    rw [ofTree?] at h
    obtain ⟨vs, hvs, rfl⟩ := Option.map_eq_some_iff.mp h
    obtain ⟨sorted, shallow⟩ := shape_of_itemsOfTrees? items d hvs
    exact ⟨sorted, Nat.succ_le_succ shallow⟩
  | .object members, 0, v, h => by
    rw [ofTree?] at h
    cases h
  | .object members, d + 1, v, h => by
    rw [ofTree?] at h
    obtain ⟨ms, hms, rfl⟩ := Option.map_eq_some_iff.mp h
    obtain ⟨sorted, shallow⟩ := shape_of_membersOfTrees? members d hms
    have sorted' := sortedMembers_iff.mp sorted
    have shallow' := depthMembers_le_iff.mp shallow
    refine ⟨⟨(KeyMap.ofList ms).increasing, sortedMembers_iff.mpr fun e he => ?_⟩,
      Nat.succ_le_succ (depthMembers_le_iff.mpr fun e he => ?_)⟩
    · exact sorted' e (KeyMap.mem_ofList he)
    · exact shallow' e (KeyMap.mem_ofList he)

theorem shape_of_itemsOfTrees? : ∀ (items : List Tree) (d : Nat) {vs : List Value},
    itemsOfTrees? d items = some vs → SortedItems vs ∧ depthItems vs ≤ d
  | [], d, vs, h => by
    rw [itemsOfTrees?] at h
    cases h
    exact ⟨trivial, Nat.zero_le d⟩
  | t :: items, d, vs, h => by
    rw [itemsOfTrees?] at h
    split at h
    next v vs hv hvs =>
      cases h
      have first := shape_of_ofTree? t d hv
      have others := shape_of_itemsOfTrees? items d hvs
      exact ⟨⟨first.1, others.1⟩, Nat.max_le.mpr ⟨first.2, others.2⟩⟩
    next => cases h

theorem shape_of_membersOfTrees? : ∀ (members : List (List Unit16 × Tree)) (d : Nat)
    {ms : List (String × Value)}, membersOfTrees? d members = some ms →
    SortedMembers ms ∧ depthMembers ms ≤ d
  | [], d, ms, h => by
    rw [membersOfTrees?] at h
    cases h
    exact ⟨trivial, Nat.zero_le d⟩
  | (key, t) :: members, d, ms, h => by
    rw [membersOfTrees?] at h
    split at h
    next k v ms hk hv hms =>
      cases h
      have first := shape_of_ofTree? t d hv
      have others := shape_of_membersOfTrees? members d hms
      exact ⟨⟨first.1, others.1⟩, Nat.max_le.mpr ⟨first.2, others.2⟩⟩
    next => cases h

end

theorem sorted_of_read? {text : String} {v : Value} (h : read? text = some v) : v.Sorted := by
  obtain ⟨t, -, ht⟩ := Option.bind_eq_some_iff.mp h
  exact (shape_of_ofTree? t _ ht).1

/-! Reading what is written. -/

/-- The keys of an object are read back whatever becomes of its values. -/
theorem keys_membersOfTrees? {d : Nat} : ∀ {members ms : List (String × Value)},
    membersOfTrees? d (treesOfMembers members) = some ms → ms.map Prod.fst = members.map Prod.fst
  | [], ms, h => by
    rw [treesOfMembers, membersOfTrees?] at h
    cases h
    rfl
  | (key, v) :: members, ms, h => by
    rw [treesOfMembers, membersOfTrees?, Quoted.text?_ofText] at h
    split at h
    next k w ms hk hv hms =>
      cases h
      cases hk
      rw [List.map_cons, List.map_cons, keys_membersOfTrees? hms]
    next => cases h

/-- An object in key order is read back exactly if its members are. -/
theorem ofList_membersOfTrees? {d : Nat} {members : List (String × Value)}
    (increasing : KeysIncrease members) :
    (∃ ms, membersOfTrees? d (treesOfMembers members) = some ms ∧
      (KeyMap.ofList ms).entries = members) ↔
      membersOfTrees? d (treesOfMembers members) = some members := by
  constructor
  · rintro ⟨ms, hms, hentries⟩
    -- The keys are still in order, so that the map has the members that were read.
    have hkeys : KeysIncrease ms := by
      rw [keysIncrease_iff, keys_membersOfTrees? hms]
      exact keysIncrease_iff.mp increasing
    rw [KeyMap.entries_ofList hkeys] at hentries
    rw [hms, hentries]
  · intro h
    exact ⟨members, h, KeyMap.entries_ofList increasing⟩

mutual

/-- **A value** is read from its written form exactly if it does not nest too deep and its numbers
    read back. -/
theorem ofTree?_toTree : ∀ (v : Value) (d : Nat), v.Sorted →
    (ofTree? d v.toTree = some v ↔ v.depth ≤ d ∧ v.NumbersReadBack)
  | .null, d, _ => by simp [toTree, ofTree?, depth, NumbersReadBack]
  | .bool b, d, _ => by simp [toTree, ofTree?, depth, NumbersReadBack]
  | .number n, d, _ => by
    simp [toTree, ofTree?, depth, NumbersReadBack, Number.ReadsBack]
  | .string s, d, _ => by simp [toTree, ofTree?, depth, NumbersReadBack]
  | .array items, 0, _ => by simp [toTree, ofTree?, depth]
  | .array items, d + 1, h => by
    have hitems := itemsOfTrees?_treesOfItems items d h
    simp [toTree, ofTree?, depth, NumbersReadBack, hitems]
  | .object members, 0, _ => by simp [toTree, ofTree?, depth]
  | .object members, d + 1, ⟨increasing, h⟩ => by
    have hmembers := membersOfTrees?_treesOfMembers members d h
    rw [← ofList_membersOfTrees? increasing] at hmembers
    simp [toTree, ofTree?, depth, NumbersReadBack, ← hmembers]

theorem itemsOfTrees?_treesOfItems : ∀ (items : List Value) (d : Nat), SortedItems items →
    (itemsOfTrees? d (treesOfItems items) = some items ↔
      depthItems items ≤ d ∧ NumbersReadBackItems items)
  | [], d, _ => by simp [treesOfItems, itemsOfTrees?, depthItems, NumbersReadBackItems]
  | v :: items, d, h => by
    have first := ofTree?_toTree v d h.1
    have others := itemsOfTrees?_treesOfItems items d h.2
    rw [treesOfItems, itemsOfTrees?, depthItems, NumbersReadBackItems, Nat.max_le]
    constructor
    · intro back
      split at back
      next w ws hw hws =>
        cases back
        have hv := first.mp hw
        have hvs := others.mp hws
        exact ⟨⟨hv.1, hvs.1⟩, hv.2, hvs.2⟩
      next => cases back
    · rintro ⟨⟨hdepth, hdepths⟩, hback, hbacks⟩
      rw [first.mpr ⟨hdepth, hback⟩, others.mpr ⟨hdepths, hbacks⟩]

theorem membersOfTrees?_treesOfMembers : ∀ (members : List (String × Value)) (d : Nat),
    SortedMembers members →
    (membersOfTrees? d (treesOfMembers members) = some members ↔
      depthMembers members ≤ d ∧ NumbersReadBackMembers members)
  | [], d, _ => by simp [treesOfMembers, membersOfTrees?, depthMembers, NumbersReadBackMembers]
  | (key, v) :: members, d, h => by
    have first := ofTree?_toTree v d h.1
    have others := membersOfTrees?_treesOfMembers members d h.2
    rw [treesOfMembers, membersOfTrees?, depthMembers, NumbersReadBackMembers, Nat.max_le,
      Quoted.text?_ofText]
    constructor
    · intro back
      split at back
      next k w ws hk hw hws =>
        cases back
        have hv := first.mp hw
        have hvs := others.mp hws
        exact ⟨⟨hv.1, hvs.1⟩, hv.2, hvs.2⟩
      next => cases back
    · rintro ⟨⟨hdepth, hdepths⟩, hback, hbacks⟩
      rw [first.mpr ⟨hdepth, hback⟩, others.mpr ⟨hdepths, hbacks⟩]

end

theorem read?_write {l : Layout} (hl : l.Blank) {v : Value} (sorted : v.Sorted)
    (shallow : v.depth ≤ depthLimit) (back : v.NumbersReadBack) :
    read? (v.toTree.write l) = some v := by
  rw [read?, Tree.read?_write hl (printable_toTree v), Option.bind_some]
  exact (ofTree?_toTree v depthLimit sorted).mpr ⟨shallow, back⟩

end DocumentStore.Json.Value
