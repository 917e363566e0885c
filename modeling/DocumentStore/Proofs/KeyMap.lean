import DocumentStore.KeyMap

/- The entries of a map: they are what its look-ups find (`get?_eq_some_iff`), they come from what
   was put in (`mem_insertAll`), and a map is the map of its entries (`ofList_entries`). So a map is
   known by its look-ups (`eq_of_get?`), which decides whether two ways to make one agree. -/
namespace DocumentStore

universe u v w

variable {α : Type u} {β : Type v} {γ : Type w}

theorem keysIncrease_iff {entries : List (String × α)} :
    KeysIncrease entries ↔ (entries.map Prod.fst).Pairwise (· < ·) :=
  List.pairwise_map.symm

namespace KeyMap

variable {m : KeyMap α} {key : String} {value : α} {entries more : List (String × α)}
  {e : String × α}

/-! Look-ups. -/

theorem lookup_eq_some_iff (increasing : KeysIncrease entries) :
    entries.lookup key = some value ↔ (key, value) ∈ entries := by
  induction entries with
  | nil => simp
  | cons first rest ih =>
    obtain ⟨k, v⟩ := first
    obtain ⟨below, tail⟩ := List.pairwise_cons.mp increasing
    rw [lookup_cons_eq, List.mem_cons, Prod.mk.injEq]
    split
    next same =>
      subst same
      refine ⟨fun h => Or.inl ⟨rfl, (Option.some.inj h).symm⟩, ?_⟩
      rintro (⟨-, rfl⟩ | h)
      · rfl
      · exact absurd (below _ h) (String.lt_irrefl key)
    next apart =>
      rw [ih tail]
      exact ⟨Or.inr, fun h => h.resolve_left fun h => apart h.1⟩

theorem get?_eq_some_iff : m.get? key = some value ↔ (key, value) ∈ m.entries :=
  lookup_eq_some_iff m.increasing

/-- Of two entries with one key the later is found. -/
theorem get?_insertAll (m : KeyMap α) (more : List (String × α)) (key : String) :
    (m.insertAll more).get? key = (more.reverse.lookup key).or (m.get? key) := by
  induction more generalizing m with
  | nil => rfl
  | cons e more ih =>
    rw [insertAll, List.foldl_cons, ← insertAll, ih, get?_insert, List.reverse_cons,
      List.lookup_append, Option.or_assoc, lookup_cons_eq]
    split <;> rfl

theorem get?_ofList (entries : List (String × α)) (key : String) :
    (ofList entries).get? key = entries.reverse.lookup key := by
  rw [ofList, get?_insertAll, get?_empty, Option.or_none]

/-! What was put in. -/

theorem mem_insertAll (h : e ∈ (m.insertAll more).entries) : e ∈ m.entries ∨ e ∈ more := by
  induction more generalizing m with
  | nil => exact Or.inl h
  | cons first more ih =>
    rcases ih h with h | h
    · rcases mem_insertEntry h with rfl | h
      · exact Or.inr List.mem_cons_self
      · exact Or.inl h
    · exact Or.inr (List.mem_cons_of_mem _ h)

theorem mem_ofList (h : e ∈ (ofList more).entries) : e ∈ more :=
  (mem_insertAll h).resolve_left fun h => (nomatch h)

/-! Entries in order. -/

theorem insertEntry_eq_append (above : ∀ e ∈ entries, e.1 < key) :
    insertEntry key value entries = entries ++ [(key, value)] := by
  induction entries with
  | nil => rfl
  | cons first rest ih =>
    obtain ⟨k, v⟩ := first
    have hk : k < key := above _ List.mem_cons_self
    have apart : ¬key = k := by
      rintro rfl
      exact String.lt_irrefl key hk
    rw [insertEntry, if_neg (String.lt_asymm hk), if_neg apart, ih fun e he => above e (List.mem_cons_of_mem _ he)]
    rfl

theorem entries_insertAll (increasing : KeysIncrease more)
    (above : ∀ e ∈ m.entries, ∀ e' ∈ more, e.1 < e'.1) :
    (m.insertAll more).entries = m.entries ++ more := by
  induction more generalizing m with
  | nil => exact (List.append_nil _).symm
  | cons first more ih =>
    obtain ⟨below, tail⟩ := List.pairwise_cons.mp increasing
    have inserted : (m.insert first.1 first.2).entries = m.entries ++ [first] :=
      insertEntry_eq_append fun e he => above e he first List.mem_cons_self
    -- The entry goes to the end, where it is still below what is to come.
    have step := ih (m := m.insert first.1 first.2) tail (by
      intro e he e' he'
      rw [inserted] at he
      rcases List.mem_append.mp he with he | he
      · exact above e he e' (List.mem_cons_of_mem _ he')
      · exact List.mem_singleton.mp he ▸ below e' he')
    rw [inserted, List.append_assoc] at step
    exact step

theorem entries_ofList (increasing : KeysIncrease more) : (ofList more).entries = more :=
  entries_insertAll increasing fun _ h => (nomatch h)

/-- **A map** is the map of its entries. -/
theorem ofList_entries (m : KeyMap α) : ofList m.entries = m :=
  ext (entries_ofList m.increasing)

/-! Maps known by their look-ups. -/

theorem nodup_entries (m : KeyMap α) : m.entries.Nodup := by
  apply m.increasing.imp
  intro a b below same
  subst same
  exact String.lt_irrefl _ below

/-- Two maps in which the same is found are one. -/
theorem eq_of_get? {m n : KeyMap α} (h : ∀ key, m.get? key = n.get? key) : m = n := by
  have same : m.entries.Perm n.entries := by
    rw [List.perm_ext_iff_of_nodup m.nodup_entries n.nodup_entries]
    intro e
    show (e.1, e.2) ∈ m.entries ↔ (e.1, e.2) ∈ n.entries
    rw [← get?_eq_some_iff, ← get?_eq_some_iff, h]
  apply ext
  apply List.Perm.eq_of_pairwise _ m.increasing n.increasing same
  intro a b _ _ below above
  exact absurd above (String.lt_asymm below)

theorem get?_filterKeys (m : KeyMap α) (p : String → Bool) (key : String) :
    (m.filterKeys p).get? key = if p key then m.get? key else none := by
  apply Option.ext
  intro value
  rw [get?_eq_some_iff, filterKeys, List.mem_filter, ← get?_eq_some_iff]
  cases h : p key with
  | true => simp
  | false => simp

/-- The last entry under a key is the first one from behind. -/
theorem lookup_reverse_of_last {before after : List (String × α)}
    (split : entries = before ++ (key, value) :: after)
    (last : ∀ e ∈ after, e.1 ≠ key) : entries.reverse.lookup key = some value := by
  apply List.lookup_eq_some_iff.mpr
  refine ⟨after.reverse, before.reverse, ?_, fun e he => ?_⟩
  · rw [split, List.reverse_append, List.reverse_cons, List.append_assoc]
    rfl
  · exact bne_iff_ne.mpr (last e (List.mem_reverse.mp he)).symm

theorem lookup_reverse_eq_some_iff : entries.reverse.lookup key = some value ↔
    ∃ before after, entries = before ++ (key, value) :: after ∧ ∀ e ∈ after, e.1 ≠ key := by
  constructor
  · intro found
    obtain ⟨after, before, split, apart⟩ := List.lookup_eq_some_iff.mp found
    refine ⟨before.reverse, after.reverse, ?_, fun e he => ?_⟩
    · rw [List.reverse_eq_iff.mp split, List.reverse_append, List.reverse_cons, List.append_assoc]
      rfl
    · exact (bne_iff_ne.mp (apart e (List.mem_reverse.mp he))).symm
  · intro found
    obtain ⟨before, after, split, last⟩ := found
    exact lookup_reverse_of_last split last

theorem mem_of_lookup_reverse (found : entries.reverse.lookup key = some value) :
    (key, value) ∈ entries := by
  obtain ⟨before, after, rfl, -⟩ := lookup_reverse_eq_some_iff.mp found
  exact List.mem_append_right before List.mem_cons_self

theorem lookup_reverse_of_not_mem (apart : key ∉ entries.map (·.1)) :
    entries.reverse.lookup key = none := by
  apply List.lookup_eq_none_iff.mpr
  intro e he
  apply bne_iff_ne.mpr
  intro same
  exact apart (same ▸ List.mem_map_of_mem (List.mem_reverse.mp he))

theorem insertAll_comm (m : KeyMap α) (apart : ∀ e ∈ entries, ∀ e' ∈ more, e.1 ≠ e'.1) :
    (m.insertAll entries).insertAll more = (m.insertAll more).insertAll entries := by
  apply eq_of_get?
  intro key
  rw [get?_insertAll, get?_insertAll, get?_insertAll, get?_insertAll]
  cases first : entries.reverse.lookup key with
  | none => rw [Option.none_or, Option.none_or]
  | some value =>
    cases second : more.reverse.lookup key with
    | none => rfl
    | some value' =>
      have here := mem_of_lookup_reverse first
      have there := mem_of_lookup_reverse second
      exact absurd rfl (apart (key, value) here (key, value') there)

/-! Maps with other values. -/

/-- The map with each value changed, for which its key may matter. -/
def mapValues (m : KeyMap α) (f : String → α → β) : KeyMap β :=
  ⟨m.entries.map fun e => (e.1, f e.1 e.2), by
    rw [keysIncrease_iff, List.map_map]
    exact keysIncrease_iff.mp m.increasing⟩

theorem get?_mapValues (m : KeyMap α) (f : String → α → β) (key : String) :
    (m.mapValues f).get? key = (m.get? key).map (f key) := by
  show (m.entries.map fun e => (e.1, f e.1 e.2)).lookup key = (m.entries.lookup key).map (f key)
  induction m.entries with
  | nil => rfl
  | cons e rest ih =>
    obtain ⟨k, value⟩ := e
    rw [List.map_cons, lookup_cons_eq, lookup_cons_eq, ih]
    split
    next same =>
      subst same
      rfl
    next => rfl

theorem mapValues_id (m : KeyMap α) : (m.mapValues fun _ value => value) = m :=
  ext (List.map_id' m.entries)

theorem mapValues_mapValues (m : KeyMap α) (f : String → α → β) (g : String → β → γ) :
    (m.mapValues f).mapValues g = m.mapValues fun key value => g key (f key value) := by
  apply eq_of_get?
  intro key
  rw [get?_mapValues, get?_mapValues, get?_mapValues, Option.map_map]
  rfl

theorem mapValues_congr {f g : String → α → β}
    (h : ∀ key value, m.get? key = some value → f key value = g key value) :
    m.mapValues f = m.mapValues g := by
  apply eq_of_get?
  intro key
  rw [get?_mapValues, get?_mapValues]
  cases found : m.get? key with
  | none => rfl
  | some value => exact congrArg some (h key value found)

theorem insert_eq_mapValues {old : α} (found : m.get? key = some old) (f : α → α) :
    m.insert key (f old) =
      m.mapValues fun other value => if other = key then f value else value := by
  apply eq_of_get?
  intro other
  rw [get?_insert, get?_mapValues]
  split
  next same =>
    subst same
    rw [found]
    rfl
  next => exact Option.map_id'.symm

end KeyMap

end DocumentStore
