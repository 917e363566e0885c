import DocumentStore.Json.Record
import DocumentStore.Proofs.Json.Value

/- Records, maps and lists are read from their written forms exactly if all that they hold is
   (`fields?_write`, `map?_writeMap`, `list?_array`), and what is written of them is JSON if that of
   all they hold is. -/
namespace DocumentStore.Json.Record

variable {α : Type} {read : Tree → Option α} {write : α → Tree}

/-! Reading element by element. -/

theorem mapM_eq_self_iff {f : α → Option α} {l : List α} :
    l.mapM f = some l ↔ ∀ x ∈ l, f x = some x := by
  induction l with
  | nil => simp
  | cons x l ih =>
    rw [List.mapM_cons, List.forall_mem_cons, ← ih]
    cases f x with
    | none => simp
    | some y =>
      cases l.mapM f with
      | none => simp
      | some ys => simp

theorem mapM_eq_some_map {β : Type} {f : α → Option β} {g : α → β} {l : List α}
    (h : ∀ x ∈ l, f x = some (g x)) : l.mapM f = some (l.map g) := by
  induction l with
  | nil => rfl
  | cons x l ih =>
    rw [List.mapM_cons, h x List.mem_cons_self, ih fun y hy => h y (List.mem_cons_of_mem _ hy)]
    rfl

theorem exists_of_mem_mapM {β : Type} {f : α → Option β} {l : List α} {found : List β}
    (h : l.mapM f = some found) {y : β} (hy : y ∈ found) : ∃ x, f x = some y := by
  induction l generalizing found with
  | nil =>
    cases h
    cases hy
  | cons x l ih =>
    rw [List.mapM_cons] at h
    cases hf : f x with
    | none => simp [hf] at h
    | some z =>
      cases hl : l.mapM f with
      | none => simp [hf, hl] at h
      | some rest =>
        simp only [hf, hl, Option.bind_eq_bind, Option.bind_some, Option.pure_def,
          Option.some.injEq] at h
        subst h
        rcases List.mem_cons.mp hy with rfl | hy
        · exact ⟨x, hf⟩
        · exact ih hl hy

theorem keys_mapM {β : Type} {f : String × β → Option α} {l : List (String × β)}
    {entries : List (String × α)}
    (h : l.mapM (fun e => (f e).map fun a => (e.1, a)) = some entries) :
    entries.map Prod.fst = l.map Prod.fst := by
  induction l generalizing entries with
  | nil =>
    cases h
    rfl
  | cons e l ih =>
    rw [List.mapM_cons] at h
    cases hf : f e with
    | none => simp [hf] at h
    | some a =>
      cases hl : l.mapM fun e => (f e).map fun a => (e.1, a) with
      | none => simp [hf, hl] at h
      | some rest =>
        simp only [hf, hl, Option.map_some, Option.bind_eq_bind, Option.bind_some, Option.pure_def,
          Option.some.injEq] at h
        rw [← h, List.map_cons, List.map_cons, ih hl]

theorem members?_written (fields : List (String × Tree)) :
    members? (fields.map fun f => (Quoted.ofText f.1, f.2)) = some fields := by
  induction fields with
  | nil => rfl
  | cons f fields ih => rw [List.map_cons, members?, Quoted.text?_ofText, ih]

/-! Lists. -/

theorem list?_array {l : List α} :
    list? read (.array (l.map write)) = some l ↔ ∀ x ∈ l, read (write x) = some x := by
  rw [list?, List.mapM_map, mapM_eq_self_iff]
  rfl

theorem mem_of_list? {t : Tree} {l : List α} (h : list? read t = some l) {x : α} (hx : x ∈ l) :
    ∃ item, read item = some x := by
  cases t with
  | array items =>
    rw [list?] at h
    exact exists_of_mem_mapM h hx
  | _ => cases h

theorem printable_array {l : List α} (h : ∀ x ∈ l, (write x).Printable) :
    (Tree.array (l.map write)).Printable := by
  induction l with
  | nil => trivial
  | cons x l ih =>
    exact ⟨h x List.mem_cons_self, ih fun y hy => h y (List.mem_cons_of_mem _ hy)⟩

/-! Maps. -/

theorem map?_writeMap {m : KeyMap α} :
    map? read (writeMap write m) = some m ↔ ∀ e ∈ m.entries, read (write e.2) = some e.2 := by
  have members : (members? (m.entries.map fun e => (Quoted.ofText e.1, write e.2))) =
      some (m.entries.map fun e => (e.1, write e.2)) := by
    have := members?_written (m.entries.map fun e => (e.1, write e.2))
    rwa [List.map_map] at this
  rw [writeMap, map?, members, Option.bind_some, List.mapM_map]
  constructor
  · intro back
    -- The keys are read back as they were, so that the entries are in order already.
    obtain ⟨entries, hentries, hm⟩ := Option.map_eq_some_iff.mp back
    have increasing : KeysIncrease entries := by
      rw [keysIncrease_iff, keys_mapM (f := fun e => read (write e.2)) hentries]
      exact keysIncrease_iff.mp m.increasing
    have same := congrArg KeyMap.entries hm
    rw [KeyMap.entries_ofList increasing] at same
    rw [same] at hentries
    intro e he
    obtain ⟨a, ha, hea⟩ := Option.map_eq_some_iff.mp (mapM_eq_self_iff.mp hentries e he)
    rw [ha, ← hea]
  · intro back
    have entries : (m.entries.mapM fun e => (read (write e.2)).map fun a => (e.1, a)) =
        some m.entries :=
      mapM_eq_self_iff.mpr fun e he => by rw [back e he]; rfl
    exact (congrArg (Option.map KeyMap.ofList) entries).trans
      (congrArg some (KeyMap.ofList_entries m))

theorem mem_of_map? {t : Tree} {m : KeyMap α} (h : map? read t = some m) {e : String × α}
    (he : e ∈ m.entries) : ∃ member, read member = some e.2 := by
  cases t with
  | object members =>
    rw [map?] at h
    obtain ⟨named, -, h⟩ := Option.bind_eq_some_iff.mp h
    obtain ⟨entries, hentries, rfl⟩ := Option.map_eq_some_iff.mp h
    obtain ⟨member, hmember⟩ := exists_of_mem_mapM hentries (KeyMap.mem_ofList he)
    obtain ⟨a, ha, rfl⟩ := Option.map_eq_some_iff.mp hmember
    exact ⟨member.2, ha⟩
  | _ => cases h

theorem printable_members (write : α → Tree) {entries : List (String × α)}
    (h : ∀ e ∈ entries, (write e.2).Printable) :
    Tree.PrintableMembers (entries.map fun e => (Quoted.ofText e.1, write e.2)) := by
  induction entries with
  | nil => trivial
  | cons e entries ih =>
    exact ⟨Quoted.valid_ofText e.1, h e List.mem_cons_self,
      ih fun e' he' => h e' (List.mem_cons_of_mem _ he')⟩

theorem printable_writeMap {m : KeyMap α} (h : ∀ e ∈ m.entries, (write e.2).Printable) :
    (writeMap write m).Printable :=
  printable_members write h

/-! Records. -/

theorem field?_of_mem {fields : List (String × Tree)} {f : String × Tree}
    (distinct : (fields.map Prod.fst).Nodup) (h : f ∈ fields) : field? fields f.1 = some (some f.2) := by
  have only : fields.filter (fun m => m.1 == f.1) = [f] := by
    induction fields with
    | nil => cases h
    | cons g fields ih =>
      rw [List.map_cons, List.nodup_cons] at distinct
      rcases List.mem_cons.mp h with rfl | h
      · rw [List.filter_cons_of_pos (by simp), List.filter_eq_nil_iff.mpr]
        intro g hg same
        exact distinct.1 (beq_iff_eq.mp same ▸ List.mem_map_of_mem hg)
      · have apart : g.1 ≠ f.1 := fun same => distinct.1 (same ▸ List.mem_map_of_mem h)
        rw [List.filter_cons_of_neg (by simpa using apart), ih distinct.2 h]
  rw [field?, only]

/-- **A record** gives its fields back. -/
theorem fields?_write (fields : List (String × Tree)) (distinct : (fields.map Prod.fst).Nodup) :
    fields? (fields.map Prod.fst) (Record.write fields) = some (fields.map fun f => some f.2) := by
  rw [Record.write, fields?, members?_written, Option.bind_some, List.mapM_map]
  exact mapM_eq_some_map fun f hf => field?_of_mem distinct hf

theorem printable_write {fields : List (String × Tree)} (h : ∀ f ∈ fields, f.2.Printable) :
    (Record.write fields).Printable :=
  printable_members id h

end DocumentStore.Json.Record
