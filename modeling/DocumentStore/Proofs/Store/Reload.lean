import DocumentStore.Proofs.Statement.Literals
import DocumentStore.Proofs.Store.Requests
import DocumentStore.Proofs.Store.Snapshot

/- Saving a store that statements have made, and loading it again. Nothing that a statement can
   store is in the way but the two limits of the snapshot: it is nested deeper than the statement's
   own values, and a number may not be found in what is written of it (`load?_save_after`). -/
namespace DocumentStore

open Json (Value Whole)
open Json

/-- A value as a program holds it: each object is a map. -/
structure Argument where
  value : Value
  sorted : value.Sorted

/-- What is done to a store through sessions: its owner makes collections, and clients run
    statements. -/
inductive Step where
  | createCollection (c : Container)
  | exec (pageSize : Nat) (time : Whole) (settings : Settings) (text : String)
      (args : List Argument)

def Step.next : Step → Store → Store
  | .createCollection c, s => s.createCollection c
  | .exec pageSize time settings text args, s =>
    ((Session.ofStore pageSize time settings).exec text (args.map Argument.value) s).2

namespace Store

/-- The store after the steps. -/
def after : List Step → Store → Store
  | [], s => s
  | step :: steps, s => after steps (step.next s)

/-- All that the store holds is in key order. -/
def Sorted (s : Store) : Prop :=
  s.Each fun _ documents => ∀ x ∈ documents, x.Sorted

variable {s : Store} {time : Whole}

theorem sorted_attributes : OfAttributes Value.Sorted :=
  ⟨fun _ => trivial, fun _ => trivial⟩

theorem sorted_step (h : s.Sorted) (step : Step) : (step.next s).Sorted := by
  cases step with
  | createCollection c => exact each_createCollection h (List.forall_mem_nil _)
  | exec pageSize time settings text args =>
    have hargs : ∀ v ∈ args.map Argument.value, v.Sorted := by
      intro v hv
      obtain ⟨arg, -, rfl⟩ := List.mem_map.mp hv
      exact arg.sorted
    -- What a statement brings along was read from a JSON text.
    exact Session.holds_exec sorted_attributes h hargs fun _ => Statement.sorted_parse

theorem sorted_after (steps : List Step) : (after steps empty).Sorted := by
  suffices h : ∀ s : Store, s.Sorted → (after steps s).Sorted from h empty each_empty
  induction steps with
  | nil => exact fun _ h => h
  | cons step steps ih => exact fun s h => ih _ (sorted_step h step)

/-- **Saved and loaded.** Whatever statements have been run, the store is loaded from its snapshot
    exactly if

    * 64 bits hold the counter,
    * the values in its documents and partition keys nest at most 121 levels, and
    * each of their numbers is found again in what is written of it. -/
theorem load?_save_after (steps : List Step) :
    load? (after steps empty).save = some (after steps empty) ↔
      (after steps empty).sequence < Number.significandLimit ∧
        (after steps empty).Each fun _ documents => ∀ x ∈ documents, x.Loadable :=
  load?_save (sorted_after steps)

/-! Values that are accepted and not given back. -/

/-- Arrays in arrays, one more than `n`. -/
def nested : Nat → Value
  | 0 => .array []
  | n + 1 => .array [nested n]

theorem sorted_nested (n : Nat) : (nested n).Sorted := by
  induction n with
  | zero => trivial
  | succ n ih => exact ⟨ih, trivial⟩

theorem depth_nested (n : Nat) : (nested n).depth = n + 1 := by
  induction n with
  | zero => rfl
  | succ n ih => rw [nested, Value.depth, Value.depthItems, Value.depthItems, ih, Nat.max_zero]

/-- What the argument `1e-30` is read as. It is written `9.999999999999999e-31`, which is read as
    the next number. -/
def tiny : Number :=
  .real ⟨false, 5708990770823839, 922, by decide⟩

theorem not_readsBack_tiny : ¬tiny.ReadsBack := by
  decide +kernel

/-- A collection with one document, made by an INSERT that takes one of its fields from an
    argument. -/
def insertion (x : Argument) : List Step :=
  [.createCollection ⟨"d", "c"⟩,
    .exec defaultPageSize .zero {} "INSERT INTO d.c (id, x) VALUES (:1, :2)"
      [⟨.string "o1", trivial⟩, x, ⟨.string "o1", trivial⟩]]

theorem parse_insertion : Statement.parse "INSERT INTO d.c (id, x) VALUES (:1, :2)" =
    .ok (.insert ⟨⟨"d", "c"⟩, false, ["id", "x"], [.placeholder 1, .placeholder 2]⟩) := by
  refine eq_ok_of_toOption ?_
  decide +kernel

theorem draft_insertion (x : Value) :
    Insert.draft ⟨⟨"d", "c"⟩, false, ["id", "x"], [.placeholder 1, .placeholder 2]⟩
      [.string "o1", x, .string "o1"] =
        .ok ⟨⟨"d", "c"⟩, [.string "o1"], false, KeyMap.ofList [("id", .string "o1"), ("x", x)]⟩ :=
  rfl

theorem documents?_append {draft : Draft} {documents : List Stored}
    (found : s.documents? draft.container = .ok documents) :
    (s.append time draft documents).2.documents? draft.container =
      .ok (documents ++ [⟨draft.partition, (s.append time draft documents).1⟩]) :=
  (documents?_setDocuments found).trans (if_pos rfl)

theorem documents?_insertion (x : Argument) :
    (after (insertion x) empty).documents? ⟨"d", "c"⟩ =
      .ok [⟨[.string "o1"], stamp .zero 1 ⟨"d", "c"⟩ (mintedId 1)
        (KeyMap.ofList [("id", .string "o1"), ("x", x.value)])⟩] := by
  have made : (empty.createCollection ⟨"d", "c"⟩).documents? ⟨"d", "c"⟩ = .ok [] := by
    rw [documents?_createCollection, if_pos rfl]
    rfl
  have named : Document.id? (KeyMap.ofList [("id", .string "o1"), ("x", x.value)]) = some "o1" := by
    simp [Document.id?, Document.text?, KeyMap.ofList, KeyMap.insertAll, KeyMap.get?_insert,
      Value.text?]
  show ((Session.ofStore defaultPageSize .zero {}).exec _ _
    (empty.createCollection ⟨"d", "c"⟩)).2.documents? ⟨"d", "c"⟩ = _
  rw [Session.exec_of_parsed parse_insertion]
  show (Insert.exec _ (transport defaultPageSize .zero) _ _).2.documents? ⟨"d", "c"⟩ = _
  simp only [Insert.exec, List.map_cons, List.map_nil, draft_insertion, Transport.create, transport]
  rw [create_of_fresh made (requiredId_eq_ok.mpr ⟨named, by decide⟩) rfl]
  exact documents?_append made

/-- The field is given back only if it can stand in a snapshot. -/
theorem loadable_of_insertion (x : Argument)
    (h : load? (after (insertion x) empty).save = some (after (insertion x) empty)) :
    x.value.Loadable := by
  obtain ⟨-, loadable⟩ := (load?_save (sorted_after (insertion x))).mp h
  have document := (loadable _ _ (documents?_insertion x) _ (List.mem_singleton_self _)).2
  -- The attributes of the store leave the field as it is.
  refine document ("x", x.value) (KeyMap.get?_eq_some_iff.mp ?_)
  rw [get?_stamp (by decide)]
  exact KeyMap.get?_insert_self _ "x" x.value

/-- **Lost in a snapshot.** A value nested 122 levels deep and the number of the argument `1e-30`
    are stored, and neither is given back. -/
theorem not_loaded_after_insertion :
    (let s := after (insertion ⟨nested 121, sorted_nested 121⟩) empty; load? s.save ≠ some s) ∧
    (let s := after (insertion ⟨.number tiny, trivial⟩) empty; load? s.save ≠ some s) := by
  refine ⟨fun h => ?_, fun h => ?_⟩
  · have shallow := (loadable_of_insertion _ h).1
    rw [depth_nested] at shallow
    exact absurd shallow (by decide)
  · exact not_readsBack_tiny (loadable_of_insertion _ h).2

end Store

end DocumentStore
