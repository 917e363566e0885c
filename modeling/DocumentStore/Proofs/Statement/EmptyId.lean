import DocumentStore.Proofs.Json.Value
import DocumentStore.Proofs.Statement.IdGrammar
import DocumentStore.Proofs.Statement.PartitionKey
import DocumentStore.Proofs.Statement.SameTarget

/- The ids of the documents that a statement asks for. It asks for the document that its id denotes
   under its arguments, and for no other (`Statement.asks_id_iff`). An id that is written in the
   statement is not empty, which is checked when it is read, and neither is the JSON text of an
   argument. But an argument that is a string is taken for the id as it is, and this is the one way
   by which an empty id is asked for (`Statement.asks_empty_id_iff`). -/
namespace DocumentStore

open Json (Value)

variable {args : List Value} {container : Container} {term : IdTerm} {s : Statement}

/-! Ids under arguments. -/

theorem Json.Value.compact_ne_empty (v : Value) : v.compact ≠ "" := by
  obtain ⟨c, tail, written, -⟩ := v.toTree.exists_render_cons .compact 0 [] v.printable_toTree
  rw [compact, Json.Tree.write, written]
  exact mt String.ofList_eq_empty_iff.mp (List.cons_ne_nil c tail)

theorem Placeholder.getElem?_of_resolve {index : Nat} {v : Value}
    (h : resolve args index = .ok v) : args[index - 1]? = some v := by
  rw [resolve] at h
  split at h
  next => cases h
  next =>
    split at h <;> cases h
    assumption

/-- An id that is not empty as it is written is empty under arguments exactly if it is a placeholder
    for the empty string. -/
theorem IdTerm.resolve_eq_empty {id : String} (written : term ≠ .literal "")
    (h : term.resolve args = .ok id) :
    id = "" ↔ ∃ index, term = .placeholder index ∧ args[index - 1]? = some (.string "") := by
  cases term with
  | literal text =>
    cases h
    exact ⟨fun empty => absurd (congrArg literal empty) written, nofun⟩
  | placeholder index =>
    obtain ⟨v, hv, rfl⟩ := map_eq_ok h
    have argument := Placeholder.getElem?_of_resolve hv
    cases v <;> simp [argument, Value.text?, Value.compact_ne_empty]

/-! What is asked. -/

/-- The id of the document that a request reads or removes. -/
def Request.id? : Request → Option String
  | .delete address | .get address => some address.id
  | .create _ | .replace _ _ | .search _ => none

namespace Statement

theorem resolve_of_binding (fits : s.binding args = .ok ())
    (target : s.target? = some (container, term)) : ∃ id, term.resolve args = .ok id := by
  cases s with
  | insert s | select s => cases target
  | delete s =>
    cases target
    obtain ⟨address, haddress, -⟩ := map_eq_ok fits
    obtain ⟨id, partition, hid, -⟩ := Delete.address_eq_ok haddress
    exact ⟨id, hid⟩
  | update s =>
    cases target
    obtain ⟨bound, hbound, -⟩ := map_eq_ok fits
    obtain ⟨id, partition, values, hid, -⟩ := Update.bind_eq_ok hbound
    exact ⟨id, hid⟩

theorem requests_id_iff (read? : Address → Option Document) (id : String) :
    (∃ request ∈ s.requests args read?, request.id? = some id) ↔
      s.binding args = .ok () ∧
        ∃ container term, s.target? = some (container, term) ∧ term.resolve args = .ok id := by
  cases s with
  | insert s => simp [requests, target?, Request.id?]
  | select s => simp [requests, target?]
  | delete s =>
    rw [requests, binding]
    cases h : s.address args with
    | error e => simp [Except.map, Except.toOption]
    | ok address =>
      obtain ⟨found, partition, hfound, -, rfl⟩ := Delete.address_eq_ok h
      simp [Except.map, Except.toOption, Request.id?, target?, hfound]
  | update s =>
    rw [requests, binding]
    cases h : s.bind args with
    | error e => simp [Except.map]
    | ok bound =>
      obtain ⟨found, partition, values, hfound, -, -, rfl⟩ := Update.bind_eq_ok h
      simp [Except.map, Request.id?, target?, hfound]

variable {σ : Type}

/-- **The ids asked for**: a statement that fits its arguments asks for the document that its id
    denotes, and no statement asks for another one. -/
theorem asks_id_iff (s : Statement) (t : Transport σ) (policy : StalePolicy) (args : List Value)
    (state : σ) (id : String) :
    (∃ x ∈ (s.exec t.transcribed policy args (state, [])).2.2, x.request.id? = some id) ↔
      s.binding args = .ok () ∧
        ∃ container term, s.target? = some (container, term) ∧ term.resolve args = .ok id := by
  have asked := exec_requests s t policy args state
  rw [← requests_id_iff fun a => (t.get a state).1.toOption, ← asked]
  simp

theorem written_of_parse {text : String} (parsed : parse text = .ok s)
    (target : s.target? = some (container, term)) : term ≠ .literal "" := by
  cases made_of_parse parsed with
  | insert made | select made => cases target
  | delete made =>
    obtain ⟨found, -, nonempty, rfl⟩ := Delete.ofCondition_eq_ok.mp made
    cases target
    exact IdTerm.ne_of_isEmpty nonempty
  | update made =>
    obtain ⟨found, assignments, -, -, nonempty, -, rfl⟩ := Update.ofClauses_eq_ok.mp made
    cases target
    exact IdTerm.ne_of_isEmpty nonempty

/-- **An empty id** is asked for by a statement that is read exactly if the statement fits its
    arguments, has a placeholder for the id, and is given the empty string in its place. -/
theorem asks_empty_id_iff {text : String} (parsed : parse text = .ok s) (t : Transport σ)
    (policy : StalePolicy) (args : List Value) (state : σ) :
    (∃ x ∈ (s.exec t.transcribed policy args (state, [])).2.2, x.request.id? = some "") ↔
      s.binding args = .ok () ∧ ∃ container index,
        s.target? = some (container, .placeholder index) ∧
          args[index - 1]? = some (.string "") := by
  rw [asks_id_iff]
  apply and_congr_right
  intro fits
  constructor
  · rintro ⟨container, term, target, empty⟩
    obtain ⟨index, rfl, argument⟩ :=
      (IdTerm.resolve_eq_empty (written_of_parse parsed target) empty).mp rfl
    exact ⟨container, index, target, argument⟩
  · rintro ⟨container, index, target, argument⟩
    obtain ⟨id, hid⟩ := resolve_of_binding fits target
    obtain rfl := (IdTerm.resolve_eq_empty (by simp) hid).mpr ⟨index, rfl, argument⟩
    exact ⟨container, _, target, hid⟩

/-- The empty string is given once for the assigned value and once for the id. -/
theorem asks_empty_id_iff_update :
    let text := "UPDATE d.c SET x=:1 WHERE id=:2"
    let s : Update := ⟨⟨"d", "c"⟩, .placeholder 2, [("x", .placeholder 1)]⟩
    let log := fun args =>
      ((update s).exec Script.transport.transcribed .suppress args ({}, [])).2.2
    parse text = .ok (.update s) ∧
      (¬∃ x ∈ log [.string "", .string "o", .null], x.request.id? = some "") ∧
      ∃ x ∈ log [.string "o", .string "", .null], x.request.id? = some "" := by
  intro text s log
  have parsed : parse text = .ok (.update s) := eq_ok_of_toOption (by decide +kernel)
  refine ⟨parsed, ?_, ?_⟩
  · rw [asks_empty_id_iff parsed]
    rintro ⟨-, container, index, target, argument⟩
    cases target
    exact absurd argument (by decide)
  · rw [asks_empty_id_iff parsed]
    exact ⟨rfl, _, _, rfl, rfl⟩

/-- **An empty id is sent** to the store if it is bound, though one that is written is refused. -/
theorem empty_id_asked :
    let s : Delete := ⟨⟨"d", "c"⟩, .placeholder 1⟩
    let args : List Value := [.string "", .string "p"]
    parse "DELETE FROM d.c WHERE id=\"\"" = .error (.validation .missingId) ∧
      parse "DELETE FROM d.c WHERE id=:1" = .ok (.delete s) ∧
      ∃ x ∈ ((delete s).exec Script.transport.transcribed .suppress args ({}, [])).2.2,
        x.request = .delete ⟨⟨"d", "c"⟩, [.string "p"], ""⟩ := by
  intro s args
  have parsed : parse "DELETE FROM d.c WHERE id=:1" = .ok (.delete s) :=
    eq_ok_of_toOption (by decide +kernel)
  exact ⟨by decide +kernel, parsed, _, List.mem_singleton_self _, rfl⟩

end Statement

end DocumentStore
