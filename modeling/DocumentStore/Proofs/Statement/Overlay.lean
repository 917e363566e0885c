import DocumentStore.Proofs.Statement.Exchange
import DocumentStore.Transport.Script

/- What an UPDATE sends once it has read its document. Its one further request replaces that document
   by the fields of its author with the assigned values laid over them, the last one for each field,
   provided that the token read still stands (`Update.replace_request`). -/
namespace DocumentStore

open Json (Value)

theorem Document.token?_getD (doc : Document) : doc.token?.getD "" =
    match doc.get? "_etag" with
    | some (.string token) => token
    | _ => "" := by
  rw [token?, text?]
  cases doc.get? "_etag" with
  | none => rfl
  | some v => cases v <;> rfl

namespace Update

variable {σ : Type} {u : Update} {args : List Value} {b : Bound} {current : Document}

/-- An assigned field has the value of its last operand. -/
theorem get?_draft_of_last (bound : u.bind args = .ok b) {before after : List (String × Operand)}
    {field : String} {operand : Operand}
    (split : u.assignments = before ++ (field, operand) :: after)
    (last : ∀ e ∈ after, e.1 ≠ field) : ∃ v, operand.resolve args = .ok v ∧
      (b.draft current).payload.get? field = some v := by
  obtain ⟨id, partition, values, -, -, hvalues, rfl⟩ := bind_eq_ok bound
  have resolved := lookup_resolveAll hvalues field
  rw [KeyMap.lookup_reverse_of_last split last, Option.map_some] at resolved
  obtain ⟨v, found, hv⟩ := Option.map_eq_some_iff.mp resolved
  refine ⟨v, hv.symm, ?_⟩
  show KeyMap.get? (current.payload.insertAll values) field = some v
  rw [KeyMap.get?_insertAll, found, Option.some_or]

theorem get?_draft_of_unassigned (bound : u.bind args = .ok b) {field : String}
    (unassigned : field ∉ u.fields) : (b.draft current).payload.get? field =
      if field.toList.head? = some '_' then none else current.get? field := by
  obtain ⟨id, partition, values, -, -, hvalues, rfl⟩ := bind_eq_ok bound
  have absent : field ∉ values.map (·.1) := by
    rw [Operand.fields_resolveAll hvalues]
    exact unassigned
  show KeyMap.get? (current.payload.insertAll values) field = _
  rw [KeyMap.get?_insertAll, KeyMap.lookup_reverse_of_not_mem absent, Option.none_or, Document.payload,
    KeyMap.get?_filterKeys, Document.isSystemField]
  by_cases system : field.toList.head? = some '_'
  · simp [system]
  · simp [system]

/-- **What an UPDATE sends.** Take any transport, and an UPDATE with arguments that it can be bound
    to, and let its document be found. Then it makes one request more: to replace a document

    * of the same container and partition key, and not to create it;
    * provided that the token is that of the document read, or no matter what the token is if the
      document has none that is a text;
    * by the document in which an assigned field has the value of the last operand assigned to it,
      and any other field that does not start with an underscore the value that it had, if any. -/
theorem replace_request (bound : u.bind args = .ok b) (t : Transport σ) (policy : StalePolicy)
    {state next : σ} (read : t.get b.address state = (.ok current, next)) :
    ∃ draft token answer, (u.exec t.transcribed policy args (state, [])).2.2 =
        [⟨.get b.address, .ok current⟩, ⟨.replace draft token, answer⟩] ∧
      draft.container = b.address.container ∧ draft.partition = b.address.partition ∧
      draft.upsert = false ∧
      token = (match current.get? "_etag" with
        | some (.string token) => token
        | _ => "") ∧
      (∀ before field operand after, u.assignments = before ++ (field, operand) :: after →
        (∀ e ∈ after, e.1 ≠ field) →
          ∃ v, operand.resolve args = .ok v ∧ draft.payload.get? field = some v) ∧
      ∀ field, field ∉ u.fields → draft.payload.get? field =
        if field.toList.head? = some '_' then none else current.get? field := by
  rcases answered : t.respond (.replace (b.draft current) (current.token?.getD "")) next with
    ⟨answer, last⟩
  refine ⟨b.draft current, current.token?.getD "", answer, ?_, rfl, rfl, rfl,
    current.token?_getD, ?_, fun field => get?_draft_of_unassigned bound⟩
  · have asked := Transport.transcribed_respond read []
    have asked' := Transport.transcribed_respond answered
      ([] ++ [⟨.get b.address, .ok current⟩])
    simp only [exec, bound, Transport.get, Transport.replace, asked, asked']
    cases answer <;> rfl
  · exact fun before field operand after => get?_draft_of_last bound

/-- A field is assigned twice, and so is an attribute of the store. The token of the document is no
    text. -/
theorem replace_request_twice :
    let u : Update := ⟨⟨"d", "c"⟩, .placeholder 1,
      [("x", .placeholder 2), ("_z", .placeholder 3), ("x", .placeholder 4)]⟩
    let args : List Value := [.string "o1", .null, .bool true, .string "last", .string "p"]
    let current : Document := KeyMap.ofList
      [("id", .string "o1"), ("x", .bool false), ("y", .null), ("_etag", .null), ("_rid", .null)]
    ∃ draft answer, (u.exec Script.transport.transcribed .suppress args
        ({ gets := [.ok current] }, [])).2.2 =
        [⟨.get ⟨⟨"d", "c"⟩, [.string "p"], "o1"⟩, .ok current⟩, ⟨.replace draft "", answer⟩] ∧
      draft.payload.get? "x" = some (.string "last") ∧
      draft.payload.get? "_z" = some (.bool true) ∧ draft.payload.get? "y" = some .null ∧
      draft.payload.get? "_rid" = none := by
  intro u args current
  have bound : u.bind args = .ok ⟨⟨⟨"d", "c"⟩, [.string "p"], "o1"⟩,
      [("x", .null), ("_z", .bool true), ("x", .string "last")]⟩ := rfl
  have read : Script.transport.get ⟨⟨"d", "c"⟩, [.string "p"], "o1"⟩ { gets := [.ok current] } =
      (.ok current, {}) := rfl
  obtain ⟨draft, token, answer, log, -, -, -, htoken, assigned, kept⟩ :=
    replace_request bound Script.transport .suppress read
  obtain ⟨v, hv, x⟩ := assigned [("x", .placeholder 2), ("_z", .placeholder 3)] "x" (.placeholder 4)
    [] rfl nofun
  cases hv
  obtain ⟨v, hv, z⟩ := assigned [("x", .placeholder 2)] "_z" (.placeholder 3)
    [("x", .placeholder 4)] rfl (by decide)
  cases hv
  have none : token = "" := htoken.trans rfl
  exact ⟨draft, answer, none ▸ log, x, z, kept "y" (by decide), kept "_rid" (by decide)⟩

end Update

end DocumentStore
