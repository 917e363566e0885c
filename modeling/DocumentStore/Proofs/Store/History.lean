import DocumentStore.Proofs.Store.Content

/- Histories of a store. A run applies operations one after another (`run`); each call may report a
   change, which its answer alone tells (`Request.change?`), and the changes of a run are its
   history (`changes`). What one call can do to a store is said once, with all that the store has
   checked by then (`Effect`, `effect_call`); what a run keeps follows from it by `run_induction`. -/
namespace DocumentStore

open Json (Value)

namespace Address

/-- The two addresses are one: the same collection and id under equal partition keys. -/
def same (a b : Address) : Bool :=
  a.container == b.container && Value.equalItems a.partition b.partition && a.id == b.id

theorem same_iff {a b : Address} :
    a.same b = true ↔ a.container = b.container ∧
      Value.equalItems a.partition b.partition = true ∧ a.id = b.id := by
  simp [same, and_assoc]

theorem same_refl (a : Address) : a.same a = true :=
  same_iff.mpr ⟨rfl, Value.equalItems_refl _, rfl⟩

theorem same_symm {a b : Address} (h : a.same b = true) : b.same a = true := by
  obtain ⟨hc, hp, hi⟩ := same_iff.mp h
  exact same_iff.mpr ⟨hc.symm, Value.equalItems_symm _ _ hp, hi.symm⟩

theorem same_trans {a b c : Address} (h : a.same b = true) (h' : b.same c = true) :
    a.same c = true := by
  obtain ⟨hc, hp, hi⟩ := same_iff.mp h
  obtain ⟨hc', hp', hi'⟩ := same_iff.mp h'
  exact same_iff.mpr ⟨hc.trans hc', Value.equalItems_trans _ _ _ hp hp', hi.trans hi'⟩

end Address

/-- The address that a draft is written to, if its payload has an id. -/
def Draft.address? (draft : Draft) : Option Address :=
  draft.payload.id?.map fun id => ⟨draft.container, draft.partition, id⟩

/-! Changes. -/

/-- What a successful call did to a document. -/
inductive Change where
  | wrote (address : Address) (doc : Document)
  | removed (address : Address)

namespace Change

def address : Change → Address
  | .wrote a _ => a
  | .removed a => a

/-- The document that stands at the address after the change. -/
def document? : Change → Option Document
  | .wrote _ doc => some doc
  | .removed _ => none

/-- The change is about this address. -/
def isAbout (a : Address) (change : Change) : Bool :=
  change.address.same a

end Change

/-- The change that a request made, as its answer tells. -/
def Request.change? : (request : Request) → Except TransportError request.Answer → Option Change
  | .create draft, .ok doc => draft.address?.map fun a => .wrote a doc
  | .replace draft _, .ok doc => draft.address?.map fun a => .wrote a doc
  | .delete address, .ok _ => some (.removed address)
  | _, _ => none

/-- Where a request would write, and what, if it names its document. -/
def Request.writing? : Request → Option (Address × Document)
  | .create draft => draft.address?.map fun a => (a, draft.payload)
  | .replace draft _ => draft.address?.map fun a => (a, draft.payload)
  | _ => none

/-! Runs. -/

/-- A request with the clock and the page size at which the store answers it. -/
structure Call where
  pageSize : Nat
  time : Json.Whole
  request : Request

namespace Call

def answer (call : Call) (s : Store) : Except TransportError call.request.Answer :=
  ((Store.transport call.pageSize call.time).respond call.request s).1

def next (call : Call) (s : Store) : Store :=
  ((Store.transport call.pageSize call.time).respond call.request s).2

def change? (call : Call) (s : Store) : Option Change :=
  call.request.change? (call.answer s)

end Call

/-- What is done to a store: its owner makes containers, its clients call it. -/
inductive Operation where
  | createDatabase (name : String)
  | createCollection (c : Container)
  | call (call : Call)

namespace Operation

def next : Operation → Store → Store
  | .createDatabase name, s => s.createDatabase name
  | .createCollection c, s => s.createCollection c
  | .call made, s => made.next s

def change? : Operation → Store → Option Change
  | .call made, s => made.change? s
  | _, _ => none

end Operation

namespace Store

/-- The store after the operations. -/
def run : List Operation → Store → Store
  | [], s => s
  | op :: ops, s => run ops (op.next s)

/-- What each operation reports, in order; `report` sees the store before the operation. -/
def trace {α : Type} (report : Operation → Store → List α) : List Operation → Store → List α
  | [], _ => []
  | op :: ops, s => report op s ++ trace report ops (op.next s)

/-- The changes that the operations make, in order. -/
def changes : List Operation → Store → List Change :=
  trace fun op s => (op.change? s).toList

theorem run_append (ops more : List Operation) (s : Store) :
    run (ops ++ more) s = run more (run ops s) := by
  induction ops generalizing s with
  | nil => rfl
  | cons op ops ih => exact ih _

section
variable {α : Type} {report : Operation → Store → List α}

theorem trace_append (ops more : List Operation) (s : Store) :
    trace report (ops ++ more) s = trace report ops s ++ trace report more (run ops s) := by
  induction ops generalizing s with
  | nil => rfl
  | cons op ops ih => simp only [List.cons_append, trace, run, ih, List.append_assoc]

theorem mem_trace {ops : List Operation} {s : Store} {x : α} (h : x ∈ trace report ops s) :
    ∃ before op after, ops = before ++ op :: after ∧ x ∈ report op (run before s) := by
  induction ops generalizing s with
  | nil => simp [trace] at h
  | cons op ops ih =>
    rcases List.mem_append.mp h with h | h
    · exact ⟨[], op, ops, rfl, h⟩
    · obtain ⟨before, op', after, rfl, hx⟩ := ih h
      exact ⟨op :: before, op', after, rfl, hx⟩

/-- What every operation keeps along with its report, a run keeps along with its trace. -/
theorem trace_induction (Keeps : List α → Store → Prop)
    (step : ∀ found op s, Keeps found s → Keeps (found ++ report op s) (op.next s))
    (ops : List Operation) (found : List α) (s : Store) (start : Keeps found s) :
    Keeps (found ++ trace report ops s) (run ops s) := by
  induction ops generalizing found s with
  | nil => simpa only [trace, run, List.append_nil] using start
  | cons op ops ih =>
    rw [trace, run, ← List.append_assoc]
    exact ih _ _ (step found op s start)

end

/-! What one call can do. -/

/-- How a call leaves the store, with the change it reports. -/
inductive Effect (call : Call) (s : Store) : Option Change → Store → Prop where
  /-- A refusal or a look. -/
  | unchanged : Effect call s none s
  /-- A new document stands at the end of its collection. -/
  | appended {payload doc : Document} {a : Address} {documents : List Stored}
      (carried : call.request.writing? = some (a, payload))
      (stamped : doc = stamp call.time (s.sequence + 1) a.container (mintedId (s.sequence + 1)) payload)
      (named : doc.id? = some a.id) (nonempty : a.id ≠ "")
      (found : s.documents? a.container = .ok documents)
      (fresh : documents.find? (Stored.isAt a.partition a.id) = none) :
      Effect call s (some (.wrote a doc))
        { s.setDocuments a.container (documents ++ [⟨a.partition, doc⟩]) with
          sequence := s.sequence + 1 }
  /-- A document is overwritten in its place. -/
  | overwritten {payload doc : Document} {a : Address} {documents : List Stored} {old : Stored}
      (carried : call.request.writing? = some (a, payload))
      (stamped : doc = stamp call.time (s.sequence + 1) a.container
        (old.document.resourceId?.getD (mintedId (s.sequence + 1))) payload)
      (named : doc.id? = some a.id) (nonempty : a.id ≠ "")
      (found : s.documents? a.container = .ok documents)
      (live : documents.find? (Stored.isAt a.partition a.id) = some old) :
      Effect call s (some (.wrote a doc))
        { s.setDocuments a.container
            (Stored.overwriteFirst (Stored.isAt a.partition a.id) doc documents) with
          sequence := s.sequence + 1 }
  /-- A document is gone. -/
  | removed {a : Address} {documents : List Stored} {old : Stored}
      (found : s.documents? a.container = .ok documents)
      (live : documents.find? (Stored.isAt a.partition a.id) = some old) :
      Effect call s (some (.removed a)) (s.setDocuments a.container
        (documents.eraseP (Stored.isAt a.partition a.id)))

variable {s : Store} {time : Json.Whole} {draft : Draft} {id token : String} {a : Address}
  {documents : List Stored} {old : Stored}

/-! Each request in a collection that exists, by what it finds. -/

theorem address?_of_requiredId (h : requiredId draft.payload = .ok id) :
    draft.address? = some ⟨draft.container, draft.partition, id⟩ := by
  rw [Draft.address?, (requiredId_eq_ok.mp h).1, Option.map_some]

theorem create_of_fresh (found : s.documents? draft.container = .ok documents)
    (hid : requiredId draft.payload = .ok id)
    (fresh : documents.find? (Stored.isAt draft.partition id) = none) :
    s.create time draft = (.ok (s.append time draft documents).1, (s.append time draft documents).2) := by
  simp only [create, found, hid, fresh]

theorem create_of_live (found : s.documents? draft.container = .ok documents)
    (hid : requiredId draft.payload = .ok id)
    (live : documents.find? (Stored.isAt draft.partition id) = some old) :
    s.create time draft =
      if draft.upsert then (.ok (s.overwrite time draft id old documents).1,
        (s.overwrite time draft id old documents).2)
      else (.error idTaken, s) := by
  simp only [create, found, hid, live]

/-- A create that succeeds has put its document where none stood, or is an upsert and has overwritten
    the one that stood there. -/
theorem create_eq_ok {doc : Document} (h : (s.create time draft).1 = .ok doc) :
    ∃ documents id, s.documents? draft.container = .ok documents ∧
      requiredId draft.payload = .ok id ∧
      (documents.find? (Stored.isAt draft.partition id) = none ∧
          s.create time draft =
            (.ok (s.append time draft documents).1, (s.append time draft documents).2) ∨
        ∃ old, documents.find? (Stored.isAt draft.partition id) = some old ∧
          draft.upsert = true ∧
          s.create time draft = (.ok (s.overwrite time draft id old documents).1,
            (s.overwrite time draft id old documents).2)) := by
  cases found : s.documents? draft.container with
  | error e =>
    simp only [create, found] at h
    cases h
  | ok documents =>
    cases hid : requiredId draft.payload with
    | error e =>
      simp only [create, found, hid] at h
      cases h
    | ok id =>
      refine ⟨documents, id, rfl, rfl, ?_⟩
      cases live : documents.find? (Stored.isAt draft.partition id) with
      | none => exact .inl ⟨rfl, create_of_fresh found hid live⟩
      | some old =>
        rw [create_of_live found hid live] at h ⊢
        split at h
        next upsert => exact .inr ⟨old, rfl, upsert, if_pos upsert⟩
        next => cases h

theorem replace_of_fresh (found : s.documents? draft.container = .ok documents)
    (hid : requiredId draft.payload = .ok id)
    (fresh : documents.find? (Stored.isAt draft.partition id) = none) :
    s.replace time draft token = (.error (documentMissing id), s) := by
  simp only [replace, found, hid, fresh]

theorem replace_of_live (found : s.documents? draft.container = .ok documents)
    (hid : requiredId draft.payload = .ok id)
    (live : documents.find? (Stored.isAt draft.partition id) = some old) :
    s.replace time draft token =
      if admits token old.document then (.ok (s.overwrite time draft id old documents).1,
        (s.overwrite time draft id old documents).2)
      else (.error tokenStale, s) := by
  simp only [replace, found, hid, live]

theorem replace_of_unnamed {e : TransportError}
    (found : s.documents? draft.container = .ok documents)
    (unnamed : requiredId draft.payload = .error e) :
    s.replace time draft token = (.error e, s) := by
  simp only [replace, found, unnamed]

/-- A replacement that succeeds has found a document under the id of its payload, and the token has
    let it pass. -/
theorem replace_eq_ok {doc : Document} (h : (s.replace time draft token).1 = .ok doc) :
    ∃ documents id old, s.documents? draft.container = .ok documents ∧
      requiredId draft.payload = .ok id ∧
      documents.find? (Stored.isAt draft.partition id) = some old ∧
      admits token old.document = true ∧
      s.replace time draft token =
        (.ok (s.overwrite time draft id old documents).1,
          (s.overwrite time draft id old documents).2) := by
  cases found : s.documents? draft.container with
  | error e =>
    simp only [replace, found] at h
    cases h
  | ok documents =>
    cases hid : requiredId draft.payload with
    | error e =>
      rw [replace_of_unnamed found hid] at h
      cases h
    | ok id =>
      cases live : documents.find? (Stored.isAt draft.partition id) with
      | none =>
        rw [replace_of_fresh found hid live] at h
        cases h
      | some old =>
        rw [replace_of_live found hid live] at h ⊢
        split at h
        next pass => exact ⟨documents, id, old, rfl, rfl, live, pass, if_pos pass⟩
        next => cases h

theorem delete_of_fresh (found : s.documents? a.container = .ok documents)
    (fresh : documents.find? (Stored.isAt a.partition a.id) = none) :
    s.delete a = (.error (documentMissing a.id), s) := by
  simp only [delete, found, Stored.not_any_of_fresh fresh, Bool.false_eq_true, if_false]

theorem delete_of_live (found : s.documents? a.container = .ok documents)
    (live : documents.find? (Stored.isAt a.partition a.id) = some old) :
    s.delete a = (.ok (), s.setDocuments a.container
      (documents.eraseP (Stored.isAt a.partition a.id))) := by
  simp only [delete, found, Stored.any_of_live live, if_true]

theorem get_eq_of_found (found : s.documents? a.container = .ok documents) :
    s.get a = match documents.find? (Stored.isAt a.partition a.id) with
      | none => .error (documentMissing a.id)
      | some x => .ok x.document := by
  cases hx : documents.find? (Stored.isAt a.partition a.id) with
  | none => simp only [get, found, hx]
  | some x => simp only [get, found, hx]

theorem get_eq_ok {doc : Document} : s.get a = .ok doc ↔ ∃ documents x,
    s.documents? a.container = .ok documents ∧
      documents.find? (Stored.isAt a.partition a.id) = some x ∧ x.document = doc := by
  cases hs : s.documents? a.container with
  | error e => simp [get, hs]
  | ok documents =>
    rw [get_eq_of_found hs]
    cases hx : documents.find? (Stored.isAt a.partition a.id) with
    | none => simp [hx]
    | some x => simp [hx]

/-- **One call.** Every answer of the store comes with its effect. -/
theorem effect_call (call : Call) (s : Store) : Effect call s (call.change? s) (call.next s) := by
  obtain ⟨pageSize, time, request⟩ := call
  simp only [Call.change?, Call.answer, Call.next, transport]
  cases request with
  -- The store checks the collection, then the id, then what stands under the key.
  | create draft =>
    show Effect _ s (Request.change? (.create draft) (s.create time draft).1) (s.create time draft).2
    cases found : s.documents? draft.container with
    | error e => simpa only [create, found] using .unchanged
    | ok documents =>
      cases hid : requiredId draft.payload with
      | error e => simpa only [create, found, hid] using .unchanged
      | ok id =>
        obtain ⟨named, nonempty⟩ := requiredId_eq_ok.mp hid
        have address := address?_of_requiredId hid
        cases live : documents.find? (Stored.isAt draft.partition id) with
        | none =>
          rw [create_of_fresh found hid live]
          simp only [Request.change?, address, Option.map_some]
          exact .appended (congrArg (Option.map _) address) rfl
            (id?_stamp.trans named) nonempty found live
        | some old =>
          rw [create_of_live found hid live]
          split
          · simp only [Request.change?, address, Option.map_some]
            exact .overwritten (congrArg (Option.map _) address) rfl
              (id?_stamp.trans named) nonempty found live
          · exact .unchanged
  | delete a =>
    show Effect _ s (Request.change? (.delete a) (s.delete a).1) (s.delete a).2
    cases found : s.documents? a.container with
    | error e => simpa only [delete, found] using .unchanged
    | ok documents =>
      cases live : documents.find? (Stored.isAt a.partition a.id) with
      | none =>
        rw [delete_of_fresh found live]
        exact .unchanged
      | some old =>
        rw [delete_of_live found live]
        exact .removed found live
  | get a => exact .unchanged
  | replace draft token =>
    show Effect _ s (Request.change? (.replace draft token) (s.replace time draft token).1)
      (s.replace time draft token).2
    cases found : s.documents? draft.container with
    | error e => simpa only [replace, found] using .unchanged
    | ok documents =>
      cases hid : requiredId draft.payload with
      | error e => simpa only [replace, found, hid] using .unchanged
      | ok id =>
        obtain ⟨named, nonempty⟩ := requiredId_eq_ok.mp hid
        have address := address?_of_requiredId hid
        cases live : documents.find? (Stored.isAt draft.partition id) with
        | none =>
          rw [replace_of_fresh found hid live]
          exact .unchanged
        | some old =>
          rw [replace_of_live found hid live]
          split
          · simp only [Request.change?, address, Option.map_some]
            exact .overwritten (congrArg (Option.map _) address) rfl
              (id?_stamp.trans named) nonempty found live
          · exact .unchanged
  | search search => exact .unchanged

theorem each_stored_of_effect {q : Container → Stored → Prop} {made : Call}
    {change : Option Change} {next : Store} (h : s.Each fun c documents => ∀ x ∈ documents, q c x)
    (effect : Effect made s change next)
    (new : ∀ (payload doc : Document) (a : Address), made.request.writing? = some (a, payload) →
      doc = stamp made.time (s.sequence + 1) a.container (mintedId (s.sequence + 1)) payload →
      doc.id? = some a.id → q a.container ⟨a.partition, doc⟩)
    (overwrite : ∀ (payload doc : Document) (a : Address) (old : Stored),
      made.request.writing? = some (a, payload) →
      doc = stamp made.time (s.sequence + 1) a.container
        (old.document.resourceId?.getD (mintedId (s.sequence + 1))) payload →
      doc.id? = some a.id → q a.container old → q a.container { old with document := doc }) :
    next.Each fun c documents => ∀ x ∈ documents, q c x := by
  cases effect with
  | unchanged => exact h
  -- Of the new list all but one document stood in the old one.
  | appended carried stamped named nonempty found fresh =>
    apply each_setDocuments h found
    intro x hx
    rcases List.mem_append.mp hx with hx | hx
    · exact h _ _ found x hx
    · rw [List.mem_singleton.mp hx]
      exact new _ _ _ carried stamped named
  | @overwritten payload doc a documents old carried stamped named nonempty found live =>
    apply each_setDocuments h found
    intro x hx
    -- The document overwritten is the one that was found.
    rcases Stored.mem_overwriteFirst hx with hx | ⟨y, hy, rfl⟩
    · exact h _ _ found x hx
    · rw [hy] at live
      cases live
      exact overwrite _ _ _ old carried stamped named (h _ _ found old (List.mem_of_find?_eq_some hy))
  | removed found live =>
    exact each_setDocuments h found fun x hx => h _ _ found x (List.mem_of_mem_eraseP hx)

/-- **A run.** What new containers keep and every call keeps along with its change, a run keeps
    along with its history. -/
theorem run_induction (Keeps : List Change → Store → Prop)
    (database : ∀ history s name, Keeps history s → Keeps history (s.createDatabase name))
    (collection : ∀ history s c, Keeps history s → Keeps history (s.createCollection c))
    (call : ∀ history s made change next, Keeps history s → Effect made s change next →
      Keeps (history ++ change.toList) next)
    (ops : List Operation) (history : List Change) (s : Store) (start : Keeps history s) :
    Keeps (history ++ changes ops s) (run ops s) := by
  refine trace_induction Keeps (fun history op s h => ?_) ops history s start
  cases op with
  | createDatabase name =>
    simpa only [Operation.change?, Operation.next, Option.toList, List.append_nil] using
      database _ _ name h
  | createCollection c =>
    simpa only [Operation.change?, Operation.next, Option.toList, List.append_nil] using
      collection _ _ c h
  | call made => exact call _ _ made _ _ h (effect_call made s)

end Store

end DocumentStore
