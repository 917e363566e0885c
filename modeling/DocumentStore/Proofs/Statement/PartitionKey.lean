import DocumentStore.Proofs.Statement.FailFast

/- The last argument of a writing statement is its partition key and nothing else. No placeholder
   reaches it, so what a statement asks for is decided by the other arguments and by the document
   that it reads (`exec_requests`); two runs that differ in the last argument make the same requests,
   each under its own partition key, and fail alike for their arguments (`partition_key_apart`). -/
namespace DocumentStore

open Json (Value)

variable {σ τ : Type} {front : List Value} {v w : Value}

/-! Requests under another partition key. -/

def Address.under (partition : List Value) (a : Address) : Address :=
  { a with partition }

def Draft.under (partition : List Value) (draft : Draft) : Draft :=
  { draft with partition }

def Update.Bound.under (partition : List Value) (b : Update.Bound) : Update.Bound :=
  { b with address := b.address.under partition }

namespace Request

/-- The same request under this partition key. A query has none. -/
def under (partition : List Value) : Request → Request
  | .create draft => .create (draft.under partition)
  | .delete address => .delete (address.under partition)
  | .get address => .get (address.under partition)
  | .replace draft token => .replace (draft.under partition) token
  | .search query => .search query

/-- The partition key of a request. -/
def partition? : Request → Option (List Value)
  | .create draft | .replace draft _ => some draft.partition
  | .delete address | .get address => some address.partition
  | .search _ => none

end Request

/-! What the last argument does not decide. -/

theorem checkCount_last (expected : Nat) :
    checkCount expected (front ++ [w]) = checkCount expected (front ++ [v]) := by
  simp only [checkCount, List.length_append, List.length_singleton]

theorem partitionKey_last : partitionKey (front ++ [v]) = .ok [v] := by
  rw [partitionKey, List.getLast?_concat]

theorem Placeholder.resolve_last (index : Nat) :
    resolve (front ++ [w]) index = resolve (front ++ [v]) index := by
  have same : (front ++ [w]).length = (front ++ [v]).length := by
    rw [List.length_append, List.length_append, List.length_singleton, List.length_singleton]
  rw [resolve, resolve, same]
  split
  · rfl
  next refers =>
    rw [List.length_append, List.length_singleton] at refers
    have inside : index - 1 < front.length := by omega
    rw [List.getElem?_append_left inside, List.getElem?_append_left inside]

theorem Operand.resolve_last (operand : Operand) :
    operand.resolve (front ++ [w]) = operand.resolve (front ++ [v]) := by
  cases operand with
  | literal value => rfl
  | placeholder index => exact Placeholder.resolve_last index

theorem IdTerm.resolve_last (id : IdTerm) :
    id.resolve (front ++ [w]) = id.resolve (front ++ [v]) := by
  cases id with
  | literal id => rfl
  | placeholder index =>
    rw [resolve, resolve, Placeholder.resolve_last]

theorem Operand.resolveAll_last (assignments : List (String × Operand)) :
    resolveAll (front ++ [w]) assignments = resolveAll (front ++ [v]) assignments := by
  induction assignments with
  | nil => rfl
  | cons assignment assignments ih =>
    obtain ⟨field, operand⟩ := assignment
    rw [resolveAll, resolveAll, resolve_last, ih]

/-! What is bound. -/

theorem Insert.draft_last (s : Insert) :
    s.draft (front ++ [w]) = (s.draft (front ++ [v])).map (Draft.under [w]) := by
  simp only [draft, checkCount_last (v := v) (w := w), Operand.resolveAll_last (v := v) (w := w),
    partitionKey_last, bind, Except.bind, pure, Except.pure]
  cases checkCount s.numInput (front ++ [v]) with
  | error e => rfl
  | ok counted => cases Operand.resolveAll (front ++ [v]) (s.fields.zip s.values) <;> rfl

theorem Delete.address_last (s : Delete) :
    s.address (front ++ [w]) = (s.address (front ++ [v])).map (Address.under [w]) := by
  simp only [address, checkCount_last (v := v) (w := w), IdTerm.resolve_last (v := v) (w := w),
    partitionKey_last, bind, Except.bind, pure, Except.pure]
  cases checkCount s.numInput (front ++ [v]) with
  | error e => rfl
  | ok counted => cases s.id.resolve (front ++ [v]) <;> rfl

theorem Update.bind_last (s : Update) :
    s.bind (front ++ [w]) = (s.bind (front ++ [v])).map (Bound.under [w]) := by
  simp only [Update.bind, checkCount_last (v := v) (w := w), IdTerm.resolve_last (v := v) (w := w),
    Operand.resolveAll_last (v := v) (w := w), partitionKey_last, Bind.bind, Except.bind, pure,
    Except.pure]
  cases checkCount s.numInput (front ++ [v]) with
  | error e => rfl
  | ok counted =>
    cases s.id.resolve (front ++ [v]) with
    | error e => rfl
    | ok id => cases Operand.resolveAll (front ++ [v]) s.assignments <;> rfl

/-- Whether a writing statement fits its arguments does not hang on the last one. -/
theorem Statement.binding_last {s : Statement} (writes : ∀ q, s ≠ .select q) :
    s.binding (front ++ [w]) = s.binding (front ++ [v]) := by
  cases s with
  | insert s =>
    rw [binding, binding, Insert.draft_last (v := v)]
    cases s.draft (front ++ [v]) <;> rfl
  | delete s =>
    rw [binding, binding, Delete.address_last (v := v)]
    cases s.address (front ++ [v]) <;> rfl
  | update s =>
    rw [binding, binding, Update.bind_last (v := v)]
    cases s.bind (front ++ [v]) <;> rfl
  | select q => exact absurd rfl (writes q)

/-! What is asked. -/

namespace Statement

/-- The requests of a writing statement, if its get finds what `read?` says. -/
def requests (args : List Value) (read? : Address → Option Document) : Statement → List Request
  | .insert s => (s.draft args).toOption.toList.map .create
  | .delete s => (s.address args).toOption.toList.map .delete
  | .update s =>
    match s.bind args with
    | .error _ => []
    | .ok bound => .get bound.address :: (read? bound.address).toList.map fun current =>
      .replace (bound.draft current) (current.token?.getD "")
  | .select _ => []

/-- **What a statement asks** is decided by its arguments and by the document that it reads. -/
theorem exec_requests (s : Statement) (t : Transport σ) (policy : StalePolicy) (args : List Value)
    (state : σ) : (s.exec t.transcribed policy args (state, [])).2.2.map Exchange.request =
      s.requests args fun a => (t.get a state).1.toOption := by
  cases s with
  | insert s =>
    cases drafted : s.draft args with
    | error e => simp only [exec, Insert.exec, requests, drafted]; rfl
    | ok draft =>
      rcases answered : t.respond (.create draft) state with ⟨answer, next⟩
      simp only [exec, Insert.exec, requests, drafted, Transport.create,
        Transport.transcribed_respond answered]
      cases answer <;> rfl
  | delete s =>
    cases addressed : s.address args with
    | error e => simp only [exec, Delete.exec, requests, addressed]; rfl
    | ok address =>
      rcases answered : t.respond (.delete address) state with ⟨answer, next⟩
      simp only [exec, Delete.exec, requests, addressed, Transport.delete,
        Transport.transcribed_respond answered]
      cases answer <;> rfl
  | update s =>
    cases bound : s.bind args with
    | error e => simp only [exec, Update.exec, requests, bound, List.map_nil]
    | ok b =>
      rcases read : t.respond (.get b.address) state with ⟨answer, next⟩
      simp only [exec, Update.exec, requests, bound, Transport.get, Transport.replace, read,
        Transport.transcribed_respond read]
      cases answer with
      | error e => rfl
      | ok current =>
        rcases written : t.respond (.replace (b.draft current) (current.token?.getD "")) next with
          ⟨answer, last⟩
        simp only [Transport.transcribed_respond written]
        cases answer <;> rfl
  | select q => rfl

/-- Under another last argument, and reading the same document, a statement asks the same under
    another partition key. -/
theorem requests_last {s : Statement} {read? read?' : Address → Option Document}
    (alike : ∀ c id, read? ⟨c, [v], id⟩ = read?' ⟨c, [w], id⟩) :
    s.requests (front ++ [w]) read?' = (s.requests (front ++ [v]) read?).map (Request.under [w]) := by
  cases s with
  | insert s =>
    rw [requests, requests, Insert.draft_last (v := v)]
    cases s.draft (front ++ [v]) <;> rfl
  | delete s =>
    rw [requests, requests, Delete.address_last (v := v)]
    cases s.address (front ++ [v]) <;> rfl
  | update s =>
    rw [requests, requests, Update.bind_last (v := v)]
    cases bound : s.bind (front ++ [v]) with
    | error e => rfl
    | ok b =>
      obtain ⟨id, partition, values, -, hpartition, -, rfl⟩ := Update.bind_eq_ok bound
      cases partitionKey_last.symm.trans hpartition
      simp only [Except.map, Update.Bound.under, Address.under, ← alike]
      cases read? ⟨s.container, [v], id⟩ <;> rfl
  | select q => rfl

theorem partition_of_requests {s : Statement} {read? : Address → Option Document} {request : Request}
    (h : request ∈ s.requests (front ++ [v]) read?) : request.partition? = some [v] := by
  cases s with
  | insert s =>
    obtain ⟨draft, hdraft, rfl⟩ := List.mem_map.mp h
    have drafted := Insert.draft_eq_ok (eq_ok_of_toOption (Option.mem_toList.mp hdraft))
    obtain ⟨entries, partition, -, hpartition, rfl⟩ := drafted
    cases partitionKey_last.symm.trans hpartition
    rfl
  | delete s =>
    obtain ⟨address, haddress, rfl⟩ := List.mem_map.mp h
    have addressed := Delete.address_eq_ok (eq_ok_of_toOption (Option.mem_toList.mp haddress))
    obtain ⟨id, partition, -, hpartition, rfl⟩ := addressed
    cases partitionKey_last.symm.trans hpartition
    rfl
  | update s =>
    rw [requests] at h
    split at h
    · cases h
    next b bound =>
      obtain ⟨id, partition, values, -, hpartition, -, rfl⟩ := Update.bind_eq_ok bound
      cases partitionKey_last.symm.trans hpartition
      rcases List.mem_cons.mp h with rfl | h
      · rfl
      · obtain ⟨current, -, rfl⟩ := List.mem_map.mp h
        rfl
  | select q => cases h

theorem exec_eq_error_iff (s : Statement) (t : Transport σ) (policy : StalePolicy)
    (args : List Value) (state : σ) (writes : ∀ q, s ≠ .select q) {e : Error}
    (misfit : e.isMisfit = true) :
    (s.exec t.transcribed policy args (state, [])).1 = .error e ↔ s.binding args = .error e := by
  cases bound : s.binding args with
  | ok done =>
    obtain ⟨-, answered⟩ := (ran_of_bound bound writes t policy state).answered
    constructor
    · intro failed
      rw [answered e failed] at misfit
      cases misfit
    · intro h
      cases h
  | error other =>
    rw [exec_of_unbound bound writes]
    simp only [Except.error.injEq]

/-- **The partition key is apart.** Take any statement, and two argument lists that differ only in
    the last argument. Run it over any two transports that find the same documents to read:

    * it fails in both runs for the same misfit of its arguments, or in neither for any;
    * the second run makes the requests of the first, each the same but for its partition key: the
      same ids, payloads and tokens in the same order;
    * each request of a run is under the last argument of the run and nothing else. -/
theorem partition_key_apart (s : Statement) (front : List Value) (v w : Value) (t : Transport σ)
    (t' : Transport τ) (policy : StalePolicy) (state : σ) (state' : τ)
    (alike : ∀ c id, (t.get ⟨c, [v], id⟩ state).1.toOption =
      (t'.get ⟨c, [w], id⟩ state').1.toOption) :
    let run := s.exec t.transcribed policy (front ++ [v]) (state, [])
    let run' := s.exec t'.transcribed policy (front ++ [w]) (state', [])
    (∀ e, e.isMisfit = true → (run.1 = .error e ↔ run'.1 = .error e)) ∧
    run'.2.2.map Exchange.request = (run.2.2.map Exchange.request).map (Request.under [w]) ∧
    (∀ x ∈ run.2.2, x.request.partition? = some [v]) ∧
    ∀ x ∈ run'.2.2, x.request.partition? = some [w] := by
  intro run run'
  have asked := exec_requests s t policy (front ++ [v]) state
  have asked' := exec_requests s t' policy (front ++ [w]) state'
  refine ⟨?_, ?_, ?_, ?_⟩
  · intro e misfit
    have writing (writes : ∀ q, s ≠ .select q) : run.1 = .error e ↔ run'.1 = .error e := by
      rw [exec_eq_error_iff s t policy (front ++ [v]) state writes misfit,
        exec_eq_error_iff s t' policy (front ++ [w]) state' writes misfit,
        binding_last (v := v) (w := w) writes]
    cases s with
    | insert | delete | update => exact writing nofun
    | select q => exact Iff.rfl
  · rw [asked', asked]
    exact requests_last alike
  · intro x hx
    exact partition_of_requests (asked ▸ List.mem_map_of_mem hx)
  · intro x hx
    exact partition_of_requests (asked' ▸ List.mem_map_of_mem hx)

/-- An UPDATE of one document under two partition keys: both runs read it and replace it, and what
    they write is the same. -/
theorem partition_key_apart_update :
    let s : Statement := .update ⟨⟨"d", "c"⟩, .placeholder 1, [("x", .placeholder 2)]⟩
    let front : List Value := [.string "o1", .null]
    let found : Script := { gets := [.ok (KeyMap.ofList [("_etag", .string "t"), ("x", .bool true)])] }
    let asked := fun v =>
      (s.exec Script.transport.transcribed .suppress (front ++ [v]) (found, [])).2.2.map
        Exchange.request
    (asked (.string "q")).length = 2 ∧
      asked (.string "q") = (asked (.string "p")).map (Request.under [.string "q"]) := by
  intro s front found asked
  obtain ⟨-, same, -⟩ := partition_key_apart s front (.string "p") (.string "q") Script.transport
    Script.transport .suppress found found fun _ _ => rfl
  exact ⟨rfl, same⟩

end Statement

end DocumentStore
