import DocumentStore.Proofs.Statement.Exchange
import DocumentStore.Proofs.Store.Identifiers
import DocumentStore.Proofs.Store.LostUpdate
import DocumentStore.Session

/- What statements ask of a store. A writing statement makes one request that may change the store,
   the last one it makes, and it succeeds exactly if that request does (`exec_of_request`); a query
   only looks (`query_store`). So a statement keeps what its request keeps: what holds of all values
   in the store goes on to hold if it holds of the statement's own (`holds_exec`). -/
namespace DocumentStore

open Json (Value Whole)

/-! Statements by their texts. The definitions are unfolded as they stand: their equations would be
    checked by parsing `text`. -/

namespace Session

variable {σ : Type} {session : Session σ} {text : String} {args : List Value} {state : σ}

theorem exec_of_parsed {statement : Statement} (h : Statement.parse text = .ok statement) :
    session.exec text args state =
      statement.exec session.transport session.settings.policy args state := by
  delta exec
  rw [h]

theorem exec_of_fault {e : Error} (h : Statement.parse text = .error e) :
    session.exec text args state = (.error e, state) := by
  delta exec
  rw [h]

theorem query_of_parsed {statement : Statement} (h : Statement.parse text = .ok statement) :
    session.query text args state =
      statement.query session.transport (session.pageLimit state) args state := by
  delta query
  rw [h]

theorem query_of_fault {e : Error} (h : Statement.parse text = .error e) :
    session.query text args state = (some (.error e), state) := by
  delta query
  rw [h]

end Session

/-- The request of a writing statement that may change the store. An UPDATE makes it only after it
    has read the document. -/
def Statement.request? (args : List Value) (s : Store) : Statement → Option Request
  | .insert statement => (statement.draft args).toOption.map .create
  | .delete statement => (statement.address args).toOption.map .delete
  | .update statement =>
    (statement.bind args).toOption.bind fun bound =>
      (s.get bound.address).toOption.map fun current =>
        .replace (bound.draft current) (current.token?.getD "")
  | .select _ => none

/-- Whether the request is granted. -/
def Call.granted (made : Call) (s : Store) : Bool :=
  (made.answer s).toOption.isSome

namespace Store

variable {s : Store} {made : Call}

theorem next_of_refused (h : made.granted s = false) : made.next s = s := by
  have effect := effect_call made s
  have none : made.change? s = none := by
    obtain ⟨pageSize, time, request⟩ := made
    simp only [Call.granted, Call.change?] at h ⊢
    cases answered : Call.answer ⟨pageSize, time, request⟩ s with
    | ok answer =>
      rw [answered] at h
      cases h
    | error e => cases request <;> rfl
  rw [none] at effect
  generalize made.next s = next at effect
  cases effect
  rfl

end Store

namespace Statement

variable {statement : Statement} {pageSize : Nat} {time : Whole} {policy : StalePolicy}
  {args : List Value} {s : Store} {request : Request}

/-- **A statement is its request**: the store is left as the request leaves it, and the statement
    succeeds if it is granted. -/
theorem exec_of_request (pageSize : Nat) (time : Whole) (policy : StalePolicy)
    (h : statement.request? args s = some request) :
    (statement.exec (Store.transport pageSize time) policy args s).2 =
        (Call.mk pageSize time request).next s ∧
      succeeded (statement.exec (Store.transport pageSize time) policy args s).1 =
        (Call.mk pageSize time request).granted s := by
  cases statement with
  | insert statement =>
    cases hdraft : statement.draft args with
    | error e => simp [request?, hdraft, Except.toOption] at h
    | ok draft =>
      simp only [request?, hdraft, Except.toOption, Option.map_some, Option.some.injEq] at h
      subst h
      simp only [exec, Insert.exec, hdraft, Transport.create, Call.next, Call.granted, Call.answer,
        Store.transport]
      obtain ⟨answer, next⟩ := s.create time draft
      cases answer <;> exact ⟨rfl, rfl⟩
  | delete statement =>
    cases haddress : statement.address args with
    | error e => simp [request?, haddress, Except.toOption] at h
    | ok a =>
      simp only [request?, haddress, Except.toOption, Option.map_some, Option.some.injEq] at h
      subst h
      simp only [exec, Delete.exec, haddress, Transport.delete, Call.next, Call.granted,
        Call.answer, Store.transport]
      obtain ⟨answer, next⟩ := s.delete a
      cases answer with
      | ok done => exact ⟨rfl, rfl⟩
      | error e => exact ⟨rfl, Update.not_succeeded_unlessMissing e⟩
  | update statement =>
    cases hbind : statement.bind args with
    | error e => simp [request?, hbind, Except.toOption] at h
    | ok bound =>
      cases hget : s.get bound.address with
      | error e => simp [request?, hbind, hget, Except.toOption] at h
      | ok current =>
        simp only [request?, hbind, hget, Except.toOption, Option.map_some, Option.bind_some,
          Option.some.injEq] at h
        subst h
        rw [exec, Update.exec_eq hbind, hget]
        simp only [Call.next, Call.granted, Call.answer, Store.transport]
        obtain ⟨answer, next⟩ := s.replace time (bound.draft current) (current.token?.getD "")
        cases answer with
        | ok done => exact ⟨rfl, rfl⟩
        | error e => exact ⟨rfl, Update.not_succeeded_refused e⟩
  | select statement => cases h

theorem exec_of_no_request (h : statement.request? args s = none) :
    (statement.exec (Store.transport pageSize time) policy args s).2 = s ∧
      succeeded (statement.exec (Store.transport pageSize time) policy args s).1 = false := by
  cases statement with
  | insert statement =>
    cases hdraft : statement.draft args with
    | error e => simp only [exec, Insert.exec, hdraft, succeeded, and_self]
    | ok draft => simp [request?, hdraft, Except.toOption] at h
  | delete statement =>
    cases haddress : statement.address args with
    | error e => simp only [exec, Delete.exec, haddress, succeeded, and_self]
    | ok a => simp [request?, haddress, Except.toOption] at h
  | update statement =>
    cases hbind : statement.bind args with
    | error e => simp only [exec, Update.exec, hbind, succeeded, and_self]
    | ok bound =>
      cases hget : s.get bound.address with
      | error e =>
        rw [exec, Update.exec_eq hbind, hget]
        exact ⟨rfl, Update.not_succeeded_unlessMissing e⟩
      | ok current => simp [request?, hbind, hget, Except.toOption] at h
  | select statement => exact ⟨rfl, rfl⟩

theorem store_of_not_succeeded
    (h : succeeded (statement.exec (Store.transport pageSize time) policy args s).1 = false) :
    (statement.exec (Store.transport pageSize time) policy args s).2 = s := by
  cases asked : statement.request? args s with
  | none => exact (exec_of_no_request asked).1
  | some request =>
    obtain ⟨left, granted⟩ := exec_of_request pageSize time policy asked
    rw [left, Store.next_of_refused (granted.symm.trans h)]

/-- A statement leaves the store of a run as the store of another. -/
theorem exists_run (history : List Operation) (statement : Statement) (pageSize : Nat)
    (time : Whole) (policy : StalePolicy) (args : List Value) :
    ∃ history', (statement.exec (Store.transport pageSize time) policy args
      (Store.run history Store.empty)).2 = Store.run history' Store.empty := by
  cases asked : statement.request? args (Store.run history Store.empty) with
  | none => exact ⟨history, (exec_of_no_request asked).1⟩
  | some request =>
    refine ⟨history ++ [.call ⟨pageSize, time, request⟩], ?_⟩
    rw [(exec_of_request pageSize time policy asked).1, Store.run_append]
    rfl

theorem sequence_le_exec :
    s.sequence ≤ (statement.exec (Store.transport pageSize time) policy args s).2.sequence := by
  cases asked : statement.request? args s with
  | none => exact Nat.le_of_eq (congrArg Store.sequence (exec_of_no_request asked).1.symm)
  | some request =>
    rw [(exec_of_request pageSize time policy asked).1,
      Store.sequence_of_effect (Store.effect_call _ s)]
    exact Nat.le_add_right _ _

theorem query_store (limit : Nat) :
    (statement.query (Store.transport pageSize time) limit args s).2 = s := by
  have pages : ∀ limit search,
      (Select.pages (Store.transport pageSize time) limit search s).2 = s := by
    intro limit
    induction limit with
    | zero => exact fun _ => rfl
    | succ limit ih =>
      intro search
      have answered : (Store.transport pageSize time).search search s =
          (s.search pageSize search, s) := rfl
      cases found : s.search pageSize search with
      | error e =>
        rw [found] at answered
        rw [Select.pages_of_refused answered]
      | ok page =>
        rw [found] at answered
        cases hnext : page.next? with
        | none => rw [Select.pages_of_last answered hnext]
        | some token =>
          rw [Select.pages_of_next answered hnext]
          exact ih _
  cases statement with
  | select statement =>
    rw [query, Select.query]
    cases statement.search args with
    | error e => rfl
    | ok search => exact pages limit search
  | insert statement => rfl
  | delete statement => rfl
  | update statement => rfl

end Statement

/-! What holds of all values. -/

/-- The property holds of texts and times, which are the values of the store's attributes. -/
structure OfAttributes (p : Value → Prop) : Prop where
  text : ∀ text, p (.string text)
  time : ∀ time, p (.number (.whole time))

namespace Store

variable {p : Value → Prop} {s : Store} {payload : Document}

theorem holds_stamp (attributes : OfAttributes p) (holds : ∀ e ∈ payload.entries, p e.2)
    (time : Whole) (n : Nat) (c : Container) (resourceId : String) :
    ∀ e ∈ (stamp time n c resourceId payload).entries, p e.2 := by
  intro e he
  rcases KeyMap.mem_insertAll he with he | he
  · exact holds e he
  · simp only [List.mem_cons, List.not_mem_nil, or_false] at he
    rcases he with rfl | rfl | rfl | rfl | rfl
    · exact attributes.text _
    · exact attributes.text _
    · exact attributes.text _
    · exact attributes.time _
    · exact attributes.text _

theorem holds_next (attributes : OfAttributes p) (h : s.Holds p) (made : Call)
    (written : ∀ a payload, made.request.writing? = some (a, payload) →
      (∀ v ∈ a.partition, p v) ∧ ∀ e ∈ payload.entries, p e.2) :
    (made.next s).Holds p := by
  apply each_stored_of_effect h (effect_call made s)
  · intro payload doc a carried stamped named
    obtain ⟨hpartition, hpayload⟩ := written a payload carried
    rw [stamped]
    exact ⟨hpartition, holds_stamp attributes hpayload _ _ _ _⟩
  · intro payload doc a old carried stamped named hold
    rw [stamped]
    exact ⟨hold.1, holds_stamp attributes (written a payload carried).2 _ _ _ _⟩

theorem holds_writing {draft : Draft} (h : draft.Holds p) {a : Address}
    (carried : draft.address?.map (fun a => (a, draft.payload)) = some (a, payload)) :
    (∀ v ∈ a.partition, p v) ∧ ∀ e ∈ payload.entries, p e.2 := by
  obtain ⟨b, hb, hab⟩ := Option.map_eq_some_iff.mp carried
  obtain ⟨id, -, rfl⟩ := Option.map_eq_some_iff.mp hb
  cases hab
  exact ⟨h.partition, h.payload⟩

theorem holds_get (h : s.Holds p) {a : Address} {doc : Document} (found : s.get a = .ok doc) :
    ∀ e ∈ doc.entries, p e.2 := by
  obtain ⟨documents, x, hs, hx, rfl⟩ := get_eq_ok.mp found
  exact (h _ _ hs x (List.mem_of_find?_eq_some hx)).2

/-- **A statement keeps** what holds of all values in the store, of its literals and of its
    arguments. -/
theorem holds_exec (attributes : OfAttributes p) (h : s.Holds p) {statement : Statement}
    {args : List Value} (hargs : ∀ v ∈ args, p v) (literals : statement.Holds p) (pageSize : Nat)
    (time : Whole) (policy : StalePolicy) :
    (statement.exec (transport pageSize time) policy args s).2.Holds p := by
  cases asked : statement.request? args s with
  | none =>
    rw [(Statement.exec_of_no_request asked).1]
    exact h
  | some request =>
    rw [(Statement.exec_of_request pageSize time policy asked).1]
    apply holds_next attributes h
    intro a payload carried
    cases statement with
    | insert statement =>
      obtain ⟨draft, hdraft, rfl⟩ := Option.map_eq_some_iff.mp asked
      exact holds_writing (statement.holds_draft hargs literals (eq_ok_of_toOption hdraft)) carried
    | delete statement =>
      obtain ⟨a, -, rfl⟩ := Option.map_eq_some_iff.mp asked
      cases carried
    | update statement =>
      -- What the assignments leave of the document was in the store.
      obtain ⟨bound, hbind, read⟩ := Option.bind_eq_some_iff.mp asked
      obtain ⟨current, hget, rfl⟩ := Option.map_eq_some_iff.mp read
      exact holds_writing (statement.holds_draft hargs literals (eq_ok_of_toOption hbind)
        (holds_get h (eq_ok_of_toOption hget))) carried
    | select statement => cases asked

end Store

/-! Texts run over a store. -/

namespace Session

variable {pageSize : Nat} {time : Whole} {settings : Settings} {text : String} {args : List Value}
  {s : Store} {p : Value → Prop}

theorem store_of_not_succeeded
    (h : succeeded ((ofStore pageSize time settings).exec text args s).1 = false) :
    ((ofStore pageSize time settings).exec text args s).2 = s := by
  cases hparse : Statement.parse text with
  | error e => rw [exec_of_fault hparse]
  | ok statement =>
    rw [exec_of_parsed hparse] at h ⊢
    exact Statement.store_of_not_succeeded h

theorem sequence_le_exec :
    s.sequence ≤ ((ofStore pageSize time settings).exec text args s).2.sequence := by
  cases hparse : Statement.parse text with
  | error e =>
    have left : ((ofStore pageSize time settings).exec text args s).2 = s := by
      rw [exec_of_fault hparse]
    exact Nat.le_of_eq (congrArg Store.sequence left.symm)
  | ok statement =>
    rw [exec_of_parsed hparse]
    exact Statement.sequence_le_exec

theorem holds_exec (attributes : OfAttributes p) (h : s.Holds p) (hargs : ∀ v ∈ args, p v)
    (literals : ∀ statement, Statement.parse text = .ok statement → statement.Holds p) :
    ((ofStore pageSize time settings).exec text args s).2.Holds p := by
  cases hparse : Statement.parse text with
  | error e =>
    rw [exec_of_fault hparse]
    exact h
  | ok statement =>
    rw [exec_of_parsed hparse]
    exact Store.holds_exec attributes h hargs (literals statement hparse) _ _ _

theorem query_store : ((ofStore pageSize time settings).query text args s).2 = s := by
  cases hparse : Statement.parse text with
  | error e => rw [query_of_fault hparse]
  | ok statement =>
    rw [query_of_parsed hparse]
    exact Statement.query_store _

end Session

end DocumentStore
