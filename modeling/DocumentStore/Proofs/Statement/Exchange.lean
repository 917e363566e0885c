import DocumentStore.Proofs.Statement.Binding

/- What passes between a statement and its transport. A writing statement that fits its arguments
   has one of seven runs, whatever the transport answers (`ran_of_bound`); one that does not fit
   them makes no request (`exec_of_unbound`). Facts about runs are shown run by run, and facts about
   queries page by page (`pages_of_refused`, `pages_of_last`, `pages_of_next`). -/
namespace DocumentStore

open Json (Value)

variable {σ : Type} {policy : StalePolicy} {args : List Value} {s : Statement} {state : σ}

/-- A request and what it was answered. -/
structure Exchange where
  request : Request
  answer : Except TransportError request.Answer

/-- The refusal, if the request was refused. -/
def Exchange.refusal? (x : Exchange) : Option TransportError :=
  match x.answer with
  | .ok _ => none
  | .error e => some e

/-- The same transport, writing down each request with its answer. -/
def Transport.transcribed (t : Transport σ) : Transport (σ × List Exchange) where
  respond request s :=
    let (answer, state) := t.respond request s.1
    (answer, (state, s.2 ++ [⟨request, answer⟩]))

theorem Transport.transcribed_respond {t : Transport σ} {request : Request} {next : σ}
    {answer : Except TransportError request.Answer} (h : t.respond request state = (answer, next))
    (log : List Exchange) :
    t.transcribed.respond request (state, log) = (answer, (next, log ++ [⟨request, answer⟩])) := by
  simp only [transcribed, h]

namespace Statement

/-- Whether a statement fits its arguments, or the failure if it does not. -/
def binding (args : List Value) : Statement → Except Error Unit
  | .insert s => (s.draft args).map fun _ => ()
  | .delete s => (s.address args).map fun _ => ()
  | .update s => (s.bind args).map fun _ => ()
  | .select s => (s.bind args).map fun _ => ()

/-- The runs of a writing statement: what it asks, what it is answered, and what it makes of the
    answers. -/
inductive Ran (policy : StalePolicy) (args : List Value) :
    Statement → List Exchange → Except Error Outcome → Prop where
  | inserted {s : Insert} {draft : Draft} {doc : Document} : s.draft args = .ok draft →
    Ran policy args (.insert s) [⟨.create draft, .ok doc⟩] (.ok ⟨true, doc.resourceId?⟩)
  | notInserted {s : Insert} {draft : Draft} {e : TransportError} : s.draft args = .ok draft →
    Ran policy args (.insert s) [⟨.create draft, .error e⟩] (.error e.toError)
  | deleted {s : Delete} {address : Address} : s.address args = .ok address →
    Ran policy args (.delete s) [⟨.delete address, .ok ()⟩] (.ok .applied)
  | notDeleted {s : Delete} {address : Address} {e : TransportError} :
    s.address args = .ok address →
    Ran policy args (.delete s) [⟨.delete address, .error e⟩] e.unlessMissing
  | notRead {s : Update} {bound : Update.Bound} {e : TransportError} : s.bind args = .ok bound →
    Ran policy args (.update s) [⟨.get bound.address, .error e⟩] e.unlessMissing
  | replaced {s : Update} {bound : Update.Bound} {current doc : Document} :
    s.bind args = .ok bound →
    Ran policy args (.update s) [⟨.get bound.address, .ok current⟩,
      ⟨.replace (bound.draft current) (current.token?.getD ""), .ok doc⟩] (.ok .applied)
  | notReplaced {s : Update} {bound : Update.Bound} {current : Document} {e : TransportError} :
    s.bind args = .ok bound →
    Ran policy args (.update s) [⟨.get bound.address, .ok current⟩,
      ⟨.replace (bound.draft current) (current.token?.getD ""), .error e⟩]
      (Update.refused policy e)

theorem exec_of_unbound {e : Error} (h : s.binding args = .error e) (writes : ∀ q, s ≠ .select q)
    (t : Transport σ) (policy : StalePolicy) (state : σ) :
    s.exec t policy args state = (.error e, state) := by
  cases s with
  | insert s =>
    have unbound : s.draft args = .error e := map_eq_error h
    rw [exec, Insert.exec, unbound]
  | delete s =>
    have unbound : s.address args = .error e := map_eq_error h
    rw [exec, Delete.exec, unbound]
  | update s =>
    have unbound : s.bind args = .error e := map_eq_error h
    rw [exec, Update.exec, unbound]
  | select q => exact absurd rfl (writes q)

/-- **A statement** that fits its arguments has one of the runs. -/
theorem ran_of_bound (h : s.binding args = .ok ()) (writes : ∀ q, s ≠ .select q)
    (t : Transport σ) (policy : StalePolicy) (state : σ) :
    s.Ran policy args (s.exec t.transcribed policy args (state, [])).2.2
      (s.exec t.transcribed policy args (state, [])).1 := by
  cases s with
  | insert s =>
    obtain ⟨draft, hdraft, -⟩ := map_eq_ok h
    rcases answered : t.respond (.create draft) state with ⟨answer, next⟩
    simp only [exec, Insert.exec, hdraft, Transport.create, Transport.transcribed_respond answered]
    cases answer with
    | ok doc => exact .inserted hdraft
    | error e => exact .notInserted hdraft
  | delete s =>
    obtain ⟨address, haddress, -⟩ := map_eq_ok h
    rcases answered : t.respond (.delete address) state with ⟨answer, next⟩
    simp only [exec, Delete.exec, haddress, Transport.delete,
      Transport.transcribed_respond answered]
    cases answer with
    | ok done => exact .deleted haddress
    | error e => exact .notDeleted haddress
  | update s =>
    obtain ⟨bound, hbind, -⟩ := map_eq_ok h
    rcases read : t.respond (.get bound.address) state with ⟨answer, next⟩
    simp only [exec, Update.exec, hbind, Transport.get, Transport.replace,
      Transport.transcribed_respond read]
    cases answer with
    | error e => exact .notRead hbind
    | ok current =>
      rcases written : t.respond (.replace (bound.draft current) (current.token?.getD "")) next with
        ⟨answer, last⟩
      simp only [Transport.transcribed_respond written]
      cases answer with
      | ok doc => exact .replaced hbind
      | error e => exact .notReplaced hbind
  | select q => exact absurd rfl (writes q)

end Statement

/-! The pages of a query, one at a time. -/

namespace Select

variable {t : Transport σ} {search : Search} {next : σ} {page : Page} {token : String}

theorem pages_of_refused {e : TransportError} (answered : t.search search state = (.error e, next))
    (limit : Nat) : pages t (limit + 1) search state = (some (.error e.toError), next) := by
  rw [pages, answered]

theorem pages_of_last (answered : t.search search state = (.ok page, next))
    (ends : page.next? = none) (limit : Nat) :
    pages t (limit + 1) search state = (some (.ok page.documents), next) := by
  simp only [pages, answered, ends]

theorem pages_of_next (answered : t.search search state = (.ok page, next))
    (goes : page.next? = some token) (limit : Nat) :
    pages t (limit + 1) search state =
      ((pages t limit { search with continuation := some token } next).1.map fun found =>
        found.map (page.documents ++ ·),
        (pages t limit { search with continuation := some token } next).2) := by
  simp only [pages, answered, goes]

end Select

end DocumentStore
