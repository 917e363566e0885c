import DocumentStore.Proofs.Statement.Exchange
import DocumentStore.Transport.Script

/- What a statement makes of its answers (`no_failure_hidden`). It makes no request twice, it
   succeeds exactly if its write was granted, and of the refusals it passes over those alone that
   say that the document is not there, or has changed where that is not to be a failure. -/
namespace DocumentStore

open Json (Value)

variable {σ : Type} {policy : StalePolicy} {args : List Value}

namespace TransportError

theorem occursIn_iff {part cs : List Char} : occursIn part cs = true ↔ part <:+: cs := by
  induction cs with
  | nil => rw [occursIn, List.isEmpty_iff, List.infix_nil]
  | cons c cs ih =>
    rw [occursIn, Bool.or_eq_true, List.isPrefixOf_iff_prefix, ih, List.infix_cons_iff]

/-- The refusal says that a document is missing, and not its collection or its database. -/
def NamesDocument (e : TransportError) : Prop :=
  e.status = 404 ∧ "ResourceType: Document".toList <:+: e.message.toList

theorem isDocumentMissing_iff {e : TransportError} :
    e.isDocumentMissing = true ↔ e.NamesDocument := by
  rw [isDocumentMissing, Bool.and_eq_true, beq_iff_eq, occursIn_iff]
  rfl

end TransportError

namespace Request

/-- The request creates, removes or overwrites a document. -/
def Writes : Request → Prop
  | .create _ | .delete _ | .replace _ _ => True
  | .get _ | .search _ => False

/-- The refusal of the request is no failure of its statement. -/
def Tolerates (policy : StalePolicy) (e : TransportError) : Request → Prop
  | .create _ | .search _ => False
  | .delete _ | .get _ => e.NamesDocument
  | .replace _ _ => e.NamesDocument ∨ e.status = 412 ∧ policy = .suppress

/-- The failure of a statement whose request was refused. A stale token is a conflict. -/
def failure (e : TransportError) (request : Request) : Error :=
  match e.status, request with
  | 403, _ => .forbidden
  | 404, _ => .notFound
  | 409, _ => .conflict
  | 412, .replace _ _ => .conflict
  | _, _ => .transport e

end Request

/-- What a statement asks under its arguments: one create, one delete, or one get and, if that was
    granted, one replace. -/
def Statement.Asks (args : List Value) (log : List Exchange) : Statement → Prop
  | .insert s => ∃ draft answer, s.draft args = .ok draft ∧ log = [⟨.create draft, answer⟩]
  | .delete s => ∃ address answer, s.address args = .ok address ∧ log = [⟨.delete address, answer⟩]
  | .update s => ∃ bound, s.bind args = .ok bound ∧
    ((∃ e, log = [⟨.get bound.address, .error e⟩]) ∨
      ∃ current answer, log = [⟨.get bound.address, .ok current⟩,
        ⟨.replace (bound.draft current) (current.token?.getD ""), answer⟩])
  | .select _ => False

variable {e : TransportError} {request : Request}

/-- Without a stale token, failures are told by the status alone. -/
theorem failure_eq_toError (h : ∀ draft token, request ≠ .replace draft token ∨ e.status ≠ 412) :
    request.failure e = e.toError := by
  unfold Request.failure TransportError.toError
  split
  next status => simp [status, Status.forbidden]
  next status => simp [status, Status.forbidden, Status.notFound]
  next status => simp [status, Status.forbidden, Status.notFound, Status.conflict]
  next draft token status =>
    rcases h draft token with apart | other
    · exact absurd rfl apart
    · exact absurd status other
  next forbidden notFound conflict _ =>
    exact ((if_neg forbidden).trans ((if_neg notFound).trans (if_neg conflict))).symm

theorem asks_of_ran {s : Statement} {log : List Exchange} {result : Except Error Outcome}
    (ran : s.Ran policy args log result) : s.Asks args log := by
  cases ran with
  | inserted h | notInserted h => exact ⟨_, _, h, rfl⟩
  | deleted h | notDeleted h => exact ⟨_, _, h, rfl⟩
  | notRead h => exact ⟨_, h, .inl ⟨_, rfl⟩⟩
  | replaced h | notReplaced h => exact ⟨_, h, .inr ⟨_, _, rfl⟩⟩

/-- What the last request of a run and its answer come to. -/
def Decides (policy : StalePolicy) (x : Exchange) (result : Except Error Outcome) : Prop :=
  (x.request.Writes ∧ x.refusal? = none ∧ ∃ outcome, result = .ok outcome ∧
    outcome.successful = true) ∨
  ∃ e, x.refusal? = some e ∧
    (x.request.Tolerates policy e ∧ result = .ok .unchanged ∨
      ¬x.request.Tolerates policy e ∧ result = .error (x.request.failure e))

theorem decides_granted {x : Exchange} {outcome : Outcome} (writes : x.request.Writes)
    (granted : x.refusal? = none) (h : outcome.successful = true) :
    Decides policy x (.ok outcome) :=
  .inl ⟨writes, granted, outcome, rfl, h⟩

theorem decides_unlessMissing (tolerates : request.Tolerates policy e ↔ e.NamesDocument)
    (h : ∀ draft token, request ≠ .replace draft token) :
    Decides policy ⟨request, .error e⟩ e.unlessMissing := by
  refine .inr ⟨e, rfl, ?_⟩
  rw [tolerates, ← TransportError.isDocumentMissing_iff, TransportError.unlessMissing]
  split
  next missing => exact .inl ⟨missing, rfl⟩
  next present => exact .inr ⟨present, by rw [failure_eq_toError fun d t => .inl (h d t)]⟩

theorem decides_refused (draft : Draft) (token : String) :
    Decides policy ⟨.replace draft token, .error e⟩ (Update.refused policy e) := by
  refine .inr ⟨e, rfl, ?_⟩
  show (e.NamesDocument ∨ _ ∧ _) ∧ _ ∨ ¬(e.NamesDocument ∨ _ ∧ _) ∧ _
  unfold Update.refused
  split
  next stale =>
    have named : ¬e.NamesDocument := fun h => absurd (stale.symm.trans h.1) (by decide)
    cases policy with
    | suppress => exact .inl ⟨.inr ⟨stale, rfl⟩, rfl⟩
    | surface => exact .inr ⟨by simp [named], by simp [Request.failure, stale, Status.preconditionFailed]⟩
  next fresh =>
    have known : e.status ≠ 412 := fresh
    rw [← TransportError.isDocumentMissing_iff, TransportError.unlessMissing]
    split
    next missing => exact .inl ⟨.inl missing, rfl⟩
    next present =>
      refine .inr ⟨by simp [present, known], ?_⟩
      rw [failure_eq_toError fun _ _ => .inr known]

/-- **The last request** decides. What comes before it has only looked, and was granted. -/
theorem decides_of_ran {s : Statement} {log : List Exchange} {result : Except Error Outcome}
    (ran : s.Ran policy args log result) :
    ∃ before last, log = before ++ [last] ∧ Decides policy last result ∧
      ∀ x ∈ before, ¬x.request.Writes ∧ x.refusal? = none := by
  cases ran with
  | inserted | deleted =>
    exact ⟨[], _, rfl, decides_granted trivial rfl rfl, List.forall_mem_nil _⟩
  | @notInserted s draft e =>
    refine ⟨[], _, rfl, .inr ⟨e, rfl, .inr ⟨id, ?_⟩⟩, List.forall_mem_nil _⟩
    rw [failure_eq_toError fun _ _ => .inl (by simp)]
  | notDeleted | notRead =>
    refine ⟨[], _, rfl, decides_unlessMissing Iff.rfl ?_, List.forall_mem_nil _⟩
    exact nofun
  | replaced =>
    exact ⟨[_], _, rfl, decides_granted trivial rfl rfl, List.forall_mem_singleton.mpr ⟨id, rfl⟩⟩
  | notReplaced =>
    exact ⟨[_], _, rfl, decides_refused _ _, List.forall_mem_singleton.mpr ⟨id, rfl⟩⟩

/-- Success, no change and failure, told by the request that decides. -/
theorem Decides.outcome {x : Exchange} {result : Except Error Outcome}
    (decided : Decides policy x result) :
    ((∃ outcome, result = .ok outcome ∧ outcome.successful = true) ↔
      x.request.Writes ∧ x.refusal? = none) ∧
    ((∃ outcome, result = .ok outcome ∧ outcome.successful = false) ↔
      ∃ e, x.refusal? = some e ∧ x.request.Tolerates policy e) ∧
    ∀ e, x.refusal? = some e → ¬x.request.Tolerates policy e →
      result = .error (x.request.failure e) := by
  rcases decided with ⟨writes, granted, outcome, rfl, done⟩ | ⟨e, refused, ⟨tolerated, rfl⟩ | ⟨held, rfl⟩⟩
  · simp [writes, granted, done]
  · simp [refused, tolerated, Outcome.unchanged]
  · simp [refused, held]

namespace Statement

/-- **No failure is hidden**, and no request is made twice. Take any transport, and a writing
    statement that fits its arguments:

    * it makes one create, one delete, or one get and, exactly if that was granted, one replace;
    * it succeeds exactly if a create, delete or replace was made and granted;
    * it changes nothing without failing exactly if a get, delete or replace was refused because
      the document is missing, or a replace because it has changed and this is suppressed;
    * any other refusal is its failure: forbidden, not found or a conflict by the status, and else
      the refusal itself. -/
theorem no_failure_hidden {s : Statement} (fits : s.binding args = .ok ())
    (writes : ∀ q, s ≠ .select q) (t : Transport σ) (policy : StalePolicy) (state : σ) :
    let run := s.exec t.transcribed policy args (state, [])
    let result := run.1
    let log := run.2.2
    s.Asks args log ∧
    ((∃ outcome, result = .ok outcome ∧ outcome.successful = true) ↔
      ∃ x ∈ log, x.request.Writes ∧ x.refusal? = none) ∧
    ((∃ outcome, result = .ok outcome ∧ outcome.successful = false) ↔
      ∃ x ∈ log, ∃ e, x.refusal? = some e ∧ x.request.Tolerates policy e) ∧
    (∀ x ∈ log, ∀ e, x.refusal? = some e → ¬x.request.Tolerates policy e →
      result = .error (x.request.failure e)) := by
  intro run result log
  have ran : s.Ran policy args log result := ran_of_bound fits writes t policy state
  refine ⟨asks_of_ran ran, ?_⟩
  obtain ⟨before, last, hlog, decided, looked⟩ := decides_of_ran ran
  obtain ⟨success, unchanged, failed⟩ := decided.outcome
  have hlast : last ∈ log := by
    rw [hlog]
    exact List.mem_append_right _ (List.mem_singleton_self last)
  have mem : ∀ x ∈ log, x = last ∨ ¬x.request.Writes ∧ x.refusal? = none := by
    intro x hx
    rw [hlog, List.mem_append, List.mem_singleton] at hx
    exact hx.symm.imp_right (looked x)
  -- Only the last request can have written or have been refused.
  have refused_last : ∀ x ∈ log, ∀ e, x.refusal? = some e → x = last := fun x hx e refused =>
    (mem x hx).resolve_right fun h => nomatch h.2.symm.trans refused
  refine ⟨success.trans ⟨fun h => ⟨last, hlast, h⟩, ?_⟩,
    unchanged.trans ⟨fun h => ⟨last, hlast, h⟩, ?_⟩, ?_⟩
  · rintro ⟨x, hx, written, granted⟩
    obtain rfl := (mem x hx).resolve_right fun h => h.1 written
    exact ⟨written, granted⟩
  · rintro ⟨x, hx, e, refused, tolerated⟩
    obtain rfl := refused_last x hx e refused
    exact ⟨e, refused, tolerated⟩
  · intro x hx e refused held
    obtain rfl := refused_last x hx e refused
    exact failed e refused held

/-- An UPDATE whose document has changed is no failure where that is suppressed. The same status in
    answer to its get is one, whatever the policy. -/
theorem no_failure_hidden_of_stale :
    let s : Statement := .update ⟨⟨"d", "c"⟩, .placeholder 1, [("x", .placeholder 2)]⟩
    let args : List Value := [.string "o1", .null, .string "p"]
    let stale : TransportError := ⟨412, "ResourceType: Document"⟩
    let exec := fun script => (s.exec Script.transport.transcribed .suppress args (script, [])).1
    s.binding args = .ok () ∧
      (∃ outcome, exec { replaces := [.error stale] } = .ok outcome ∧
        outcome.successful = false) ∧
      exec { gets := [.error stale] } = .error (.transport stale) := by
  intro s args stale exec
  have fits : s.binding args = .ok () := rfl
  have writes : ∀ q, s ≠ .select q := nofun
  refine ⟨fits, ?_, ?_⟩
  · obtain ⟨-, -, unchanged, -⟩ := no_failure_hidden fits writes Script.transport .suppress
      { replaces := [.error stale] }
    exact unchanged.mpr
      ⟨_, List.mem_cons_of_mem _ (List.mem_singleton_self _), stale, rfl, .inr ⟨rfl, rfl⟩⟩
  · obtain ⟨-, -, -, failed⟩ := no_failure_hidden fits writes Script.transport .suppress
      { gets := [.error stale] }
    have held : ¬stale.NamesDocument := fun h => absurd h.1 (by decide)
    exact failed _ (List.mem_singleton_self _) stale rfl held

end Statement

end DocumentStore
