import DocumentStore.Proofs.Statement.FailFast
import DocumentStore.Proofs.Statement.SelectText
import Mathlib.Data.List.Nodup

/- What the parameters of a query are bound to. Zero apart, a query can be bound exactly if the
   indices of its placeholders are the numbers from one to that of the arguments
   (`Select.bind_eq_ok_iff`). Then each parameter that was written for one of them is bound to one
   argument and no other parameter is bound (`Select.Binds`), and only such queries are sent
   (`Select.bound_of_parse`). Neither the highest index nor the look-up of the arguments tells that
   a placeholder has the index zero: its parameter is sent unbound. -/
namespace DocumentStore

open Json (Value)
open Text
open QueryText (NoDigitFirst Parametrized Rewrites parameterName)

/-! Parameters in a text. -/

namespace QueryText

variable {cs : List Char} {r : Parametrized} {i j index : Nat}

theorem parameterName_injective (h : parameterName i = parameterName j) : i = j := by
  have written := congrArg String.toList h
  simp only [toList_parameterName, List.cons.injEq, true_and] at written
  have same := congrArg (Nat.ofDigitChars 10 · 0) written
  simpa only [Nat.ofDigitChars_ten_toDigits] using same

/-- The parameter stands in the text, with all the digits that follow. -/
def HasParameter (cs : List Char) (index : Nat) : Prop :=
  ∃ before after, cs = before ++ ((parameterName index).toList ++ after) ∧ NoDigitFirst after

theorem Rewrites.noDigitFirst (h : Rewrites cs r) (first : NoDigitFirst cs) :
    NoDigitFirst r.text := by
  cases h with
  | nil => exact first
  | keep _ _ =>
    intro c hc
    exact first c hc
  | @placeholder _ _ _ index r _ _ _ _ _ =>
    intro c hc
    have sign : ((parameterName index).toList ++ r.text).head? = some '@' := by
      simp [parameterName, String.toList_append]
    rw [sign] at hc
    cases hc
    decide

theorem Rewrites.hasParameter (h : Rewrites cs r) (mem : index ∈ r.indices) :
    HasParameter r.text index := by
  induction h with
  | nil => cases mem
  | @keep c _ _ _ _ ih =>
    obtain ⟨before, after, text, stop⟩ := ih mem
    exact ⟨c :: before, after, by rw [text]; rfl, stop⟩
  | @placeholder _ _ _ own r _ _ stop _ rewritten ih =>
    cases mem with
    | head => exact ⟨[], r.text, rfl, rewritten.noDigitFirst stop⟩
    | tail _ mem =>
      obtain ⟨before, after, text, stop⟩ := ih mem
      exact ⟨(parameterName own).toList ++ before, after, by rw [text, List.append_assoc], stop⟩

end QueryText

namespace Select

variable {σ : Type} {s : Select} {args : List Value} {parameters : List (String × Value)}
  {index : Nat}

/-! Binding. -/

/-- The arguments as parameters, numbered from `index` on. -/
def numbered (index : Nat) (args : List Value) : List (String × Value) :=
  (args.zipIdx index).map fun (v, i) => (parameterName i, v)

theorem parametersFrom_eq_ok_iff : s.parametersFrom index args = .ok parameters ↔
    (∀ i, index ≤ i → i < index + args.length → i ∈ s.indices) ∧
      parameters = numbered index args := by
  induction args generalizing index parameters with
  | nil =>
    constructor
    · intro h
      cases h
      exact ⟨fun i low high => absurd high (Nat.not_lt.mpr low), rfl⟩
    · intro h
      rw [h.2]
      rfl
  | cons v args ih =>
    constructor
    · intro h
      rw [parametersFrom] at h
      split at h
      next mem =>
        obtain ⟨rest, hrest, rfl⟩ := map_eq_ok h
        obtain ⟨all, rfl⟩ := ih.mp hrest
        refine ⟨fun i low high => ?_, rfl⟩
        rcases Nat.eq_or_lt_of_le low with rfl | low
        · exact mem
        · rw [List.length_cons] at high
          exact all i low (by omega)
      next => cases h
    · intro h
      obtain ⟨all, rfl⟩ := h
      rw [List.length_cons] at all
      have rest : s.parametersFrom (index + 1) args = .ok (numbered (index + 1) args) :=
        ih.mpr ⟨fun i low high => all i (by omega) (by omega), rfl⟩
      rw [parametersFrom, if_pos (all index (by omega) (by omega)), rest]
      rfl

theorem bind_eq_ok_of_bounded : s.bind args = .ok parameters ↔
    (∀ i ∈ s.indices, i ≤ args.length) ∧ s.parametersFrom 1 args = .ok parameters := by
  unfold bind
  split
  next none =>
    have none : s.indices = [] := List.max?_eq_none_iff.mp none
    simp [none]
  next highest found =>
    obtain ⟨mem, bound⟩ := List.max?_eq_some_iff.mp found
    split
    next beyond =>
      constructor
      · intro h
        cases h
      · intro h
        exact absurd (h.1 highest mem) (Nat.not_le.mpr beyond)
    next within =>
      have all : ∀ i ∈ s.indices, i ≤ args.length := by
        intro i hi
        have := bound i hi
        omega
      exact (and_iff_right all).symm

/-- **A query is bound** exactly if its placeholders, those of index zero apart, are numbered from
    one to the number of arguments. -/
theorem bind_eq_ok_iff : s.bind args = .ok parameters ↔
    (∀ i, i ≠ 0 → (i ∈ s.indices ↔ i ≤ args.length)) ∧ parameters = numbered 1 args := by
  rw [bind_eq_ok_of_bounded, parametersFrom_eq_ok_iff]
  constructor
  · intro h
    obtain ⟨bound, all, rfl⟩ := h
    exact ⟨fun i nonzero => ⟨bound i, fun high => all i (by omega) (by omega)⟩, rfl⟩
  · intro h
    obtain ⟨exact, rfl⟩ := h
    refine ⟨fun i hi => ?_, fun i low high => (exact i (by omega)).mpr (by omega), rfl⟩
    by_cases zero : i = 0
    · omega
    · exact (exact i zero).mp hi

theorem names_numbered (index : Nat) (args : List Value) :
    (numbered index args).map Prod.fst = (List.range' index args.length).map parameterName := by
  rw [numbered, List.map_map, ← List.zipIdx_map_snd, List.map_map]
  rfl

/-- Every parameter that was written for an index other than zero is bound to one value, and all
    that is bound stands in the text of the query. -/
structure Binds (s : Select) (parameters : List (String × Value)) : Prop where
  bound : ∀ i ∈ s.indices, i ≠ 0 → (parameters.map Prod.fst).count (parameterName i) = 1
  present : ∀ p ∈ parameters, ∃ i ∈ s.indices, p.1 = parameterName i ∧
    QueryText.HasParameter s.text.toList i

theorem binds_of_bind {cs : List Char} (text : Rewrites cs ⟨s.text.toList, s.indices⟩)
    (h : s.bind args = .ok parameters) : s.Binds parameters := by
  obtain ⟨exact, rfl⟩ := bind_eq_ok_iff.mp h
  have names := names_numbered 1 args
  constructor
  · intro i hi nonzero
    have low : i ≤ args.length := (exact i nonzero).mp hi
    have distinct : ((List.range' 1 args.length).map parameterName).Nodup :=
      (List.nodup_range' 1).map fun _ _ => QueryText.parameterName_injective
    rw [names]
    exact List.count_eq_one_of_mem distinct
      (List.mem_map_of_mem (List.mem_range'_1.mpr (by omega)))
  · intro p hp
    have name : p.1 ∈ (List.range' 1 args.length).map parameterName :=
      names ▸ List.mem_map_of_mem hp
    obtain ⟨i, hi, hname⟩ := List.mem_map.mp name
    have range := List.mem_range'_1.mp hi
    have mem : i ∈ s.indices := (exact i (by omega)).mpr (by omega)
    exact ⟨i, mem, hname.symm, text.hasParameter mem⟩

/-! Requests. -/

/-- All pages are asked for with the same query and the same parameters. -/
theorem pages_requests (t : Transport σ) (limit : Nat) (search : Search) (state : σ)
    (log : List Exchange) : ∀ x ∈ (pages t.transcribed limit search (state, log)).2.2,
      x ∈ log ∨ ∃ token, x.request = .search { search with continuation := token } := by
  induction limit generalizing search state log with
  | zero => exact fun x hx => .inl hx
  | succ limit ih =>
    rcases answered : t.respond (.search search) state with ⟨answer, next⟩
    have last : ∀ x ∈ log ++ [⟨.search search, answer⟩],
        x ∈ log ∨ ∃ token, x.request = .search { search with continuation := token } := by
      intro x hx
      rcases List.mem_append.mp hx with hx | hx
      · exact .inl hx
      · rw [List.mem_singleton.mp hx]
        exact .inr ⟨search.continuation, rfl⟩
    have answered := Transport.transcribed_respond answered log
    cases answer with
    | error e =>
      rw [pages_of_refused answered]
      exact last
    | ok page =>
      cases hnext : page.next? with
      | none =>
        rw [pages_of_last answered hnext]
        exact last
      | some token =>
        rw [pages_of_next answered hnext]
        intro x hx
        rcases ih { search with continuation := some token } next _ x hx with hx | hx
        · exact last x hx
        · exact .inr hx

theorem query_requests (s : Select) (t : Transport σ) (limit : Nat) (args : List Value)
    (state : σ) : ∀ x ∈ (s.query t.transcribed limit args (state, [])).2.2, ∃ search,
      x.request = .search search ∧ search.text = s.text ∧ s.bind args = .ok search.parameters := by
  intro x hx
  cases bound : s.bind args with
  | error e =>
    rw [query_of_unbound bound] at hx
    cases hx
  | ok parameters =>
    simp only [query, search, bound, Bind.bind, Except.bind, pure, Except.pure] at hx
    rcases pages_requests t limit _ state [] x hx with hx | ⟨token, request⟩
    · cases hx
    · exact ⟨_, request, rfl, rfl⟩

/-! Queries as they are read. -/

/-- The text of a query is what stands between the keyword and the options, rewritten. -/
theorem rewrites_of_parse {cs : List Char} (parsed : Select.parse cs = .ok s) :
    ∃ marked rest, head? (trim cs) = some (marked, rest) ∧
      Rewrites ("SELECT ".toList ++ (Options.split rest).1) ⟨s.text.toList, s.indices⟩ := by
  obtain ⟨marked, rest, options, hhead, -, made⟩ := parse_eq_ok.mp parsed
  obtain ⟨allowed, r, -, rewritten, -, -, rfl⟩ := ofParts_eq_ok.mp made
  have same : (String.ofList r.text).toList = r.text := String.toList_ofList
  refine ⟨marked, rest, hhead, ?_⟩
  show Rewrites _ ⟨(String.ofList r.text).toList, r.indices⟩
  rwa [same]

/-- **The parameters of a query.** If a query is read, its indices are those of the placeholders in
    its text, each of which has become a parameter. It is bound exactly if they are the numbers from
    one to that of the arguments, zero apart, and then to the arguments in their order, each
    parameter for an index other than zero once and none that is not in the text. And no query is
    sent but with what it is bound to. -/
theorem bound_of_parse {cs : List Char} (parsed : Select.parse cs = .ok s) (args : List Value)
    (t : Transport σ) (limit : Nat) (state : σ) :
    (∃ marked rest, head? (trim cs) = some (marked, rest) ∧
      Rewrites ("SELECT ".toList ++ (Options.split rest).1) ⟨s.text.toList, s.indices⟩) ∧
    ((∃ parameters, s.bind args = .ok parameters) ↔
      ∀ i, i ≠ 0 → (i ∈ s.indices ↔ i ≤ args.length)) ∧
    (∀ parameters, s.bind args = .ok parameters →
      parameters = ((args.zipIdx 1).map fun (v, i) => (parameterName i, v)) ∧
        s.Binds parameters) ∧
    ∀ x ∈ (s.query t.transcribed limit args (state, [])).2.2, ∃ search,
      x.request = .search search ∧ search.text = s.text ∧ s.Binds search.parameters := by
  obtain ⟨marked, rest, hhead, text⟩ := rewrites_of_parse parsed
  refine ⟨⟨marked, rest, hhead, text⟩, ⟨?_, ?_⟩, ?_, ?_⟩
  · intro h
    obtain ⟨parameters, bound⟩ := h
    exact (bind_eq_ok_iff.mp bound).1
  · intro exact
    exact ⟨_, bind_eq_ok_iff.mpr ⟨exact, rfl⟩⟩
  · intro parameters bound
    exact ⟨(bind_eq_ok_iff.mp bound).2, binds_of_bind text bound⟩
  · intro x hx
    obtain ⟨search, request, same, bound⟩ := query_requests s t limit args state x hx
    exact ⟨search, request, same, binds_of_bind text bound⟩

/-- Two placeholders for one argument, one of them with zeros before its index. -/
theorem bound_of_parse_twice :
    let args : List Value := [.string "x", .null]
    ∃ s, Select.parse "SELECT * FROM c WHERE c.a=:02 AND c.b=$1 AND c.d=@2 WITH db=d".toList = .ok s ∧
      s.bind args = .ok [("@_1", .string "x"), ("@_2", .null)] ∧
      s.Binds [("@_1", .string "x"), ("@_2", .null)] := by
  intro args
  let s : Select := ⟨⟨"d", "c"⟩, false, "SELECT * FROM c WHERE c.a=@_2 AND c.b=@_1 AND c.d=@_2",
    [2, 1, 2]⟩
  have parsed : Select.parse
      "SELECT * FROM c WHERE c.a=:02 AND c.b=$1 AND c.d=@2 WITH db=d".toList = .ok s :=
    eq_ok_of_toOption (by decide +kernel)
  obtain ⟨-, bindable, binds, -⟩ := bound_of_parse parsed args Script.transport 0 {}
  have numbers : ∀ i, i ≠ 0 → (i ∈ s.indices ↔ i ≤ args.length) := by
    intro i nonzero
    show i ∈ [2, 1, 2] ↔ i ≤ 2
    simp only [List.mem_cons, List.not_mem_nil, or_false]
    omega
  obtain ⟨parameters, bound⟩ := bindable.mpr numbers
  obtain ⟨rfl, all⟩ := binds parameters bound
  have names : (args.zipIdx 1).map (fun (v, i) => (parameterName i, v)) =
      [("@_1", .string "x"), ("@_2", .null)] := by decide
  exact ⟨s, parsed, names ▸ bound, names ▸ all⟩

/-- A placeholder of index zero has no argument, yet the query is bound, and it is sent with a
    parameter that is bound to nothing. -/
theorem sent_unbound :
    let s : Select := ⟨⟨"d", "c"⟩, false, "SELECT * FROM c WHERE c.a = @_0", [0]⟩
    Select.parse "SELECT * FROM c WHERE c.a = :0 WITH db=d".toList = .ok s ∧ s.bind [] = .ok [] ∧
      ∃ x ∈ (s.query Script.transport.transcribed 1 [] ({}, [])).2.2,
        x.request = .search ⟨⟨"d", "c"⟩, "SELECT * FROM c WHERE c.a = @_0", [], false, none⟩ := by
  intro s
  have parsed : Select.parse "SELECT * FROM c WHERE c.a = :0 WITH db=d".toList = .ok s :=
    eq_ok_of_toOption (by decide +kernel)
  exact ⟨parsed, rfl, _, List.mem_singleton_self _, rfl⟩

end Select

end DocumentStore
