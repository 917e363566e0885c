import DocumentStore.Proofs.Statement.Verdict
import DocumentStore.Proofs.Store.Content

/- How a query follows its continuation tokens, whatever the transport makes of them. It asks for the
   first page without a token and for each other page with the token of the page before, until a page
   has none or a request is refused, and nothing else about a request changes
   (`Select.query_of_answers`). The pages are those that the transport gives, empty ones among them. -/
namespace DocumentStore

open Json (Value)

variable {σ : Type} {t : Transport σ} {state next final : σ}

/-- Asked these requests one after another, the transport gives these answers. -/
inductive Transport.Answers (t : Transport σ) : σ → List Exchange → σ → Prop where
  | nil {state : σ} : Answers t state [] state
  | cons {state next final : σ} {x : Exchange} {log : List Exchange} :
    t.respond x.request state = (x.answer, next) → Answers t next log final →
      Answers t state (x :: log) final

/-! The token of a page. -/

namespace Page

variable {page : Page} {token : String}

theorem next?_eq_some : page.next? = some token ↔ page.continuation = some token ∧ token ≠ "" := by
  rw [next?, Option.filter_eq_some_iff, decide_eq_true_eq]

theorem next?_eq_none :
    page.next? = none ↔ page.continuation = none ∨ page.continuation = some "" := by
  rw [next?, Option.filter_eq_none_iff]
  cases page.continuation <;> simp

end Page

namespace Select

variable {first search : Search} {token : Option String} {more : String} {before : List Page}
  {page : Page} {last : Except TransportError Page} {limit : Nat}

/-- What is found on all pages, unless the last request is refused. -/
def found (before : List Page) (last : Except TransportError Page) :
    Except Error (List Document) :=
  match last with
  | .ok page => .ok (before.flatMap (·.documents) ++ page.documents)
  | .error e => .error e.toError

theorem found_cons (page : Page) (before : List Page) (last : Except TransportError Page) :
    found (page :: before) last = (found before last).map (page.documents ++ ·) := by
  cases last with
  | ok page => simp [found, Except.map]
  | error e => rfl

theorem pages_of_end (answered : t.search search state = (last, next))
    (ends : ∀ page, last = .ok page → page.next? = none) (limit : Nat) :
    pages t (limit + 1) search state = (some (found [] last), next) := by
  cases last with
  | error e => exact pages_of_refused answered limit
  | ok page => exact pages_of_last answered (ends page rfl) limit

/-- A page is asked for, with a token or without one. -/
def fetch (first : Search) (token : Option String) (answer : Except TransportError Page) :
    Exchange :=
  ⟨.search { first with continuation := token }, answer⟩

/-- The pages up to the last answer, each asked for with the token of the page before. -/
def fetched (first : Search) (token : Option String) (before : List Page)
    (last : Except TransportError Page) : List Exchange :=
  List.zipWith (fetch first) (token :: before.map (·.continuation)) (before.map .ok ++ [last])

theorem fetched_cons (first : Search) (token : Option String) (page : Page) (before : List Page)
    (last : Except TransportError Page) :
    fetched first token (page :: before) last =
      fetch first token (.ok page) :: fetched first page.continuation before last := rfl

theorem map_request_fetched (first : Search) (token : Option String) (before : List Page)
    (last : Except TransportError Page) :
    (fetched first token before last).map Exchange.request =
      (token :: before.map (·.continuation)).map fun token =>
        .search { first with continuation := token } := by
  induction before generalizing token with
  | nil => rfl
  | cons page before ih => rw [fetched_cons, List.map_cons, ih, List.map_cons, List.map_cons]; rfl

/-- From each token on, the query makes these requests and finds the documents of their pages. -/
theorem pages_of_answers (goes : ∀ page ∈ before, ∃ more, page.next? = some more)
    (ends : ∀ page, last = .ok page → page.next? = none)
    (answers : t.Answers state (fetched first token before last) final)
    (enough : before.length < limit) (log : List Exchange) :
    pages t.transcribed limit { first with continuation := token } (state, log) =
      (some (found before last), (final, log ++ fetched first token before last)) := by
  obtain ⟨limit, rfl⟩ := Nat.exists_eq_succ_of_ne_zero (Nat.ne_zero_of_lt enough)
  induction before generalizing token state limit log with
  | nil =>
    cases answers with
    | cons answered rest =>
      cases rest
      exact pages_of_end (Transport.transcribed_respond answered log) ends limit
  | cons page before ih =>
    obtain ⟨⟨more, hnext⟩, goes⟩ := List.forall_mem_cons.mp goes
    have fewer : before.length < limit := Nat.lt_of_succ_lt_succ enough
    obtain ⟨limit, rfl⟩ := Nat.exists_eq_succ_of_ne_zero (Nat.ne_zero_of_lt fewer)
    have continues : page.continuation = some more := (Page.next?_eq_some.mp hnext).1
    rw [fetched_cons, continues] at answers ⊢
    cases answers with
    | cons answered rest =>
      rw [pages_of_next (Transport.transcribed_respond answered log) hnext,
        ih goes rest _ limit fewer, found_cons, List.append_assoc]
      rfl

theorem answers_of_script {script : Script} {others : List (Except TransportError Page)}
    (prepared : script.searches = before.map .ok ++ last :: others) :
    Script.transport.Answers script (fetched first token before last)
      { script with searches := others } := by
  induction before generalizing script token with
  | nil =>
    refine .cons ?_ .nil
    simp only [Script.transport, fetch, prepared]
    rfl
  | cons page before ih =>
    rw [fetched_cons]
    have later : Script.transport.Answers
        { script with searches := before.map .ok ++ last :: others }
        (fetched first page.continuation before last) { script with searches := others } := ih rfl
    refine .cons ?_ later
    simp only [Script.transport, fetch, prepared]
    rfl

/-- **The pages of a query.** Take a query that is bound to its arguments, and a transport that
    answers with some pages, all of which have a token, and then with a page that has none, or an
    empty one, or with a refusal:

    * it is asked once for each answer, the first time without a token and then with the token of
      the page before, and with the same container, text and parameters each time;
    * if the last answer is a page, the rows are before the first of the documents of all pages, in
      their order;
    * if it is a refusal, this is the failure of the query, by its status. -/
theorem query_of_answers {s : Select} {args : List Value} {parameters : List (String × Value)}
    (bound : s.bind args = .ok parameters)
    (goes : ∀ page ∈ before, ∃ more, page.continuation = some more ∧ more ≠ "")
    (ends : ∀ page, last = .ok page → page.continuation = none ∨ page.continuation = some "")
    (answers : t.Answers state (fetched
      ⟨s.container, s.text, parameters, s.crossPartition, none⟩ none before last) final)
    (enough : before.length < limit) :
    let first : Search := ⟨s.container, s.text, parameters, s.crossPartition, none⟩
    let run := s.query t.transcribed limit args (state, [])
    run.2 = (final, fetched first none before last) ∧
    run.2.2.map Exchange.request = (none :: before.map (·.continuation)).map
      (fun token => .search { first with continuation := token }) ∧
    (∀ page, last = .ok page → run.1 = some (.ok {
      documents := before.flatMap (·.documents) ++ page.documents
      position := 0 })) ∧
    ∀ e, last = .error e → run.1 = some (.error (Request.failure e (.search first))) := by
  intro first run
  have ran : run = (some ((found before last).map Rows.ofDocuments),
      (final, fetched first none before last)) := by
    have pages := pages_of_answers
      (fun page hpage => (goes page hpage).imp fun _ => Page.next?_eq_some.mpr)
      (fun page hpage => Page.next?_eq_none.mpr (ends page hpage)) answers enough []
    simp only [run, query, search, bound, Bind.bind, Except.bind, pure, Except.pure]
    rw [pages]
    rfl
  refine ⟨congrArg Prod.snd ran, ?_, fun page hpage => ?_, fun e refused => ?_⟩
  · rw [ran, map_request_fetched]
  · rw [ran, hpage]
    rfl
  · rw [ran, refused, failure_eq_toError fun _ _ => .inl (by simp)]
    rfl

/-- A page without documents is no end, an empty token is one, and what is behind the end is not
    asked for. Of the documents before a refusal nothing remains. -/
theorem query_of_answers_given :
    let s : Select := ⟨⟨"d", "c"⟩, false, "SELECT * FROM c WHERE c.x=@_1", [1]⟩
    let first : Search := ⟨s.container, s.text, [("@_1", .null)], false, none⟩
    let a : Document := KeyMap.ofList [("id", .string "a")]
    let b : Document := KeyMap.ofList [("id", .string "b")]
    let full : Script := ⟨[], [], [], [],
      [.ok ⟨[a], some "t"⟩, .ok ⟨[], some "u"⟩, .ok ⟨[b], some ""⟩, .ok ⟨[a], none⟩]⟩
    let cut : Script := ⟨[], [], [], [], [.ok ⟨[a], some "t"⟩, .error ⟨404, "gone"⟩]⟩
    let query := fun script => s.query Script.transport.transcribed 3 [.null] (script, [])
    Select.parse "SELECT * FROM c WHERE c.x=:1 WITH db=d".toList = .ok s ∧
      s.bind [.null] = .ok first.parameters ∧
      (query full).2.2.map Exchange.request = [.search first,
        .search { first with continuation := some "t" },
        .search { first with continuation := some "u" }] ∧
      (query full).1 = some (.ok { documents := [a, b], position := 0 }) ∧
      (query cut).1 = some (.error .notFound) := by
  intro s first a b full cut query
  have parsed : Select.parse "SELECT * FROM c WHERE c.x=:1 WITH db=d".toList = .ok s :=
    eq_ok_of_toOption (by decide +kernel)
  have bound : s.bind [.null] = .ok first.parameters := rfl
  have enough : 2 < 3 := by decide
  have given : Script.transport.Answers full
      (fetched first none [⟨[a], some "t"⟩, ⟨[], some "u"⟩] (.ok ⟨[b], some ""⟩))
      { full with searches := [.ok ⟨[a], none⟩] } := answers_of_script rfl
  have refused : Script.transport.Answers cut
      (fetched first none [⟨[a], some "t"⟩] (.error ⟨404, "gone"⟩))
      { cut with searches := [] } := answers_of_script rfl
  obtain ⟨-, requests, rows, -⟩ := query_of_answers bound (by simp)
    (by rintro page ⟨⟩; exact .inr rfl) given enough
  obtain ⟨-, -, -, failed⟩ := query_of_answers bound (by simp) (by rintro page ⟨⟩) refused
    (Nat.lt_of_succ_lt enough)
  exact ⟨parsed, bound, requests, rows _ rfl, failed _ rfl⟩

end Select

end DocumentStore
