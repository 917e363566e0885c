import DocumentStore.Proofs.Statement.Options
import DocumentStore.Proofs.Statement.QueryText
import DocumentStore.Proofs.Statement.Reading
import DocumentStore.Proofs.Store.Content
import Mathlib.Data.List.Forall2

/- What becomes of the string literals of a query. Nothing sets them apart: a text is rewritten in
   pieces that end where quotes stand, because no placeholder reaches over a quote, and a literal is
   rewritten as any other piece (`rewrites_quotations`). The options at the end name the container,
   whatever stands in the query (`Select.literals_of_parse`). -/
namespace DocumentStore

open Text
open QueryText (Parametrized Rewrites NoDigitFirst)

/-- A literal between two quotes, and what stands after it. -/
structure Quotation where
  quote : Char
  content : List Char
  after : List Char

namespace Quotation

def chars (x : Quotation) : List Char :=
  x.quote :: (x.content ++ x.quote :: x.after)

/-- The literal and what stands after it are rewritten apart, and the literal stays as it is if it
    mentions no placeholder. -/
structure Becomes (x : Quotation) (r : Parametrized × Parametrized) : Prop where
  content : Rewrites x.content r.1
  after : Rewrites x.after r.2
  same : IdTerm.mentionsPlaceholder x.content = false → r.1 = ⟨x.content, []⟩

/-- The literal and what stands after it, rewritten. -/
def rewritten (x : Quotation) (r : Parametrized × Parametrized) : List Char :=
  x.quote :: (r.1.text ++ x.quote :: r.2.text)

end Quotation

/-- The indices of all the parameters in rewritten literals and after them. -/
def Quotation.indices (results : List (Parametrized × Parametrized)) : List Nat :=
  results.flatMap fun r => r.1.indices ++ r.2.indices

/-- **Literals are rewritten apart** from what stands around them, and as any other text. -/
theorem rewrites_quotations {start : List Char} {quotations : List Quotation} {r : Parametrized}
    (hquotes : ∀ x ∈ quotations, Options.isQuote x.quote = true)
    (h : Rewrites (start ++ quotations.flatMap Quotation.chars) r) :
    ∃ before results, Rewrites start before ∧
      List.Forall₂ Quotation.Becomes quotations results ∧
        r = ⟨before.text ++ (quotations.zipWith Quotation.rewritten results).flatten,
          before.indices ++ Quotation.indices results⟩ := by
  induction quotations generalizing start r with
  | nil =>
    rw [List.flatMap_nil, List.append_nil] at h
    exact ⟨r, [], h, .nil, by simp [Quotation.indices]⟩
  | cons x quotations ih =>
    obtain ⟨quote, others⟩ := List.forall_mem_cons.mp hquotes
    have plain : Placeholder.isSigil x.quote = false ∧ isDecimalDigit x.quote = false := by
      rw [Options.isQuote, Bool.or_eq_true, beq_iff_eq, beq_iff_eq] at quote
      obtain hx | hx := quote <;> rw [hx] <;> decide
    have cut (cs : List Char) : NoDigitFirst (x.quote :: cs) := by
      intro c hc
      cases hc
      exact plain.2
    rw [List.flatMap_cons, Quotation.chars, List.cons_append, List.append_assoc,
      List.cons_append] at h
    -- Each cut is before a quote.
    obtain ⟨before, r, hbefore, opened, rfl⟩ := h.append_inv (cut _)
    obtain ⟨r, inside, rfl⟩ := opened.cons_inv plain.1
    obtain ⟨content, r, hcontent, closed, rfl⟩ := inside.append_inv (cut _)
    obtain ⟨r, behind, rfl⟩ := closed.cons_inv plain.1
    obtain ⟨after, results, hafter, hresults, rfl⟩ := ih others behind
    refine ⟨before, (content, after) :: results, hbefore,
      .cons ⟨hcontent, hafter, hcontent.eq_self⟩ hresults, ?_⟩
    simp [Quotation.rewritten, Quotation.indices]

namespace Select

/-- How the parts of a statement are written: blanks, the query with its literals, blanks again,
    and the names of its container. -/
structure Spelling where
  lead : List Char
  start : List Char
  quotations : List Quotation
  trail : List Char
  database : List Char
  collection : List Char

namespace Spelling

variable {w : Spelling}

/-- The query without the keyword and the options. -/
def body (w : Spelling) : List Char :=
  w.start ++ w.quotations.flatMap Quotation.chars

/-- The options. -/
def tail (w : Spelling) : List Char :=
  Options.naming w.trail w.database w.collection

/-- The statement in this spelling. -/
def text (w : Spelling) : List Char :=
  ['S', 'E', 'L', 'E', 'C', 'T'] ++ (w.lead ++ (w.body ++ w.tail))

/-- The parts are told apart: the query neither starts nor ends with a blank, and the marker for
    all partitions does not stand before it. -/
structure Valid (w : Spelling) : Prop where
  lead : w.lead ≠ [] ∧ ∀ c ∈ w.lead, isBlank c = true
  nonempty : w.body ≠ []
  first : NoBlankFirst w.body
  last : NoBlankLast w.body
  quotes : ∀ x ∈ w.quotations, Options.isQuote x.quote = true
  unmarked : keywords? "CROSS" "PARTITION" (w.body ++ w.tail) = none
  trail : w.trail ≠ [] ∧ ∀ c ∈ w.trail, isBlank c = true
  database : Options.IsPlain w.database
  collection : Options.IsPlain w.collection

theorem Valid.getLast?_text (h : w.Valid) :
    ∃ last, w.text.getLast? = some last ∧ isBlank last = false ∧ last ≠ ';' := by
  obtain ⟨nonempty, plain⟩ := h.collection
  cases hlast : w.collection.getLast? with
  | none => exact absurd (List.getLast?_eq_none_iff.mp hlast) nonempty
  | some last =>
    obtain ⟨value, -, semicolon⟩ := plain last (List.mem_of_getLast? hlast)
    refine ⟨last, ?_, Options.isBlank_of_isValue value, semicolon⟩
    simp only [text, tail, Options.naming, Options.clauseText, List.getLast?_append,
      List.getLast?_cons, hlast, Option.some_or, Option.getD_some]

theorem noBlankFirst_text (w : Spelling) : NoBlankFirst w.text :=
  noBlankFirst_cons (by decide)

theorem Valid.parse_text (h : w.Valid) :
    Statement.parse (String.ofList w.text) = (Select.parse w.text).map .select := by
  obtain ⟨last, hlast, blank, semicolon⟩ := h.getLast?_text
  have insert : Insert.parse? w.text = none :=
    Insert.parse?_eq_none (after?_eq_none (by decide) _ _) (after?_eq_none (by decide) _ _)
  have delete : Delete.parse? w.text = none :=
    Delete.parse?_eq_none (after?_eq_none (by decide) _ _)
  have update : Update.parse? w.text = none :=
    Update.parse?_eq_none (after?_eq_none (by decide) _ _)
  have select : Statement.isSelect w.text = true := rfl
  rw [Statement.parse, String.toList_ofList,
    Statement.normalize_eq (noBlankFirst_text w) hlast blank semicolon, Statement.ofNormalized,
    insert, delete, update]
  exact if_pos select

theorem Valid.head?_text (h : w.Valid) : Select.head? (trim w.text) = some (false, w.body ++ w.tail) := by
  obtain ⟨last, hlast, blank, -⟩ := h.getLast?_text
  have trimmed : trim w.text = w.text := trim_eq (noBlankFirst_text w) fun c hc => by
    rw [hlast] at hc
    cases hc
    exact blank
  have start : NoBlankFirst (w.body ++ w.tail) := by
    obtain ⟨c, cs, hbody⟩ := List.exists_cons_of_ne_nil h.nonempty
    have first := h.first
    rw [hbody] at first ⊢
    exact noBlankFirst_cons (first c rfl)
  rw [trimmed, Select.head?, text, keyword?_append (by decide), Option.bind_some,
    blanks?_blanks h.lead.1 h.lead.2 start, Option.map_some, h.unmarked]

end Spelling

/-! What is read. -/

theorem parse_eq_ok {cs : List Char} {s : Select} : Select.parse cs = .ok s ↔
    ∃ marked rest options, head? (trim cs) = some (marked, rest) ∧
      Options.parse (Options.split rest).2 = .ok options ∧
        ofParts marked (Options.split rest).1 options = .ok s := by
  constructor
  · intro h
    unfold Select.parse at h
    split at h
    next => cases h
    next marked rest hhead =>
      dsimp only at h
      split at h
      next => cases h
      next options hoptions => exact ⟨marked, rest, options, hhead, hoptions, h⟩
  · intro h
    obtain ⟨marked, rest, options, hhead, hoptions, made⟩ := h
    simp only [Select.parse, hhead, hoptions, made]

theorem ofParts_eq_ok {marked : Bool} {body : List Char} {options : Options} {s : Select} :
    ofParts marked body options = .ok s ↔
    ∃ allowed r, crossPartition? marked options = .ok allowed ∧
      Rewrites ("SELECT ".toList ++ body) r ∧ (containerOf options body).database ≠ "" ∧
      (containerOf options body).collection ≠ "" ∧
      ⟨containerOf options body, allowed, String.ofList r.text, r.indices⟩ = s := by
  rw [ofParts]
  simp only [QueryText.rewrites_iff]
  cases crossPartition? marked options with
  | error e => simp
  | ok allowed =>
    cases QueryText.parametrize ("SELECT ".toList ++ body) with
    | error e => simp
    | ok r =>
      by_cases database : (containerOf options body).database = "" <;>
        by_cases collection : (containerOf options body).collection = "" <;>
          simp [database, collection]

/-- **The literals of a query.** If a query is read, the options name its container, and what
    stands before the clauses at its end is rewritten. Where no clauses are at its end already, it
    is rewritten piece by piece: its literals change only where they have a placeholder in them,
    and the placeholders in all pieces are counted. -/
theorem literals_of_parse {w : Spelling} (h : w.Valid) {s : Statement}
    (parsed : Statement.parse (String.ofList w.text) = .ok s) :
    ∃ query : Select, s = .select query ∧
      query.container = ⟨String.ofList w.database, String.ofList w.collection⟩ ∧
        ∃ r, Rewrites (Options.split w.body).1 r ∧
          query.text = String.ofList ("SELECT ".toList ++ r.text) ∧
          query.numInput = r.indices.length ∧
          (Options.split w.body = (w.body, []) →
            ∃ before results, Rewrites w.start before ∧
              List.Forall₂ Quotation.Becomes w.quotations results ∧
                r = ⟨before.text ++ (w.quotations.zipWith Quotation.rewritten results).flatten,
                  before.indices ++ Quotation.indices results⟩) := by
  rw [h.parse_text] at parsed
  obtain ⟨query, hquery, rfl⟩ := map_eq_ok parsed
  obtain ⟨more, opens⟩ := Options.opens_naming h.trail.1 h.trail.2
  obtain ⟨others, tail⟩ :=
    Options.clauses_naming h.trail.1 h.trail.2 h.database h.collection
  obtain ⟨hsplit, clauses, reads⟩ := Options.split_append opens others tail h.last
  rw [parse, h.head?_text] at hquery
  simp only [Spelling.tail, hsplit] at hquery
  split at hquery
  next => cases hquery
  next options hoptions =>
    obtain ⟨allowed, r, -, hr, -, -, rfl⟩ := ofParts_eq_ok.mp hquery
    obtain ⟨database, collection⟩ :=
      Options.firstOf?_naming h.database h.collection reads hoptions
    obtain ⟨r, hbody, rfl⟩ := hr.plain_inv (by decide)
    refine ⟨_, rfl, ?_, r, hbody, rfl, rfl, fun whole => ?_⟩
    · simp only [containerOf, database, collection]
      rfl
    · rw [whole] at hbody
      exact rewrites_quotations h.quotes hbody

/-- The literal has a placeholder and a clause in it, and the query goes on after it. -/
theorem literals_of_parse_times :
    let w : Spelling := ⟨[' '], "* FROM c WHERE c.t = ".toList,
      [⟨'\x27', "10:30 WITH k=v".toList, " AND c.n = :2".toList⟩], [' '], "d".toList,
      "c".toList⟩
    ∃ query : Select, Statement.parse (String.ofList w.text) = .ok (.select query) ∧
      query.container = ⟨"d", "c"⟩ ∧
        ∃ before results, Rewrites w.start before ∧
          List.Forall₂ Quotation.Becomes w.quotations results ∧
            query.text = String.ofList ("SELECT ".toList ++
              (before.text ++ (w.quotations.zipWith Quotation.rewritten results).flatten)) := by
  intro w
  have h : w.Valid :=
    { lead := by decide
      nonempty := by decide
      first := by decide
      last := by decide
      quotes := by decide
      unmarked := by decide
      trail := by decide
      database := by decide
      collection := by decide }
  have parsed : Statement.parse (String.ofList w.text) = .ok (.select ⟨⟨"d", "c"⟩, false,
      "SELECT * FROM c WHERE c.t = \x2710@_30 WITH k=v\x27 AND c.n = @_2", [30, 2]⟩) :=
    eq_ok_of_toOption (by decide +kernel)
  obtain ⟨query, hquery, container, r, -, text, -, pieces⟩ := literals_of_parse h parsed
  obtain ⟨before, results, hbefore, hresults, rfl⟩ := pieces (by decide +kernel)
  exact ⟨query, hquery ▸ parsed, container, before, results, hbefore, hresults, text⟩

/-- A placeholder in a literal is rewritten and counted, and a literal at the end is cut where
    clauses stand in it. -/
theorem literals_not_opaque :
    (∃ query : Select, Statement.parse
        "SELECT * FROM c WHERE c.t = \x2710:30\x27 WITH database=d WITH collection=c" =
          .ok (.select query) ∧
      query.text ≠ "SELECT * FROM c WHERE c.t = \x2710:30\x27" ∧ query.numInput ≠ 0) ∧
    ∃ query : Select, Statement.parse
        "SELECT * FROM c WHERE c.t = \x27x WITH k=v\x27 WITH database=d WITH collection=c" =
          .ok (.select query) ∧
      query.text ≠ "SELECT * FROM c WHERE c.t = \x27x WITH k=v\x27" := by
  refine ⟨⟨⟨⟨"d", "c"⟩, false, "SELECT * FROM c WHERE c.t = \x2710@_30\x27", [30]⟩, ?_, by decide,
    by decide⟩, ⟨⟨"d", "c"⟩, false, "SELECT * FROM c WHERE c.t = \x27x", []⟩, ?_, by decide⟩
  · exact eq_ok_of_toOption (by decide +kernel)
  · exact eq_ok_of_toOption (by decide +kernel)

end Select

end DocumentStore
