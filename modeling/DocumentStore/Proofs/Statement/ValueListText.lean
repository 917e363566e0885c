import DocumentStore.Proofs.Statement.OperandText
import DocumentStore.Proofs.Statement.Progress
import Mathlib.Data.List.Forall2

/- Lists as they are written: the texts of the items, and after each a gap of blanks with at most one
   comma among them (`Listed`). An operand ends where its gap starts, so a list of operands is read
   back whatever its gaps are (`ValueList.operands_of_listed`). -/
namespace DocumentStore

open Json (Layout Number Value Whole)
open Text

variable {α : Type} {item : α → List Char → Prop} {cs gap lead rest : List Char}

/-! Gaps. -/

/-- What may stand after an item of a list. -/
inductive Gap : List Char → Prop where
  | blank {cs : List Char} : (∀ c ∈ cs, isBlank c = true) → Gap cs
  | comma {before after : List Char} : (∀ c ∈ before, isBlank c = true) →
    (∀ c ∈ after, isBlank c = true) → Gap (before ++ ',' :: after)

theorem gap_nil : Gap [] :=
  .blank (List.forall_mem_nil _)

/-- No gap reaches into the text. -/
def NoGapFirst (cs : List Char) : Prop :=
  ∀ c, cs.head? = some c → isBlank c = false ∧ c ≠ ','

theorem noGapFirst_cons {c : Char} (blank : isBlank c = false) (comma : c ≠ ',') :
    NoGapFirst (c :: cs) := by
  intro d hd
  cases hd
  exact ⟨blank, comma⟩

theorem NoGapFirst.noBlankFirst (h : NoGapFirst cs) : NoBlankFirst cs :=
  fun c hc => (h c hc).1

theorem Gap.separatorFirst (h : Gap gap) (nonempty : gap ≠ []) (rest : List Char) :
    ValueList.SeparatorFirst (gap ++ rest) := by
  intro c hc
  cases h with
  | blank all =>
    obtain ⟨b, blanks, rfl⟩ := List.exists_cons_of_ne_nil nonempty
    cases hc
    exact .inl (all c List.mem_cons_self)
  | @comma before after hbefore hafter =>
    cases before with
    | nil =>
      cases hc
      exact .inr rfl
    | cons b before =>
      cases hc
      exact .inl (hbefore c List.mem_cons_self)

theorem Gap.append_blanks (h : Gap gap) {blanks : List Char} (hblanks : ∀ c ∈ blanks, isBlank c = true) :
    Gap (gap ++ blanks) := by
  cases h with
  | blank all => exact .blank (List.forall_mem_append.mpr ⟨all, hblanks⟩)
  | comma hbefore hafter =>
    rw [List.append_assoc, List.cons_append]
    exact .comma hbefore (List.forall_mem_append.mpr ⟨hafter, hblanks⟩)

theorem Gap.skipSeparator (h : Gap gap) (stop : NoGapFirst rest) :
    skipSeparator (gap ++ rest) = rest := by
  cases h with
  | blank all =>
    rw [Text.skipSeparator, skipBlanks_blanks all stop.noBlankFirst]
    split
    next => exact absurd rfl (stop ',' rfl).2
    next => rfl
  | comma hbefore hafter =>
    rw [List.append_assoc, List.cons_append, Text.skipSeparator,
      skipBlanks_blanks hbefore (noBlankFirst_cons (by decide))]
    exact skipBlanks_blanks hafter stop.noBlankFirst

/-! Lists. -/

/-- The text of a list whose items are written as `item` says. Only the last gap may be empty. -/
inductive Listed (item : α → List Char → Prop) : List α → List Char → Prop where
  | nil : Listed item [] []
  | cons {a : α} {others : List α} {text gap rest : List Char} : item a text → Gap gap →
    (others ≠ [] → gap ≠ []) → Listed item others rest →
    Listed item (a :: others) (text ++ (gap ++ rest))

theorem listed_intercalate {found : List α} {texts : List (List Char)}
    (h : List.Forall₂ item found texts) (hgap : Gap gap) (nonempty : gap ≠ []) :
    Listed item found (List.intercalate gap texts) := by
  induction h with
  | nil => exact .nil
  | @cons a text others texts hitem hothers ih =>
    cases hothers with
    | nil =>
      rw [List.intercalate_singleton]
      have last := Listed.cons hitem gap_nil (fun h => absurd rfl h) .nil
      rwa [List.append_nil, List.append_nil] at last
    | cons _ _ =>
      rw [List.intercalate_cons_cons, List.append_assoc]
      exact .cons hitem hgap (fun _ => nonempty) ih

theorem Listed.noGapFirst_append {found : List α} (h : Listed item found cs) (some : found ≠ [])
    (first : ∀ a text, item a text → ∃ c cs, text = c :: cs ∧ isBlank c = false ∧ c ≠ ',')
    (rest : List Char) : NoGapFirst (cs ++ rest) := by
  cases h with
  | nil => exact absurd rfl some
  | cons hitem _ _ _ =>
    obtain ⟨c, cs, rfl, blank, comma⟩ := first _ _ hitem
    exact noGapFirst_cons blank comma

/-- A loop that reads an item and the gap behind it in each round reads a list, and goes on with
    what follows. Blanks in between belong to the last gap. -/
theorem Listed.loops {round : List Char → ValueList.Step (Option α)} {found others : List α}
    {ending : Option Error} {blanks : List Char} (h : Listed item found cs)
    (reads : ∀ {a text gap rest}, item a text → Gap gap → (gap = [] → rest = []) →
      NoGapFirst rest → round (text ++ (gap ++ rest)) = (.ok (some a), rest))
    (first : ∀ a text, item a text → ∃ c cs, text = c :: cs ∧ isBlank c = false ∧ c ≠ ',')
    (hblanks : ∀ c ∈ blanks, isBlank c = true) (none : found = [] → blanks = [])
    (last : blanks = [] → rest = []) (stop : NoGapFirst rest)
    (behind : ValueList.Loops round rest others ending) :
    ValueList.Loops round (cs ++ (blanks ++ rest)) (found ++ others) ending := by
  induction h with
  | nil => rwa [none rfl]
  | @cons a later text gap more hitem hgap between hlater ih =>
    rw [List.append_assoc, List.append_assoc]
    cases later with
    | nil =>
      cases hlater
      have ends : gap ++ blanks = [] → rest = [] := fun h => last (List.append_eq_nil_iff.mp h).2
      have step := reads hitem (hgap.append_blanks hblanks) ends stop
      rw [List.append_assoc] at step
      exact .more step behind
    | cons _ later =>
      have next : NoGapFirst (more ++ (blanks ++ rest)) :=
        hlater.noGapFirst_append (List.cons_ne_nil _ _) first _
      have nonempty : gap ≠ [] := between (List.cons_ne_nil _ _)
      exact .more (reads hitem hgap (fun h => absurd h nonempty) next) (ih nofun)

/-! Operands. -/

namespace ValueList

theorem skipBlanks_lead (h : ∀ c ∈ lead, isBlank c = true) (cs : List Char) :
    skipBlanks (lead ++ cs) = skipBlanks cs :=
  List.dropWhile_append_of_pos h

theorem next_blanks (h : ∀ c ∈ lead, isBlank c = true) (cs : List Char) :
    next (lead ++ cs) = next cs := by
  rw [next, skipBlanks_lead h, ← next]

/-- The next operand is the one that is spelled, and the gap after it is skipped. -/
theorem next_spelled {text : List Char} {found : Operand} (h : found.Spelled text) (hgap : Gap gap)
    (last : gap = [] → rest = []) (stop : NoGapFirst rest) :
    next (text ++ (gap ++ rest)) = (.ok (some found), rest) := by
  have ends : SeparatorFirst (gap ++ rest) := by
    by_cases nonempty : gap = []
    · rw [nonempty, last nonempty]
      nofun
    · exact hgap.separatorFirst nonempty rest
  have read := operand_spelled h ends
  obtain ⟨c, cs, rfl, first, -⟩ := exists_cons_of_spelled h
  rw [List.cons_append] at read ⊢
  rw [next, skipBlanks_cons first]
  simp only [read, hgap.skipSeparator stop]

theorem loops_listed {found : List Operand} (h : Listed Operand.Spelled found cs) :
    Loops next cs found none := by
  have nothing : ∀ c ∈ ([] : List Char), isBlank c = true := List.forall_mem_nil _
  have loops := h.loops next_spelled (fun _ _ => exists_cons_of_spelled) nothing (fun _ => rfl)
    (fun _ => rfl) nofun (.done (show next [] = (.ok none, []) from rfl))
  rwa [List.append_nil, List.append_nil, List.append_nil] at loops

theorem operands_written {found : List Operand} {texts : List (List Char)}
    (h : List.Forall₂ Operand.Written found texts) :
    operands (List.intercalate [','] texts) = .ok found :=
  operands_eq_ok.mpr (loops_listed (listed_intercalate (h.imp fun _ _ => Operand.Written.spelled)
    (.comma (List.forall_mem_nil _) (List.forall_mem_nil _)) (List.cons_ne_nil _ _)))

/-- **A list of operands** is read back, however each operand is spelled and whatever gaps are
    between them. -/
theorem operands_of_listed {found : List Operand} (blank : ∀ c ∈ lead, isBlank c = true)
    (h : Listed Operand.Spelled found cs) : operands (lead ++ cs) = .ok found :=
  operands_eq_ok.mpr ((loops_listed h).congr (next_blanks blank cs))

/-- Every kind of operand, one of them a literal with line breaks in its text. -/
theorem operands_of_listed_mixed :
    let v : Value := .array [.string "a,\"b", .number (.whole ⟨-1, by decide⟩)]
    operands (" \t@0012,nULL , FALSE\n-42 " ++
        "\"[\\n  \\\"a,\\\\\\\"b\\\",\\n  -1\\n]\", ").toList =
      .ok [.placeholder 12, .literal .null, .literal (.bool false),
        .literal (.number (.whole ⟨-42, by decide⟩)), .literal v] := by
  intro v
  have placeholder : Operand.Spelled (.placeholder 12) ['@', '0', '0', '1', '2'] :=
    Operand.spelled_zeros rfl (by decide) 2
  have null : Operand.Spelled (.literal .null) "nULL".toList := .null (by decide)
  have no : Operand.Spelled (.literal (.bool false)) "FALSE".toList := .bool false (by decide)
  have literal : Operand.Spelled (.literal v)
      (Value.string (v.toTree.write .pretty)).compact.toList :=
    Operand.spelled_write (v := v) ⟨trivial, trivial, trivial⟩ ⟨trivial, trivial, trivial⟩
      (by decide) Layout.blank_pretty
  have comma : Gap [','] := .comma (List.forall_mem_nil _) (List.forall_mem_nil _)
  have spaced : Gap [' ', ',', ' '] :=
    .comma (show ∀ c ∈ [' '], isBlank c = true by decide)
      (show ∀ c ∈ [' '], isBlank c = true by decide)
  have last : Gap [',', ' '] :=
    .comma (List.forall_mem_nil _) (show ∀ c ∈ [' '], isBlank c = true by decide)
  have h := Listed.cons placeholder comma nofun (.cons null spaced nofun
    (.cons no (.blank (show ∀ c ∈ ['\n'], isBlank c = true by decide)) nofun
      (.cons (.whole ⟨-42, by decide⟩) (.blank (show ∀ c ∈ [' '], isBlank c = true by decide)) nofun
        (.cons literal last nofun .nil))))
  have found := operands_of_listed (show ∀ c ∈ [' ', '\t'], isBlank c = true by decide) h
  exact Eq.trans (congrArg operands (by decide +kernel)) found

end ValueList

end DocumentStore
