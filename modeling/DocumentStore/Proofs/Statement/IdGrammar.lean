import DocumentStore.Proofs.Statement.Placeholders
import DocumentStore.Proofs.Statement.UpdateText

/- What the text of an id denotes. The grammar has three forms: a placeholder, a text between quotes
   and a bare token (`IdTerm.Denotes`). What is read is what the grammar says, but it is more than
   that: a text of several words is taken for an id as it stands (`IdTerm.IsPhrase`), and exactly
   these texts are read against the grammar (`IdTerm.parse_iff`). An id that is read has no blanks
   around it and refers to no argument zero (`IdTerm.proper_of_parse`). -/
namespace DocumentStore.IdTerm

open Text

variable {c : Char} {cs t : List Char} {term : IdTerm}

/-! The grammar. -/

/-- Neither end of the text is a quote, and no sigil in it stands before a digit. -/
structure IsPlain (cs : List Char) : Prop where
  first : cs.head? ≠ some '"'
  last : cs.getLast? ≠ some '"'
  apart : ∀ before c d after, cs = before ++ c :: d :: after → Placeholder.isSigil c = true →
    isDecimalDigit d = false

/-- The id that a text denotes, without the blanks around the text. -/
inductive Denotes : List Char → IdTerm → Prop where
  /-- A sigil with digits of ASCII behind it, and nothing else. -/
  | placeholder {sigil : Char} {digits : List Char} {n : Nat} :
    Placeholder.isSigil sigil = true → digits ≠ [] → (∀ d ∈ digits, d.isDigit = true) →
      Nat.ofDigitChars 10 digits 0 = n → 1 ≤ n → n < 2 ^ 64 →
        Denotes (sigil :: digits) (.placeholder n)
  /-- What stands between two quotes, whatever it is, without the blanks around it. -/
  | quoted (content : List Char) :
    Denotes ('"' :: (content ++ ['"'])) (.literal (String.ofList (trim content)))
  /-- A text that stands for itself. -/
  | token {cs : List Char} : IsPlain cs → (∀ c ∈ cs, isBlank c = false) →
    Denotes cs (.literal (String.ofList cs))

/-- More than one word, where the grammar has a token. -/
def IsPhrase (cs : List Char) : Prop :=
  IsPlain cs ∧ ∃ c ∈ cs, isBlank c = true

/-- The id that a text is read as: one of the grammar, or a phrase as it stands. -/
def Reads (cs : List Char) (term : IdTerm) : Prop :=
  Denotes cs term ∨ IsPhrase cs ∧ term = .literal (String.ofList cs)

theorem IsPlain.reads (h : IsPlain cs) : Reads cs (.literal (String.ofList cs)) := by
  by_cases words : ∃ c ∈ cs, isBlank c = true
  · exact .inr ⟨⟨h, words⟩, rfl⟩
  · exact .inl (.token h fun c hc => by simpa using fun blank => words ⟨c, hc, blank⟩)

theorem mentionsPlaceholder_eq_false : mentionsPlaceholder cs = false ↔
    ∀ before c d after, cs = before ++ c :: d :: after → Placeholder.isSigil c = true →
      isDecimalDigit d = false := by
  refine ⟨fun plain before c d after => QueryText.not_digit_of_plain plain before, fun apart => ?_⟩
  induction cs with
  | nil => rfl
  | cons c cs ih =>
    apply QueryText.mentionsPlaceholder_cons.mpr
    refine ⟨fun sigil d hd => ?_, ih fun before b d after h => apart (c :: before) b d after (h ▸ rfl)⟩
    obtain ⟨after, rfl⟩ := List.head?_eq_some_iff.mp hd
    exact apart [] c d after rfl sigil

theorem Denotes.not_phrase (h : Denotes cs term) : ¬IsPhrase cs := by
  rintro ⟨plain, c, hc, blank⟩
  cases h with
  | @placeholder sigil digits _ hsigil nonempty hdigits _ _ _ =>
    obtain ⟨d, digits, rfl⟩ := List.exists_cons_of_ne_nil nonempty
    have digit : isDecimalDigit d = true := class_of_isDigit (by decide) (hdigits d List.mem_cons_self)
    rw [plain.apart [] sigil d digits rfl hsigil] at digit
    cases digit
  | quoted content => exact plain.first rfl
  | token _ word =>
    rw [word c hc] at blank
    cases blank

/-- The quotes of a text: it stands between two, it has none at its ends, or one that is not
    matched. -/
theorem quotes_cases (cs : List Char) :
    (∃ content, cs = '"' :: (content ++ ['"'])) ∨
    (cs.head? ≠ some '"' ∧ cs.getLast? ≠ some '"') ∨
    ((cs.head? == some '"') != (decide (1 < cs.length) && cs.getLast? == some '"')) = true := by
  obtain rfl | ⟨inner, last, rfl⟩ := List.eq_nil_or_concat' cs
  · exact .inr (.inl ⟨nofun, nofun⟩)
  · cases inner with
    | nil => by_cases quote : last = '"' <;> simp [quote]
    | cons first content =>
      have hlast : (first :: content ++ [last]).getLast? = some last := List.getLast?_concat
      rw [hlast]
      by_cases opened : first = '"' <;> by_cases closed : last = '"' <;> simp [opened, closed]

/-! Reading. -/

theorem ofTrimmed_unquoted (first : cs.head? ≠ some '"') (last : cs.getLast? ≠ some '"') :
    ofTrimmed cs =
      if mentionsPlaceholder cs then
        match Placeholder.ofText? cs with
        | some (index + 1) => .ok (.placeholder (index + 1))
        | _ => .error (.parse (.id (String.ofList cs)))
      else .ok (.literal (String.ofList cs)) := by
  have opened : (cs.head? == some '"') = false := by simpa using first
  have closed : (cs.getLast? == some '"') = false := by simpa using last
  rw [ofTrimmed, opened, closed, Bool.and_false]
  rfl

theorem ofTrimmed_plain (h : IsPlain cs) : ofTrimmed cs = .ok (.literal (String.ofList cs)) := by
  rw [ofTrimmed_unquoted h.first h.last, mentionsPlaceholder_eq_false.mpr h.apart]
  rfl

/-- The forms of a text that is read. Any other text is refused as it stands. -/
theorem ofTrimmed_cases (cs : List Char) :
    (∃ content, cs = '"' :: (content ++ ['"'])) ∨ IsPlain cs ∨
    (∃ sigil digits index, cs = sigil :: digits ∧ Placeholder.isSigil sigil = true ∧
      index? digits = some index ∧ index ≠ 0) ∨
    ofTrimmed cs = .error (.parse (.id (String.ofList cs))) := by
  rcases quotes_cases cs with quoted | ⟨first, last⟩ | unmatched
  · exact .inl quoted
  · cases mentions : mentionsPlaceholder cs with
    | false => exact .inr (.inl ⟨first, last, mentionsPlaceholder_eq_false.mp mentions⟩)
    | true =>
      have reads := ofTrimmed_unquoted first last
      rw [mentions, if_pos rfl] at reads
      split at reads
      next index found =>
        cases cs with
        | nil => cases found
        | cons sigil digits =>
          rw [Placeholder.ofText?, Option.ite_none_right_eq_some] at found
          exact .inr (.inr (.inl ⟨sigil, digits, _, rfl, found.1, found.2, Nat.succ_ne_zero index⟩))
      next => exact .inr (.inr (.inr reads))
  · exact .inr (.inr (.inr (if_pos unmatched)))

/-- **Reading** finds the ids of the grammar and the phrases, and no others. -/
theorem ofTrimmed_eq_ok : ofTrimmed cs = .ok term ↔ Reads cs term := by
  constructor
  · intro h
    rcases ofTrimmed_cases cs with ⟨content, rfl⟩ | plain | ⟨sigil, digits, n, rfl, hsigil, index, positive⟩ |
      refused
    · cases (ofTrimmed_quoted content).symm.trans h
      exact .inl (.quoted content)
    · cases (ofTrimmed_plain plain).symm.trans h
      exact plain.reads
    · cases (ofTrimmed_placeholder hsigil index positive).symm.trans h
      obtain ⟨nonempty, plain, number, fits⟩ := index?_eq_some.mp index
      exact .inl (.placeholder hsigil nonempty plain number (Nat.one_le_iff_ne_zero.mpr positive) fits)
    · cases refused.symm.trans h
  · rintro (denoted | ⟨⟨plain, -⟩, rfl⟩)
    · cases denoted with
      | placeholder sigil nonempty digits number positive fits =>
        have index := index?_eq_some.mpr ⟨nonempty, digits, number, fits⟩
        exact ofTrimmed_placeholder sigil index (by omega)
      | quoted content => exact ofTrimmed_quoted content
      | token plain _ => exact ofTrimmed_plain plain
    · exact ofTrimmed_plain plain

theorem eq_of_ofTrimmed_eq_error {e : Error} (h : ofTrimmed cs = .error e) :
    e = .parse (.id (String.ofList cs)) := by
  rcases ofTrimmed_cases cs with ⟨content, rfl⟩ | plain | ⟨sigil, digits, n, rfl, hsigil, index, positive⟩ |
    refused
  · cases (ofTrimmed_quoted content).symm.trans h
  · cases (ofTrimmed_plain plain).symm.trans h
  · cases (ofTrimmed_placeholder hsigil index positive).symm.trans h
  · cases refused.symm.trans h
    rfl

theorem ne_of_isEmpty (h : term.isEmpty = false) : term ≠ .literal "" := by
  rintro rfl
  cases h

/-- No blanks stand around the id, and it refers to no argument zero. -/
def Proper : IdTerm → Prop
  | .literal id => NoBlankFirst id.toList ∧ NoBlankLast id.toList
  | .placeholder index => 1 ≤ index

theorem proper_of_parse (h : parse t = .ok term) : term.Proper := by
  have trimmed (cs : List Char) : Proper (.literal (String.ofList (trim cs))) := by
    rw [Proper, String.toList_ofList]
    exact noBlank_trim cs
  rcases ofTrimmed_eq_ok.mp h with denoted | ⟨-, rfl⟩
  · generalize hcs : trim t = cs at denoted
    cases denoted with
    | placeholder _ _ _ _ positive _ => exact positive
    | quoted content => exact trimmed content
    | token _ _ =>
      rw [← hcs]
      exact trimmed t
  · exact trimmed t

/-- **The text of an id.** Take any text, without the blanks around it:

    * it is read as a placeholder exactly if it denotes the placeholder;
    * it is read as a literal exactly if it denotes the literal, or is more than one word and the
      literal is the text as it stands;
    * any other text is refused, and is itself the fault that is reported;
    * a text of more than one word denotes nothing. -/
theorem parse_iff (t : List Char) :
    (∀ n, parse t = .ok (.placeholder n) ↔ Denotes (trim t) (.placeholder n)) ∧
    (∀ id, parse t = .ok (.literal id) ↔ Denotes (trim t) (.literal id) ∨
      IsPhrase (trim t) ∧ id = String.ofList (trim t)) ∧
    ((∃ e, parse t = .error e) ↔ (∀ term, ¬Denotes (trim t) term) ∧ ¬IsPhrase (trim t)) ∧
    (∀ e, parse t = .error e → e = .parse (.id (String.ofList (trim t)))) ∧
    (IsPhrase (trim t) → ∀ term, ¬Denotes (trim t) term) := by
  refine ⟨fun n => ?_, fun id => ?_, ?_, fun e => eq_of_ofTrimmed_eq_error,
    fun phrase term denoted => denoted.not_phrase phrase⟩
  · rw [parse, ofTrimmed_eq_ok, Reads]
    simp
  · rw [parse, ofTrimmed_eq_ok, Reads, literal.injEq]
  · constructor
    · rintro ⟨e, refused⟩
      refine ⟨fun term denoted => ?_, fun phrase => ?_⟩
      · cases (ofTrimmed_eq_ok.mpr (.inl denoted)).symm.trans refused
      · cases (ofTrimmed_eq_ok.mpr (.inr ⟨phrase, rfl⟩)).symm.trans refused
    · rintro ⟨none, words⟩
      cases read : parse t with
      | error e => exact ⟨e, rfl⟩
      | ok term =>
        rcases ofTrimmed_eq_ok.mp read with denoted | ⟨phrase, -⟩
        · exact absurd denoted (none term)
        · exact absurd phrase words

/-- **A second condition** behind an id is taken for a part of it, though no id of the grammar is
    written so. -/
theorem phrase_parsed :
    let t := "abc AND pk=1".toList
    (∀ term, ¬Denotes (trim t) term) ∧ parse t = .ok (.literal "abc AND pk=1") ∧
      Statement.parse "DELETE FROM d.c WHERE id=abc AND pk=1" =
        .ok (.delete ⟨⟨"d", "c"⟩, .literal "abc AND pk=1"⟩) := by
  intro t
  have plain : IsPlain (trim t) :=
    { first := by decide +kernel
      last := by decide +kernel
      apart := mentionsPlaceholder_eq_false.mp (by decide +kernel) }
  have phrase : IsPhrase (trim t) := ⟨plain, ' ', by decide +kernel, by decide⟩
  exact ⟨fun term denoted => denoted.not_phrase phrase, by decide +kernel, by decide +kernel⟩

end DocumentStore.IdTerm
