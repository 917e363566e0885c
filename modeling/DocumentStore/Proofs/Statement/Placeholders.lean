import DocumentStore.Proofs.Statement.QueryText
import DocumentStore.Proofs.Text.Words
import Mathlib.Data.Finmap

/- The placeholders of a text, apart from the order in which it is scanned. A text is divided in
   exactly one way into its placeholders and what stands between them (`exists_division`,
   `Division.unique`): a sigil stands before a digit only where one of them starts, and behind the
   last digit of each stands none. The text is rewritten if each has an index, and then each is
   replaced by its parameter and all else is kept (`Division.parametrize`). A parameter makes no
   placeholder with what stands around it, so that a rewritten text has none and stays as it is
   (`placeholders_rewritten`). -/
namespace DocumentStore.QueryText

open Text

/-- A placeholder with what stands behind it, up to the next one. -/
structure Occurrence where
  sigil : Char
  digits : List Char
  after : List Char

namespace Occurrence

def chars (x : Occurrence) : List Char :=
  x.sigil :: (x.digits ++ x.after)

def parts (x : Occurrence) : List Part :=
  .placeholder x.sigil x.digits :: x.after.map .char

/-- The number that the digits denote, if they are digits of ASCII. -/
def number (x : Occurrence) : Nat :=
  Nat.ofDigitChars 10 x.digits 0

/-- The digits are those of ASCII, and their number is small enough for an index. -/
def HasIndex (x : Occurrence) : Prop :=
  (∀ d ∈ x.digits, d.isDigit = true) ∧ x.number < indexLimit

instance (x : Occurrence) : Decidable x.HasIndex :=
  inferInstanceAs (Decidable (_ ∧ _))

/-- The parameter in place of the placeholder, and what stands behind it. -/
def rewritten (x : Occurrence) : List Char :=
  '@' :: '_' :: (Nat.toDigits 10 x.number ++ x.after)

/-- The placeholder has a digit and takes all that follow its sigil, and no other stands behind
    it. -/
structure Valid (x : Occurrence) : Prop where
  sigil : Placeholder.isSigil x.sigil = true
  nonempty : x.digits ≠ []
  digits : ∀ d ∈ x.digits, isDecimalDigit d = true
  stop : NoDigitFirst x.after
  plain : IdTerm.mentionsPlaceholder x.after = false

end Occurrence

/-- The text divided into its placeholders, with what stands before the first. -/
structure Division (cs start : List Char) (xs : List Occurrence) : Prop where
  text : cs = start ++ xs.flatMap Occurrence.chars
  start : IdTerm.mentionsPlaceholder start = false
  occurrences : ∀ x ∈ xs, x.Valid

variable {c : Char} {cs start rest : List Char} {xs : List Occurrence} {x : Occurrence}

/-! Sigils before digits. -/

theorem noDigitFirst_nil : NoDigitFirst [] := nofun

theorem noDigitFirst_cons (h : isDecimalDigit c = false) : NoDigitFirst (c :: cs) :=
  stop_cons h cs

theorem not_digit_of_isSigil (h : Placeholder.isSigil c = true) : isDecimalDigit c = false := by
  apply Bool.eq_false_iff.mpr
  intro digit
  rw [isSigil_of_digit digit] at h
  cases h

theorem mentionsPlaceholder_cons : IdTerm.mentionsPlaceholder (c :: cs) = false ↔
    (Placeholder.isSigil c = true → NoDigitFirst cs) ∧
      IdTerm.mentionsPlaceholder cs = false := by
  rw [IdTerm.mentionsPlaceholder, Bool.or_eq_false_iff]
  apply and_congr_left
  intro _
  cases cs with
  | nil => simp [NoDigitFirst]
  | cons d cs => simp [NoDigitFirst]

/-- Where two texts meet stands no placeholder if the second starts with no digit. -/
theorem mentionsPlaceholder_append (first : IdTerm.mentionsPlaceholder cs = false)
    (second : IdTerm.mentionsPlaceholder rest = false) (cut : NoDigitFirst rest) :
    IdTerm.mentionsPlaceholder (cs ++ rest) = false := by
  induction cs with
  | nil => exact second
  | cons c cs ih =>
    obtain ⟨plain, others⟩ := mentionsPlaceholder_cons.mp first
    apply mentionsPlaceholder_cons.mpr
    refine ⟨fun sigil => ?_, ih others⟩
    cases cs with
    | nil => exact cut
    | cons d cs => exact noDigitFirst_cons (plain sigil d rfl)

theorem mentionsPlaceholder_plain (plain : ∀ c ∈ cs, Placeholder.isSigil c = false) :
    IdTerm.mentionsPlaceholder (cs ++ rest) = IdTerm.mentionsPlaceholder rest := by
  induction cs with
  | nil => rfl
  | cons c cs ih =>
    obtain ⟨hc, others⟩ := List.forall_mem_cons.mp plain
    rw [List.cons_append, IdTerm.mentionsPlaceholder, hc, ih others]
    rfl

theorem not_digit_of_plain (plain : IdTerm.mentionsPlaceholder cs = false) (before : List Char)
    {d : Char} {after : List Char} (h : cs = before ++ c :: d :: after)
    (sigil : Placeholder.isSigil c = true) : isDecimalDigit d = false := by
  subst h
  induction before with
  | nil => exact (mentionsPlaceholder_cons.mp plain).1 sigil d rfl
  | cons b before ih => exact ih (mentionsPlaceholder_cons.mp plain).2

theorem noDigitFirst_chars (valid : ∀ x ∈ xs, x.Valid) :
    NoDigitFirst (xs.flatMap Occurrence.chars) := by
  cases xs with
  | nil => exact noDigitFirst_nil
  | cons x xs => exact noDigitFirst_cons (not_digit_of_isSigil (valid x List.mem_cons_self).sigil)

/-! A text is divided in one way. -/

/-- **Every text** can be divided. -/
theorem exists_division (cs : List Char) : ∃ start xs, Division cs start xs := by
  induction cs using text_induction with
  | nil => exact ⟨[], [], rfl, rfl, List.forall_mem_nil _⟩
  | keep c cs plain ih =>
    obtain ⟨start, xs, rfl, hstart, valid⟩ := ih
    refine ⟨c :: start, xs, rfl, mentionsPlaceholder_cons.mpr ⟨?_, hstart⟩, valid⟩
    exact fun sigil => (plain sigil).of_append
  | placeholder sigil digits rest hsigil nonempty hdigits stop ih =>
    obtain ⟨start, xs, rfl, hstart, valid⟩ := ih
    have here : Occurrence.Valid ⟨sigil, digits, start⟩ :=
      ⟨hsigil, nonempty, hdigits, stop.of_append, hstart⟩
    refine ⟨[], ⟨sigil, digits, start⟩ :: xs, ?_, rfl, List.forall_mem_cons.mpr ⟨here, valid⟩⟩
    simp [Occurrence.chars]

theorem parts_plain (plain : IdTerm.mentionsPlaceholder start = false) (cut : NoDigitFirst rest) :
    parts (start ++ rest) = start.map .char ++ parts rest := by
  induction start with
  | nil => rfl
  | cons c start ih =>
    obtain ⟨first, others⟩ := mentionsPlaceholder_cons.mp plain
    have kept : Placeholder.isSigil c = true → NoDigitFirst (start ++ rest) := by
      intro sigil
      cases start with
      | nil => exact cut
      | cons d start => exact noDigitFirst_cons (first sigil d rfl)
    rw [List.cons_append, parts_keep kept, ih others]
    rfl

/-- The parts of a text are those of its division. -/
theorem Division.parts (h : Division cs start xs) :
    parts cs = start.map .char ++ xs.flatMap Occurrence.parts := by
  obtain ⟨rfl, hstart, valid⟩ := h
  rw [parts_plain hstart (noDigitFirst_chars valid)]
  congr 1
  clear hstart
  induction xs with
  | nil => rfl
  | cons x xs ih =>
    obtain ⟨here, others⟩ := List.forall_mem_cons.mp valid
    have stop : NoDigitFirst (x.after ++ xs.flatMap Occurrence.chars) := by
      cases hafter : x.after with
      | nil => exact noDigitFirst_chars others
      | cons d after => exact noDigitFirst_cons (here.stop d (by rw [hafter]; rfl))
    rw [List.flatMap_cons, Occurrence.chars, List.cons_append, List.append_assoc,
      parts_placeholder here.sigil here.nonempty here.digits stop,
      parts_plain here.plain (noDigitFirst_chars others), ih others]
    rfl

/-- The division that parts come from. -/
def divide : List Part → List Char × List Occurrence
  | [] => ([], [])
  | .char c :: ps => (c :: (divide ps).1, (divide ps).2)
  | .placeholder sigil digits :: ps => ([], ⟨sigil, digits, (divide ps).1⟩ :: (divide ps).2)

theorem divide_chars (start : List Char) (ps : List Part) :
    divide (start.map .char ++ ps) = (start ++ (divide ps).1, (divide ps).2) := by
  induction start with
  | nil => rfl
  | cons c start ih => rw [List.map_cons, List.cons_append, divide, ih]; rfl

theorem divide_occurrences (xs : List Occurrence) :
    divide (xs.flatMap Occurrence.parts) = ([], xs) := by
  induction xs with
  | nil => rfl
  | cons x xs ih =>
    rw [List.flatMap_cons, Occurrence.parts, List.cons_append, divide, divide_chars, ih,
      List.append_nil]

/-- **No text** can be divided in two ways. -/
theorem Division.unique (h : Division cs start xs) {start' : List Char} {xs' : List Occurrence}
    (h' : Division cs start' xs') : start' = start ∧ xs' = xs := by
  have divided {start : List Char} {xs : List Occurrence} (h : Division cs start xs) :
      divide (QueryText.parts cs) = (start, xs) := by
    rw [h.parts, divide_chars, divide_occurrences, List.append_nil]
  exact Prod.mk.inj ((divided h').symm.trans (divided h))

/-! What each part becomes. -/

theorem Occurrence.Valid.index? (h : x.Valid) :
    index? x.digits = if x.HasIndex then some x.number else none := by
  have same : (x.digits ≠ [] ∧ x.digits.all Char.isDigit = true ∧ x.number < indexLimit) ↔
      x.HasIndex := by
    rw [and_iff_right h.nonempty, List.all_eq_true]
    rfl
  exact if_congr same rfl rfl

theorem parametrizeParts_chars (start : List Char) (ps : List Part) :
    parametrizeParts (start.map .char ++ ps) =
      (parametrizeParts ps).map fun r => ⟨start ++ r.text, r.indices⟩ := by
  induction start with
  | nil =>
    show parametrizeParts ps = _
    cases parametrizeParts ps <;> rfl
  | cons c start ih =>
    rw [List.map_cons, List.cons_append, parametrizeParts, ih]
    cases parametrizeParts ps <;> rfl

theorem parametrizeParts_occurrences (valid : ∀ x ∈ xs, x.Valid) :
    parametrizeParts (xs.flatMap Occurrence.parts) =
      match xs.find? fun x => !decide x.HasIndex with
      | some x => .error (.parse (.token (String.ofList (x.sigil :: x.digits))))
      | none => .ok ⟨xs.flatMap Occurrence.rewritten, xs.map Occurrence.number⟩ := by
  induction xs with
  | nil => rfl
  | cons x xs ih =>
    obtain ⟨here, others⟩ := List.forall_mem_cons.mp valid
    rw [List.flatMap_cons, Occurrence.parts, List.cons_append, parametrizeParts, here.index?]
    by_cases hx : x.HasIndex
    · rw [if_pos hx, List.find?_cons_of_neg (by simpa using hx), parametrizeParts_chars, ih others]
      cases xs.find? fun x => !decide x.HasIndex with
      | some y => rfl
      | none => simp [Except.map, Occurrence.rewritten, toList_parameterName]
    · rw [if_neg hx, List.find?_cons_of_pos (by simpa using hx)]

/-- **The placeholders of a text** become parameters, and all else is kept. The first one that has
    no index is reported. -/
theorem Division.parametrize (h : Division cs start xs) : parametrize cs =
    match xs.find? fun x => !decide x.HasIndex with
    | some x => .error (.parse (.token (String.ofList (x.sigil :: x.digits))))
    | none => .ok ⟨start ++ xs.flatMap Occurrence.rewritten, xs.map Occurrence.number⟩ := by
  rw [QueryText.parametrize, h.parts, parametrizeParts_chars,
    parametrizeParts_occurrences h.occurrences]
  cases xs.find? fun x => !decide x.HasIndex <;> rfl

/-! Rewritten texts. -/

theorem isSigil_of_toDigits (n : Nat) : ∀ c ∈ Nat.toDigits 10 n, Placeholder.isSigil c = false :=
  fun _ hc => class_of_isDigit (by decide)
    (Nat.isDigit_of_mem_toDigits (b := 10) (by decide) (by decide) hc)

theorem plain_rewritten (valid : ∀ x ∈ xs, x.Valid) :
    NoDigitFirst (xs.flatMap Occurrence.rewritten) ∧
      IdTerm.mentionsPlaceholder (xs.flatMap Occurrence.rewritten) = false := by
  induction xs with
  | nil => exact ⟨noDigitFirst_nil, rfl⟩
  | cons x xs ih =>
    obtain ⟨here, others⟩ := List.forall_mem_cons.mp valid
    obtain ⟨cut, plain⟩ := ih others
    have behind : IdTerm.mentionsPlaceholder (Nat.toDigits 10 x.number ++
        (x.after ++ xs.flatMap Occurrence.rewritten)) = false := by
      rw [mentionsPlaceholder_plain (isSigil_of_toDigits x.number)]
      exact mentionsPlaceholder_append here.plain plain cut
    rw [List.flatMap_cons, Occurrence.rewritten, List.cons_append, List.cons_append,
      List.append_assoc]
    refine ⟨noDigitFirst_cons (by decide), ?_⟩
    apply mentionsPlaceholder_cons.mpr
    refine ⟨fun _ => noDigitFirst_cons (by decide), ?_⟩
    apply mentionsPlaceholder_cons.mpr
    exact ⟨fun sigil => absurd sigil (by decide), behind⟩

theorem parametrize_plain (plain : IdTerm.mentionsPlaceholder cs = false) :
    parametrize cs = .ok ⟨cs, []⟩ := by
  have whole : Division cs cs [] := ⟨(List.append_nil cs).symm, plain, List.forall_mem_nil _⟩
  rw [whole.parametrize, List.find?_nil, List.flatMap_nil, List.append_nil]
  rfl

/-! The names of the parameters. -/

/-- The parameters by their indices, put down as they occur. -/
def names (indices : List Nat) : Finmap fun _ : Nat => String :=
  indices.foldl (fun found index => found.insert index (parameterName index)) ∅

theorem lookup_foldl (indices : List Nat) (found : Finmap fun _ : Nat => String) (i : Nat) :
    (indices.foldl (fun found index => found.insert index (parameterName index)) found).lookup i =
      if i ∈ indices then some (parameterName i) else found.lookup i := by
  induction indices generalizing found with
  | nil => rfl
  | cons index indices ih =>
    rw [List.foldl_cons, ih]
    by_cases later : i ∈ indices
    · rw [if_pos later, if_pos (List.mem_cons_of_mem index later)]
    · by_cases same : i = index
      · subst same
        simp [later]
      · simp [later, same, Finmap.lookup_insert_of_ne]

theorem lookup_names (indices : List Nat) (i : Nat) :
    (names indices).lookup i = if i ∈ indices then some (parameterName i) else none :=
  lookup_foldl indices ∅ i

/-- **Rewriting a text.** Take any text, divided into its placeholders, which can be done in one way
    only. It is refused exactly if one of them has no index. Else

    * each placeholder is replaced by the parameter of its index and all else is kept, in order;
    * the indices that occur, and no others, have names, those of their parameters;
    * every placeholder is counted;
    * in the rewritten text no sigil stands before a digit, and rewritten again it stays the same
      and has no placeholder. -/
theorem placeholders_rewritten (cs : List Char) : ∃ start xs, Division cs start xs ∧
    (∀ start' xs', Division cs start' xs' → start' = start ∧ xs' = xs) ∧
    ((∃ e, parametrize cs = .error e) ↔ ∃ x ∈ xs, ¬x.HasIndex) ∧
    ∀ r, parametrize cs = .ok r →
      r.text = start ++ xs.flatMap Occurrence.rewritten ∧
      (∀ i name, (names r.indices).lookup i = some name ↔
        (∃ x ∈ xs, x.number = i) ∧ name = parameterName i) ∧
      r.indices.length = xs.length ∧
      (∀ before c d after, r.text = before ++ c :: d :: after → Placeholder.isSigil c = true →
        isDecimalDigit d = false) ∧
      parametrize r.text = .ok ⟨r.text, []⟩ := by
  obtain ⟨start, xs, h⟩ := exists_division cs
  refine ⟨start, xs, h, fun start' xs' h' => h.unique h', ?_⟩
  rw [h.parametrize]
  cases refused : xs.find? fun x => !decide x.HasIndex with
  | some x =>
    have bad : ¬x.HasIndex := by simpa using List.find?_some refused
    exact ⟨⟨fun _ => ⟨x, List.mem_of_find?_eq_some refused, bad⟩, fun _ => ⟨_, rfl⟩⟩, nofun⟩
  | none =>
    have good : ∀ x ∈ xs, x.HasIndex := by simpa using List.find?_eq_none.mp refused
    refine ⟨⟨nofun, fun ⟨x, hx, bad⟩ => absurd (good x hx) bad⟩, ?_⟩
    intro r hr
    cases hr
    obtain ⟨cut, plain⟩ := plain_rewritten h.occurrences
    have plain := mentionsPlaceholder_append h.start plain cut
    refine ⟨rfl, fun i name => ?_, List.length_map _, fun before c d after => ?_, ?_⟩
    · rw [lookup_names, Option.ite_none_right_eq_some, List.mem_map, Option.some.injEq, eq_comm]
    · exact not_digit_of_plain plain before
    · exact parametrize_plain plain

end DocumentStore.QueryText
