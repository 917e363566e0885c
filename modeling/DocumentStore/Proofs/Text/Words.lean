import DocumentStore.Proofs.Text.Scan
import Mathlib.Data.List.Forall2

/- Words in a text. Whatever is said of letters in any case is decided by looking at the capitals
   (`eq_toLower`), so a word in any case is told from another (`keyword?_of_spells`). What a
   keyword takes off a text it takes off with anything behind (`after?_eq_some`), and what is
   dropped at the end of a text is dropped with anything before it (`dropEndWhile_append`). The text
   that a step has taken off can be told in full (`keyword?_eq_some`, `blanks?_eq_some`,
   `skipBlanks_eq_iff`, `run?_eq_some_append`). -/
namespace DocumentStore.Text

variable {c : Char} {cs rest : List Char} {word : String}

/-! Letters in any case. -/

/-- Capitals are few: a class is blind to the case of letters if it is for each of them. -/
theorem eq_toLower {α : Type} {f : Char → α}
    (blind : ∀ n ∈ List.range' 65 26, f (Char.ofNat n) = f (Char.ofNat n).toLower) (c : Char) :
    f c = f c.toLower := by
  by_cases upper : c.val ≥ 'A'.val ∧ c.val ≤ 'Z'.val
  · have low : 65 ≤ c.toNat := UInt32.le_iff_toNat_le.mp upper.1
    have high : c.toNat ≤ 90 := UInt32.le_iff_toNat_le.mp upper.2
    have hc := blind c.toNat (List.mem_range'_1.mpr ⟨low, by omega⟩)
    rwa [Char.ofNat_toNat] at hc
  · have lower : c.toLower = c := dif_neg upper
    rw [lower]

theorem toLower_toLower (c : Char) : c.toLower.toLower = c.toLower :=
  (eq_toLower (f := Char.toLower) (by decide) c).symm

theorem sameFolded_toLower (k c : Char) : sameFolded k c.toLower = sameFolded k c := by
  have longS : (c == 'ſ') = (c.toLower == 'ſ') := eq_toLower (f := (· == 'ſ')) (by decide) c
  have kelvin : (c == '\u212A') = (c.toLower == '\u212A') :=
    eq_toLower (f := (· == '\u212A')) (by decide) c
  rw [sameFolded, sameFolded, sameLetter, sameLetter, toLower_toLower, longS, kelvin]

theorem Spells.class (h : Spells word cs) {p : Char → Bool}
    (blind : ∀ n ∈ List.range' 65 26, p (Char.ofNat n) = p (Char.ofNat n).toLower) {b : Bool}
    (letters : ∀ k ∈ word.toList, p k.toLower = b) : ∀ c ∈ cs, p c = b := by
  intro c hc
  have mem : c.toLower ∈ word.toList.map Char.toLower := by
    rw [← h]
    exact List.mem_map_of_mem hc
  obtain ⟨k, hk, same⟩ := List.mem_map.mp mem
  rw [eq_toLower blind c, ← same, letters k hk]

theorem after?_of_toLower {letters : List Char} (long : letters.length ≤ cs.length)
    (apart : after? sameFolded letters (cs.map Char.toLower) = none) (rest : List Char) :
    after? sameFolded letters (cs ++ rest) = none := by
  induction letters generalizing cs with
  | nil => cases apart
  | cons k letters ih =>
    cases cs with
    | nil => exact absurd long (Nat.not_succ_le_zero _)
    | cons c cs =>
      rw [List.map_cons, after?, sameFolded_toLower] at apart
      rw [List.cons_append, after?]
      split
      next same =>
        rw [if_pos same] at apart
        exact ih (Nat.le_of_succ_le_succ long) apart
      next => rfl

/-- A word in any case is not taken for one that is no shorter than it is long. -/
theorem keyword?_of_spells {other : String} (h : Spells other cs)
    (long : word.toList.length ≤ other.toList.length)
    (apart : after? sameFolded word.toList (other.toList.map Char.toLower) = none)
    (rest : List Char) : keyword? word (cs ++ rest) = none := by
  have lengths : cs.length = other.toList.length := by
    rw [← List.length_map Char.toLower, h, List.length_map]
  exact after?_of_toLower (lengths ▸ long) (h ▸ apart) rest

theorem class_of_isDigit {p : Char → Bool} {b : Bool}
    (digits : ∀ n ∈ List.range' 48 10, p (Char.ofNat n) = b) (h : c.isDigit = true) : p c = b := by
  rw [Char.isDigit, Bool.and_eq_true, decide_eq_true_eq, decide_eq_true_eq] at h
  have low : 48 ≤ c.toNat := UInt32.le_iff_toNat_le.mp h.1
  have high : c.toNat ≤ 57 := UInt32.le_iff_toNat_le.mp h.2
  have hc := digits c.toNat (List.mem_range'_1.mpr ⟨low, by omega⟩)
  rwa [Char.ofNat_toNat] at hc

/-! What a step takes. -/

theorem after?_eq_some_append {same : Char → Char → Bool} {letters : List Char} :
    after? same letters cs = some rest ↔
      ∃ found, List.Forall₂ (fun k c => same k c = true) letters found ∧ cs = found ++ rest := by
  constructor
  · intro h
    induction letters generalizing cs with
    | nil =>
      cases h
      exact ⟨[], .nil, rfl⟩
    | cons k letters ih =>
      cases cs with
      | nil => cases h
      | cons c cs =>
        rw [after?] at h
        split at h
        next same =>
          obtain ⟨found, folds, rfl⟩ := ih h
          exact ⟨c :: found, .cons same folds, rfl⟩
        next => cases h
  · rintro ⟨found, folds, rfl⟩
    induction folds with
    | nil => rfl
    | cons same _ ih => rw [List.cons_append, after?, if_pos same, ih]

/-- A word that is found stands before what remains, whatever that is. -/
theorem after?_eq_some {same : Char → Char → Bool} {letters : List Char}
    (h : after? same letters cs = some rest) :
    ∃ found, cs = found ++ rest ∧ found.length = letters.length ∧
      ∀ more, after? same letters (found ++ more) = some more := by
  obtain ⟨found, folds, rfl⟩ := after?_eq_some_append.mp h
  exact ⟨found, rfl, folds.length_eq.symm, fun more => after?_eq_some_append.mpr ⟨found, folds, rfl⟩⟩

/-- The letters of the word, in any case. -/
def Folds (word : String) (cs : List Char) : Prop :=
  List.Forall₂ (fun k c => sameFolded k c = true) word.toList cs

theorem keyword?_eq_some :
    keyword? word cs = some rest ↔ ∃ found, Folds word found ∧ cs = found ++ rest :=
  after?_eq_some_append

/-- Only S and K are written in other ways than in either case. -/
theorem Folds.spells (h : Folds word cs)
    (plain : ∀ k ∈ word.toList, k.toLower ≠ 's' ∧ k.toLower ≠ 'k') : Spells word cs := by
  rw [Folds] at h
  rw [Spells]
  generalize word.toList = letters at h plain ⊢
  induction h with
  | nil => rfl
  | @cons k c _ _ same _ ih =>
    obtain ⟨first, others⟩ := List.forall_mem_cons.mp plain
    have letter : k.toLower = c.toLower := by
      simpa [sameFolded, sameLetter, first.1, first.2] using same
    rw [List.map_cons, List.map_cons, letter, ih others]

theorem Folds.noBlankFirst (h : Folds word cs) {k : Char} (start : word.toList.head? = some k)
    (letter : ∀ n ∈ codesOf blankRanges, sameFolded k (Char.ofNat n) = false) (rest : List Char) :
    NoBlankFirst (cs ++ rest) := by
  obtain ⟨letters, hword⟩ := List.head?_eq_some_iff.mp start
  rw [Folds, hword] at h
  obtain ⟨c, cs, same, -, rfl⟩ := List.forall₂_cons_left_iff.mp h
  exact noBlankFirst_cons (isBlank_of_class (fun _ => class_of_isBlank letter) same)

theorem skipBlanks_eq (cs : List Char) :
    ∃ blanks, cs = blanks ++ skipBlanks cs ∧ ∀ c ∈ blanks, isBlank c = true :=
  ⟨cs.takeWhile isBlank, List.takeWhile_append_dropWhile.symm,
    List.all_eq_true.mp List.all_takeWhile⟩

theorem stop_dropWhile {p : Char → Bool} (cs : List Char) :
    ∀ c, (cs.dropWhile p).head? = some c → p c = false := by
  intro c hc
  have stop := List.head?_dropWhile_not p cs
  rw [hc] at stop
  simpa using stop

theorem noBlankFirst_skipBlanks (cs : List Char) : NoBlankFirst (skipBlanks cs) :=
  stop_dropWhile cs

/-- White space, and at least some. -/
def IsGap (cs : List Char) : Prop :=
  cs ≠ [] ∧ ∀ c ∈ cs, isBlank c = true

theorem IsGap.blankFirst (h : IsGap cs) (rest : List Char) : BlankFirst (cs ++ rest) := by
  obtain ⟨b, cs, rfl⟩ := List.exists_cons_of_ne_nil h.1
  exact ⟨b, cs ++ rest, rfl, h.2 b List.mem_cons_self⟩

theorem IsGap.exists_concat (h : IsGap cs) : ∃ inner b, cs = inner ++ [b] ∧ isBlank b = true := by
  obtain ⟨inner, b, rfl⟩ := (List.eq_nil_or_concat' cs).resolve_left h.1
  exact ⟨inner, b, rfl, h.2 b (List.mem_append_right inner List.mem_cons_self)⟩

theorem skipBlanks_eq_iff : skipBlanks cs = rest ↔
    NoBlankFirst rest ∧ ∃ blanks, (∀ c ∈ blanks, isBlank c = true) ∧ cs = blanks ++ rest := by
  constructor
  · rintro rfl
    obtain ⟨blanks, split, blank⟩ := skipBlanks_eq cs
    exact ⟨noBlankFirst_skipBlanks cs, blanks, blank, split⟩
  · rintro ⟨first, blanks, blank, rfl⟩
    exact skipBlanks_blanks blank first

theorem blanks?_eq_some : blanks? cs = some rest ↔
    NoBlankFirst rest ∧ ∃ gap, IsGap gap ∧ cs = gap ++ rest := by
  constructor
  · intro h
    obtain ⟨b, tail, rfl, blank, hrest⟩ := exists_of_blanks? h
    obtain ⟨first, blanks, others, rfl⟩ := skipBlanks_eq_iff.mp hrest.symm
    exact ⟨first, b :: blanks, ⟨List.cons_ne_nil b blanks, List.forall_mem_cons.mpr ⟨blank, others⟩⟩,
      rfl⟩
  · rintro ⟨first, gap, ⟨nonempty, blank⟩, rfl⟩
    exact blanks?_blanks nonempty blank first

theorem run?_eq_some_append {p : Char → Bool} {run : List Char} : run? p cs = some (run, rest) ↔
    run ≠ [] ∧ (∀ c ∈ run, p c = true) ∧ (∀ c, rest.head? = some c → p c = false) ∧
      cs = run ++ rest := by
  constructor
  · intro h
    obtain ⟨nonempty, rfl, rfl⟩ := run?_eq_some.mp h
    exact ⟨nonempty, List.all_eq_true.mp List.all_takeWhile, stop_dropWhile cs,
      List.takeWhile_append_dropWhile.symm⟩
  · rintro ⟨nonempty, all, stop, rfl⟩
    exact run?_append nonempty all stop

/-! Ends of texts. -/

theorem dropEndWhile_eq_append (p : Char → Bool) (cs : List Char) :
    ∃ dropped, cs = dropEndWhile p cs ++ dropped ∧ ∀ c ∈ dropped, p c = true :=
  ⟨cs.rtakeWhile p, List.rdropWhile_append_rtakeWhile.symm, fun _ => List.mem_rtakeWhile_imp⟩

theorem getLast?_dropEndWhile {p : Char → Bool} (cs : List Char) :
    ∀ c, (dropEndWhile p cs).getLast? = some c → p c = false := by
  intro c hc
  obtain ⟨nonempty, rfl⟩ := List.mem_getLast?_eq_getLast hc
  exact Bool.eq_false_iff.mpr (List.rdropWhile_last_not p cs nonempty)

/-- What is dropped at the end reaches no further than to a character that stays. -/
theorem dropEndWhile_append {p : Char → Bool} (hlast : cs.getLast? = some c) (stays : p c = false)
    (rest : List Char) : dropEndWhile p (cs ++ rest) = cs ++ dropEndWhile p rest := by
  induction rest using List.reverseRecOn with
  | nil =>
    rw [List.append_nil, dropEndWhile_eq fun d hd => Option.some.inj (hlast.symm.trans hd) ▸ stays]
    exact (List.append_nil cs).symm
  | append_singleton rest d ih =>
    rw [dropEndWhile_eq_rdropWhile, dropEndWhile_eq_rdropWhile, ← List.append_assoc,
      List.rdropWhile_concat, List.rdropWhile_concat]
    split
    next => exact ih
    next => exact List.append_assoc _ _ _

theorem dropEndWhile_append_cons {p : Char → Bool} (stays : p c = false) (cs rest : List Char) :
    dropEndWhile p (cs ++ c :: rest) = cs ++ c :: dropEndWhile p rest := by
  rw [List.append_cons, dropEndWhile_append List.getLast?_concat stays, ← List.append_cons]

theorem dropEndWhile_append_of_all {p : Char → Bool} (cs : List Char)
    (h : ∀ c ∈ rest, p c = true) : dropEndWhile p (cs ++ rest) = dropEndWhile p cs := by
  induction rest using List.reverseRecOn with
  | nil => rw [List.append_nil]
  | append_singleton rest d ih =>
    obtain ⟨hrest, hd⟩ := List.forall_mem_append.mp h
    rw [← List.append_assoc, dropEndWhile_eq_rdropWhile,
      List.rdropWhile_concat_pos p _ d (hd d (List.mem_singleton_self d))]
    exact ih hrest

/-- The two ends of a text do not depend on each other. -/
theorem skipBlanks_dropEndWhile (p : Char → Bool) (cs : List Char) :
    skipBlanks (dropEndWhile p cs) = dropEndWhile p (skipBlanks cs) := by
  induction cs using List.reverseRecOn with
  | nil => rfl
  | append_singleton cs d ih =>
    rw [dropEndWhile_eq_rdropWhile, List.rdropWhile_concat]
    split
    next drops =>
      -- Of the last character nothing is left behind the blanks, or all of it.
      obtain ⟨rest, hrest, among⟩ :
          ∃ rest, skipBlanks (cs ++ [d]) = skipBlanks cs ++ rest ∧ ∀ c ∈ rest, c = d := by
        rw [skipBlanks, skipBlanks, List.dropWhile_append]
        split
        next none =>
          rw [List.isEmpty_iff.mp none]
          have sublist : ([d].dropWhile isBlank).Sublist [d] := List.dropWhile_sublist isBlank
          exact ⟨_, rfl, fun c hc => List.mem_singleton.mp (sublist.mem hc)⟩
        next => exact ⟨[d], rfl, fun c hc => List.mem_singleton.mp hc⟩
      rw [hrest, dropEndWhile_append_of_all _ fun c hc => among c hc ▸ drops]
      exact ih
    next stays =>
      refine (dropEndWhile_eq fun c hc => ?_).symm
      obtain ⟨before, whole⟩ : skipBlanks (cs ++ [d]) <:+ cs ++ [d] := skipBlanks_suffix
      have last : (before ++ skipBlanks (cs ++ [d])).getLast? = some d := by
        rw [whole, List.getLast?_concat]
      rw [List.getLast?_append, hc, Option.some_or] at last
      cases last
      exact Bool.eq_false_iff.mpr stays

theorem noBlank_trim (cs : List Char) : NoBlankFirst (trim cs) ∧ NoBlankLast (trim cs) := by
  refine ⟨?_, getLast?_dropEndWhile (skipBlanks cs)⟩
  rw [trim, ← skipBlanks_dropEndWhile]
  exact noBlankFirst_skipBlanks _

/-! Words between other characters. -/

theorem isAlphanumeric_of_isBlank (h : isBlank c = true) : isAlphanumeric c = false :=
  class_of_isBlank (by decide +kernel) h

theorem isWord_of_isBlank (h : isBlank c = true) : isWord c = false :=
  (Bool.or_eq_false_iff.mp (isName_of_isBlank h)).1

/-- The word stands in the text, and neither before it nor after it a word goes on. -/
def HasWord (word : String) (cs : List Char) : Prop :=
  ∃ before rest after, cs = before ++ rest ∧ keyword? word rest = some after ∧
    before.getLast?.any isWord = false ∧ after.head?.any isWord = false

theorem hasWord_iff {word : String} {cs : List Char} : HasWord word cs ↔
    ∃ i ∈ List.range (cs.length + 1), (cs.take i).getLast?.any isWord = false ∧
      (keyword? word (cs.drop i)).any (fun after => !after.head?.any isWord) = true := by
  constructor
  · rintro ⟨before, rest, after, rfl, hafter, start, stop⟩
    refine ⟨before.length, List.mem_range.mpr ?_, ?_, ?_⟩
    · rw [List.length_append]
      omega
    · rwa [List.take_left]
    · rw [List.drop_left, hafter, Option.any_some, stop]
      rfl
  · rintro ⟨i, -, start, found⟩
    obtain ⟨after, hafter, stop⟩ := (Option.any_eq_true _ _).mp found
    exact ⟨_, _, after, (List.take_append_drop i cs).symm, hafter, start, by simpa using stop⟩

instance (word : String) (cs : List Char) : Decidable (HasWord word cs) :=
  decidable_of_iff _ hasWord_iff.symm

end DocumentStore.Text
