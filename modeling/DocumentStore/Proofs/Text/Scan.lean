import DocumentStore.Text.Scan
import Mathlib.Data.List.DropRight
import Mathlib.Data.List.TakeWhile

/- Scanning what has been written. A step takes off the start of a text what was put there, as long
   as what follows does not continue it (`keyword?_append`, `run?_append`). Of a text in two parts
   it takes what it takes of the first alone (`run?_extend`), and nothing else unless it uses that
   up (`keyword?_append_inv`, `run?_append_inv`). -/
namespace DocumentStore.Text

variable {c : Char} {cs rest : List Char} {p : Char → Bool}

/-! What is said of the characters of a text is decided by looking at these, also where all
    characters there are could be looked at. -/

instance decidableCharsAll (holds : Char → Prop) [DecidablePred holds] (cs : List Char) :
    Decidable (∀ c ∈ cs, holds c) :=
  List.decidableBAll holds cs

instance decidableCharAll (holds : Char → Prop) [DecidablePred holds] (found : Option Char) :
    Decidable (∀ c ∈ found, holds c) :=
  Option.decidableForallMem found

/-! Blanks. -/

/-- The code points of some ranges. -/
def codesOf (ranges : List (Nat × Nat)) : List Nat :=
  ranges.flatMap fun r => List.range' r.1 (r.2 + 1 - r.1)

theorem mem_codesOf {ranges : List (Nat × Nat)} (h : inRanges ranges c = true) :
    c.toNat ∈ codesOf ranges := by
  obtain ⟨r, hr, hc⟩ := List.any_eq_true.mp h
  simp only [Bool.and_eq_true, decide_eq_true_eq] at hc
  exact List.mem_flatMap.mpr ⟨r, hr, List.mem_range'_1.mpr (by omega)⟩

/-- Blanks are few: a class of characters holds no blank if it holds none of them. -/
theorem class_of_isBlank {p : Char → Bool}
    (apart : ∀ n ∈ codesOf blankRanges, p (Char.ofNat n) = false) (h : isBlank c = true) :
    p c = false := by
  have hc := apart c.toNat (mem_codesOf h)
  rwa [Char.ofNat_toNat] at hc

theorem isBlank_of_class {p : Char → Bool} (apart : ∀ c, isBlank c = true → p c = false)
    (h : p c = true) : isBlank c = false := by
  cases blank : isBlank c with
  | false => rfl
  | true =>
    rw [apart c blank] at h
    cases h

theorem isBlank_of_toLower (h : isBlank c.toLower = false) : isBlank c = false :=
  have apart (c : Char) : isBlank c = true → (!isBlank c.toLower) = false :=
    class_of_isBlank (p := fun c => !isBlank c.toLower) (by decide +kernel)
  isBlank_of_class apart (by rw [h]; rfl)

theorem isName_of_isBlank (h : isBlank c = true) : isName c = false :=
  class_of_isBlank (by decide +kernel) h

theorem isBlank_of_isName (h : isName c = true) : isBlank c = false :=
  isBlank_of_class (fun _ => isName_of_isBlank) h

/-- Blanks before the text do not belong to it. -/
def NoBlankFirst (cs : List Char) : Prop :=
  ∀ c, cs.head? = some c → isBlank c = false

/-- Nor do blanks after it. -/
def NoBlankLast (cs : List Char) : Prop :=
  ∀ c, cs.getLast? = some c → isBlank c = false

instance (cs : List Char) : Decidable (NoBlankFirst cs) :=
  inferInstanceAs (Decidable (∀ c ∈ cs.head?, isBlank c = false))

instance (cs : List Char) : Decidable (NoBlankLast cs) :=
  inferInstanceAs (Decidable (∀ c ∈ cs.getLast?, isBlank c = false))

theorem noBlankFirst_cons (h : isBlank c = false) : NoBlankFirst (c :: cs) := by
  intro d hd
  cases hd
  exact h

theorem noBlankFirst_append (nonempty : cs ≠ []) (h : ∀ c ∈ cs, isBlank c = false)
    (rest : List Char) : NoBlankFirst (cs ++ rest) := by
  obtain ⟨c, cs, rfl⟩ := List.exists_cons_of_ne_nil nonempty
  exact noBlankFirst_cons (h c List.mem_cons_self)

theorem skipBlanks_of_noBlankFirst (h : NoBlankFirst cs) : skipBlanks cs = cs := by
  cases cs with
  | nil => rfl
  | cons c cs => exact List.dropWhile_cons_of_neg (by simp [h c rfl])

theorem skipBlanks_cons (h : isBlank c = false) : skipBlanks (c :: cs) = c :: cs :=
  skipBlanks_of_noBlankFirst (noBlankFirst_cons h)

theorem skipBlanks_blanks {blanks : List Char} (h : ∀ c ∈ blanks, isBlank c = true)
    (stop : NoBlankFirst cs) : skipBlanks (blanks ++ cs) = cs := by
  rw [skipBlanks, List.dropWhile_append_of_pos h]
  exact skipBlanks_of_noBlankFirst stop

theorem skipBlanks_space (h : NoBlankFirst cs) : skipBlanks (' ' :: cs) = cs := by
  rw [← List.singleton_append]
  exact skipBlanks_blanks (by decide) h

theorem blanks?_blanks {blanks : List Char} (nonempty : blanks ≠ [])
    (h : ∀ c ∈ blanks, isBlank c = true) (stop : NoBlankFirst cs) :
    blanks? (blanks ++ cs) = some cs := by
  obtain ⟨b, blanks, rfl⟩ := List.exists_cons_of_ne_nil nonempty
  obtain ⟨hb, hblanks⟩ := List.forall_mem_cons.mp h
  rw [List.cons_append, blanks?, if_pos hb, skipBlanks_blanks hblanks stop]

theorem blanks?_space (h : NoBlankFirst cs) : blanks? (' ' :: cs) = some cs := by
  rw [← List.singleton_append]
  exact blanks?_blanks (List.cons_ne_nil _ _) (by decide) h

theorem dropEndWhile_eq_rdropWhile (p : Char → Bool) (cs : List Char) :
    dropEndWhile p cs = cs.rdropWhile p := rfl

theorem dropEndWhile_eq (h : ∀ c, cs.getLast? = some c → p c = false) : dropEndWhile p cs = cs :=
  List.rdropWhile_eq_self_iff.mpr fun nonempty => by
    simp [h _ (List.getLast?_eq_some_getLast nonempty)]

theorem trim_eq (first : NoBlankFirst cs) (last : NoBlankLast cs) : trim cs = cs := by
  rw [trim, skipBlanks_of_noBlankFirst first, dropEndWhile_eq last]

/-! Words. -/

/-- The text is the word, in any case. -/
def Spells (word : String) (cs : List Char) : Prop :=
  cs.map Char.toLower = word.toList.map Char.toLower

instance (word : String) (cs : List Char) : Decidable (Spells word cs) :=
  inferInstanceAs (Decidable (_ = _))

theorem after?_append {same : Char → Char → Bool} {word : List Char}
    (h : cs.map Char.toLower = word.map Char.toLower)
    (folds : ∀ k c, sameLetter k c = true → same k c = true) (rest : List Char) :
    after? same word (cs ++ rest) = some rest := by
  induction word generalizing cs with
  | nil =>
    obtain rfl : cs = [] := List.map_eq_nil_iff.mp h
    rfl
  | cons k word ih =>
    obtain ⟨c, cs, rfl, hc, hcs⟩ := List.map_eq_cons_iff.mp h
    have first : same k c = true := folds k c (by rw [sameLetter, hc, beq_self_eq_true])
    rw [List.cons_append, after?, if_pos first]
    exact ih hcs

theorem after?_eq_none {same : Char → Char → Bool} {k : Char} (h : same k c = false)
    (word cs : List Char) : after? same (k :: word) (c :: cs) = none := by
  rw [after?, if_neg (by simp [h])]

theorem keyword?_append {word : String} (h : Spells word cs) (rest : List Char) :
    keyword? word (cs ++ rest) = some rest :=
  after?_append h (fun k c same => by rw [sameFolded, same, Bool.true_or, Bool.true_or]) rest

theorem Spells.exists_cons {word : String} (h : Spells word cs) {k : Char}
    (start : word.toList.head? = some k) : ∃ c tail, cs = c :: tail ∧ c.toLower = k.toLower := by
  obtain ⟨tail, hword⟩ := List.head?_eq_some_iff.mp start
  rw [Spells, hword, List.map_cons] at h
  obtain ⟨c, cs, rfl, hc, -⟩ := List.map_eq_cons_iff.mp h
  exact ⟨c, cs, rfl, hc⟩

theorem Spells.noBlankFirst {word : String} (h : Spells word cs) {k : Char}
    (start : word.toList.head? = some k) (letter : isBlank k.toLower = false) (rest : List Char) :
    NoBlankFirst (cs ++ rest) := by
  obtain ⟨c, cs, rfl, hc⟩ := h.exists_cons start
  exact noBlankFirst_cons (isBlank_of_toLower (hc ▸ letter))

theorem keywords?_append {first second : String} {word : List Char} (h : Spells first cs)
    (h' : Spells second word) (start : NoBlankFirst (word ++ ' ' :: rest))
    (stop : NoBlankFirst rest) :
    keywords? first second (cs ++ ' ' :: (word ++ ' ' :: rest)) = some rest := by
  rw [keywords?, keyword?_append h, Option.bind_some, blanks?_space start, Option.bind_some,
    keyword?_append h', Option.bind_some, blanks?_space stop]

/-! Runs and names. -/

/-- A run ends where something starts that cannot continue it. -/
theorem run_append_stop (cs : List Char) (stop : ∀ c, rest.head? = some c → p c = false) :
    (cs ++ rest).takeWhile p = cs.takeWhile p ∧ (cs ++ rest).dropWhile p = cs.dropWhile p ++ rest := by
  induction cs with
  | nil =>
    cases rest with
    | nil => exact ⟨rfl, rfl⟩
    | cons c rest =>
      have hc : ¬p c = true := by simp [stop c rfl]
      exact ⟨List.takeWhile_cons_of_neg hc, List.dropWhile_cons_of_neg hc⟩
  | cons c cs ih =>
    by_cases hc : p c = true
    · rw [List.cons_append, List.takeWhile_cons_of_pos hc, List.takeWhile_cons_of_pos hc,
        List.dropWhile_cons_of_pos hc, List.dropWhile_cons_of_pos hc, ih.1]
      exact ⟨rfl, ih.2⟩
    · rw [List.cons_append, List.takeWhile_cons_of_neg hc, List.takeWhile_cons_of_neg hc,
        List.dropWhile_cons_of_neg hc, List.dropWhile_cons_of_neg hc]
      exact ⟨rfl, rfl⟩

theorem run_append (h : ∀ c ∈ cs, p c = true) (stop : ∀ c, rest.head? = some c → p c = false) :
    (cs ++ rest).takeWhile p = cs ∧ (cs ++ rest).dropWhile p = rest := by
  obtain ⟨taken, left⟩ := run_append_stop cs stop
  rw [taken, left, List.takeWhile_eq_self_iff.mpr h, List.dropWhile_eq_nil_iff.mpr h]
  exact ⟨rfl, rfl⟩

theorem stop_cons (h : p c = false) (rest : List Char) :
    ∀ d, (c :: rest).head? = some d → p d = false := by
  intro d hd
  cases hd
  exact h

theorem run?_eq_some {run : List Char} : run? p cs = some (run, rest) ↔
    run ≠ [] ∧ cs.takeWhile p = run ∧ cs.dropWhile p = rest := by
  unfold run?
  split
  next none =>
    rw [none]
    exact ⟨nofun, fun ⟨h, h', _⟩ => absurd h'.symm h⟩
  next c run' taken =>
    rw [taken, Option.some.injEq, Prod.mk.injEq]
    exact ⟨fun ⟨h, h'⟩ => ⟨h ▸ List.cons_ne_nil c run', h, h'⟩, fun ⟨_, h, h'⟩ => ⟨h, h'⟩⟩

theorem run?_append (nonempty : cs ≠ []) (h : ∀ c ∈ cs, p c = true)
    (stop : ∀ c, rest.head? = some c → p c = false) : run? p (cs ++ rest) = some (cs, rest) :=
  run?_eq_some.mpr ⟨nonempty, run_append h stop⟩

theorem toList_ne_nil {text : String} (h : text ≠ "") : text.toList ≠ [] :=
  fun nil => h (String.toList_eq_nil_iff.mp nil)

/-- A name of a database, a collection or an option: word characters and hyphens. -/
def IsName (name : String) : Prop :=
  name ≠ "" ∧ ∀ c ∈ name.toList, isName c = true

instance (name : String) : Decidable (IsName name) :=
  inferInstanceAs (Decidable (_ ∧ _))

theorem IsName.noBlankFirst {name : String} (h : IsName name) (rest : List Char) :
    NoBlankFirst (name.toList ++ rest) :=
  noBlankFirst_append (toList_ne_nil h.1) (fun c hc => isBlank_of_isName (h.2 c hc)) rest

theorem IsName.toList_ne_nil {name : String} (h : IsName name) : name.toList ≠ [] :=
  Text.toList_ne_nil h.1

theorem char?_eq_some : char? c cs = some rest ↔ cs = c :: rest := by
  cases cs with
  | nil => exact ⟨nofun, nofun⟩
  | cons d cs =>
    rw [char?, List.cons.injEq]
    split
    next same => rw [Option.some.injEq, and_iff_right same]
    next apart => exact ⟨nofun, fun h => absurd h.1 apart⟩

theorem exists_of_blanks? (h : blanks? cs = some rest) :
    ∃ c tail, cs = c :: tail ∧ isBlank c = true ∧ rest = skipBlanks tail := by
  cases cs with
  | nil => cases h
  | cons c cs =>
    rw [blanks?] at h
    split at h
    next blank =>
      cases h
      exact ⟨c, cs, rfl, blank, rfl⟩
    next => cases h

/-! Texts in two parts. -/

theorem NoBlankLast.of_suffix {part : List Char} (h : NoBlankLast cs) (suffix : part <:+ cs) :
    NoBlankLast part := by
  obtain ⟨first, rfl⟩ := suffix
  exact fun c hc => h c (by rw [List.getLast?_append, hc, Option.some_or])

theorem skipBlanks_append (nonempty : cs ≠ []) (last : NoBlankLast cs) (rest : List Char) :
    skipBlanks (cs ++ rest) = skipBlanks cs ++ rest ∧ skipBlanks cs ≠ [] := by
  induction cs with
  | nil => exact absurd rfl nonempty
  | cons c cs ih =>
    cases blank : isBlank c with
    | false =>
      rw [List.cons_append, skipBlanks_cons blank, skipBlanks_cons blank]
      exact ⟨rfl, List.cons_ne_nil c cs⟩
    | true =>
      have more : cs ≠ [] := by
        rintro rfl
        rw [last c rfl] at blank
        cases blank
      have step (cs : List Char) : skipBlanks (c :: cs) = skipBlanks cs :=
        List.dropWhile_cons_of_pos blank
      rw [List.cons_append, step, step]
      exact ih more (last.of_suffix (List.suffix_cons c cs))

theorem skipBlanks_extend {found : List Char} (h : skipBlanks cs = c :: found)
    (last : NoBlankLast cs) (rest : List Char) :
    skipBlanks (cs ++ rest) = c :: (found ++ rest) := by
  have nonempty : cs ≠ [] := by
    rintro rfl
    cases h
  rw [(skipBlanks_append nonempty last rest).1, h, List.cons_append]

theorem skipBlanks_suffix : skipBlanks cs <:+ cs :=
  List.dropWhile_suffix isBlank

theorem skipSeparator_suffix : skipSeparator cs <:+ cs := by
  rw [skipSeparator]
  split
  next rest comma =>
    have behind : rest <:+ skipBlanks cs := comma ▸ List.suffix_cons ',' rest
    exact skipBlanks_suffix.trans (behind.trans skipBlanks_suffix)
  next => exact skipBlanks_suffix

theorem after?_suffix {same : Char → Char → Bool} {word : List Char}
    (h : after? same word cs = some rest) : rest <:+ cs := by
  induction word generalizing cs with
  | nil =>
    cases h
    exact List.suffix_refl _
  | cons k word ih =>
    cases cs with
    | nil => cases h
    | cons c cs =>
      rw [after?] at h
      split at h
      · exact (ih h).trans (List.suffix_cons c cs)
      · cases h

theorem blanks?_suffix (h : blanks? cs = some rest) : rest <:+ cs := by
  obtain ⟨b, tail, rfl, -, rfl⟩ := exists_of_blanks? h
  exact skipBlanks_suffix.trans (List.suffix_cons b tail)

theorem run?_suffix {run : List Char} (h : run? p cs = some (run, rest)) : rest <:+ cs :=
  (run?_eq_some.mp h).2.2 ▸ List.dropWhile_suffix p

/-- A word is found within the first part if nothing of it starts the second. -/
theorem after?_append_inv {same : Char → Char → Bool} {word found : List Char}
    (apart : ∀ k ∈ word, ∀ c, rest.head? = some c → same k c = false)
    (h : after? same word (cs ++ rest) = some found) :
    ∃ more, after? same word cs = some more ∧ found = more ++ rest := by
  induction word generalizing cs with
  | nil =>
    cases h
    exact ⟨cs, rfl, rfl⟩
  | cons k word ih =>
    obtain ⟨first, others⟩ := List.forall_mem_cons.mp apart
    cases cs with
    | nil =>
      cases rest with
      | nil => cases h
      | cons c rest =>
        rw [List.nil_append, after?, if_neg (by simp [first c rfl])] at h
        cases h
    | cons c cs =>
      rw [List.cons_append, after?] at h
      split at h
      next same =>
        obtain ⟨more, hmore, hfound⟩ := ih others h
        exact ⟨more, by rw [after?, if_pos same, hmore], hfound⟩
      next => cases h

theorem after?_extend {same : Char → Char → Bool} {word found : List Char}
    (h : after? same word cs = some found) (rest : List Char) :
    after? same word (cs ++ rest) = some (found ++ rest) := by
  induction word generalizing cs with
  | nil =>
    cases h
    rfl
  | cons k word ih =>
    cases cs with
    | nil => cases h
    | cons c cs =>
      rw [after?] at h
      split at h
      next same =>
        rw [List.cons_append, after?, if_pos same]
        exact ih h
      next => cases h

/-- The text starts with a blank. -/
def BlankFirst (cs : List Char) : Prop :=
  ∃ b tail, cs = b :: tail ∧ isBlank b = true

theorem BlankFirst.stop (h : BlankFirst rest)
    (apart : ∀ c, isBlank c = true → p c = false) : ∀ c, rest.head? = some c → p c = false := by
  obtain ⟨b, tail, rfl, blank⟩ := h
  intro c hc
  cases hc
  exact apart b blank

theorem keyword?_append_inv {word : String} {found : List Char}
    (letters : ∀ k ∈ word.toList, ∀ n ∈ codesOf blankRanges, sameFolded k (Char.ofNat n) = false)
    (blank : BlankFirst rest) (h : keyword? word (cs ++ rest) = some found) :
    ∃ more, keyword? word cs = some more ∧ found = more ++ rest :=
  after?_append_inv (fun k hk => blank.stop fun _ => class_of_isBlank (letters k hk)) h

theorem run?_append_inv {run found : List Char}
    (stop : ∀ c, rest.head? = some c → p c = false) (h : run? p (cs ++ rest) = some (run, found)) :
    ∃ more, run? p cs = some (run, more) ∧ found = more ++ rest := by
  obtain ⟨nonempty, taken, left⟩ := run?_eq_some.mp h
  obtain ⟨taken', left'⟩ := run_append_stop cs stop
  exact ⟨_, run?_eq_some.mpr ⟨nonempty, taken'.symm.trans taken, rfl⟩, left.symm.trans left'⟩

theorem run?_extend {run found : List Char} (h : run? p cs = some (run, found))
    (stop : ∀ c, rest.head? = some c → p c = false) :
    run? p (cs ++ rest) = some (run, found ++ rest) := by
  obtain ⟨nonempty, taken, left⟩ := run?_eq_some.mp h
  obtain ⟨taken', left'⟩ := run_append_stop cs stop
  exact run?_eq_some.mpr ⟨nonempty, taken'.trans taken, left ▸ left'⟩

theorem blanks?_append_inv {found : List Char} (last : NoBlankLast cs)
    (h : blanks? (cs ++ rest) = some found) :
    (cs = [] ∧ found = skipBlanks rest) ∨
      ∃ more, blanks? cs = some more ∧ found = more ++ rest := by
  obtain ⟨b, tail, hcons, blank, rfl⟩ := exists_of_blanks? h
  cases cs with
  | nil =>
    obtain rfl : rest = b :: tail := hcons
    exact .inl ⟨rfl, (List.dropWhile_cons_of_pos blank).symm⟩
  | cons c cs =>
    obtain ⟨rfl, htail⟩ := List.cons.inj hcons
    obtain rfl : cs ++ rest = tail := htail
    have nonempty : cs ≠ [] := by
      rintro rfl
      rw [last c rfl] at blank
      cases blank
    obtain ⟨skipped, -⟩ := skipBlanks_append nonempty (last.of_suffix (List.suffix_cons c cs)) rest
    exact .inr ⟨skipBlanks cs, by rw [blanks?, if_pos blank], skipped⟩

theorem blanks?_extend {found : List Char} (h : blanks? cs = some found) (last : NoBlankLast cs)
    (rest : List Char) : blanks? (cs ++ rest) = some (found ++ rest) := by
  obtain ⟨b, tail, rfl, blank, rfl⟩ := exists_of_blanks? h
  have nonempty : tail ≠ [] := by
    rintro rfl
    rw [last b rfl] at blank
    cases blank
  rw [List.cons_append, blanks?, if_pos blank,
    (skipBlanks_append nonempty (last.of_suffix (List.suffix_cons b tail)) rest).1]

/-! Lists with a separator. -/

variable {separator : Char} {separates : Char → Bool} {part : List Char} {parts : List (List Char)}

theorem intercalate_cons (separator : Char) (part : List Char) (parts : List (List Char)) :
    List.intercalate [separator] (part :: parts) = part ++ parts.flatMap (separator :: ·) := by
  induction parts generalizing part with
  | nil => rw [List.intercalate_singleton, List.flatMap_nil, List.append_nil]
  | cons next parts ih =>
    rw [List.intercalate_cons_cons, ih next, List.append_assoc, List.singleton_append,
      List.flatMap_cons, List.cons_append]

theorem mem_of_mem_intercalate (h : c ∈ List.intercalate [separator] parts) :
    c = separator ∨ ∃ part ∈ parts, c ∈ part := by
  cases parts with
  | nil => cases h
  | cons part parts =>
    rw [intercalate_cons, List.mem_append, List.mem_flatMap] at h
    obtain h | ⟨other, hother, h⟩ := h
    · exact .inr ⟨part, List.mem_cons_self, h⟩
    · rcases List.mem_cons.mp h with rfl | h
      · exact .inl rfl
      · exact .inr ⟨other, List.mem_cons_of_mem part hother, h⟩

theorem runsFrom_append (h : ∀ c ∈ cs, separates c = false) (current rest : List Char) :
    runsFrom separates current (cs ++ rest) = runsFrom separates (current ++ cs) rest := by
  induction cs generalizing current with
  | nil => rw [List.nil_append, List.append_nil]
  | cons c cs ih =>
    obtain ⟨hc, hcs⟩ := List.forall_mem_cons.mp h
    rw [List.cons_append, runsFrom, if_neg (by simp [hc]), ih hcs, List.append_assoc,
      List.singleton_append]

theorem runsFrom_separated (h : separates separator = true)
    (plain : ∀ part ∈ parts, part ≠ [] ∧ ∀ c ∈ part, separates c = false) (current : List Char) :
    runsFrom separates current (parts.flatMap (separator :: ·)) =
      (if current.isEmpty then [] else [current]) ++ parts := by
  induction parts generalizing current with
  | nil => rw [List.flatMap_nil, runsFrom, List.append_nil]
  | cons part parts ih =>
    obtain ⟨⟨nonempty, hpart⟩, hparts⟩ := List.forall_mem_cons.mp plain
    have found : part.isEmpty = false := by simpa using nonempty
    rw [List.flatMap_cons, List.cons_append, runsFrom, if_pos h, runsFrom_append hpart,
      ih hparts, List.nil_append, found]
    rfl

theorem runs_intercalate (h : separates separator = true)
    (plain : ∀ part ∈ parts, part ≠ [] ∧ ∀ c ∈ part, separates c = false) :
    runs separates (List.intercalate [separator] parts) = parts := by
  cases parts with
  | nil => rfl
  | cons part parts =>
    -- A separator in front changes nothing.
    have all := runsFrom_separated h plain []
    rw [List.flatMap_cons, List.cons_append, runsFrom, if_pos h] at all
    rw [runs, intercalate_cons]
    exact all

/-! Indices. -/

theorem index?_eq_some {index : Nat} : index? cs = some index ↔
    cs ≠ [] ∧ (∀ c ∈ cs, c.isDigit = true) ∧ Nat.ofDigitChars 10 cs 0 = index ∧
      index < indexLimit := by
  rw [index?, Option.ite_none_right_eq_some, List.all_eq_true, Option.some.injEq]
  constructor
  · rintro ⟨⟨nonempty, digits, fits⟩, rfl⟩
    exact ⟨nonempty, digits, rfl, fits⟩
  · rintro ⟨nonempty, digits, rfl, fits⟩
    exact ⟨⟨nonempty, digits, fits⟩, rfl⟩

theorem digits_of_index? {index : Nat} (h : index? cs = some index) :
    cs ≠ [] ∧ ∀ c ∈ cs, c.isDigit = true := by
  obtain ⟨nonempty, digits, -, -⟩ := index?_eq_some.mp h
  exact ⟨nonempty, digits⟩

theorem ofDigitChars_zeros (zeros : Nat) (digits : List Char) :
    Nat.ofDigitChars 10 (List.replicate zeros '0' ++ digits) 0 = Nat.ofDigitChars 10 digits 0 := by
  induction zeros with
  | zero => rfl
  | succ zeros ih =>
    rw [List.replicate_succ, List.cons_append, Nat.ofDigitChars_cons]
    exact ih

/-- The digits of a number denote it with any zeros before them, unless it is past the indices. -/
theorem index?_zeros (zeros n : Nat) :
    index? (List.replicate zeros '0' ++ Nat.toDigits 10 n) =
      if n < indexLimit then some n else none := by
  have digits : (List.replicate zeros '0' ++ Nat.toDigits 10 n).all Char.isDigit = true := by
    refine List.all_eq_true.mpr fun c h => ?_
    rcases List.mem_append.mp h with h | h
    · rw [List.eq_of_mem_replicate h]
      rfl
    · exact Nat.isDigit_of_mem_toDigits (by decide) (by decide) h
  rw [index?, ofDigitChars_zeros, Nat.ofDigitChars_ten_toDigits]
  simp [Nat.toDigits_ne_nil, digits]

theorem index?_toDigits (n : Nat) :
    index? (Nat.toDigits 10 n) = if n < indexLimit then some n else none :=
  index?_zeros 0 n

end DocumentStore.Text
