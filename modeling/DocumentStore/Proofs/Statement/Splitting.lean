import DocumentStore.Proofs.Statement.Clauses
import DocumentStore.Statement.Select

/- Where the clauses at the end of a query are cut off. A text is cut before the longest end of it
   that is written in clauses (`cut_split`), and in one way only (`Cut.split_eq`). From that both
   directions follow: nothing is cut off that is not read (`split_recorded`), and all clauses before
   which white space stands are cut off (`split_before_block`). The reader asks for no white space, so
   that of clauses with a comma alone between them it reads more than are cut off, and the others stay
   in the query (`not_split_before_block`). -/
namespace DocumentStore.Options

open Text

variable {cs rest key value text body tail s t b : List Char}
  {clauses : List (List Char × List Char)}

/-! Where a text is cut. -/

/-- The text is cut before the longest end of it that is written in clauses. -/
structure Cut (cs body tail : List Char) : Prop where
  whole : body ++ tail = cs
  ends : tail = [] ∨ isTail tail = true
  longest : ∀ s, s <:+ cs → isTail s = true → s.length ≤ tail.length

theorem Cut.spaced (h : Cut cs body tail) : Spaced tail := by
  apply spaced_iff.mpr
  obtain rfl | ends := h.ends
  · exact .inr rfl
  · exact .inl ends

theorem cut_split (cs : List Char) : Cut cs (Options.split cs).1 (Options.split cs).2 := by
  induction cs with
  | nil =>
    refine ⟨rfl, .inl rfl, fun s hs _ => ?_⟩
    rw [List.suffix_nil.mp hs]
    exact Nat.le_refl _
  | cons c cs ih =>
    rw [Options.split]
    split
    next here => exact ⟨rfl, .inr here, fun s hs _ => hs.length_le⟩
    next not =>
      refine ⟨congrArg (c :: ·) ih.whole, ih.ends, fun s hs h => ?_⟩
      obtain rfl | hs := List.suffix_cons_iff.mp hs
      · exact absurd h not
      · exact ih.longest s hs h

theorem Cut.length_le {body' tail' : List Char} (h : Cut cs body tail) (h' : Cut cs body' tail') :
    tail'.length ≤ tail.length := by
  obtain rfl | ends := h'.ends
  · exact Nat.zero_le _
  · exact h.longest tail' ⟨body', h'.whole⟩ ends

/-- There is one way to cut a text. -/
theorem Cut.split_eq (h : Cut cs body tail) : Options.split cs = (body, tail) := by
  have cut := cut_split cs
  have same : (Options.split cs).2.length = tail.length :=
    Nat.le_antisymm (h.length_le cut) (cut.length_le h)
  obtain ⟨hbody, htail⟩ := List.append_inj' (cut.whole.trans h.whole.symm) same
  rw [← hbody, ← htail]

theorem Cut.again (h : Cut cs body tail) : Cut body body [] := by
  refine ⟨List.append_nil body, .inl rfl, fun s hs found => ?_⟩
  obtain ⟨first, rfl⟩ := hs
  obtain ⟨clauses, nonempty, written⟩ := isTail_iff.mp found
  obtain ⟨others, written'⟩ := h.spaced
  have longer : isTail (s ++ tail) = true := isTail_iff.mpr
    ⟨clauses ++ others, List.append_ne_nil_of_left_ne_nil nonempty _, written.append written'⟩
  have le := h.longest (s ++ tail) ⟨first, by rw [← List.append_assoc, h.whole]⟩ longer
  rw [List.length_append] at le
  rw [List.length_nil]
  omega

theorem split_plain (plain : '=' ∉ cs) : Options.split cs = (cs, []) := by
  apply Cut.split_eq
  refine ⟨List.append_nil cs, .inl rfl, fun s hs found => ?_⟩
  obtain ⟨clauses, nonempty, written⟩ := isTail_iff.mp found
  cases written with
  | nil => exact absurd rfl nonempty
  | cons isGap written =>
    cases written
    refine absurd (hs.subset ?_) plain
    simp

/-! Values in quotes. -/

/-- The value without the quotes before and behind it. -/
def Unquotes (given value : List Char) : Prop :=
  (∃ opening closing, given = opening ++ (value ++ closing) ∧
    (∀ c ∈ opening, isQuote c = true) ∧ ∀ c ∈ closing, isQuote c = true) ∧
    (∀ c, value.head? = some c → isQuote c = false) ∧
      ∀ c, value.getLast? = some c → isQuote c = false

theorem unquotes_unquote (given : List Char) : Unquotes given (unquote given) := by
  obtain ⟨closing, hrest, quotes⟩ := dropEndWhile_eq_append isQuote (given.dropWhile isQuote)
  refine ⟨⟨given.takeWhile isQuote, closing, ?_, List.all_eq_true.mp List.all_takeWhile, quotes⟩,
    ?_, getLast?_dropEndWhile _⟩
  · rw [unquote, ← hrest, List.takeWhile_append_dropWhile]
  · intro c hc
    apply stop_dropWhile given c
    rw [hrest, List.head?_append, ← unquote, hc, Option.some_or]

theorem Unquotes.unquote_eq {given : List Char} (h : Unquotes given value) :
    unquote given = value := by
  obtain ⟨⟨opening, closing, rfl, quotes, quotes'⟩, first, last⟩ := h
  rw [unquote, List.dropWhile_append_of_pos quotes]
  cases value with
  | nil =>
    rw [List.nil_append, List.dropWhile_eq_nil_iff.mpr quotes']
    rfl
  | cons c value =>
    have stays : ¬isQuote c = true := by simp [first c rfl]
    rw [List.cons_append, List.dropWhile_cons_of_neg stays, ← List.cons_append,
      dropEndWhile_append_of_all _ quotes', dropEndWhile_eq last]

/-! What is cut off. -/

/-- The last clause with this key gives this value. -/
def Gives (clauses : List (List Char × List Char)) (key value : String) : Prop :=
  ∃ before name given after, clauses = before ++ (name, given) :: after ∧ capitals name = key ∧
    Unquotes given value.toList ∧ ∀ clause ∈ after, capitals clause.1 ≠ key

/-- **Every clause is recorded** of a text in clauses, and nothing else is. -/
theorem Clauses.parse_records (h : Clauses cs clauses) : ∃ options, parse cs = .ok options ∧
    ∀ key value, options.get? key = some value ↔ Gives clauses key value := by
  refine ⟨_, h.parse_eq, fun key value => ?_⟩
  rw [KeyMap.get?_ofList, KeyMap.lookup_reverse_eq_some_iff]
  constructor
  · intro found
    obtain ⟨before, after, split, last⟩ := found
    obtain ⟨before, others, rfl, rfl, hothers⟩ := List.map_eq_append_iff.mp split
    obtain ⟨⟨name, given⟩, after, rfl, here, rfl⟩ := List.map_eq_cons_iff.mp hothers
    obtain ⟨rfl, rfl⟩ := Prod.mk.inj here
    refine ⟨before, name, given, after, rfl, rfl, ?_, fun clause hc => ?_⟩
    · rw [String.toList_ofList]
      exact unquotes_unquote given
    · exact last _ (List.mem_map_of_mem hc)
  · intro gives
    obtain ⟨before, name, given, after, rfl, rfl, unquotes, last⟩ := gives
    refine ⟨before.map recorded, after.map recorded, ?_, ?_⟩
    · rw [List.map_append, List.map_cons, recorded, unquotes.unquote_eq, String.ofList_toList]
    · intro e he
      obtain ⟨clause, hclause, rfl⟩ := List.mem_map.mp he
      exact last clause hclause

/-- **What is split off is recorded.** The two parts of a text make it up, and no longer end of it is
    written in clauses. The second part is read without an error, and each of its clauses gives an
    option unless a later one has the same key. From the first part nothing more is split off. -/
theorem split_recorded (cs : List Char) :
    (Options.split cs).1 ++ (Options.split cs).2 = cs ∧
      (∀ s clauses, s <:+ cs → clauses ≠ [] → Clauses s clauses →
        s.length ≤ (Options.split cs).2.length) ∧
      (∃ clauses options, Clauses (Options.split cs).2 clauses ∧
        parse (Options.split cs).2 = .ok options ∧
          ∀ key value, options.get? key = some value ↔ Gives clauses key value) ∧
      Options.split (Options.split cs).1 = ((Options.split cs).1, []) := by
  have cut := cut_split cs
  have longest (s : List Char) (clauses : List (List Char × List Char)) (suffix : s <:+ cs)
      (nonempty : clauses ≠ []) (written : Clauses s clauses) :
      s.length ≤ (Options.split cs).2.length :=
    cut.longest s suffix (isTail_iff.mpr ⟨clauses, nonempty, written⟩)
  obtain ⟨clauses, written⟩ := clauses_split cs
  obtain ⟨options, parsed, records⟩ := written.parse_records
  exact ⟨cut.whole, longest, ⟨clauses, options, written, parsed, records⟩, cut.again.split_eq⟩

/-! Clauses behind a text. -/

theorem Reads.of_cons {c : Char} (h : Reads (c :: cs) clauses) (none : clause? (c :: cs) = none) :
    Reads cs clauses := by
  intro fuel enough
  have more := h (fuel + 1) (Nat.succ_le_succ enough)
  rwa [clausesIn_cons, none] at more

theorem exists_written {found : Clause} (h : clause? b = some found) :
    ∃ key value text rest, Written key value text ∧ b = text ++ rest := by
  obtain ⟨-, text, written, whole⟩ := clause?_iff.mp h
  exact ⟨_, _, text, _, written, whole⟩

theorem hasWord_of_isTail (suffix : s <:+ body) (nonempty : s ≠ []) (last : NoBlankLast body)
    (blank : BlankFirst t) (found : isTail (s ++ t) = true) : HasWord "WITH" body := by
  obtain ⟨fuel, hfuel⟩ := Nat.exists_eq_add_one_of_ne_zero
    (mt List.eq_nil_of_length_eq_zero (List.append_ne_nil_of_left_ne_nil nonempty t))
  rw [isTail, hfuel] at found
  obtain ⟨start, found, hstart, hclause, -⟩ := clausesOnly_succ.mp found
  obtain ⟨afterWord, key, -, -, hword, hkey, -⟩ := clause?_eq_some.mp hclause
  obtain ⟨rfl, -⟩ | ⟨u, hu, rfl⟩ := blanks?_append_inv (last.of_suffix suffix) hstart
  · exact absurd rfl nonempty
  obtain ⟨after, hafter, rfl⟩ := keyword?_append_inv (by decide +kernel) blank hword
  obtain ⟨-, gap, isGap, rfl⟩ := blanks?_eq_some.mp hu
  obtain ⟨first, rfl⟩ := suffix
  refine ⟨first ++ gap, u, after, (List.append_assoc _ _ _).symm, hafter, ?_, ?_⟩
  · obtain ⟨inner, b, rfl, blank⟩ := isGap.exists_concat
    rw [← List.append_assoc, List.getLast?_concat]
    exact isWord_of_isBlank blank
  · cases after with
    | nil => rfl
    | cons c after =>
      obtain ⟨b, tail, hcons, blank, -⟩ := exists_of_blanks? hkey
      obtain ⟨rfl, -⟩ := List.cons.inj hcons
      exact isWord_of_isBlank blank

/-- **Behind a text** without the word for clauses another text is split as it is split alone. -/
theorem split_behind (unsplit : ¬HasWord "WITH" body) (last : NoBlankLast body)
    (blank : BlankFirst t) :
    Options.split (body ++ t) = (body ++ (Options.split t).1, (Options.split t).2) := by
  have cut := cut_split t
  apply Cut.split_eq
  refine ⟨by rw [List.append_assoc, cut.whole], cut.ends, fun s hs found => ?_⟩
  obtain ⟨first, whole⟩ := hs
  obtain ⟨more, rfl, rfl⟩ | ⟨more, rfl, rfl⟩ := List.append_eq_append_iff.mp whole
  · obtain rfl | nonempty := eq_or_ne more []
    · exact cut.longest t (List.suffix_refl t) found
    · exact absurd (hasWord_of_isTail ⟨first, rfl⟩ nonempty last blank found) unsplit
  · exact cut.longest s ⟨more, rfl⟩ found

/-- Where white space is missing before a clause, the start of the block is not split off. -/
theorem split_apart (apart : ¬Spaced (' ' :: b)) : ∃ left rest, left ≠ [] ∧ b = left ++ rest ∧
    Options.split (' ' :: b) = (' ' :: left, rest) := by
  have cut := cut_split (' ' :: b)
  generalize Options.split (' ' :: b) = parts at cut ⊢
  obtain ⟨body, tail⟩ := parts
  cases body with
  | nil =>
    obtain rfl : tail = ' ' :: b := cut.whole
    exact absurd cut.spaced apart
  | cons c left =>
    obtain ⟨rfl, whole⟩ := List.cons.inj cut.whole
    refine ⟨left, tail, ?_, whole.symm, rfl⟩
    rintro rfl
    obtain rfl : tail = b := whole
    obtain ⟨clauses, here⟩ := cut.spaced
    have blank : ∀ c ∈ [' '], isBlank c = true := by decide
    exact apart ⟨clauses, here.blanks blank⟩

/-- **The clauses that are read** are all split off behind a text without the word for them, if white
    space stands before each, and then a query has all their options. If it does not, the start of
    them is left in the query. -/
theorem split_before_block {options : Options} (unsplit : ¬HasWord "WITH" body)
    (last : NoBlankLast body)
    (starts : ∃ key value text rest, Written key value text ∧ b = text ++ rest)
    (accepted : parse b = .ok options) :
    (Spaced (' ' :: b) →
      Options.split (body ++ ' ' :: b) = (body, ' ' :: b) ∧ parse (' ' :: b) = .ok options ∧
        ∀ cs marked, Select.head? (trim cs) = some (marked, body ++ ' ' :: b) →
          Select.parse cs = Select.ofParts marked body options) ∧
      (¬Spaced (' ' :: b) → ∃ left rest, left ≠ [] ∧ b = left ++ rest ∧
        Options.split (body ++ ' ' :: b) = (body ++ ' ' :: left, rest)) := by
  obtain ⟨key, value, text, rest, written, rfl⟩ := starts
  have behind := split_behind unsplit last ⟨' ', text ++ rest, rfl, by decide⟩
  constructor
  · intro spaced
    obtain ⟨clauses, spaced⟩ := spaced
    have nonempty : clauses ≠ [] := by
      rintro rfl
      have none := spaced.skipBlanks_nil
      obtain ⟨c, more, rfl, -⟩ := written.exists_cons
      rw [skipBlanks_space (written.noBlankFirst rest)] at none
      cases none
    have whole : Options.split (' ' :: (text ++ rest)) = ([], ' ' :: (text ++ rest)) :=
      if_pos (isTail_iff.mpr ⟨clauses, nonempty, spaced⟩)
    have same : parse (' ' :: (text ++ rest)) = .ok options := by
      have reads := spaced.reads.of_cons (clause?_of_apart (by decide) _)
      rw [spaced.parse_eq, eq_of_parse reads accepted]
    rw [whole, List.append_nil] at behind
    refine ⟨behind, same, fun cs marked head => ?_⟩
    simp only [Select.parse, head, behind, same]
  · intro apart
    obtain ⟨left, more, nonempty, whole, hsplit⟩ := split_apart apart
    rw [hsplit] at behind
    exact ⟨left, more, nonempty, whole, behind⟩

/-- Two clauses with a comma and a space between them, and with the comma alone. -/
theorem split_before_block_orders :
    let body := "* FROM c WHERE c.a = 1".toList
    let spaced := "WITH db=shop, WITH table=orders".toList
    let joined := "WITH db=shop,WITH table=orders".toList
    let options : Options := KeyMap.ofList [("DB", "shop"), ("TABLE", "orders")]
    (Options.split (body ++ ' ' :: spaced) = (body, ' ' :: spaced) ∧
      Select.parse ("SELECT ".toList ++ (body ++ ' ' :: spaced)) =
        Select.ofParts false body options) ∧
      ∃ left rest, left ≠ [] ∧ joined = left ++ rest ∧
        Options.split (body ++ ' ' :: joined) = (body ++ ' ' :: left, rest) := by
  intro body spaced joined options
  have unsplit : ¬HasWord "WITH" body := by decide +kernel
  have last : NoBlankLast body := by decide +kernel
  have first : parse spaced = .ok options := by decide +kernel
  have second : parse joined = .ok options := by decide +kernel
  have start : clause? spaced =
      some ⟨"db".toList, "shop".toList, ", WITH table=orders".toList⟩ := rfl
  have start' : clause? joined =
      some ⟨"db".toList, "shop".toList, ",WITH table=orders".toList⟩ := rfl
  have head : Select.head? (trim ("SELECT ".toList ++ (body ++ ' ' :: spaced))) =
      some (false, body ++ ' ' :: spaced) := by decide +kernel
  obtain ⟨whole, -⟩ := split_before_block unsplit last (exists_written start) first
  obtain ⟨-, part⟩ := split_before_block unsplit last (exists_written start') second
  obtain ⟨cut, -, query⟩ := whole (by decide +kernel)
  exact ⟨⟨cut, query _ false head⟩, part (by decide +kernel)⟩

/-- **A comma alone** between two clauses is enough for the reader and not for the splitter: nothing is
    split off, and the query has none of the options. -/
theorem not_split_before_block :
    let body := "SELECT * FROM c".toList
    let block := "WITH db=d,WITH collection=x".toList
    ¬HasWord "WITH" body ∧ NoBlankLast body ∧
      parse block = .ok (KeyMap.ofList [("DB", "d"), ("COLLECTION", "x")]) ∧
        Options.split (body ++ ' ' :: block) = (body ++ ' ' :: block, []) ∧
          Select.parse (body ++ ' ' :: block) =
            .error (.validation .missingContainer) := by
  decide +kernel

end DocumentStore.Options
