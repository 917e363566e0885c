import DocumentStore.Proofs.Statement.Options

/- The grammar of the clauses at the end of a query. `Clauses` says how they are written: each after
   white space, with blanks around its equals sign, and with at most one comma behind it. What a text
   is split into ends in such clauses (`clauses_split`), and they are what is read
   (`Clauses.reads`), so a text is written in them in one way only.

   The splitter and the reader do not ask for the same. An end is split off if it is written in clauses,
   and in at least one (`isTail_iff`). The reader accepts clauses also where no white space stands
   before them (`isBlock_iff`), so it accepts all that is split off and more. -/
namespace DocumentStore.Options

open Text

variable {cs rest key value text s t : List Char}
  {clauses others : List (List Char × List Char)} {fuel : Nat}

/-! One clause. -/

/-- The text of a clause with this key and this value. -/
inductive Written (key value : List Char) : List Char → Prop where
  | clause {word gap before after : List Char} (folds : Folds "WITH" word) (isGap : IsGap gap)
      (named : key ≠ [] ∧ ∀ c ∈ key, isName c = true) (blank : ∀ c ∈ before, isBlank c = true)
      (blank' : ∀ c ∈ after, isBlank c = true) (given : value ≠ [] ∧ ∀ c ∈ value, isValue c = true) :
      Written key value (word ++ (gap ++ (key ++ (before ++ '=' :: (after ++ value)))))

theorem noBlankFirst_with {word : List Char} (h : Folds "WITH" word) (rest : List Char) :
    NoBlankFirst (word ++ rest) :=
  h.noBlankFirst (k := 'W') rfl (by decide +kernel) rest

theorem Written.noBlankFirst (h : Written key value text) (rest : List Char) :
    NoBlankFirst (text ++ rest) := by
  cases h with
  | clause folds =>
    rw [List.append_assoc]
    exact noBlankFirst_with folds _

theorem Written.exists_cons (h : Written key value text) :
    ∃ c more, text = c :: more ∧ sameFolded 'W' c = true := by
  cases h with
  | clause folds =>
    obtain ⟨c, word, same, -, rfl⟩ := List.forall₂_cons_left_iff.mp folds
    exact ⟨c, _, rfl, same⟩

theorem Written.given (h : Written key value text) :
    value ≠ [] ∧ ∀ c ∈ value, isValue c = true := by
  cases h
  assumption

theorem Written.append {more : List Char} (h : Written key value text)
    (values : ∀ c ∈ more, isValue c = true) : Written key (value ++ more) (text ++ more) := by
  cases h with
  | clause folds isGap named blank blank' given =>
    have longer : value ++ more ≠ [] ∧ ∀ c ∈ value ++ more, isValue c = true :=
      ⟨List.append_ne_nil_of_left_ne_nil given.1 more, fun c hc =>
        (List.mem_append.mp hc).elim (given.2 c) (values c)⟩
    have whole := Written.clause folds isGap named blank blank' longer
    simpa only [List.append_assoc, List.cons_append] using whole

theorem Written.append_inv {more : List Char} (h : Written key (value ++ more) text)
    (nonempty : value ≠ []) : ∃ start, Written key value start ∧ text = start ++ more := by
  cases h with
  | clause folds isGap named blank blank' given =>
    refine ⟨_, .clause folds isGap named blank blank'
      ⟨nonempty, fun c hc => given.2 c (List.mem_append_left more hc)⟩, ?_⟩
    simp only [List.append_assoc, List.cons_append]

/-- **A clause** is found where it is written, with nothing behind it that continues its value. -/
theorem clause?_iff {found : Clause} : clause? cs = some found ↔
    (∀ c, found.rest.head? = some c → isValue c = false) ∧
      ∃ text, Written found.key found.value text ∧ cs = text ++ found.rest := by
  constructor
  · intro h
    obtain ⟨afterWord, afterGap, afterKey, afterEquals, hword, hgap, hkey, hequals, hvalue⟩ :=
      clause?_eq_some.mp h
    obtain ⟨word, folds, rfl⟩ := keyword?_eq_some.mp hword
    obtain ⟨-, gap, isGap, rfl⟩ := blanks?_eq_some.mp hgap
    obtain ⟨nonempty, name, -, rfl⟩ := run?_eq_some_append.mp hkey
    obtain ⟨-, before, blank, rfl⟩ := skipBlanks_eq_iff.mp hequals
    obtain ⟨given, isValue, stop, hskipped⟩ := run?_eq_some_append.mp hvalue
    obtain ⟨-, after, blank', rfl⟩ := skipBlanks_eq_iff.mp hskipped
    refine ⟨stop, _, .clause folds isGap ⟨nonempty, name⟩ blank blank' ⟨given, isValue⟩, ?_⟩
    simp only [List.append_assoc, List.cons_append]
  · intro h
    obtain ⟨stop, text, written, rfl⟩ := h
    obtain @⟨word, gap, before, after, folds, isGap, named, blank, blank', given⟩ := written
    have atValue : NoBlankFirst (found.value ++ found.rest) :=
      noBlankFirst_append given.1 (fun c hc => isBlank_of_isValue (given.2 c hc)) _
    have atKey (more : List Char) : NoBlankFirst (found.key ++ more) :=
      noBlankFirst_append named.1 (fun c hc => isBlank_of_isName (named.2 c hc)) more
    have afterKey : ∀ c, (before ++ '=' :: (after ++ (found.value ++ found.rest))).head? = some c →
        isName c = false := by
      intro c hc
      cases before with
      | nil =>
        cases hc
        decide
      | cons b before =>
        cases hc
        exact isName_of_isBlank (blank c List.mem_cons_self)
    simp only [List.append_assoc, List.cons_append]
    refine clause?_eq_some.mpr ⟨_, _, _, _, keyword?_eq_some.mpr ⟨word, folds, rfl⟩,
      blanks?_eq_some.mpr ⟨atKey _, gap, isGap, rfl⟩, run?_append named.1 named.2 afterKey,
      skipBlanks_blanks blank (noBlankFirst_cons (by decide)), ?_⟩
    rw [skipBlanks_blanks blank' atValue]
    exact run?_append given.1 given.2 stop

/-! Clauses one after the other. -/

/-- The text consists of clauses with these keys and values, each after white space and with at most
    one comma behind it. -/
inductive Clauses : List Char → List (List Char × List Char) → Prop where
  | nil {blanks : List Char} (blank : ∀ c ∈ blanks, isBlank c = true) : Clauses blanks []
  | cons {gap text blanks comma rest key value : List Char}
      {clauses : List (List Char × List Char)} (isGap : IsGap gap)
      (written : Written key value text) (blank : ∀ c ∈ blanks, isBlank c = true)
      (separates : comma = [] ∨ comma = [',']) (others : Clauses rest clauses) :
      Clauses (gap ++ (text ++ (blanks ++ (comma ++ rest)))) ((key, value) :: clauses)

theorem Clauses.stop (h : Clauses cs clauses) : ∀ c, cs.head? = some c → isBlank c = true := by
  intro c hc
  cases h with
  | nil blank => exact blank c (List.mem_of_head? hc)
  | cons isGap =>
    obtain ⟨b, tail, first, blank⟩ := isGap.blankFirst _
    rw [first] at hc
    cases hc
    exact blank

theorem Clauses.stop_behind {blanks comma : List Char} (h : Clauses cs clauses)
    (blank : ∀ c ∈ blanks, isBlank c = true) (separates : comma = [] ∨ comma = [',']) :
    ∀ c, (blanks ++ (comma ++ cs)).head? = some c → isValue c = false := by
  intro c hc
  cases blanks with
  | cons b blanks =>
    cases hc
    exact isValue_of_isBlank (blank c List.mem_cons_self)
  | nil =>
    obtain rfl | rfl := separates
    · exact isValue_of_isBlank (h.stop c hc)
    · cases hc
      decide

theorem Clauses.clause?_append {blanks comma : List Char} (h : Clauses rest clauses)
    (written : Written key value text) (blank : ∀ c ∈ blanks, isBlank c = true)
    (separates : comma = [] ∨ comma = [',']) : clause? (text ++ (blanks ++ (comma ++ rest))) =
      some ⟨key, value, blanks ++ (comma ++ rest)⟩ :=
  clause?_iff.mpr ⟨h.stop_behind blank separates, text, written, rfl⟩

/-- **The clauses are read** as they are written. -/
theorem Clauses.reads (h : Clauses cs clauses) : Reads cs clauses := by
  induction h with
  | @nil blanks blank =>
    have none : Reads [] [] := fun fuel _ => by cases fuel <;> rfl
    rw [← List.append_nil blanks]
    exact none.blanks blank
  | @cons gap text blanks comma rest key value clauses isGap written blank separates others ih =>
    have found := others.clause?_append written blank separates
    have behind : Reads (comma ++ rest) clauses := by
      obtain rfl | rfl := separates
      · exact ih
      · exact ih.cons (clause?_of_apart (by decide) rest)
    exact (reads_clause found (behind.blanks blank)).blanks isGap.2

/-- A text is written in clauses in one way only. -/
theorem Clauses.unique (h : Clauses cs clauses) (h' : Clauses cs others) : clauses = others :=
  (h.reads _ (Nat.le_refl _)).symm.trans (h'.reads _ (Nat.le_refl _))

theorem clauses_of_clausesOnly (h : clausesOnly fuel cs = true) :
    ∃ clauses, clauses ≠ [] ∧ Clauses cs clauses := by
  induction fuel generalizing cs with
  | zero => cases h
  | succ fuel ih =>
    obtain ⟨start, found, hstart, hclause, goes⟩ := clausesOnly_succ.mp h
    obtain ⟨-, gap, isGap, rfl⟩ := blanks?_eq_some.mp hstart
    obtain ⟨-, text, written, rfl⟩ := clause?_iff.mp hclause
    cases goes with
    | done done =>
      obtain ⟨-, blanks, blank, hrest⟩ := skipBlanks_eq_iff.mp done
      rw [hrest]
      exact ⟨_, List.cons_ne_nil _ _, .cons isGap written blank (.inl rfl) (.nil nofun)⟩
    | comma comma h =>
      obtain ⟨-, blanks, blank, hrest⟩ := skipBlanks_eq_iff.mp comma
      rw [hrest]
      obtain done | h := h
      · obtain ⟨-, last, blank', rfl⟩ := skipBlanks_eq_iff.mp done
        rw [List.append_nil]
        exact ⟨_, List.cons_ne_nil _ _, .cons isGap written blank (.inr rfl) (.nil blank')⟩
      · obtain ⟨clauses, -, others⟩ := ih h
        exact ⟨_, List.cons_ne_nil _ _, .cons isGap written blank (.inr rfl) others⟩
    | clause _ _ h =>
      obtain ⟨clauses, -, others⟩ := ih h
      have whole : Clauses (gap ++ (text ++ ([] ++ ([] ++ found.rest)))) _ :=
        .cons isGap written nofun (.inl rfl) others
      exact ⟨_, List.cons_ne_nil _ _, whole⟩

/-- **A text is split** before clauses, if there are any at its end. -/
theorem clauses_split (cs : List Char) : ∃ clauses, Clauses (Options.split cs).2 clauses := by
  induction cs with
  | nil => exact ⟨[], .nil nofun⟩
  | cons c cs ih =>
    rw [split]
    split
    next whole =>
      obtain ⟨clauses, -, written⟩ := clauses_of_clausesOnly whole
      exact ⟨clauses, written⟩
    next => exact ih

/-! Ends that are split off. -/

theorem Clauses.blanks {blanks : List Char} (h : Clauses cs clauses)
    (blank : ∀ c ∈ blanks, isBlank c = true) : Clauses (blanks ++ cs) clauses := by
  cases h with
  | nil blank' => exact .nil (List.forall_mem_append.mpr ⟨blank, blank'⟩)
  | @cons gap _ _ _ _ _ _ _ isGap written blank' separates others =>
    have wider : IsGap (blanks ++ gap) :=
      ⟨List.append_ne_nil_of_right_ne_nil blanks isGap.1,
        List.forall_mem_append.mpr ⟨blank, isGap.2⟩⟩
    rw [← List.append_assoc]
    exact .cons wider written blank' separates others

theorem Clauses.append (h : Clauses s clauses) (h' : Clauses t others) :
    Clauses (s ++ t) (clauses ++ others) := by
  induction h with
  | nil blank => exact h'.blanks blank
  | cons isGap written blank separates _ ih =>
    simp only [List.append_assoc, List.cons_append] at ih ⊢
    exact .cons isGap written blank separates ih

theorem Clauses.skipBlanks_cons (h : Clauses cs ((key, value) :: clauses)) :
    ∃ c more, skipBlanks cs = c :: more ∧ c ≠ ',' := by
  cases h with
  | cons isGap written =>
    obtain ⟨c, text, rfl, same⟩ := written.exists_cons
    rw [skipBlanks_blanks isGap.2 (written.noBlankFirst _)]
    refine ⟨c, _, rfl, ?_⟩
    rintro rfl
    cases same

theorem Clauses.skipBlanks_nil (h : Clauses cs []) : skipBlanks cs = [] := by
  cases h with
  | nil blank => exact List.dropWhile_eq_nil_iff.mpr blank

theorem clausesOnly_of_clauses (h : Clauses cs clauses) (nonempty : clauses ≠ [])
    (enough : cs.length ≤ fuel) : clausesOnly fuel cs = true := by
  induction fuel generalizing cs clauses with
  | zero =>
    rw [List.eq_nil_of_length_eq_zero (Nat.le_zero.mp enough)] at h
    exact absurd (h.unique (.nil nofun)) nonempty
  | succ fuel ih =>
    cases h with
    | nil => exact absurd rfl nonempty
    | @cons gap text blanks comma rest key value clauses isGap written blank separates others =>
      have found := others.clause?_append written blank separates
      have start : blanks? (gap ++ (text ++ (blanks ++ (comma ++ rest)))) = _ :=
        blanks?_eq_some.mpr ⟨written.noBlankFirst _, gap, isGap, rfl⟩
      refine clausesOnly_succ.mpr ⟨_, _, start, found, ?_⟩
      have shorter := (rest_of_clause? found).2
      have long := List.length_pos_of_ne_nil isGap.1
      simp only [List.length_append] at shorter enough
      obtain rfl | rfl := separates
      · have behind : Clauses (blanks ++ rest) clauses := others.blanks blank
        cases clauses with
        | nil => exact .done behind.skipBlanks_nil
        | cons next clauses =>
          obtain ⟨c, more, hmore, apart⟩ := behind.skipBlanks_cons
          refine .clause hmore apart (ih behind (List.cons_ne_nil _ _) ?_)
          simp only [List.length_append]
          omega
      · have le : rest.length ≤ fuel := by omega
        refine .comma (skipBlanks_blanks blank (noBlankFirst_cons (by decide))) ?_
        cases clauses with
        | nil => exact .inl others.skipBlanks_nil
        | cons next clauses => exact .inr (ih others (List.cons_ne_nil _ _) le)

/-- **The splitter looks for an end** that is written in clauses, and in at least one. -/
theorem isTail_iff : isTail cs = true ↔ ∃ clauses, clauses ≠ [] ∧ Clauses cs clauses := by
  constructor
  · exact clauses_of_clausesOnly
  · intro h
    obtain ⟨clauses, nonempty, written⟩ := h
    exact clausesOnly_of_clauses written nonempty (Nat.le_refl _)

/-- The text consists of clauses with white space before each. -/
def Spaced (cs : List Char) : Prop :=
  ∃ clauses, Clauses cs clauses

theorem spaced_iff : Spaced cs ↔ isTail cs = true ∨ skipBlanks cs = [] := by
  constructor
  · intro spaced
    obtain ⟨clauses, written⟩ := spaced
    cases clauses with
    | nil => exact .inr written.skipBlanks_nil
    | cons clause clauses => exact .inl (isTail_iff.mpr ⟨_, List.cons_ne_nil _ _, written⟩)
  · intro h
    obtain h | h := h
    · obtain ⟨clauses, -, written⟩ := isTail_iff.mp h
      exact ⟨clauses, written⟩
    · exact ⟨[], .nil (List.dropWhile_eq_nil_iff.mp h)⟩

instance (cs : List Char) : Decidable (Spaced cs) :=
  decidable_of_iff _ spaced_iff.symm

/-! What the reader accepts. -/

/-- The text consists of clauses as `Clauses` has them, but white space before a clause may be
    missing. -/
inductive Joined : List Char → Prop where
  | nil {blanks : List Char} (blank : ∀ c ∈ blanks, isBlank c = true) : Joined blanks
  | cons {gap text blanks comma rest key value : List Char} (blank : ∀ c ∈ gap, isBlank c = true)
      (written : Written key value text) (blank' : ∀ c ∈ blanks, isBlank c = true)
      (separates : comma = [] ∨ comma = [',']) (others : Joined rest) :
      Joined (gap ++ (text ++ (blanks ++ (comma ++ rest))))

theorem Clauses.joined (h : Clauses cs clauses) : Joined cs := by
  induction h with
  | nil blank => exact .nil blank
  | cons isGap written blank separates _ ih => exact .cons isGap.2 written blank separates ih

theorem Joined.blanks {blanks : List Char} (h : Joined cs)
    (blank : ∀ c ∈ blanks, isBlank c = true) : Joined (blanks ++ cs) := by
  cases h with
  | nil blank' => exact .nil (List.forall_mem_append.mpr ⟨blank, blank'⟩)
  | cons blank' written blank'' separates others =>
    rw [← List.append_assoc]
    exact .cons (List.forall_mem_append.mpr ⟨blank, blank'⟩) written blank'' separates others

theorem Joined.apart (h : Joined cs) (more : List Char) : skipBlanks cs ≠ ',' :: more := by
  intro comma
  cases h with
  | nil blank =>
    rw [skipBlanks, List.dropWhile_eq_nil_iff.mpr blank] at comma
    cases comma
  | cons blank written =>
    obtain ⟨c, text, rfl, same⟩ := written.exists_cons
    rw [skipBlanks_blanks blank (written.noBlankFirst _)] at comma
    obtain ⟨rfl, -⟩ := List.cons.inj comma
    cases same

theorem Joined.skipSeparator {blanks comma : List Char} (h : Joined rest)
    (blank : ∀ c ∈ blanks, isBlank c = true) (separates : comma = [] ∨ comma = [',']) :
    Text.skipSeparator (blanks ++ (comma ++ rest)) = skipBlanks rest := by
  obtain rfl | rfl := separates
  · have skipped : skipBlanks (blanks ++ ([] ++ rest)) = skipBlanks rest :=
      List.dropWhile_append_of_pos blank
    rw [Text.skipSeparator, skipped]
    split
    next more comma => exact absurd comma (h.apart more)
    next => rfl
  · have skipped : skipBlanks (blanks ++ ([','] ++ rest)) = ',' :: rest :=
      skipBlanks_blanks blank (noBlankFirst_cons (by decide))
    simp only [Text.skipSeparator, skipped]

theorem Joined.of_skipSeparator (h : Joined (Text.skipSeparator cs)) :
    ∃ blanks comma rest, (∀ c ∈ blanks, isBlank c = true) ∧ (comma = [] ∨ comma = [',']) ∧
      Joined rest ∧ cs = blanks ++ (comma ++ rest) := by
  obtain ⟨blanks, split, blank⟩ := skipBlanks_eq cs
  rw [Text.skipSeparator] at h
  split at h
  next rest comma =>
    obtain ⟨more, hrest, blank'⟩ := skipBlanks_eq rest
    rw [comma] at split
    refine ⟨blanks, [','], rest, blank, .inr rfl, ?_, split⟩
    rw [hrest]
    exact h.blanks blank'
  next => exact ⟨blanks, [], skipBlanks cs, blank, .inl rfl, h, split⟩

theorem clauseInside?_eq_some {word : List Char} : clauseInside? value = some word ↔
    ∃ start, start ≠ [] ∧ value = start ++ word ∧ Folds "WITH" word := by
  rw [clauseInside?, Option.ite_none_right_eq_some, Option.some.injEq]
  constructor
  · intro h
    obtain ⟨⟨long, hword⟩, rfl⟩ := h
    obtain ⟨found, folds, whole⟩ := keyword?_eq_some.mp hword
    rw [List.append_nil] at whole
    refine ⟨value.take (value.length - 4), ?_, (List.take_append_drop _ _).symm, whole ▸ folds⟩
    apply List.ne_nil_of_length_pos
    rw [List.length_take]
    omega
  · intro h
    obtain ⟨start, nonempty, rfl, folds⟩ := h
    have four : word.length = 4 := folds.length_eq.symm
    have long := List.length_pos_of_ne_nil nonempty
    have dropped : (start ++ word).drop ((start ++ word).length - 4) = word := by
      apply List.drop_left'
      rw [List.length_append]
      omega
    rw [dropped, List.length_append]
    exact ⟨⟨by omega, keyword?_eq_some.mpr ⟨word, folds, (List.append_nil word).symm⟩⟩, rfl⟩

theorem isValue_of_folds {word : List Char} (h : Folds "WITH" word) :
    ∀ c ∈ word, isValue c = true :=
  (h.spells (by decide)).class (by decide) (by decide)

theorem joined_of_blockOnly (h : blockOnly fuel cs = true) : Joined cs := by
  induction fuel generalizing cs with
  | zero =>
    rw [List.isEmpty_iff.mp h]
    exact .nil nofun
  | succ fuel ih =>
    rw [Options.blockOnly, Bool.or_eq_true] at h
    obtain h | h := h
    · rw [List.isEmpty_iff.mp h]
      exact .nil nofun
    split at h
    next => cases h
    next found hclause =>
      obtain ⟨-, text, written, rfl⟩ := clause?_iff.mp hclause
      rw [Bool.or_eq_true] at h
      obtain h | h := h
      · obtain ⟨blanks, comma, rest, blank, separates, others, hrest⟩ := (ih h).of_skipSeparator
        rw [hrest]
        have whole : Joined ([] ++ (text ++ (blanks ++ (comma ++ rest)))) :=
          .cons nofun written blank separates others
        exact whole
      · split at h
        next => cases h
        next word inside =>
          obtain ⟨start, nonempty, hvalue, -⟩ := clauseInside?_eq_some.mp inside
          rw [hvalue] at written
          obtain ⟨first, ends, rfl⟩ := written.append_inv nonempty
          have whole : Joined ([] ++ (first ++ ([] ++ ([] ++ (word ++ found.rest))))) :=
            .cons nofun ends nofun (.inl rfl) (ih h)
          rwa [List.append_assoc]

/-- A value does not go on over white space. -/
theorem eq_nil_of_isValue {blanks : List Char} {c : Char} (blank : ∀ c ∈ blanks, isBlank c = true)
    (first : (blanks ++ rest).head? = some c) (goesOn : isValue c = true) : blanks = [] := by
  cases blanks with
  | nil => rfl
  | cons b blanks =>
    cases first
    rw [isValue_of_isBlank (blank _ List.mem_cons_self)] at goesOn
    cases goesOn

/-- Where a value seems to go on, the next clause starts with the keyword. -/
theorem Joined.exists_word (h : Joined cs) {c : Char} (first : cs.head? = some c)
    (goesOn : isValue c = true) : ∃ word more, Folds "WITH" word ∧ cs = word ++ more ∧
      ∀ c, more.head? = some c → isValue c = false := by
  cases h with
  | nil blank =>
    rw [← List.append_nil cs] at first
    cases eq_nil_of_isValue blank first goesOn
    cases first
  | cons blank written =>
    cases eq_nil_of_isValue blank first goesOn
    cases written with
    | clause folds isGap =>
      simp only [List.nil_append, List.append_assoc]
      exact ⟨_, _, folds, rfl, (isGap.blankFirst _).stop fun _ => isValue_of_isBlank⟩

/-- The reader goes on before the next clause: behind the value, or before the keyword that seems to
    belong to it. -/
theorem Joined.found {blanks comma : List Char} (h : Joined rest)
    (written : Written key value text) (blank : ∀ c ∈ blanks, isBlank c = true)
    (separates : comma = [] ∨ comma = [',']) :
    ∃ found, clause? (text ++ (blanks ++ (comma ++ rest))) = some found ∧
      (Text.skipSeparator found.rest = skipBlanks rest ∨
        ∃ word, clauseInside? found.value = some word ∧ word ++ found.rest = skipBlanks rest) := by
  by_cases stop : ∀ c, (blanks ++ (comma ++ rest)).head? = some c → isValue c = false
  · refine ⟨⟨key, value, blanks ++ (comma ++ rest)⟩, ?_, .inl (h.skipSeparator blank separates)⟩
    exact clause?_iff.mpr ⟨stop, text, written, rfl⟩
  obtain ⟨c, first, goesOn⟩ : ∃ c, (blanks ++ (comma ++ rest)).head? = some c ∧
      isValue c = true := by simpa using stop
  obtain rfl : blanks = [] := eq_nil_of_isValue blank first goesOn
  obtain rfl : comma = [] := by
    apply separates.resolve_right
    rintro rfl
    cases first
    cases goesOn
  obtain ⟨word, more, folds, rfl, behind⟩ := h.exists_word first goesOn
  have inside : clauseInside? (value ++ word) = some word :=
    clauseInside?_eq_some.mpr ⟨value, written.given.1, rfl, folds⟩
  refine ⟨⟨key, value ++ word, more⟩, ?_, .inr ⟨word, inside, ?_⟩⟩
  · exact clause?_iff.mpr ⟨behind, _, written.append (isValue_of_folds folds),
      by simp only [List.nil_append, List.append_assoc]⟩
  · exact (skipBlanks_of_noBlankFirst (noBlankFirst_with folds more)).symm

theorem Joined.blockOnly (h : Joined cs) (enough : cs.length ≤ fuel) :
    Options.blockOnly fuel (skipBlanks cs) = true := by
  induction h generalizing fuel with
  | nil blank =>
    rw [skipBlanks, List.dropWhile_eq_nil_iff.mpr blank]
    cases fuel <;> rfl
  | @cons gap text blanks comma rest key value blank written blank' separates others ih =>
    obtain ⟨c, start, rfl, -⟩ := written.exists_cons
    simp only [List.length_append, List.length_cons] at enough
    obtain ⟨steps, rfl⟩ : ∃ steps, fuel = steps + 1 := ⟨fuel - 1, by omega⟩
    have behind : Options.blockOnly steps (skipBlanks rest) = true := ih (by omega)
    obtain ⟨found, hfound, goes⟩ := others.found written blank' separates
    rw [skipBlanks_blanks blank (written.noBlankFirst _), Options.blockOnly, hfound]
    obtain separated | ⟨word, inside, joined⟩ := goes
    · simp only [separated, behind, Bool.true_or, Bool.or_true]
    · simp only [inside, joined, behind, Bool.or_true]

/-- **The reader accepts** clauses with white space and a comma between them, or with nothing. -/
theorem isBlock_iff : isBlock cs = true ↔ Joined cs := by
  constructor
  · intro h
    obtain ⟨blanks, split, blank⟩ := skipBlanks_eq cs
    rw [split]
    exact (joined_of_blockOnly h).blanks blank
  · intro h
    exact h.blockOnly (Nat.le_refl _)

theorem Clauses.parse_eq (h : Clauses cs clauses) :
    parse cs = .ok (KeyMap.ofList (clauses.map recorded)) := by
  rw [parse, if_pos (isBlock_iff.mpr h.joined), h.reads _ (Nat.le_refl _)]
  rfl

/-! What is given by the clauses. -/

variable {options : Options}

theorem Clauses.value?_of_last (h : Clauses cs clauses) (parsed : parse cs = .ok options)
    {before after : List (List Char × List Char)} {name : String}
    (split : clauses = before ++ (key, value) :: after)
    (here : capitals key = capitals name.toList)
    (last : ∀ clause ∈ after, capitals clause.1 ≠ capitals name.toList) :
    options.value? name = some (String.ofList (unquote value)) := by
  rw [value?_of_reads h.reads parsed, split, List.map_append, List.map_cons, here]
  apply KeyMap.lookup_reverse_of_last rfl
  intro e he
  obtain ⟨clause, hclause, rfl⟩ := List.mem_map.mp he
  exact last clause hclause

theorem Clauses.isSome_value? (h : Clauses cs clauses) (parsed : parse cs = .ok options)
    (name : String) : (options.value? name).isSome = true ↔
      ∃ clause ∈ clauses, capitals clause.1 = capitals name.toList := by
  rw [value?_of_reads h.reads parsed, List.lookup_isSome_iff]
  constructor
  · intro found
    obtain ⟨e, he, same⟩ := found
    obtain ⟨clause, hclause, rfl⟩ := List.mem_map.mp (List.mem_reverse.mp he)
    exact ⟨clause, hclause, (eq_of_beq same).symm⟩
  · intro found
    obtain ⟨clause, hclause, same⟩ := found
    exact ⟨_, List.mem_reverse.mpr (List.mem_map_of_mem hclause), beq_iff_eq.mpr same.symm⟩

end DocumentStore.Options
