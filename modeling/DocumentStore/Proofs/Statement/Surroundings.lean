import DocumentStore.Proofs.Statement.Reading

/- What may stand around a statement. White space before a text or behind it makes no difference, and
   semicolons behind it make none as long as no white space stands between them. Only the last run of
   semicolons is dropped: where a semicolon stands before it, apart from it, that one is left and
   belongs to the text (`Statement.parse_surrounded`). Nothing tells that it was to be dropped, so that
   a document with another id is removed (`Statement.not_parse_surrounded`). -/
namespace DocumentStore.Statement

open Text

variable {cs t s blanks : List Char}

/-- Before some semicolon of the second text stands white space, and before that another semicolon. -/
def Parted (t s : List Char) : Prop :=
  ∃ start after before gap, s = start ++ ';' :: after ∧ t ++ start = before ++ ';' :: gap ∧ IsGap gap

instance (cs : List Char) : Decidable (IsGap cs) :=
  inferInstanceAs (Decidable (_ ∧ _))

/-- The two semicolons are found by their places. -/
theorem parted_iff : Parted t s ↔ ∃ i ∈ List.range s.length, (s.drop i).head? = some ';' ∧
    ∃ j ∈ List.range (t ++ s.take i).length, ((t ++ s.take i).drop j).head? = some ';' ∧
      IsGap ((t ++ s.take i).drop j).tail := by
  constructor
  · intro parted
    obtain ⟨start, after, before, gap, rfl, whole, isGap⟩ := parted
    refine ⟨start.length, by simp, by simp, before.length, ?_⟩
    rw [List.take_left, whole, List.drop_left]
    exact ⟨by simp, rfl, isGap⟩
  · intro found
    obtain ⟨i, -, here, j, -, there, isGap⟩ := found
    obtain ⟨after, hafter⟩ := List.head?_eq_some_iff.mp here
    obtain ⟨gap, hgap⟩ := List.head?_eq_some_iff.mp there
    rw [hgap] at isGap
    refine ⟨s.take i, after, (t ++ s.take i).take j, gap, ?_, ?_, isGap⟩
    · rw [← hafter, List.take_append_drop]
    · rw [← hgap, List.take_append_drop]

instance (t s : List Char) : Decidable (Parted t s) :=
  decidable_of_iff _ parted_iff.symm

/-! What is dropped. -/

theorem trimEnd_append_blanks (cs : List Char) (blank : ∀ c ∈ blanks, isBlank c = true) :
    trimEnd (cs ++ blanks) = trimEnd cs := by
  rw [trimEnd, dropEndWhile_append_of_all cs blank, ← trimEnd]

theorem trimEnd_append_run (cs : List Char) (n : Nat) (blank : ∀ c ∈ blanks, isBlank c = true) :
    trimEnd (cs ++ (List.replicate (n + 1) ';' ++ blanks)) =
      dropEndWhile isBlank (dropEndWhile (· == ';') cs) := by
  have semicolon : ∀ c ∈ List.replicate (n + 1) ';', (c == ';') = true := by
    intro c hc
    rw [List.eq_of_mem_replicate hc]
    rfl
  have last : dropEndWhile isBlank (cs ++ List.replicate (n + 1) ';') =
      cs ++ List.replicate (n + 1) ';' := by
    apply dropEndWhile_eq
    intro c hc
    rw [List.replicate_succ', ← List.append_assoc, List.getLast?_concat] at hc
    cases hc
    decide
  rw [← List.append_assoc, trimEnd_append_blanks _ blank, trimEnd, last,
    dropEndWhile_append_of_all cs semicolon]

theorem trimEnd_eq_of_last (blank : ∀ c, cs.getLast? = some c → isBlank c = false)
    (semicolon : cs.getLast? ≠ some ';') : trimEnd cs = cs := by
  cases hlast : cs.getLast? with
  | none =>
    rw [List.getLast?_eq_none_iff.mp hlast]
    rfl
  | some last => exact trimEnd_eq hlast (blank last hlast) fun h => semicolon (h ▸ hlast)

/-- White space at the end may be dropped or not before the semicolons are, if none of them stands
    before it. -/
theorem dropEndWhile_eq_trimEnd (apart : ∀ before gap, IsGap gap → cs ≠ before ++ ';' :: gap) :
    dropEndWhile isBlank (dropEndWhile (· == ';') cs) = trimEnd cs := by
  obtain ⟨gap, whole, blank⟩ := dropEndWhile_eq_append isBlank cs
  have stays := getLast?_dropEndWhile (p := isBlank) cs
  generalize hkept : dropEndWhile isBlank cs = kept at whole stays
  subst whole
  obtain rfl | nonempty := eq_or_ne gap []
  · rw [trimEnd, hkept, List.append_nil]
  · have single : kept.getLast? ≠ some ';' := by
      intro h
      obtain ⟨before, rfl⟩ := List.getLast?_eq_some_iff.mp h
      exact apart before gap ⟨nonempty, blank⟩ (List.append_assoc _ _ _)
    have same : dropEndWhile (· == ';') (kept ++ gap) = kept ++ gap := by
      apply dropEndWhile_eq
      intro c hc
      rw [List.getLast?_append_of_ne_nil _ nonempty] at hc
      exact class_of_isBlank (p := (· == ';')) (by decide +kernel) (blank c (List.mem_of_getLast? hc))
    rw [same, hkept, trimEnd_append_blanks _ blank, trimEnd_eq_of_last stays single]

theorem exists_last_run (ends : ∀ c ∈ s, isBlank c = true ∨ c = ';') :
    (∀ c ∈ s, isBlank c = true) ∨
      ∃ first n blanks, s = first ++ (List.replicate (n + 1) ';' ++ blanks) ∧
        (∀ c ∈ blanks, isBlank c = true) ∧ first.getLast? ≠ some ';' := by
  obtain ⟨blanks, hs, blank⟩ := dropEndWhile_eq_append isBlank s
  have stays := getLast?_dropEndWhile (p := isBlank) s
  generalize dropEndWhile isBlank s = kept at hs stays
  obtain ⟨run, hkept, semicolon⟩ := dropEndWhile_eq_append (· == ';') kept
  have last := getLast?_dropEndWhile (p := (· == ';')) kept
  generalize dropEndWhile (· == ';') kept = first at hkept last
  subst hkept hs
  have single : first.getLast? ≠ some ';' := fun h => absurd (last _ h) (by decide)
  obtain rfl | nonempty := eq_or_ne run []
  · rw [List.append_nil] at stays ends ⊢
    apply Or.inl
    cases hlast : first.getLast? with
    | none =>
      rw [List.getLast?_eq_none_iff.mp hlast]
      exact blank
    | some c =>
      obtain h | h := ends c (List.mem_append_left blanks (List.mem_of_getLast? hlast))
      · rw [stays c hlast] at h
        cases h
      · exact absurd (h ▸ hlast) single
  · obtain ⟨n, hn⟩ := Nat.exists_eq_add_one_of_ne_zero (mt List.length_eq_zero_iff.mp nonempty)
    have hrun : run = List.replicate (n + 1) ';' :=
      List.eq_replicate_iff.mpr ⟨hn, fun c hc => beq_iff_eq.mp (semicolon c hc)⟩
    exact Or.inr ⟨first, n, blanks, by rw [hrun, List.append_assoc], blank, single⟩

/-- Semicolons that stand together make no difference behind a text. -/
theorem trimEnd_append (together : ¬Parted t s) (ends : ∀ c ∈ s, isBlank c = true ∨ c = ';') :
    trimEnd (t ++ s) = trimEnd t := by
  obtain blank | ⟨first, n, blanks, rfl, blank, single⟩ := exists_last_run ends
  · exact trimEnd_append_blanks t blank
  have apart (before gap : List Char) (isGap : IsGap gap) : t ++ first ≠ before ++ ';' :: gap := by
    intro whole
    have semicolon : first ++ (List.replicate (n + 1) ';' ++ blanks) =
        first ++ ';' :: (List.replicate n ';' ++ blanks) := by
      rw [List.replicate_succ, List.cons_append]
    exact together ⟨first, _, before, gap, semicolon, whole, isGap⟩
  rw [← List.append_assoc, trimEnd_append_run _ n blank, dropEndWhile_eq_trimEnd apart]
  -- What stands before the run is white space, because a semicolon would stand apart from it.
  obtain blank' | ⟨start, m, gap, rfl, blank', -⟩ :=
    exists_last_run fun c hc => ends c (List.mem_append_left _ hc)
  · exact trimEnd_append_blanks t blank'
  · have nonempty : gap ≠ [] := by
      rintro rfl
      apply single
      rw [List.append_nil, List.replicate_succ', ← List.append_assoc, List.getLast?_concat]
    refine absurd ?_ (apart (t ++ (start ++ List.replicate m ';')) gap ⟨nonempty, blank'⟩)
    rw [List.replicate_succ']
    simp

/-! What is left. -/

theorem exists_trimEnd_append {before gap start : List Char} (isGap : IsGap gap)
    (whole : t ++ start = before ++ ';' :: gap) : ∃ more, before = trimEnd t ++ more := by
  obtain ⟨dropped, ht, -⟩ := trimEnd_eq_append t
  obtain ⟨more, rfl, -⟩ | ⟨more, rfl, hgap⟩ := List.append_eq_append_iff.mp whole
  · exact ⟨dropped ++ more, by rw [← List.append_assoc, ← ht]⟩
  cases more with
  | nil => exact ⟨dropped, by rw [← ht, List.append_nil]⟩
  | cons c more =>
    obtain ⟨rfl, rfl⟩ := List.cons.inj hgap
    have blank : ∀ c ∈ more, isBlank c = true := fun c hc => isGap.2 c (List.mem_append_left _ hc)
    have hrun := trimEnd_append_run before 0 blank
    obtain ⟨first, hfirst, -⟩ := dropEndWhile_eq_append (· == ';') before
    obtain ⟨second, hsecond, -⟩ :=
      dropEndWhile_eq_append isBlank (dropEndWhile (· == ';') before)
    refine ⟨second ++ first, ?_⟩
    rw [show trimEnd (before ++ ';' :: more) = _ from hrun, ← List.append_assoc, ← hsecond, ← hfirst]

theorem exists_trimEnd_cons {gap : List Char} (before : List Char) (isGap : IsGap gap)
    (after : List Char) :
    ∃ kept, trimEnd (before ++ ';' :: (gap ++ ';' :: after)) = before ++ ';' :: kept := by
  obtain ⟨inner, b, rfl, blank⟩ := isGap.exists_concat
  have stays : (b == ';') = false := class_of_isBlank (p := (· == ';')) (by decide +kernel) blank
  have first : dropEndWhile isBlank (before ++ ';' :: (inner ++ [b] ++ ';' :: after)) =
      before ++ ';' :: inner ++ b :: ';' :: dropEndWhile isBlank after := by
    rw [← List.cons_append, ← List.append_assoc, dropEndWhile_append_cons (by decide)]
    simp
  have trimmed : trimEnd (before ++ ';' :: (inner ++ [b] ++ ';' :: after)) = before ++ ';' ::
      dropEndWhile isBlank
        (inner ++ b :: dropEndWhile (· == ';') (';' :: dropEndWhile isBlank after)) := by
    rw [trimEnd, first, dropEndWhile_append_cons (p := (· == ';')) stays, List.append_assoc,
      List.cons_append, dropEndWhile_append_cons (by decide)]
  exact ⟨_, trimmed⟩

theorem trimEnd_gap {gap after : List Char} (before : List Char) (isGap : IsGap gap)
    (ends : ∀ c ∈ after, isBlank c = true ∨ c = ';') :
    ∃ left, trimEnd (before ++ ';' :: (gap ++ ';' :: after)) = before ++ (left ++ [';']) := by
  obtain ⟨dropped, whole, -⟩ := trimEnd_eq_append (before ++ ';' :: (gap ++ ';' :: after))
  obtain ⟨kept, hkept⟩ := exists_trimEnd_cons before isGap after
  rw [hkept, List.append_assoc, List.append_cancel_left_eq, List.cons_append, List.cons.injEq] at whole
  have mem (c : Char) (hc : c ∈ ';' :: kept) : isBlank c = true ∨ c = ';' := by
    obtain rfl | hc := List.mem_cons.mp hc
    · exact .inr rfl
    have hc : c ∈ gap ++ ';' :: after := whole.2 ▸ List.mem_append_left dropped hc
    obtain hc | hc := List.mem_append.mp hc
    · exact .inl (isGap.2 c hc)
    · obtain rfl | hc := List.mem_cons.mp hc
      · exact .inr rfl
      · exact ends c hc
  obtain ⟨left, c, hleft⟩ := (List.eq_nil_or_concat' (';' :: kept)).resolve_left (List.cons_ne_nil _ _)
  have last : isBlank c = false := by
    apply getLast?_dropEndWhile _ c
    show (trimEnd (before ++ ';' :: (gap ++ ';' :: after))).getLast? = some c
    rw [hkept, hleft, ← List.append_assoc, List.getLast?_concat]
  obtain h | rfl := mem c (hleft ▸ List.mem_append_right left List.mem_cons_self)
  · rw [last] at h
    cases h
  · exact ⟨left, by rw [hkept, hleft]⟩

/-- Semicolons that stand apart are left, except for the last run of them. -/
theorem trimEnd_parted (parted : Parted t s) (ends : ∀ c ∈ s, isBlank c = true ∨ c = ';') :
    ∃ more, trimEnd (t ++ s) = trimEnd t ++ (more ++ [';']) := by
  obtain ⟨start, after, before, gap, rfl, whole, isGap⟩ := parted
  obtain ⟨more, hmore⟩ := exists_trimEnd_append isGap whole
  obtain ⟨left, hleft⟩ := trimEnd_gap before isGap fun c hc =>
    ends c (List.mem_append_right start (List.mem_cons_of_mem _ hc))
  refine ⟨more ++ left, ?_⟩
  rw [← List.append_assoc, whole, List.append_assoc, List.cons_append, hleft, hmore,
    List.append_assoc, List.append_assoc]

/-! The whole text. -/

theorem normalize_eq_skipBlanks (cs : List Char) : normalize cs = skipBlanks (trimEnd cs) := by
  show trimEnd (skipBlanks cs) = skipBlanks (trimEnd cs)
  rw [trimEnd, trimEnd, skipBlanks_dropEndWhile, skipBlanks_dropEndWhile, skipBlanks_dropEndWhile]

theorem normalize_blanks_append (blank : ∀ c ∈ blanks, isBlank c = true) (cs : List Char) :
    normalize (blanks ++ cs) = normalize cs := by
  show trimEnd (skipBlanks (blanks ++ cs)) = trimEnd (skipBlanks cs)
  rw [skipBlanks, List.dropWhile_append_of_pos blank, ← skipBlanks]

theorem skipBlanks_append_semicolon (last : NoBlankLast cs) (more : List Char) :
    ∃ left, skipBlanks (cs ++ (more ++ [';'])) = skipBlanks cs ++ (left ++ [';']) := by
  obtain rfl | nonempty := eq_or_ne cs []
  · refine ⟨skipBlanks more, ?_⟩
    show (more ++ [';']).dropWhile isBlank = more.dropWhile isBlank ++ [';']
    rw [List.dropWhile_append]
    split
    next none =>
      rw [List.isEmpty_iff.mp none]
      rfl
    next => rfl
  · exact ⟨more, (skipBlanks_append nonempty last _).1⟩

/-- **What stands around a statement.** White space before a text makes no difference, nor do
    semicolons and white space behind it, if no white space stands between semicolons there. If it
    does, the text is read with more behind it, up to a semicolon. -/
theorem parse_surrounded {w s : String} (t : String) (blank : ∀ c ∈ w.toList, isBlank c = true)
    (ends : ∀ c ∈ s.toList, isBlank c = true ∨ c = ';') :
    (¬Parted t.toList s.toList → parse (w ++ t ++ s) = parse t) ∧
      (Parted t.toList s.toList →
        ∃ left, parse (w ++ t ++ s) = ofNormalized (normalize t.toList ++ (left ++ [';']))) := by
  have whole : normalize (w ++ t ++ s).toList = normalize (t.toList ++ s.toList) := by
    rw [String.toList_append, String.toList_append, List.append_assoc,
      normalize_blanks_append blank]
  constructor
  · intro together
    rw [parse, whole, normalize_eq_skipBlanks, trimEnd_append together ends,
      ← normalize_eq_skipBlanks, ← parse]
  · intro parted
    obtain ⟨more, hmore⟩ := trimEnd_parted parted ends
    have last : NoBlankLast (trimEnd t.toList) := getLast?_dropEndWhile _
    obtain ⟨left, hleft⟩ := skipBlanks_append_semicolon last more
    exact ⟨left, by
      rw [parse, whole, normalize_eq_skipBlanks, hmore, hleft, ← normalize_eq_skipBlanks]⟩

/-- Behind a text that ends with a semicolon more of them make no difference, unless white space stands
    before them. -/
theorem parse_surrounded_twice :
    let t := "DELETE FROM d.c WHERE id=a;"
    parse ("\n" ++ t ++ ";; ") = parse t ∧
      ∃ left, parse ("\n" ++ t ++ " ;") = ofNormalized (normalize t.toList ++ (left ++ [';'])) := by
  intro t
  obtain ⟨same, -⟩ := parse_surrounded (w := "\n") (s := ";; ") t (by decide) (by decide)
  obtain ⟨-, more⟩ := parse_surrounded (w := "\n") (s := " ;") t (by decide) (by decide)
  exact ⟨same (by decide +kernel), more (by decide +kernel)⟩

/-- **Semicolons apart from each other** are not dropped behind an id, but read as the end of it. -/
theorem not_parse_surrounded :
    (∀ c ∈ "; ;".toList, isBlank c = true ∨ c = ';') ∧
      parse "DELETE FROM d.c WHERE id=a" = .ok (.delete ⟨⟨"d", "c"⟩, .literal "a"⟩) ∧
      parse ("DELETE FROM d.c WHERE id=a" ++ "; ;") =
        .ok (.delete ⟨⟨"d", "c"⟩, .literal "a;"⟩) := by
  decide +kernel

end DocumentStore.Statement
