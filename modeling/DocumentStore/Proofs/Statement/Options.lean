import DocumentStore.Proofs.KeyMap
import DocumentStore.Proofs.Text.Words
import DocumentStore.Statement.Options

/- Options at the end of a text. Where clauses that name a container follow a text, no clause begins
   in the text and ends in them, apart from one that would leave no clause behind it
   (`clause?_append_inv`). So the text is split where it would be split alone (`split_append`), and
   the clauses that name the container are the last that are read (`firstOf?_naming`). -/
namespace DocumentStore.Options

open Text

variable {cs s u t more : List Char} {found : Clause}

/-! One clause. -/

theorem clause?_eq_some : clause? cs = some found ↔
    ∃ afterWord key afterKey value, keyword? "WITH" cs = some afterWord ∧
      blanks? afterWord = some key ∧ name? key = some (found.key, afterKey) ∧
        skipBlanks afterKey = '=' :: value ∧
          run? isValue (skipBlanks value) = some (found.value, found.rest) := by
  constructor
  · intro h
    unfold clause? at h
    split at h
    next => cases h
    next key hkey =>
      obtain ⟨afterWord, hword, hblanks⟩ := Option.bind_eq_some_iff.mp hkey
      split at h
      next => cases h
      next name afterKey hname =>
        split at h
        next => cases h
        next found rest hfound =>
          cases h
          obtain ⟨value, hequals, hvalue⟩ := Option.bind_eq_some_iff.mp hfound
          exact ⟨afterWord, key, afterKey, value, hword, hblanks, hname, char?_eq_some.mp hequals,
            hvalue⟩
  · rintro ⟨afterWord, key, afterKey, value, hword, hblanks, hname, hequals, hvalue⟩
    simp only [clause?, hword, Option.bind_some, hblanks, hname, hequals, char?, if_true, hvalue]

theorem rest_of_clause? (h : clause? cs = some found) :
    found.rest <:+ cs ∧ found.rest.length < cs.length := by
  obtain ⟨afterWord, key, afterKey, value, hword, hblanks, hname, hequals, hvalue⟩ :=
    clause?_eq_some.mp h
  have atEquals : '=' :: value <:+ cs :=
    hequals ▸ skipBlanks_suffix.trans ((run?_suffix hname).trans
      ((blanks?_suffix hblanks).trans (after?_suffix hword)))
  have atValue : skipBlanks value <:+ value := skipBlanks_suffix
  have atRest : found.rest <:+ '=' :: value :=
    (run?_suffix hvalue).trans (atValue.trans (List.suffix_cons '=' value))
  have shorter := ((run?_suffix hvalue).trans atValue).length_le
  have := atEquals.length_le
  rw [List.length_cons] at this
  exact ⟨atRest.trans atEquals, by omega⟩

/-! Clauses that follow a text. -/

/-- After blanks at the start of the text stands a clause whose key starts with this letter. -/
structure Opens (t more : List Char) : Prop where
  blank : BlankFirst t
  word : skipBlanks t = 'W' :: 'I' :: 'T' :: 'H' :: ' ' :: 'd' :: more

theorem isValue_of_isBlank {c : Char} (h : isBlank c = true) : isValue c = false := by
  rw [isValue, h]
  rfl

theorem isBlank_of_isValue {c : Char} (h : isValue c = true) : isBlank c = false :=
  isBlank_of_class (fun _ => isValue_of_isBlank) h

/-- A clause of the two texts together ends in the first, unless its value would be the keyword
    in the second. -/
theorem clause?_append_inv (ht : Opens t more) (last : NoBlankLast u)
    (h : clause? (u ++ t) = some found) :
    (∃ v, clause? u = some ⟨found.key, found.value, v⟩ ∧ found.rest = v ++ t) ∨
      found.rest = ' ' :: 'd' :: more := by
  obtain ⟨afterWord, key, afterKey, value, hword, hblanks, hname, hequals, hvalue⟩ :=
    clause?_eq_some.mp h
  obtain ⟨v, hv, rfl⟩ := keyword?_append_inv (by decide +kernel) ht.blank hword
  have last := last.of_suffix (after?_suffix hv)
  obtain ⟨rfl, rfl⟩ | ⟨w, hw, rfl⟩ := blanks?_append_inv last hblanks
  · -- The keyword of the second text would be the key.
    rw [ht.word] at hname
    obtain ⟨-, -, rfl⟩ := run?_eq_some.mp hname
    cases hequals
  have last := last.of_suffix (blanks?_suffix hw)
  obtain ⟨x, hx, rfl⟩ := run?_append_inv (ht.blank.stop fun _ => isName_of_isBlank) hname
  have last := last.of_suffix (run?_suffix hx)
  obtain rfl | nonempty := eq_or_ne x []
  · -- No equals sign stands there.
    rw [List.nil_append, ht.word] at hequals
    cases hequals
  obtain ⟨skipped, left⟩ := skipBlanks_append nonempty last t
  obtain ⟨e, y, hy⟩ := List.exists_cons_of_ne_nil left
  rw [skipped, hy] at hequals
  obtain ⟨rfl, rfl⟩ := List.cons.inj hequals
  have last : NoBlankLast y :=
    last.of_suffix ((List.suffix_cons '=' y).trans (hy ▸ skipBlanks_suffix))
  obtain rfl | nonempty := eq_or_ne y []
  · -- The keyword is the value.
    rw [List.append_eq, List.nil_append, ht.word] at hvalue
    exact .inr (run?_eq_some.mp hvalue).2.2.symm
  obtain ⟨skipped, -⟩ := skipBlanks_append nonempty last t
  rw [List.append_eq, skipped] at hvalue
  obtain ⟨z, hz, hrest⟩ := run?_append_inv (ht.blank.stop fun _ => isValue_of_isBlank) hvalue
  exact .inl ⟨z, clause?_eq_some.mpr ⟨v, w, x, y, hv, hw, hx, hy, hz⟩, hrest⟩

theorem clause?_extend (blank : BlankFirst t) (last : NoBlankLast u) (h : clause? u = some found) :
    clause? (u ++ t) = some ⟨found.key, found.value, found.rest ++ t⟩ := by
  obtain ⟨afterWord, key, afterKey, value, hword, hblanks, hname, hequals, hvalue⟩ :=
    clause?_eq_some.mp h
  have last := last.of_suffix (after?_suffix hword)
  have atKey := blanks?_extend hblanks last t
  have last := last.of_suffix (blanks?_suffix hblanks)
  have last := last.of_suffix (run?_suffix hname)
  have atEquals := skipBlanks_extend hequals last t
  have last : NoBlankLast value :=
    last.of_suffix ((List.suffix_cons '=' value).trans (hequals ▸ skipBlanks_suffix))
  have nonempty : value ≠ [] := fun nil => by
    rw [nil] at hvalue
    cases hvalue
  have atValue := run?_extend hvalue (blank.stop fun _ => isValue_of_isBlank)
  rw [← (skipBlanks_append nonempty last t).1] at atValue
  exact clause?_eq_some.mpr ⟨_, _, _, _, after?_extend hword t, atKey,
    run?_extend hname (blank.stop fun _ => isName_of_isBlank), atEquals, atValue⟩

/-! Reading. -/

/-- The clauses of the text, whatever more steps are allowed. -/
def Reads (cs : List Char) (clauses : List (List Char × List Char)) : Prop :=
  ∀ fuel, cs.length ≤ fuel → clausesIn fuel cs = clauses

theorem clausesIn_cons (fuel : Nat) (c : Char) (cs : List Char) :
    clausesIn (fuel + 1) (c :: cs) =
      match clause? (c :: cs) with
      | some found => (found.key, found.value) :: clausesIn fuel found.rest
      | none => clausesIn fuel cs := by
  rfl

theorem Reads.cons {c : Char} {clauses : List (List Char × List Char)}
    (h : Reads cs clauses) (none : clause? (c :: cs) = none) : Reads (c :: cs) clauses := by
  intro fuel enough
  obtain ⟨steps, rfl⟩ : ∃ steps, fuel = steps + 1 := ⟨fuel - 1, by simp at enough; omega⟩
  rw [clausesIn_cons, none]
  exact h steps (by simpa using enough)

theorem clause?_of_apart {c : Char} (apart : sameFolded 'W' c = false) (cs : List Char) :
    clause? (c :: cs) = none := by
  have word : keyword? "WITH" (c :: cs) = none := after?_eq_none apart _ _
  rw [clause?, word, Option.bind_none]

theorem Reads.blanks {blanks : List Char} {clauses : List (List Char × List Char)}
    (h : Reads cs clauses) (blank : ∀ c ∈ blanks, isBlank c = true) :
    Reads (blanks ++ cs) clauses := by
  induction blanks with
  | nil => exact h
  | cons b blanks ih =>
    obtain ⟨first, others⟩ := List.forall_mem_cons.mp blank
    exact (ih others).cons (clause?_of_apart (class_of_isBlank (by decide +kernel) first) _)

theorem reads_of_skipBlanks {clauses : List (List Char × List Char)}
    (h : Reads (skipBlanks cs) clauses) : Reads cs clauses := by
  obtain ⟨blanks, split, blank⟩ := skipBlanks_eq cs
  rw [split]
  exact h.blanks blank

theorem reads_of_blanks? {start : List Char} {clauses : List (List Char × List Char)}
    (h : blanks? cs = some start) (rest : Reads start clauses) : Reads cs clauses := by
  obtain ⟨-, gap, isGap, rfl⟩ := blanks?_eq_some.mp h
  exact rest.blanks isGap.2

theorem reads_clause {clauses : List (List Char × List Char)} (h : clause? cs = some found)
    (rest : Reads found.rest clauses) : Reads cs ((found.key, found.value) :: clauses) := by
  intro fuel enough
  have shorter := (rest_of_clause? h).2
  obtain ⟨steps, rfl⟩ : ∃ steps, fuel = steps + 1 := ⟨fuel - 1, by omega⟩
  cases cs with
  | nil => cases h
  | cons c cs =>
    rw [clausesIn_cons, h]
    exact congrArg _ (rest steps (by omega))

/-! Texts of clauses. -/

/-- The text after a clause is blank, apart from one comma, or consists of clauses again. -/
inductive Goes (fuel : Nat) (rest : List Char) : Prop where
  | done : skipBlanks rest = [] → Goes fuel rest
  | comma {more : List Char} : skipBlanks rest = ',' :: more →
    skipBlanks more = [] ∨ clausesOnly fuel more = true → Goes fuel rest
  | clause {c : Char} {more : List Char} : skipBlanks rest = c :: more → c ≠ ',' →
    clausesOnly fuel rest = true → Goes fuel rest

theorem clausesOnly_succ {fuel : Nat} : clausesOnly (fuel + 1) cs = true ↔
    ∃ start found, blanks? cs = some start ∧ clause? start = some found ∧ Goes fuel found.rest := by
  constructor
  · intro h
    rw [clausesOnly] at h
    split at h
    next => cases h
    next found hfound =>
      obtain ⟨start, hstart, hclause⟩ := Option.bind_eq_some_iff.mp hfound
      refine ⟨start, found, hstart, hclause, ?_⟩
      split at h
      next done => exact .done done
      next more comma =>
        rw [Bool.or_eq_true, List.isEmpty_iff] at h
        exact .comma comma h
      next nonempty apart =>
        obtain ⟨c, more, hmore⟩ := List.exists_cons_of_ne_nil nonempty
        exact .clause hmore (fun comma => apart more (comma ▸ hmore)) h
  · rintro ⟨start, found, hstart, hclause, goes⟩
    rw [clausesOnly, hstart, Option.bind_some, hclause]
    cases goes with
    | done done => simp only [done]
    | comma comma h => simp only [comma, Bool.or_eq_true, List.isEmpty_iff, h]
    | @clause c more hmore apart h =>
      simp only [hmore]
      split
      next => rfl
      next comma => exact absurd (List.cons.inj comma).1 apart
      next => exact h

theorem Goes.imp {fuel more : Nat} {rest : List Char} (h : Goes fuel rest)
    (imp : ∀ cs, clausesOnly fuel cs = true → clausesOnly more cs = true) : Goes more rest := by
  cases h with
  | done done => exact .done done
  | comma comma h => exact .comma comma (h.imp_right (imp _))
  | clause hmore apart h => exact .clause hmore apart (imp _ h)

theorem clausesOnly_mono {fuel more : Nat} (h : clausesOnly fuel cs = true) (le : fuel ≤ more) :
    clausesOnly more cs = true := by
  induction fuel generalizing cs more with
  | zero => cases h
  | succ fuel ih =>
    obtain ⟨steps, rfl⟩ : ∃ steps, more = steps + 1 := ⟨more - 1, by omega⟩
    obtain ⟨start, found, hstart, hclause, goes⟩ := clausesOnly_succ.mp h
    exact clausesOnly_succ.mpr
      ⟨start, found, hstart, hclause, goes.imp fun _ h => ih h (Nat.le_of_succ_le_succ le)⟩

theorem not_goes {fuel : Nat} (more : List Char) : ¬Goes fuel (' ' :: 'd' :: more) := by
  intro goes
  cases goes with
  | done done => cases done
  | comma comma _ => cases comma
  | clause _ _ h =>
    cases fuel with
    | zero => cases h
    | succ fuel =>
      obtain ⟨start, found, hstart, hclause, -⟩ := clausesOnly_succ.mp h
      cases hstart
      rw [skipBlanks_cons (by decide), clause?_of_apart (by decide)] at hclause
      cases hclause

/-- The text consists of clauses, and they are read before those of the text after it. -/
def StandsBefore (s t : List Char) (others : List (List Char × List Char)) : Prop :=
  (∀ fuel, s.length ≤ fuel → clausesOnly fuel s = true) ∧
    ∃ clauses, Reads (s ++ t) (clauses ++ others)

variable {others : List (List Char × List Char)} {fuel : Nat}

/-- What follows a clause in the first of two texts follows it there alone. -/
theorem goes_append_inv (hothers : Reads t others) (last : NoBlankLast s)
    (ih : ∀ u, u ≠ [] → NoBlankLast u → clausesOnly fuel (u ++ t) = true → StandsBefore u t others)
    (h : Goes fuel (s ++ t)) :
    (∀ fuel, s.length ≤ fuel → Goes fuel s) ∧ ∃ clauses, Reads (s ++ t) (clauses ++ others) := by
  obtain rfl | nonempty := eq_or_ne s []
  · exact ⟨fun _ _ => .done rfl, [], hothers⟩
  obtain ⟨skipped, left⟩ := skipBlanks_append nonempty last t
  obtain ⟨c, u, hu⟩ := List.exists_cons_of_ne_nil left
  rw [hu] at skipped
  cases h with
  | done done => rw [skipped] at done; cases done
  | @comma more comma h =>
    obtain ⟨rfl, rfl⟩ := List.cons.inj (skipped.symm.trans comma)
    have suffix : u <:+ s := (List.suffix_cons ',' u).trans (hu ▸ skipBlanks_suffix)
    have afterComma : (∀ fuel, u.length ≤ fuel → skipBlanks u = [] ∨ clausesOnly fuel u = true) ∧
        ∃ clauses, Reads (u ++ t) (clauses ++ others) := by
      obtain rfl | nonempty := eq_or_ne u []
      · exact ⟨fun _ _ => .inl rfl, [], hothers⟩
      have lastu := last.of_suffix suffix
      have more : skipBlanks (u ++ t) ≠ [] := by
        obtain ⟨skipped, left⟩ := skipBlanks_append nonempty lastu t
        rw [skipped]
        exact List.append_ne_nil_of_left_ne_nil left t
      obtain ⟨alone, reads⟩ := ih u nonempty lastu (h.resolve_left more)
      exact ⟨fun fuel enough => .inr (alone fuel enough), reads⟩
    obtain ⟨alone, clauses, reads⟩ := afterComma
    refine ⟨fun fuel enough => .comma hu (alone fuel (suffix.length_le.trans enough)), clauses, ?_⟩
    refine reads_of_skipBlanks ?_
    rw [comma]
    exact reads.cons (clause?_of_apart (by decide) _)
  | clause hmore apart h =>
    obtain ⟨rfl, rfl⟩ := List.cons.inj (skipped.symm.trans hmore)
    obtain ⟨alone, reads⟩ := ih s nonempty last h
    exact ⟨fun fuel enough => .clause hu apart (alone fuel enough), reads⟩

/-- **Clauses before other clauses.** If a text and the clauses after it consist of clauses
    together, so does the text alone, and the clauses after it are read as they are. -/
theorem clauses_append_inv (ht : Opens t more) (hothers : Reads t others) (nonempty : s ≠ [])
    (last : NoBlankLast s) (h : clausesOnly fuel (s ++ t) = true) : StandsBefore s t others := by
  induction fuel generalizing s with
  | zero => cases h
  | succ fuel ih =>
    obtain ⟨start, found, hstart, hclause, goes⟩ := clausesOnly_succ.mp h
    obtain ⟨rfl, -⟩ | ⟨u, hu, rfl⟩ := blanks?_append_inv last hstart
    · exact absurd rfl nonempty
    have lastu := last.of_suffix (blanks?_suffix hu)
    obtain ⟨v, hv, hrest⟩ | hrest := clause?_append_inv ht lastu hclause
    · obtain ⟨suffix, shorter⟩ := rest_of_clause? hv
      rw [hrest] at goes
      obtain ⟨alone, clauses, reads⟩ :=
        goes_append_inv hothers (lastu.of_suffix suffix) (fun w => ih) goes
      constructor
      · intro fuel enough
        have := (blanks?_suffix hu).length_le
        obtain ⟨steps, rfl⟩ : ∃ steps, fuel = steps + 1 := ⟨fuel - 1, by omega⟩
        exact clausesOnly_succ.mpr ⟨u, _, hu, hv, alone steps (by simp only at shorter ⊢; omega)⟩
      · exact ⟨(found.key, found.value) :: clauses,
          reads_of_blanks? hstart (reads_clause hclause (hrest ▸ reads))⟩
    · exact absurd (hrest ▸ goes) (not_goes more)

theorem eq_nil_of_skipBlanks (last : NoBlankLast s) (h : skipBlanks s = []) : s = [] := by
  by_contra nonempty
  exact (skipBlanks_append nonempty last []).2 h

theorem clauses_extend {steps : Nat} (ht : Opens t more) (last : NoBlankLast s)
    (h : clausesOnly fuel s = true) (tail : clausesOnly steps t = true) :
    clausesOnly (fuel + steps) (s ++ t) = true := by
  induction fuel generalizing s with
  | zero => cases h
  | succ fuel ih =>
    obtain ⟨start, found, hstart, hclause, goes⟩ := clausesOnly_succ.mp h
    have lastStart := last.of_suffix (blanks?_suffix hstart)
    have lastRest := lastStart.of_suffix (rest_of_clause? hclause).1
    have tail : clausesOnly (fuel + steps) t = true := clausesOnly_mono tail (by omega)
    rw [Nat.add_right_comm]
    refine clausesOnly_succ.mpr ⟨_, _, blanks?_extend hstart last t,
      clause?_extend ht.blank lastStart hclause, ?_⟩
    cases goes with
    | done done =>
      rw [eq_nil_of_skipBlanks lastRest done]
      exact .clause ht.word (by decide) tail
    | @comma more comma h =>
      have suffix : more <:+ found.rest :=
        (List.suffix_cons ',' more).trans (comma ▸ skipBlanks_suffix)
      refine .comma (skipBlanks_extend comma lastRest t) (.inr ?_)
      obtain done | h := h
      · rw [eq_nil_of_skipBlanks (lastRest.of_suffix suffix) done]
        exact tail
      · exact ih (lastRest.of_suffix suffix) h
    | clause hmore apart h =>
      exact .clause (skipBlanks_extend hmore lastRest t) apart (ih lastRest h)

/-! Splitting. -/

variable {q : List Char}

/-- Before clauses an end of a text is one if it is one alone. -/
theorem isTail_append (ht : Opens t more) (hothers : Reads t others) (tail : isTail t = true)
    (nonempty : s ≠ []) (last : NoBlankLast s) : isTail (s ++ t) = isTail s := by
  refine Bool.eq_iff_iff.mpr ⟨fun h => ?_, fun h => ?_⟩
  · exact (clauses_append_inv ht hothers nonempty last h).1 _ (Nat.le_refl _)
  · rw [isTail, List.length_append]
    exact clauses_extend ht last h tail

theorem split_append (ht : Opens t more) (hothers : Reads t others) (tail : isTail t = true)
    (last : NoBlankLast q) :
    Options.split (q ++ t) = ((Options.split q).1, (Options.split q).2 ++ t) ∧
      ∃ clauses, Reads ((Options.split q).2 ++ t) (clauses ++ others) := by
  induction q with
  | nil =>
    obtain ⟨b, cs, rfl, -⟩ := ht.blank
    have whole : Options.split (b :: cs) = ([], b :: cs) := if_pos tail
    exact ⟨whole, [], hothers⟩
  | cons c q ih =>
    obtain ⟨hsplit, reads⟩ := ih (last.of_suffix (List.suffix_cons c q))
    have same := isTail_append ht hothers tail (List.cons_ne_nil c q) last
    rw [List.cons_append] at same ⊢
    rw [split, split, same, hsplit]
    split
    next whole =>
      obtain ⟨-, reads⟩ :=
        clauses_append_inv ht hothers (List.cons_ne_nil c q) last (same.trans whole)
      exact ⟨rfl, reads⟩
    next => exact ⟨rfl, reads⟩

/-! Naming a container. -/

/-- A clause as it is written. -/
def clauseText (key : String) (value : List Char) : List Char :=
  ['W', 'I', 'T', 'H'] ++ ' ' :: (key.toList ++ '=' :: value)

/-- The clauses that name a container, after blanks. -/
def naming (blanks database collection : List Char) : List Char :=
  blanks ++ clauseText "database" (database ++ ' ' :: clauseText "collection" collection)

/-- A value that is read as it is written: no blank, comma, quote or semicolon is in it. -/
def IsPlain (value : List Char) : Prop :=
  value ≠ [] ∧ ∀ c ∈ value, isValue c = true ∧ isQuote c = false ∧ c ≠ ';'

instance (value : List Char) : Decidable (IsPlain value) :=
  inferInstanceAs (Decidable (_ ∧ _))

theorem clause?_text {key : String} {value rest : List Char} (hkey : IsName key)
    (hvalue : IsPlain value) (stop : ∀ c, rest.head? = some c → isValue c = false) :
    clause? (clauseText key (value ++ rest)) = some ⟨key.toList, value, rest⟩ := by
  have keyStart := hkey.noBlankFirst ('=' :: (value ++ rest))
  have valueStart := noBlankFirst_append hvalue.1
    (fun c hc => isBlank_of_isValue (hvalue.2 c hc).1) rest
  refine clause?_eq_some.mpr ⟨_, _, _, _, keyword?_append (by decide) _, blanks?_space keyStart,
    run?_append hkey.toList_ne_nil hkey.2 ?_, skipBlanks_cons (by decide), ?_⟩
  · intro c hc
    cases hc
    decide
  · rw [skipBlanks_of_noBlankFirst valueStart]
    exact run?_append hvalue.1 (fun c hc => (hvalue.2 c hc).1) stop

variable {blanks database collection : List Char}

theorem opens_naming (nonempty : blanks ≠ []) (hblanks : ∀ c ∈ blanks, isBlank c = true) :
    ∃ more, Opens (naming blanks database collection) more := by
  refine ⟨_, ?_, skipBlanks_blanks hblanks (noBlankFirst_cons (by decide))⟩
  obtain ⟨b, bs, rfl⟩ := List.exists_cons_of_ne_nil nonempty
  exact ⟨b, _, rfl, hblanks b List.mem_cons_self⟩

theorem clauses_naming (nonempty : blanks ≠ []) (hblanks : ∀ c ∈ blanks, isBlank c = true)
    (hdatabase : IsPlain database) (hcollection : IsPlain collection) :
    Reads (naming blanks database collection)
        [("database".toList, database), ("collection".toList, collection)] ∧
      isTail (naming blanks database collection) = true := by
  have first : clause? (clauseText "database"
      (database ++ ' ' :: clauseText "collection" collection)) =
      some ⟨"database".toList, database, ' ' :: clauseText "collection" collection⟩ :=
    clause?_text (by decide) hdatabase fun c hc => by
      cases hc
      decide
  have second : clause? (clauseText "collection" (collection ++ [])) =
      some ⟨"collection".toList, collection, []⟩ := clause?_text (by decide) hcollection nofun
  rw [List.append_nil] at second
  have word (rest : List Char) : NoBlankFirst (['W', 'I', 'T', 'H'] ++ rest) :=
    noBlankFirst_append (by decide) (by decide) rest
  have atFirst := blanks?_blanks nonempty hblanks
    (word (' ' :: ("database".toList ++
      '=' :: (database ++ ' ' :: clauseText "collection" collection))))
  have atSecond := blanks?_space (word (' ' :: ("collection".toList ++ '=' :: collection)))
  constructor
  · refine reads_of_blanks? atFirst (reads_clause first ?_)
    refine reads_of_blanks? atSecond (reads_clause second ?_)
    intro fuel _
    cases fuel <;> rfl
  · obtain ⟨steps, hsteps⟩ : ∃ steps, (naming blanks database collection).length = steps + 2 :=
      ⟨_, Nat.sub_add_cancel (by simp [naming, clauseText]; omega) |>.symm⟩
    rw [isTail, hsteps]
    have last : clausesOnly (steps + 1) (' ' :: clauseText "collection" collection) = true :=
      clausesOnly_succ.mpr ⟨_, _, atSecond, second, .done rfl⟩
    exact clausesOnly_succ.mpr ⟨_, _, atFirst, first,
      .clause (skipBlanks_space (word _)) (by decide) last⟩

/-! The values of options. -/

theorem unquote_plain {value : List Char} (h : IsPlain value) : unquote value = value := by
  obtain ⟨nonempty, plain⟩ := h
  have first : value.dropWhile isQuote = value := by
    obtain ⟨c, cs, rfl⟩ := List.exists_cons_of_ne_nil nonempty
    exact List.dropWhile_cons_of_neg (by simp [(plain c List.mem_cons_self).2.1])
  rw [unquote, first]
  exact dropEndWhile_eq fun c hc => (plain c (List.mem_of_getLast? hc)).2.1

/-- What is recorded of a clause. -/
def recorded (clause : List Char × List Char) : String × String :=
  (capitals clause.1, String.ofList (unquote clause.2))

theorem eq_of_parse {clauses : List (List Char × List Char)} {options : Options}
    (reads : Reads cs clauses) (h : parse cs = .ok options) :
    options = KeyMap.ofList (clauses.map recorded) := by
  unfold parse at h
  split at h
  next =>
    cases h
    rw [reads _ (Nat.le_refl _)]
    rfl
  next => cases h

theorem value?_of_reads {clauses : List (List Char × List Char)} {options : Options}
    (reads : Reads cs clauses) (h : parse cs = .ok options) (key : String) :
    options.value? key =
      (clauses.map fun e => (capitals e.1, String.ofList (unquote e.2))).reverse.lookup
        (capitals key.toList) := by
  rw [eq_of_parse reads h, value?, KeyMap.get?_ofList]
  rfl

/-- The clauses that name the container count, whatever other clauses stand before them. -/
theorem firstOf?_naming {clauses : List (List Char × List Char)} {options : Options}
    (hdatabase : IsPlain database) (hcollection : IsPlain collection)
    (reads : Reads cs
      (clauses ++ [("database".toList, database), ("collection".toList, collection)]))
    (h : parse cs = .ok options) :
    options.firstOf? ["DATABASE", "DB"] = some (String.ofList database) ∧
      options.firstOf? ["COLLECTION", "TABLE"] = some (String.ofList collection) := by
  have names : capitals "database".toList = "DATABASE" ∧
      capitals "collection".toList = "COLLECTION" := by decide
  have keys : capitals "DATABASE".toList = "DATABASE" ∧
      capitals "COLLECTION".toList = "COLLECTION" := by decide
  simp only [firstOf?, List.findSome?_cons, value?_of_reads reads h, keys, List.map_append,
    List.map_cons, List.map_nil, names, unquote_plain hdatabase, unquote_plain hcollection,
    List.reverse_append, List.reverse_cons, List.reverse_nil, List.nil_append, List.cons_append,
    KeyMap.lookup_cons_eq]
  simp

end DocumentStore.Options
