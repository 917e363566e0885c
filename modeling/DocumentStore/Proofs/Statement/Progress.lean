import DocumentStore.Proofs.Text.Words
import DocumentStore.ValueList
import Mathlib.Data.Option.Basic

/- What the steps of a reader take off a list of operands. A recogniser takes what it has looked at, be
   it an operand or not (`Takes`), so every step leaves an end of its text, also after a failure, and a
   step that finds something leaves less than it was given (`Call.advances`). A loop whose rounds do so
   ends in one way (`Shortens.exists_loops`, `Loops.unique`), and a bound of one round for each
   character never cuts it short (`Loops.collect_eq`), so that what a text is read as is told without
   the bound (`operands_eq_ok`, `assignments_eq_ok`). -/
namespace DocumentStore.ValueList

open Text

variable {cs rest : List Char} {step : Step Operand}

/-! Recognisers. -/

/-- What may be taken off a text: all of a placeholder, some characters for a literal, or any number of
    them for a fault. -/
inductive Takes (cs : List Char) : Step Operand → Prop where
  | placeholder {sigil : Char} {digits rest : List Char} {index : Nat} :
    Placeholder.isSigil sigil = true → index? digits = some index → cs = sigil :: (digits ++ rest) →
      Takes cs (.ok (.placeholder index), rest)
  | literal {taken rest : List Char} {v : Json.Value} : taken ≠ [] → cs = taken ++ rest →
    Takes cs (.ok (.literal v), rest)
  | fault {taken rest : List Char} {e : Error} : cs = taken ++ rest → Takes cs (.error e, rest)

theorem takes_placeholder? (h : placeholder? cs = some step) : Takes cs step := by
  unfold placeholder? at h
  split at h
  next sigil d cs =>
    have run : sigil :: d :: cs =
        sigil :: (d :: cs).takeWhile Char.isDigit ++ (d :: cs).dropWhile Char.isDigit := by
      rw [List.cons_append, List.takeWhile_append_dropWhile]
    split at h
    next starts =>
      rw [Bool.and_eq_true] at starts
      dsimp only at h
      split at h
      next index hindex =>
        cases h
        exact .placeholder starts.1 hindex run
      next =>
        cases h
        exact .fault run
    next => cases h
  next => cases h

theorem takes_bareWord? {word : String} {v : Json.Value} (nonempty : word.toList ≠ [])
    (h : bareWord? word v cs = some step) : Takes cs step := by
  unfold bareWord? at h
  split at h
  next rest hrest =>
    obtain ⟨taken, rfl, length, -⟩ := after?_eq_some hrest
    split at h
    next => cases h
    next =>
      cases h
      refine .literal (fun none => nonempty ?_) rfl
      rw [none] at length
      exact List.eq_nil_of_length_eq_zero length.symm
  next => cases h

theorem continuesNumber_of_startsNumber {c : Char} (h : startsNumber c = true) :
    continuesNumber c = true := by
  simp only [startsNumber, continuesNumber, Char.isAlphanum, Bool.or_eq_true] at h ⊢
  rcases h with ((digit | minus) | plus) | point
  · exact .inl (.inl (.inl (.inr digit)))
  · exact .inl (.inl (.inr minus))
  · exact .inl (.inr plus)
  · exact .inr point

theorem takes_number? (h : number? cs = some step) : Takes cs step := by
  unfold number? at h
  split at h
  next starts =>
    have run : cs = cs.takeWhile continuesNumber ++ cs.dropWhile continuesNumber :=
      List.takeWhile_append_dropWhile.symm
    have nonempty : cs.takeWhile continuesNumber ≠ [] := by
      obtain ⟨c, first, hc⟩ := (Option.any_eq_true _ _).mp starts
      obtain ⟨more, rfl⟩ := List.head?_eq_some_iff.mp first
      rw [List.takeWhile_cons_of_pos (continuesNumber_of_startsNumber hc)]
      exact List.cons_ne_nil c _
    dsimp only at h
    split at h
    next =>
      split at h
      next =>
        cases h
        exact .literal nonempty run
      next =>
        cases h
        exact .fault run
    next =>
      cases h
      exact .fault run
  next => cases h

theorem eq_append_of_cons {taken body : List Char}
    (ih : ∀ body, closing? cs = some (body, rest) → cs = body ++ rest)
    (h : (closing? cs).map (cons taken) = some (body, rest)) : taken ++ cs = body ++ rest := by
  obtain ⟨⟨more, behind⟩, hmore, hcons⟩ := Option.map_eq_some_iff.mp h
  cases hcons
  rw [List.append_assoc, ← ih more hmore]

theorem closing?_eq_append {body : List Char} (h : closing? cs = some (body, rest)) :
    cs = body ++ rest := by
  fun_induction closing? cs generalizing body with
  | case1 => cases h
  | case2 c cs ih => exact eq_append_of_cons (fun _ => ih) h
  | case3 cs =>
    cases h
    rfl
  | case4 c cs _ _ ih => exact eq_append_of_cons (fun _ => ih) h

theorem takes_quoted? (h : quoted? cs = some step) : Takes cs step := by
  unfold quoted? at h
  split at h
  next cs =>
    split at h
    next =>
      cases h
      exact .fault (List.append_nil _).symm
    next body rest hbody =>
      have split : '"' :: cs = '"' :: body ++ rest := by rw [closing?_eq_append hbody, List.cons_append]
      cases h
      cases content (String.ofList ('"' :: body)) with
      | ok v => exact .literal (List.cons_ne_nil '"' body) split
      | error e => exact .fault split
  next => cases h

/-- **An operand** is taken off the text as one of the recognisers does it. -/
theorem takes_operand (cs : List Char) : Takes cs (operand cs) := by
  rw [operand]
  cases found : placeholder? cs <|> bareWord? "null" .null cs <|> number? cs <|>
      bareWord? "true" (.bool true) cs <|> bareWord? "false" (.bool false) cs <|> quoted? cs with
  | none => exact .fault (List.nil_append cs).symm
  | some step =>
    simp only [Option.orElse_eq_some] at found
    rcases found with h | ⟨-, h | ⟨-, h | ⟨-, h | ⟨-, h | ⟨-, h⟩⟩⟩⟩⟩
    · exact takes_placeholder? h
    · exact takes_bareWord? (by decide) h
    · exact takes_number? h
    · exact takes_bareWord? (by decide) h
    · exact takes_bareWord? (by decide) h
    · exact takes_quoted? h

theorem Takes.suffix (h : Takes cs step) : step.2 <:+ cs := by
  cases h with
  | @placeholder sigil digits rest _ _ _ split => exact ⟨sigil :: digits, split.symm⟩
  | @literal taken _ _ _ split => exact ⟨taken, split.symm⟩
  | @fault taken _ _ split => exact ⟨taken, split.symm⟩

theorem Takes.length_lt {found : Operand} (h : Takes cs (.ok found, rest)) : rest.length < cs.length := by
  cases h with
  | placeholder _ _ split =>
    rw [split, List.length_cons, List.length_append]
    omega
  | @literal taken _ _ nonempty split =>
    have := List.length_pos_of_ne_nil nonempty
    rw [split, List.length_append]
    omega

/-! Steps. -/

/-- The next operand stands behind the blanks, and the separator after it is taken as well. -/
theorem next_eq_found {found : Operand} (h : next cs = (.ok (some found), rest)) :
    ∃ behind, Takes (skipBlanks cs) (.ok found, behind) ∧ rest = skipSeparator behind := by
  rw [next] at h
  split at h
  next => cases h
  next c more hmore =>
    have taken := takes_operand (c :: more)
    rw [← hmore] at taken h
    split at h
    next found behind hfound =>
      cases h
      rw [hfound] at taken
      exact ⟨behind, taken, rfl⟩
    next => cases h

theorem next_suffix (cs : List Char) : (next cs).2 <:+ cs := by
  rw [next]
  split
  next => exact List.nil_suffix
  next c more hmore =>
    have taken := (takes_operand (c :: more)).suffix
    rw [← hmore] at taken ⊢
    split
    next found behind hfound =>
      rw [hfound] at taken
      exact skipSeparator_suffix.trans (taken.trans skipBlanks_suffix)
    next e behind hfault =>
      rw [hfault] at taken
      exact taken.trans skipBlanks_suffix

theorem length_lt_of_next {found : Operand} (h : next cs = (.ok (some found), rest)) :
    rest.length < cs.length := by
  obtain ⟨behind, taken, rfl⟩ := next_eq_found h
  calc (skipSeparator behind).length ≤ behind.length := skipSeparator_suffix.length_le
    _ < (skipBlanks cs).length := taken.length_lt
    _ ≤ cs.length := skipBlanks_suffix.length_le

theorem atEnd_iff : atEnd cs = true ↔ ∀ c ∈ cs, isBlank c = true := by
  rw [atEnd, List.isEmpty_iff, skipBlanks, List.dropWhile_eq_nil_iff]

theorem next_eq_none : (next cs).1 = .ok none ↔ ∀ c ∈ cs, isBlank c = true := by
  rw [← atEnd_iff, atEnd, List.isEmpty_iff, next]
  split
  next none => exact ⟨fun _ => none, fun _ => rfl⟩
  next c more hmore =>
    rw [hmore]
    split <;> exact ⟨nofun, nofun⟩

/-- A name is taken with the equals sign behind it. Nothing else is taken but blanks. -/
theorem field_cases (cs : List Char) :
    (∃ name gap rest, name ≠ [] ∧ skipBlanks cs = name ++ (gap ++ '=' :: rest) ∧
      field cs = (.ok (String.ofList name), rest)) ∨
    field cs = fail (.field (String.ofList (skipBlanks cs))) (skipBlanks cs) := by
  rw [field]
  split
  next c name rest hname hrest =>
    obtain ⟨gap, behind, -⟩ := skipBlanks_eq ((skipBlanks cs).dropWhile isFieldName)
    refine .inl ⟨c :: name, gap, rest, List.cons_ne_nil c name, ?_, rfl⟩
    rw [← hrest, ← behind, ← hname, List.takeWhile_append_dropWhile]
  next => exact .inr rfl

theorem field_suffix (cs : List Char) : (field cs).2 <:+ cs := by
  rcases field_cases cs with ⟨name, gap, rest, -, split, h⟩ | h
  · rw [h]
    refine List.IsSuffix.trans ⟨name ++ (gap ++ ['=']), ?_⟩ skipBlanks_suffix
    simp [split]
  · rw [h]
    exact skipBlanks_suffix

theorem length_lt_of_field {name : String} (h : field cs = (.ok name, rest)) :
    rest.length + 1 < cs.length := by
  rcases field_cases cs with ⟨taken, gap, behind, nonempty, split, hfield⟩ | hfield
  · cases hfield.symm.trans h
    have blanks : (skipBlanks cs).length ≤ cs.length := skipBlanks_suffix.length_le
    have := List.length_pos_of_ne_nil nonempty
    rw [split, List.length_append, List.length_append, List.length_cons] at blanks
    omega
  · cases hfield.symm.trans h

theorem rest_of_refused {e : Error} (h : field cs = (.error e, rest)) : rest = skipBlanks cs := by
  rcases field_cases cs with ⟨taken, gap, behind, -, -, hfield⟩ | hfield
  · cases hfield.symm.trans h
  · cases hfield.symm.trans h
    rfl

/-! Any steps, one after the other. -/

/-- What a reader may ask of the text it has: the next operand, the name of the next assignment, or
    whether only blanks are left. -/
inductive Call where
  | next
  | field
  | atEnd

/-- What a reader is told. -/
inductive Answer where
  | next (found : Except Error (Option Operand))
  | field (name : Except Error String)
  | atEnd (blank : Bool)

/-- An operand or a name was found. -/
def Answer.isFound : Answer → Bool
  | .next (.ok (some _)) => true
  | .field (.ok _) => true
  | _ => false

/-- The answer, and the text that remains. -/
def Call.answer (cs : List Char) : Call → Answer × List Char
  | .next => (.next (ValueList.next cs).1, (ValueList.next cs).2)
  | .field => (.field (ValueList.field cs).1, (ValueList.field cs).2)
  | .atEnd => (.atEnd (ValueList.atEnd cs), skipBlanks cs)

/-- The text that remains after some calls, whatever the answers were. -/
def after (calls : List Call) (cs : List Char) : List Char :=
  calls.foldl (fun cs call => (call.answer cs).2) cs

/-- The answers to some calls. -/
def answers : List Call → List Char → List Answer
  | [], _ => []
  | call :: calls, cs => (call.answer cs).1 :: answers calls (call.answer cs).2

/-- What an answer says about the text before it and the text after it. -/
structure Advances (cs : List Char) (answer : Answer) (rest : List Char) : Prop where
  /-- Whatever the answer is, an end of the text remains. -/
  suffix : rest <:+ cs
  /-- What is found is taken. -/
  shorter : answer.isFound = true → rest.length < cs.length
  nothing : ∀ found, answer = .next found → (found = .ok none ↔ ∀ c ∈ cs, isBlank c = true)
  /-- A name that is refused stays. -/
  refused : ∀ e, answer = .field (.error e) → rest = skipBlanks cs
  asked : ∀ b, answer = .atEnd b → rest = skipBlanks cs ∧ (b = true ↔ ∀ c ∈ cs, isBlank c = true)

theorem Call.advances (cs : List Char) (call : Call) :
    Advances cs (call.answer cs).1 (call.answer cs).2 := by
  cases call with
  | next =>
    rcases hnext : ValueList.next cs with ⟨found, rest⟩
    have suffix := next_suffix cs
    rw [hnext] at suffix
    rw [answer, hnext]
    refine ⟨suffix, fun isFound => ?_, fun found told => ?_, nofun, nofun⟩
    · match found, isFound with
      | .ok (some _), _ => exact length_lt_of_next hnext
    · cases told
      rw [← next_eq_none, hnext]
  | field =>
    rcases hfield : ValueList.field cs with ⟨name, rest⟩
    have suffix := field_suffix cs
    rw [hfield] at suffix
    rw [answer, hfield]
    refine ⟨suffix, fun isFound => ?_, nofun, fun e refused => ?_, nofun⟩
    · match name, isFound with
      | .ok _, _ => exact Nat.lt_of_succ_lt (length_lt_of_field hfield)
    · cases refused
      exact rest_of_refused hfield
  | atEnd =>
    refine ⟨skipBlanks_suffix, nofun, nofun, nofun, fun b asked => ⟨rfl, ?_⟩⟩
    cases asked
    exact atEnd_iff

theorem after_suffix (calls : List Call) (cs : List Char) : after calls cs <:+ cs := by
  induction calls generalizing cs with
  | nil => exact List.suffix_rfl
  | cons call calls ih => exact (ih _).trans (call.advances cs).suffix

theorem count_answers_le (calls : List Call) (cs : List Char) :
    (answers calls cs).countP Answer.isFound + (after calls cs).length ≤ cs.length := by
  induction calls generalizing cs with
  | nil => exact Nat.le_of_eq (Nat.zero_add _)
  | cons call calls ih =>
    have others := ih (call.answer cs).2
    have step := call.advances cs
    have length := step.suffix.length_le
    rw [answers, List.countP_cons, after, List.foldl_cons, ← after]
    split
    next found =>
      have := step.shorter found
      omega
    next => omega

/-! Loops. -/

variable {α : Type} {round : List Char → Step (Option α)} {found : List α} {ending : Option Error}
  {clause : List Char} {k : Nat}

/-- A loop goes on as long as its rounds find something. -/
inductive Loops (round : List Char → Step (Option α)) :
    List Char → List α → Option Error → Prop where
  | done {cs rest : List Char} : round cs = (.ok none, rest) → Loops round cs [] none
  | fault {cs rest : List Char} {e : Error} : round cs = (.error e, rest) → Loops round cs [] (some e)
  | more {cs rest : List Char} {a : α} {others : List α} {ending : Option Error} :
    round cs = (.ok (some a), rest) → Loops round rest others ending →
      Loops round cs (a :: others) ending

/-- What a loop results in. Behind a fault nothing counts that was found before. -/
def outcome (found : List α) : Option Error → Except Error (List α)
  | none => .ok found
  | some e => .error e

/-- A round that finds something takes as many characters, or more. -/
def Shortens (k : Nat) (round : List Char → Step (Option α)) : Prop :=
  ∀ cs a rest, round cs = (.ok (some a), rest) → rest.length + k ≤ cs.length

theorem Shortens.exists_loops (h : Shortens (k + 1) round) (cs : List Char) :
    ∃ found ending, Loops round cs found ending := by
  induction hlength : cs.length using Nat.strongRecOn generalizing cs with
  | ind n ih =>
    rcases hround : round cs with ⟨e | _ | a, rest⟩
    · exact ⟨[], some e, .fault hround⟩
    · exact ⟨[], none, .done hround⟩
    · have shorter := h cs a rest hround
      obtain ⟨others, ending, loops⟩ := ih rest.length (by omega) rest rfl
      exact ⟨a :: others, ending, .more hround loops⟩

theorem Loops.congr {cs' : List Char} (loops : Loops round cs found ending)
    (same : round cs' = round cs) : Loops round cs' found ending := by
  cases loops with
  | done hround => exact .done (same.trans hround)
  | fault hround => exact .fault (same.trans hround)
  | more hround others => exact .more (same.trans hround) others

theorem Loops.exists_round (loops : Loops round cs found ending) :
    ∀ a ∈ found, ∃ start rest, round start = (.ok (some a), rest) := by
  induction loops with
  | done _ => exact List.forall_mem_nil _
  | fault _ => exact List.forall_mem_nil _
  | more hround _ ih => exact List.forall_mem_cons.mpr ⟨⟨_, _, hround⟩, ih⟩

theorem Loops.unique (loops : Loops round cs found ending) {found' : List α}
    {ending' : Option Error} (loops' : Loops round cs found' ending') :
    found' = found ∧ ending' = ending := by
  induction loops generalizing found' with
  | done hround =>
    cases loops' with
    | done _ => exact ⟨rfl, rfl⟩
    | fault hround' => cases hround.symm.trans hround'
    | more hround' _ => cases hround.symm.trans hround'
  | fault hround =>
    cases loops' with
    | done hround' => cases hround.symm.trans hround'
    | fault hround' =>
      cases hround.symm.trans hround'
      exact ⟨rfl, rfl⟩
    | more hround' _ => cases hround.symm.trans hround'
  | more hround _ ih =>
    cases loops' with
    | done hround' => cases hround.symm.trans hround'
    | fault hround' => cases hround.symm.trans hround'
    | more hround' loops' =>
      cases hround.symm.trans hround'
      obtain ⟨rfl, rfl⟩ := ih loops'
      exact ⟨rfl, rfl⟩

theorem Loops.length_le (loops : Loops round cs found ending) (h : Shortens k round) :
    k * found.length ≤ cs.length := by
  induction loops with
  | done _ => exact Nat.zero_le _
  | fault _ => exact Nat.zero_le _
  | @more cs rest a others _ hround _ ih =>
    have shorter := h cs a rest hround
    rw [List.length_cons, Nat.mul_succ]
    omega

/-- One round more than there is something to find is enough. -/
theorem Loops.collect_eq (loops : Loops round cs found ending) {fuel : Nat}
    (enough : found.length ≤ fuel) : collect round (fuel + 1) cs = outcome found ending := by
  induction loops generalizing fuel with
  | done hround =>
    rw [collect, hround]
    rfl
  | fault hround =>
    rw [collect, hround]
    rfl
  | @more _ _ _ others ending hround _ ih =>
    obtain ⟨fuel, rfl⟩ := Nat.exists_eq_add_one_of_ne_zero (Nat.ne_zero_of_lt enough)
    rw [collect, hround]
    dsimp only
    rw [ih (Nat.le_of_succ_le_succ enough)]
    cases ending <;> rfl

theorem Shortens.collect_eq (h : Shortens (k + 1) round) (loops : Loops round cs found ending) :
    collect round (cs.length + 1) cs = outcome found ending := by
  have bound := loops.length_le h
  have least : found.length ≤ (k + 1) * found.length := Nat.le_mul_of_pos_left _ (Nat.succ_pos k)
  exact loops.collect_eq (by omega)

theorem Shortens.collect_eq_ok (h : Shortens (k + 1) round) :
    collect round (cs.length + 1) cs = .ok found ↔ Loops round cs found none := by
  refine ⟨fun collected => ?_, h.collect_eq⟩
  obtain ⟨found', ending, loops⟩ := h.exists_loops cs
  rw [h.collect_eq loops] at collected
  cases ending with
  | none =>
    cases collected
    exact loops
  | some e => cases collected

/-- A loop ends in one way, and is cut short by no bound that leaves it a round for each character
    and one more. -/
theorem Shortens.ends (h : Shortens (k + 1) round) (cs : List Char) : ∃ found ending,
    (∀ found' ending', Loops round cs found' ending' ↔ found' = found ∧ ending' = ending) ∧
    (k + 1) * found.length ≤ cs.length ∧
    collect round (cs.length + 1) cs = outcome found ending := by
  obtain ⟨found, ending, loops⟩ := h.exists_loops cs
  refine ⟨found, ending, fun found' ending' => ⟨loops.unique, ?_⟩, loops.length_le h,
    h.collect_eq loops⟩
  rintro ⟨rfl, rfl⟩
  exact loops

/-! Operands and assignments. -/

theorem shortens_next : Shortens 1 next :=
  fun _ _ _ => length_lt_of_next

theorem operands_eq_ok {found : List Operand} : operands cs = .ok found ↔ Loops next cs found none :=
  shortens_next.collect_eq_ok

theorem assignment_eq_found {name : String} {found : Operand} :
    assignment clause cs = (.ok (some (name, found)), rest) ↔ ∃ behind,
      field cs = (.ok name, behind) ∧ next behind = (.ok (some found), rest) := by
  rw [assignment]
  constructor
  · intro h
    split at h
    next => cases h
    next =>
      split at h
      next => cases h
      next name behind hfield =>
        split at h
        next => cases h
        next => cases h
        next operand rest hnext =>
          cases h
          exact ⟨behind, hfield, hnext⟩
  · rintro ⟨behind, hfield, hnext⟩
    -- Something is left, because a name is taken of it.
    have more : atEnd cs = false := by
      rcases field_cases cs with ⟨taken, gap, left, nonempty, split, -⟩ | refused
      · rw [atEnd, split, List.isEmpty_eq_false_iff]
        exact List.append_ne_nil_of_left_ne_nil nonempty _
      · cases refused.symm.trans hfield
    rw [more, if_neg Bool.false_ne_true, hfield]
    dsimp only
    rw [hnext]

theorem assignment_eq_none :
    (assignment clause cs).1 = .ok none ↔ ∀ c ∈ cs, isBlank c = true := by
  rw [← atEnd_iff, assignment]
  split
  next ends => exact ⟨fun _ => ends, fun _ => rfl⟩
  next more =>
    refine ⟨fun none => ?_, fun ends => absurd ends more⟩
    split at none
    next => cases none
    next => split at none <;> cases none

theorem shortens_assignment (clause : List Char) : Shortens 3 (assignment clause) := by
  intro cs found rest h
  obtain ⟨behind, hfield, hnext⟩ := assignment_eq_found.mp h
  have := length_lt_of_field hfield
  have := length_lt_of_next hnext
  omega

theorem assignments_eq_ok {found : List (String × Operand)} :
    assignments clause = .ok found ↔ Loops (assignment clause) clause found none :=
  (shortens_assignment clause).collect_eq_ok

/-- **Reading goes forward.** Whatever is asked of a text, one call after the other and also behind a
    fault,

    * every call leaves an end of the text that the call before it left, and less if it has found
      something, as `Advances` says in full;
    * there are not more operands and names found than characters taken.

    So the loop over operands ends on every text, in one way, and has found an operand for each
    character at most; this is what reading a whole text results in. The same is true of the loop over
    assignments, each of which takes three characters. A round of it finds a name and then the operand
    behind it, and nothing exactly where only blanks are left. -/
theorem reading_advances (input : List Char) :
    (∀ calls call, let cs := after calls input
      after (calls ++ [call]) input = (call.answer cs).2 ∧ cs <:+ input ∧
        Advances cs (call.answer cs).1 (call.answer cs).2) ∧
    (∀ calls,
      (answers calls input).countP Answer.isFound + (after calls input).length ≤ input.length) ∧
    (∃ found ending,
      (∀ found' ending', Loops next input found' ending' ↔ found' = found ∧ ending' = ending) ∧
      found.length ≤ input.length ∧ operands input = outcome found ending) ∧
    (∃ found ending,
      (∀ found' ending', Loops (assignment input) input found' ending' ↔
        found' = found ∧ ending' = ending) ∧
      3 * found.length ≤ input.length ∧ assignments input = outcome found ending) ∧
    (∀ cs name found rest, assignment input cs = (.ok (some (name, found)), rest) ↔ ∃ behind,
      field cs = (.ok name, behind) ∧ next behind = (.ok (some found), rest)) ∧
    (∀ cs, (assignment input cs).1 = .ok none ↔ ∀ c ∈ cs, isBlank c = true) := by
  refine ⟨fun calls call => ⟨List.foldl_concat _ _ _ _, after_suffix calls input, call.advances _⟩,
    fun calls => count_answers_le calls input, ?_, (shortens_assignment input).ends input,
    fun _ _ _ _ => assignment_eq_found, fun _ => assignment_eq_none⟩
  obtain ⟨found, ending, loops, bound, collected⟩ := shortens_next.ends input
  rw [Nat.one_mul] at bound
  exact ⟨found, ending, loops, bound, collected⟩

end DocumentStore.ValueList
