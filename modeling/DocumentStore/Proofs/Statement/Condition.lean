import DocumentStore.Proofs.Statement.Reading
import DocumentStore.Proofs.Text.Words
import DocumentStore.Statement.Update

/- Where the condition of an UPDATE starts. It opens with `WHERE id=`, whatever follows
   (`Target.condition?_eq_some`), and of several that open where no word goes on the last one counts:
   there is none exactly if none opens (`Update.clauses?_eq_none_iff`), and a condition behind which
   none opens is where the text is cut (`Update.clauses?_condition`). -/
namespace DocumentStore

open Text

variable {before : Option Char} {c : Char} {cs first second clause id rest word key : List Char}

namespace Target

/-! One condition. -/

theorem condition?_eq_some (h : condition? cs = some rest) :
    ∃ head tail, cs = head ++ '=' :: tail ∧
      ∀ more, condition? (head ++ '=' :: more) = some (skipBlanks more) := by
  obtain ⟨second, hfirst, h⟩ := Option.bind_eq_some_iff.mp h
  obtain ⟨blanks, hword, hblanks⟩ := Option.bind_eq_some_iff.mp hfirst
  obtain ⟨tail, h, -⟩ := Option.map_eq_some_iff.mp h
  obtain ⟨third, hkey, hequals⟩ := Option.bind_eq_some_iff.mp h
  obtain ⟨word, rfl, -, words⟩ := after?_eq_some hword
  obtain ⟨b, more, rfl, hb, rfl⟩ := exists_of_blanks? hblanks
  obtain ⟨lead, hlead, blank⟩ := skipBlanks_eq more
  obtain ⟨key, hkey', length, keys⟩ := after?_eq_some hkey
  obtain ⟨gap, hgap, blank'⟩ := skipBlanks_eq third
  have start (rest : List Char) : NoBlankFirst (key ++ rest) := by
    have first := noBlankFirst_skipBlanks more
    rw [hkey'] at first
    cases key with
    | nil => cases length
    | cons k key => exact noBlankFirst_cons (first k rfl)
  rw [char?_eq_some.mp hequals] at hgap
  refine ⟨word ++ b :: (lead ++ (key ++ gap)), tail, ?_, fun more => ?_⟩
  · rw [hlead, hkey', hgap]
    simp
  · have blanks : blanks? (b :: (lead ++ (key ++ (gap ++ '=' :: more)))) =
        some (key ++ (gap ++ '=' :: more)) :=
      blanks?_blanks (List.cons_ne_nil b lead) (List.forall_mem_cons.mpr ⟨hb, blank⟩) (start _)
    have found : keyword? "id" (key ++ (gap ++ '=' :: more)) = some (gap ++ '=' :: more) := keys _
    have found' : keyword? "WHERE" (word ++ b :: (lead ++ (key ++ (gap ++ '=' :: more)))) =
        some (b :: (lead ++ (key ++ (gap ++ '=' :: more)))) := words _
    simp only [List.append_assoc, List.cons_append]
    rw [condition?, found', Option.bind_some, blanks, Option.bind_some, found, Option.bind_some,
      skipBlanks_blanks blank' (noBlankFirst_cons (by decide)), char?, if_pos rfl,
      Option.map_some]

theorem condition?_text (hword : Spells "WHERE" word) (hkey : Spells "id" key) (id : List Char) :
    condition? (word ++ ' ' :: (key ++ '=' :: id)) = some (skipBlanks id) := by
  rw [condition?, keyword?_append hword, Option.bind_some,
    blanks?_space (hkey.noBlankFirst (k := 'i') rfl (by decide) _), Option.bind_some,
    keyword?_append hkey, Option.bind_some, skipBlanks_cons (by decide), char?, if_pos rfl,
    Option.map_some]

theorem condition?_eq_none (h : sameFolded 'W' c = false) (cs : List Char) :
    condition? (c :: cs) = none := by
  have apart : keyword? "WHERE" (c :: cs) = none := after?_eq_none h _ _
  rw [condition?, apart]
  rfl

theorem getLast?_cons_or (c : Char) (first : List Char) (before : Option Char) :
    (c :: first).getLast?.or before = first.getLast?.or (some c) := by
  rw [List.getLast?_cons]
  cases first.getLast? <;> rfl

/-- A condition opens in the text where no word goes on, `before` standing before the text. -/
def Opens (before : Option Char) (cs : List Char) : Prop :=
  ∃ first rest, cs = first ++ rest ∧ (first.getLast?.or before).any isWord = false ∧
    (condition? rest).isSome = true

theorem opens_cons : Opens before (c :: cs) ↔
    (before.any isWord = false ∧ (condition? (c :: cs)).isSome = true) ∨ Opens (some c) cs := by
  constructor
  · rintro ⟨first, rest, hcs, boundary, found⟩
    cases first with
    | nil => exact .inl ⟨boundary, hcs ▸ found⟩
    | cons d first =>
      obtain ⟨rfl, rfl⟩ := List.cons.inj hcs
      rw [getLast?_cons_or] at boundary
      exact .inr ⟨first, rest, rfl, boundary, found⟩
  · rintro (⟨boundary, found⟩ | ⟨first, rest, rfl, boundary, found⟩)
    · exact ⟨[], c :: cs, rfl, boundary, found⟩
    · rw [← getLast?_cons_or c first before] at boundary
      exact ⟨c :: first, rest, rfl, boundary, found⟩

/-- What stands before the text does not matter unless a word goes on. -/
theorem opens_of_boundary (h : before.any isWord = false) : Opens before cs ↔ Opens none cs := by
  have same (first : List Char) :
      (first.getLast?.or before).any isWord = (first.getLast?.or none).any isWord := by
    cases first.getLast? with
    | none => exact h
    | some c => rfl
  simp only [Opens, same]

/-- What is dropped at the end of a text has no part in a condition. -/
theorem opens_append {dropped : List Char} (h : '=' ∉ dropped) :
    Opens before (cs ++ dropped) ↔ Opens before cs := by
  constructor
  · rintro ⟨first, rest, hcs, boundary, found⟩
    obtain ⟨id, hid⟩ := Option.isSome_iff_exists.mp found
    obtain ⟨head, tail, rfl, all⟩ := condition?_eq_some hid
    have hcs : cs ++ dropped = (first ++ (head ++ ['='])) ++ tail := by simpa using hcs
    obtain ⟨more, hmore, hdropped⟩ | ⟨more, hmore, -⟩ := List.append_eq_append_iff.mp hcs
    · -- The equals sign is not among what is dropped.
      have none : more = [] := by
        by_contra nonempty
        have last : more.getLast? = some '=' := by
          have := congrArg List.getLast? hmore
          simpa [List.getLast?_append, nonempty] using this.symm
        exact h (hdropped ▸ List.mem_append_left _ (List.mem_of_getLast? last))
      rw [none, List.append_nil] at hmore
      exact ⟨first, head ++ ['='], hmore.symm, boundary, by rw [all []]; rfl⟩
    · refine ⟨first, head ++ '=' :: more, by simpa using hmore, boundary, ?_⟩
      rw [all more]
      rfl
  · rintro ⟨first, rest, rfl, boundary, found⟩
    obtain ⟨id, hid⟩ := Option.isSome_iff_exists.mp found
    obtain ⟨head, tail, rfl, all⟩ := condition?_eq_some hid
    refine ⟨first, head ++ '=' :: (tail ++ dropped), by simp, boundary, ?_⟩
    rw [all]
    rfl

theorem opens_trimEnd : Opens before (Statement.trimEnd cs) ↔ Opens before cs := by
  obtain ⟨dropped, hcs, all⟩ := Statement.trimEnd_eq_append cs
  have equals : '=' ∉ dropped := by
    intro h
    have blank := all '=' h
    simp at blank
    cases blank
  have same : Opens before (Statement.trimEnd cs ++ dropped) ↔ Opens before (Statement.trimEnd cs) :=
    opens_append equals
  rw [← hcs] at same
  exact same.symm

/-- A condition in quotes is one in the text between them, where the word WHERE is. -/
theorem hasWord_of_opens (h : Opens (some '"') (cs ++ ['"'])) : HasWord "WHERE" cs := by
  obtain ⟨first, rest, hcs, boundary, found⟩ := h
  obtain ⟨id, hid⟩ := Option.isSome_iff_exists.mp found
  obtain ⟨second, hfirst, -⟩ := Option.bind_eq_some_iff.mp hid
  obtain ⟨after, hword, hblanks⟩ := Option.bind_eq_some_iff.mp hfirst
  obtain ⟨b, more, rfl, hb, -⟩ := exists_of_blanks? hblanks
  obtain ⟨part, -, hquote⟩ | ⟨part, rfl, rfl⟩ := List.append_eq_append_iff.mp hcs
  · -- No condition starts with the quote behind the text.
    cases part with
    | nil =>
      have hquote : ['"'] = rest := hquote
      rw [← hquote] at hid
      cases hid
    | cons d part =>
      obtain ⟨-, rfl⟩ := List.append_eq_nil_iff.mp (List.cons.inj hquote).2.symm
      cases hid
  · have apart : ∀ k ∈ "WHERE".toList, ∀ c, ['"'].head? = some c → sameFolded k c = false := by
      rintro k hk c ⟨⟩
      revert k
      decide
    obtain ⟨after, hafter, hmore⟩ := after?_append_inv apart hword
    refine ⟨first, part, after, rfl, hafter, ?_, ?_⟩
    · cases hlast : first.getLast? with
      | none => rfl
      | some c =>
        rw [hlast] at boundary
        exact boundary
    · cases after with
      | nil => rfl
      | cons d after =>
        obtain ⟨rfl, -⟩ := List.cons.inj hmore
        exact isWord_of_isBlank hb

end Target

namespace Update

open Target

/-! The last condition. -/

theorem clauses?_eq_none_iff : clauses? before cs = none ↔ ¬Opens before cs := by
  induction cs generalizing before with
  | nil =>
    refine iff_of_true rfl ?_
    rintro ⟨first, rest, hcs, -, found⟩
    obtain ⟨rfl, rfl⟩ := List.append_eq_nil_iff.mp hcs.symm
    cases found
  | cons c cs ih =>
    rw [opens_cons, clauses?]
    cases later : clauses? (some c) cs with
    | some found =>
      have opens : Opens (some c) cs := by
        by_contra none
        rw [ih.mpr none] at later
        cases later
      simp [opens]
    | none =>
      have none : ¬Opens (some c) cs := ih.mp later
      cases boundary : before.any isWord <;> simp [none]

theorem clauses?_append (h : clauses? (first.getLast?.or before) second = some (clause, id)) :
    clauses? before (first ++ second) = some (first ++ clause, id) := by
  induction first generalizing before with
  | nil => exact h
  | cons c first ih =>
    rw [getLast?_cons_or] at h
    rw [List.cons_append, clauses?, ih h]
    rfl

theorem clauses?_plain (h : ∀ c ∈ first, sameFolded 'W' c = false)
    (later : clauses? (first.getLast?.or before) second = none) :
    clauses? before (first ++ second) = none := by
  induction first generalizing before with
  | nil => exact later
  | cons c first ih =>
    obtain ⟨hc, hfirst⟩ := List.forall_mem_cons.mp h
    rw [getLast?_cons_or] at later
    rw [List.cons_append, clauses?, ih hfirst later]
    simp only [condition?_eq_none hc, Option.map_none, ite_self]

/-- **A text is cut** at a condition behind which none opens. -/
theorem clauses?_condition (hword : Spells "WHERE" word) (hkey : Spells "id" key)
    (boundary : (clause.getLast?.or before).any isWord = false) (last : ¬Opens none id) :
    clauses? before (clause ++ (word ++ ' ' :: (key ++ '=' :: id))) =
      some (clause, skipBlanks id) := by
  have found := condition?_text hword hkey id
  obtain ⟨w, tail, rfl, -⟩ := hword.exists_cons (k := 'W') rfl
  have letters : Spells "HERE" tail := (List.cons.inj hword).2
  -- After its first letter the condition has no W up to the id.
  have here : ∀ c ∈ tail ++ ' ' :: (key ++ ['=']), sameFolded 'W' c = false :=
    List.forall_mem_append.mpr ⟨letters.class (p := sameFolded 'W') (by decide) (by decide),
      List.forall_mem_cons.mpr ⟨by decide, List.forall_mem_append.mpr
        ⟨hkey.class (p := sameFolded 'W') (by decide) (by decide), by decide⟩⟩⟩
  have inside : ¬Opens (some '=') id := fun h => last ((opens_of_boundary rfl).mp h)
  have later : clauses? (some w) (tail ++ ' ' :: (key ++ '=' :: id)) = none := by
    have equals : (tail ++ ' ' :: (key ++ ['='])).getLast?.or (some w) = some '=' := by
      simp [List.getLast?_append, List.getLast?_cons]
    have behind : clauses? ((tail ++ ' ' :: (key ++ ['='])).getLast?.or (some w)) id = none := by
      rw [equals]
      exact clauses?_eq_none_iff.mpr inside
    simpa using clauses?_plain here behind
  have here : clauses? (clause.getLast?.or before) (w :: (tail ++ ' ' :: (key ++ '=' :: id))) =
      some ([], skipBlanks id) := by
    rw [clauses?, later]
    simp only [boundary, Bool.false_eq_true, if_false]
    rw [← List.cons_append, found, Option.map_some]
  have cut := clauses?_append here
  rwa [List.append_nil, ← List.cons_append] at cut

end Update

end DocumentStore
