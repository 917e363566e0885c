import DocumentStore.Proofs.Statement.Binding
import DocumentStore.Proofs.Text.Scan

/- How the text of a query is rewritten, apart from the way it is split into parts (`Rewrites`):
   every sigil with digits after it becomes a parameter and no other character changes. A text is
   rewritten piece by piece, wherever it is cut before a character that is no digit
   (`Rewrites.append_inv`), and a text that mentions no placeholder stays as it is. -/
namespace DocumentStore.QueryText

open Text

variable {c : Char} {cs first second digits rest : List Char} {r : Parametrized}

/-- No decimal digit starts the text. -/
def NoDigitFirst (cs : List Char) : Prop :=
  ∀ c, cs.head? = some c → isDecimalDigit c = false

/-- The rewritten text with the indices of its parameters. -/
inductive Rewrites : List Char → Parametrized → Prop where
  | nil : Rewrites [] ⟨[], []⟩
  | keep {c : Char} {cs : List Char} {r : Parametrized} :
    (Placeholder.isSigil c = true → NoDigitFirst cs) → Rewrites cs r →
      Rewrites (c :: cs) ⟨c :: r.text, r.indices⟩
  /-- A placeholder has all the digits after its sigil. -/
  | placeholder {sigil : Char} {digits rest : List Char} {index : Nat} {r : Parametrized} :
    Placeholder.isSigil sigil = true → (∀ d ∈ digits, isDecimalDigit d = true) →
      NoDigitFirst rest → index? digits = some index → Rewrites rest r →
      Rewrites (sigil :: (digits ++ rest))
        ⟨(parameterName index).toList ++ r.text, index :: r.indices⟩

/-! The parts of a text. -/

theorem isSigil_of_digit (h : isDecimalDigit c = true) : Placeholder.isSigil c = false := by
  cases hc : Placeholder.isSigil c with
  | false => rfl
  | true =>
    simp only [Placeholder.isSigil, Bool.or_eq_true, beq_iff_eq] at hc
    obtain (rfl | rfl) | rfl := hc <;> exact absurd h (by decide)

theorem parts_cons (c : Char) (cs : List Char) : parts (c :: cs) = addChar c (parts cs) := rfl

theorem addChar_of_not_sigil (h : Placeholder.isSigil c = false) (ps : List Part) :
    addChar c ps = .char c :: ps := by
  rw [addChar, if_neg (by simp [h])]

theorem digitsBefore_parts (cs : List Char) :
    digitsBefore (parts cs) =
      (cs.takeWhile isDecimalDigit, parts (cs.dropWhile isDecimalDigit)) := by
  induction cs with
  | nil => rfl
  | cons c cs ih =>
    cases digit : isDecimalDigit c with
    | true =>
      rw [parts_cons, addChar_of_not_sigil (isSigil_of_digit digit), digitsBefore, if_pos digit, ih,
        List.takeWhile_cons_of_pos digit, List.dropWhile_cons_of_pos digit]
    | false =>
      have hc : ¬isDecimalDigit c = true := by simp [digit]
      have plain : digitsBefore (.char c :: parts cs) = ([], .char c :: parts cs) := by
        rw [digitsBefore, if_neg hc]
      rw [List.takeWhile_cons_of_neg hc, List.dropWhile_cons_of_neg hc, parts_cons, addChar]
      split
      · split
        · exact plain
        · rfl
      · exact plain

theorem parts_keep (h : Placeholder.isSigil c = true → NoDigitFirst cs) :
    parts (c :: cs) = .char c :: parts cs := by
  rw [parts_cons, addChar]
  split
  next sigil =>
    have none : ([] ++ cs).takeWhile isDecimalDigit = [] :=
      (run_append (List.forall_mem_nil _) (h sigil)).1
    rw [List.nil_append] at none
    rw [digitsBefore_parts, none]
  next => rfl

theorem parts_placeholder (sigil : Placeholder.isSigil c = true) (nonempty : digits ≠ [])
    (hdigits : ∀ d ∈ digits, isDecimalDigit d = true) (stop : NoDigitFirst rest) :
    parts (c :: (digits ++ rest)) = .placeholder c digits :: parts rest := by
  obtain ⟨taken, left⟩ := run_append hdigits stop
  obtain ⟨d, digits, rfl⟩ := List.exists_cons_of_ne_nil nonempty
  rw [parts_cons, addChar, if_pos sigil, digitsBefore_parts, taken, left]

theorem parametrize_keep (h : Placeholder.isSigil c = true → NoDigitFirst cs) :
    parametrize (c :: cs) = (parametrize cs).map fun r => ⟨c :: r.text, r.indices⟩ := by
  rw [parametrize, parts_keep h]
  rfl

theorem parametrize_placeholder (sigil : Placeholder.isSigil c = true) (nonempty : digits ≠ [])
    (hdigits : ∀ d ∈ digits, isDecimalDigit d = true) (stop : NoDigitFirst rest) :
    parametrize (c :: (digits ++ rest)) =
      match index? digits with
      | none => .error (.parse (.token (String.ofList (c :: digits))))
      | some index => (parametrize rest).map fun r =>
        ⟨(parameterName index).toList ++ r.text, index :: r.indices⟩ := by
  rw [parametrize, parts_placeholder sigil nonempty hdigits stop]
  rfl

/-! Texts from left to right. -/

theorem noDigitFirst_dropWhile (cs : List Char) : NoDigitFirst (cs.dropWhile isDecimalDigit) := by
  intro c hc
  have := List.head?_dropWhile_not isDecimalDigit cs
  rw [hc] at this
  simpa using this

/-- What holds of the empty text, and goes on to hold with a character before the text that starts
    no placeholder and with a placeholder before it, holds of every text. -/
theorem text_induction {motive : List Char → Prop} (nil : motive [])
    (keep : ∀ c cs, (Placeholder.isSigil c = true → NoDigitFirst cs) → motive cs →
      motive (c :: cs))
    (placeholder : ∀ sigil digits rest, Placeholder.isSigil sigil = true → digits ≠ [] →
      (∀ d ∈ digits, isDecimalDigit d = true) → NoDigitFirst rest → motive rest →
        motive (sigil :: (digits ++ rest))) (cs : List Char) : motive cs := by
  -- What follows a placeholder is shorter by all its digits.
  induction hlength : cs.length using Nat.strongRecOn generalizing cs with
  | ind n ih =>
    cases cs with
    | nil => exact nil
    | cons c cs =>
      rw [List.length_cons] at hlength
      by_cases plain : Placeholder.isSigil c = true → NoDigitFirst cs
      · exact keep c cs plain (ih cs.length (by omega) cs rfl)
      · obtain ⟨sigil, digit⟩ := Classical.not_imp.mp plain
        obtain ⟨digits, rest, rfl, hdigits, stop⟩ : ∃ digits rest, cs = digits ++ rest ∧
            (∀ d ∈ digits, isDecimalDigit d = true) ∧ NoDigitFirst rest :=
          ⟨_, _, List.takeWhile_append_dropWhile.symm, List.all_eq_true.mp List.all_takeWhile,
            noDigitFirst_dropWhile cs⟩
        have nonempty : digits ≠ [] := by
          rintro rfl
          exact digit stop
        rw [List.length_append] at hlength
        exact placeholder c digits rest sigil nonempty hdigits stop
          (ih rest.length (by omega) rest rfl)

theorem toList_parameterName (index : Nat) :
    (parameterName index).toList = '@' :: '_' :: Nat.toDigits 10 index := by
  have digits : (toString index).toList = Nat.toDigits 10 index := Nat.toList_repr
  rw [parameterName, String.toList_append, digits]
  rfl

/-! Both ways of rewriting are one. -/

theorem Rewrites.parametrize (h : Rewrites cs r) : parametrize cs = .ok r := by
  induction h with
  | nil => rfl
  | keep plain _ ih => rw [parametrize_keep plain, ih]; rfl
  | placeholder sigil hdigits stop hindex _ ih =>
    rw [parametrize_placeholder sigil (digits_of_index? hindex).1 hdigits stop, hindex]
    simp only [ih]
    rfl

theorem rewrites_of_parametrize (h : parametrize cs = .ok r) : Rewrites cs r := by
  induction cs using text_induction generalizing r with
  | nil =>
    cases h
    exact .nil
  | keep c cs plain ih =>
    rw [parametrize_keep plain] at h
    obtain ⟨r, hr, rfl⟩ := map_eq_ok h
    exact .keep plain (ih hr)
  | placeholder sigil digits rest hsigil nonempty hdigits stop ih =>
    rw [parametrize_placeholder hsigil nonempty hdigits stop] at h
    split at h
    next => cases h
    next index hindex =>
      obtain ⟨r, hr, rfl⟩ := map_eq_ok h
      exact .placeholder hsigil hdigits stop hindex (ih hr)

/-- **Rewriting** turns the placeholders into parameters and keeps all else. -/
theorem rewrites_iff : Rewrites cs r ↔ parametrize cs = .ok r :=
  ⟨Rewrites.parametrize, rewrites_of_parametrize⟩

/-! Pieces. -/

theorem NoDigitFirst.of_append (h : NoDigitFirst (first ++ second)) : NoDigitFirst first :=
  fun c hc => h c (by rw [List.head?_append, hc, Option.some_or])

/-- A text is rewritten piece by piece. A cut before a digit could divide a placeholder. -/
theorem Rewrites.append_inv (h : Rewrites (first ++ second) r) (cut : NoDigitFirst second) :
    ∃ a b, Rewrites first a ∧ Rewrites second b ∧
      r = ⟨a.text ++ b.text, a.indices ++ b.indices⟩ := by
  generalize hcs : first ++ second = cs at h
  induction h generalizing first with
  | nil =>
    obtain ⟨rfl, rfl⟩ := List.append_eq_nil_iff.mp hcs
    exact ⟨_, _, .nil, .nil, rfl⟩
  | @keep c cs r plain rewritten ih =>
    cases first with
    | nil =>
      obtain rfl : second = c :: cs := hcs
      exact ⟨_, _, .nil, .keep plain rewritten, rfl⟩
    | cons d first =>
      obtain ⟨rfl, hfirst⟩ := List.cons.inj hcs
      obtain rfl : first ++ second = cs := hfirst
      obtain ⟨a, b, ha, hb, rfl⟩ := ih rfl
      exact ⟨_, b, .keep (fun sigil => (plain sigil).of_append) ha, hb, rfl⟩
  | @placeholder sigil digits rest index r hsigil hdigits stop hindex rewritten ih =>
    cases first with
    | nil =>
      obtain rfl : second = sigil :: (digits ++ rest) := hcs
      exact ⟨_, _, .nil, .placeholder hsigil hdigits stop hindex rewritten, rfl⟩
    | cons d first =>
      obtain ⟨rfl, hrest⟩ := List.cons.inj hcs
      -- The digits end before the cut.
      obtain ⟨first, rfl, rfl⟩ : ∃ more, first = digits ++ more ∧ rest = more ++ second := by
        obtain ⟨more, rfl, hmore⟩ | ⟨more, hfirst, hmore⟩ := List.append_eq_append_iff.mp hrest
        · cases more with
          | nil => exact ⟨[], by simp, by simpa using hmore.symm⟩
          | cons e more =>
            have digit := hdigits e (List.mem_append_right _ List.mem_cons_self)
            rw [cut e (by rw [hmore]; rfl)] at digit
            cases digit
        · exact ⟨more, hfirst, hmore⟩
      obtain ⟨a, b, ha, hb, rfl⟩ := ih rfl
      exact ⟨_, b, .placeholder hsigil hdigits stop.of_append hindex ha, hb, by simp⟩

theorem Rewrites.cons_inv (h : Rewrites (c :: cs) r) (plain : Placeholder.isSigil c = false) :
    ∃ a, Rewrites cs a ∧ r = ⟨c :: a.text, a.indices⟩ := by
  cases h with
  | keep _ rewritten => exact ⟨_, rewritten, rfl⟩
  | placeholder sigil _ _ _ _ =>
    rw [plain] at sigil
    cases sigil

theorem Rewrites.plain_inv (h : Rewrites (first ++ second) r)
    (plain : ∀ c ∈ first, Placeholder.isSigil c = false) :
    ∃ a, Rewrites second a ∧ r = ⟨first ++ a.text, a.indices⟩ := by
  induction first generalizing r with
  | nil => exact ⟨r, h, rfl⟩
  | cons c first ih =>
    obtain ⟨hc, hfirst⟩ := List.forall_mem_cons.mp plain
    obtain ⟨b, hb, rfl⟩ := h.cons_inv hc
    obtain ⟨a, ha, rfl⟩ := ih hb hfirst
    exact ⟨a, ha, rfl⟩

theorem Rewrites.eq_self (h : Rewrites cs r) (plain : IdTerm.mentionsPlaceholder cs = false) :
    r = ⟨cs, []⟩ := by
  induction h with
  | nil => rfl
  | keep _ _ ih =>
    rw [IdTerm.mentionsPlaceholder, Bool.or_eq_false_iff] at plain
    rw [ih plain.2]
  | @placeholder sigil digits rest index r hsigil hdigits _ hindex _ _ =>
    obtain ⟨d, digits, rfl⟩ := List.exists_cons_of_ne_nil (digits_of_index? hindex).1
    have digit : isDecimalDigit d = true := hdigits d List.mem_cons_self
    simp [IdTerm.mentionsPlaceholder, hsigil, digit] at plain

end DocumentStore.QueryText
