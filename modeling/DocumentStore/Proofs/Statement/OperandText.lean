import DocumentStore.Proofs.Json.Value
import DocumentStore.Proofs.Text.Words
import DocumentStore.ValueList

/- Operands as they are spelled: a placeholder, a bare word, a bare whole number, or a string literal
   that holds the JSON text of a value. The two readers of a literal agree on where it ends
   (`closing?_of_units?`), whatever it holds, and no recogniser takes what is meant for a later one,
   so a spelled operand is read back if a separator or nothing follows it (`operand_spelled`). -/
namespace DocumentStore

open Json (Layout Number Value Whole)
open Json Text

variable {c : Char} {cs body rest : List Char}

theorem class_of_isSigil {p : Char → Bool} {b : Bool} (sigils : ∀ c ∈ ['$', '@', ':'], p c = b)
    (h : Placeholder.isSigil c = true) : p c = b := by
  simp only [Placeholder.isSigil, Bool.or_eq_true, beq_iff_eq] at h
  refine sigils c ?_
  obtain (rfl | rfl) | rfl := h <;> decide

/-- A way to write an operand. -/
inductive Operand.Written : Operand → List Char → Prop where
  | placeholder {sigil : Char} {digits : List Char} {index : Nat} :
    Placeholder.isSigil sigil = true → index? digits = some index →
      Written (.placeholder index) (sigil :: digits)
  /-- Between the quotes stand the characters of the JSON text, escaped in some way. -/
  | literal {v : Value} {body : List Char} {units : List Unit16} :
    v.Sorted → v.Integral → v.depth ≤ Value.depthLimit →
      Quoted.units? body = some (units, []) → Quoted.text? units = some v.compact →
      Written (.literal v) ('"' :: body)

theorem Operand.written_toDigits {sigil : Char} {index : Nat}
    (hsigil : Placeholder.isSigil sigil = true) (fits : index < indexLimit) :
    Written (.placeholder index) (sigil :: Nat.toDigits 10 index) :=
  .placeholder hsigil ((index?_toDigits index).trans (if_pos fits))

theorem exists_body (text : String) : ∃ body units,
    (Value.string text).compact.toList = '"' :: body ∧ Quoted.units? body = some (units, []) ∧
      Quoted.text? units = some text := by
  refine ⟨_, _, ?_, Quoted.units?_renderUnits (Quoted.valid_ofText text), Quoted.text?_ofText text⟩
  rw [Value.compact, Value.toTree, Tree.write, String.toList_ofList, Tree.render, Quoted.render]

theorem Operand.written_compact {v : Value} (sorted : v.Sorted) (whole : v.Integral)
    (shallow : v.depth ≤ Value.depthLimit) :
    Written (.literal v) (Value.string v.compact).compact.toList := by
  obtain ⟨body, units, hbody, hunits, htext⟩ := exists_body v.compact
  rw [hbody]
  exact .literal sorted whole shallow hunits htext

/-- Any way to spell an operand. -/
inductive Operand.Spelled : Operand → List Char → Prop where
  /-- Zeros may stand before the index. -/
  | placeholder {sigil : Char} {digits : List Char} {index : Nat} :
    Placeholder.isSigil sigil = true → index? digits = some index →
      Spelled (.placeholder index) (sigil :: digits)
  | null {word : List Char} : Spells "null" word → Spelled (.literal .null) word
  | bool (b : Bool) {word : List Char} : Spells (if b then "true" else "false") word →
    Spelled (.literal (.bool b)) word
  | whole (n : Whole) : Spelled (.literal (.number (.whole n))) (Number.whole n).toNumeral.render
  /-- A literal may have white space in its JSON text. -/
  | literal {v : Value} {body : List Char} {units : List Unit16} {l : Layout} :
    v.Sorted → v.Integral → v.depth ≤ Value.depthLimit → l.Blank →
      Quoted.units? body = some (units, []) → Quoted.text? units = some (v.toTree.write l) →
      Spelled (.literal v) ('"' :: body)

theorem Operand.Written.spelled {operand : Operand} {text : List Char} (h : operand.Written text) :
    operand.Spelled text := by
  cases h with
  | placeholder hsigil hindex => exact .placeholder hsigil hindex
  | literal sorted whole shallow hunits htext =>
    exact .literal sorted whole shallow Layout.blank_compact hunits htext

theorem Operand.spelled_zeros {sigil : Char} {index : Nat}
    (hsigil : Placeholder.isSigil sigil = true) (fits : index < indexLimit) (zeros : Nat) :
    Spelled (.placeholder index) (sigil :: (List.replicate zeros '0' ++ Nat.toDigits 10 index)) :=
  .placeholder hsigil ((index?_zeros zeros index).trans (if_pos fits))

theorem Operand.spelled_write {v : Value} (sorted : v.Sorted) (whole : v.Integral)
    (shallow : v.depth ≤ Value.depthLimit) {l : Layout} (hl : l.Blank) :
    Spelled (.literal v) (Value.string (v.toTree.write l)).compact.toList := by
  obtain ⟨body, units, hbody, hunits, htext⟩ := exists_body (v.toTree.write l)
  rw [hbody]
  exact .literal sorted whole shallow hl hunits htext

/-! String literals. -/

namespace ValueList

theorem closing?_plain {c : Char} (quote : c ≠ '"') (backslash : c ≠ '\\') (cs : List Char) :
    closing? (c :: cs) = (closing? cs).map (cons [c]) := by
  rw [closing?, if_neg quote]
  exact fun d ds h _ => backslash h

theorem closing?_escape (c : Char) (cs : List Char) :
    closing? ('\\' :: c :: cs) = (closing? cs).map (cons ['\\', c]) := by
  rw [closing?]

theorem closing?_digit {c : Char} {d : Nat} (h : Quoted.hexDigit? c = some d) (cs : List Char) :
    closing? (c :: cs) = (closing? cs).map (cons [c]) := by
  have quote : c ≠ '"' := by
    rintro rfl
    cases h
  have backslash : c ≠ '\\' := by
    rintro rfl
    cases h
  exact closing?_plain quote backslash cs

theorem hexDigits_of_ofHex? {a b c d : Char} {u : Unit16} (h : Quoted.ofHex? a b c d = some u) :
    ∃ w x y z, Quoted.hexDigit? a = some w ∧ Quoted.hexDigit? b = some x ∧
      Quoted.hexDigit? c = some y ∧ Quoted.hexDigit? d = some z := by
  unfold Quoted.ofHex? at h
  split at h
  next w x y z ha hb hc hd => exact ⟨w, x, y, z, ha, hb, hc, hd⟩
  next => cases h

theorem units?_of_cons {u : Unit16} {units : List Unit16} {more : List Char}
    (h : (Quoted.units? cs).map (Quoted.cons u) = some (units, more)) :
    ∃ units, Quoted.units? cs = some (units, more) := by
  obtain ⟨⟨found, rest⟩, hfound, hcons⟩ := Option.map_eq_some_iff.mp h
  cases hcons
  exact ⟨found, hfound⟩

/-- **A literal ends** where the string in it ends, whatever follows. -/
theorem closing?_of_units? {units : List Unit16} {more : List Char}
    (h : Quoted.units? cs = some (units, more)) :
    ∃ body, cs = body ++ more ∧ ∀ rest, closing? (body ++ rest) = some (body, rest) := by
  fun_induction Quoted.units? cs generalizing units with
  | case1 | case3 | case5 | case7 => cases h
  | case2 cs =>
    cases h
    exact ⟨['"'], rfl, fun rest => rfl⟩
  | case4 a b c d cs u hu ih =>
    -- The escape of a code: the digits are plain characters.
    obtain ⟨units, hunits⟩ := units?_of_cons h
    obtain ⟨body, rfl, ends⟩ := ih hunits
    obtain ⟨w, x, y, z, ha, hb, hc, hd⟩ := hexDigits_of_ofHex? hu
    refine ⟨'\\' :: 'u' :: a :: b :: c :: d :: body, rfl, fun rest => ?_⟩
    simp only [List.cons_append, closing?_escape, closing?_digit ha, closing?_digit hb,
      closing?_digit hc, closing?_digit hd, ends rest, Option.map_some, cons, List.nil_append]
  | case6 letter cs _ c _ ih =>
    obtain ⟨units, hunits⟩ := units?_of_cons h
    obtain ⟨body, rfl, ends⟩ := ih hunits
    refine ⟨'\\' :: letter :: body, rfl, fun rest => ?_⟩
    simp only [List.cons_append, closing?_escape, ends rest, Option.map_some, cons,
      List.nil_append]
  | case8 c cs quote _ _ plain ih =>
    obtain ⟨units, hunits⟩ := units?_of_cons h
    obtain ⟨body, rfl, ends⟩ := ih hunits
    have backslash : c ≠ '\\' := by
      rintro rfl
      exact plain (Bool.or_true _)
    refine ⟨c :: body, rfl, fun rest => ?_⟩
    simp only [List.cons_append, closing?_plain quote backslash, ends rest, Option.map_some, cons,
      List.nil_append]

theorem read?_literal {units : List Unit16} {text : String}
    (hunits : Quoted.units? body = some (units, [])) (htext : Quoted.text? units = some text) :
    Value.read? (String.ofList ('"' :: body)) = some (.string text) := by
  have tree : Tree.read? ('"' :: body) = some (.string units) := by
    rw [Tree.read?, Tree.value?, Tree.skipSpaces_cons (by decide)]
    simp only [hunits, Option.map_some, Tree.skipSpaces, List.dropWhile_nil, if_true]
  rw [Value.read?, String.toList_ofList, tree, Option.bind_some, Value.ofTree?, htext,
    Option.map_some]

theorem content_of_units? {v : Value} {units : List Unit16} {l : Layout} (sorted : v.Sorted)
    (whole : v.Integral) (shallow : v.depth ≤ Value.depthLimit) (hl : l.Blank)
    (hunits : Quoted.units? body = some (units, []))
    (htext : Quoted.text? units = some (v.toTree.write l)) :
    content (String.ofList ('"' :: body)) = .ok v := by
  have back : Value.read? (v.toTree.write l) = some v :=
    Value.read?_write hl sorted shallow (Value.numbersReadBack_of_integral v whole)
  simp only [content, read?_literal hunits htext, Option.bind_some, Value.text?, back]

/-! Recognisers. -/

/-- An operand ends before a separator. -/
def SeparatorFirst (rest : List Char) : Prop :=
  ∀ c, rest.head? = some c → isBlank c = true ∨ c = ','

theorem SeparatorFirst.stop {p : Char → Bool} (h : SeparatorFirst rest)
    (blank : ∀ c, isBlank c = true → p c = false) (comma : p ',' = false) :
    ∀ c, rest.head? = some c → p c = false := by
  intro c hc
  rcases h c hc with hc | rfl
  · exact blank c hc
  · exact comma

theorem continuesWord_of_isBlank (h : isBlank c = true) : continuesWord c = false := by
  have other : (c == '_') = false := class_of_isBlank (p := (· == '_')) (by decide) h
  rw [continuesWord, isAlphanumeric_of_isBlank h, other]
  rfl

theorem placeholder?_eq_none (h : Placeholder.isSigil c = false) (cs : List Char) :
    placeholder? (c :: cs) = none := by
  cases cs with
  | nil => rfl
  | cons d cs => rw [placeholder?, h, Bool.false_and, if_neg Bool.false_ne_true]

theorem placeholder?_append {sigil : Char} {digits : List Char} {index : Nat}
    (hsigil : Placeholder.isSigil sigil = true) (hindex : index? digits = some index)
    (stop : SeparatorFirst rest) :
    placeholder? (sigil :: (digits ++ rest)) = some (.ok (.placeholder index), rest) := by
  obtain ⟨nonempty, plain⟩ := digits_of_index? hindex
  obtain ⟨taken, left⟩ := run_append plain (stop.stop (fun _ => class_of_isBlank (by decide)) rfl)
  obtain ⟨d, digits, rfl⟩ := List.exists_cons_of_ne_nil nonempty
  have starts : (Placeholder.isSigil sigil && d.isDigit) = true := by
    rw [hsigil, plain d List.mem_cons_self, Bool.true_and]
  rw [List.cons_append] at taken left ⊢
  simp only [placeholder?, starts, if_true, taken, left, hindex]

theorem bareWord?_append {word : String} (h : Spells word cs) (v : Value)
    (stop : SeparatorFirst rest) :
    bareWord? word v (cs ++ rest) = some (.ok (.literal v), rest) := by
  have ends : rest.head?.any continuesWord = false := by
    cases hc : rest.head? with
    | none => rfl
    | some c => exact stop.stop (fun _ => continuesWord_of_isBlank) (by decide) c hc
  rw [bareWord?, after?_append h (fun _ _ same => same) rest]
  simp only [ends, Bool.false_eq_true, if_false]

theorem bareWord?_eq_none {word : String} {k : Char} {letters : List Char}
    (hword : word.toList = k :: letters) (h : sameLetter k c = false) (v : Value)
    (cs : List Char) : bareWord? word v (c :: cs) = none := by
  rw [bareWord?, hword, after?_eq_none h]

theorem number?_eq_none (h : startsNumber c = false) (cs : List Char) : number? (c :: cs) = none :=
  if_neg (by simp [h])

theorem number?_append {v : Value} (start : cs.head?.any startsNumber = true)
    (all : ∀ c ∈ cs, continuesNumber c = true) (read : Value.read? (String.ofList cs) = some v)
    (number : v.isNumber = true) (stop : SeparatorFirst rest) :
    number? (cs ++ rest) = some (.ok (.literal v), rest) := by
  obtain ⟨taken, left⟩ := run_append all
    (stop.stop (p := continuesNumber) (fun _ => class_of_isBlank (by decide)) rfl)
  have start : (cs ++ rest).head?.any startsNumber = true := by
    cases cs with
    | nil => cases start
    | cons c cs => exact start
  simp only [number?, start, if_true, taken, left, read, number]

theorem mem_render {negative : Bool} {digits : List Char}
    (h : c ∈ (⟨negative, digits, none, none⟩ : Numeral).render) : c = '-' ∨ c ∈ digits := by
  simp only [Numeral.render, Numeral.renderFraction, Numeral.renderExponent,
    List.append_nil] at h
  cases negative with
  | true => exact List.mem_cons.mp h
  | false => exact .inr h

theorem wholeNumber_chars (n : Whole) :
    ∀ c ∈ (Number.whole n).toNumeral.render, c = '-' ∨ c.isDigit = true :=
  fun c hc => (mem_render hc).imp id ((Number.digits_toDigits _).2 c)

theorem wholeNumber_ne_nil (n : Whole) : (Number.whole n).toNumeral.render ≠ [] := by
  have digits : Nat.toDigits 10 n.val.natAbs ≠ [] := (Number.digits_toDigits _).1
  simp [Number.toNumeral, Numeral.render, digits]

theorem class_of_wholeNumber {p : Char → Bool} {b : Bool} {n : Whole} (minus : p '-' = b)
    (digits : ∀ d ∈ List.range' 48 10, p (Char.ofNat d) = b) :
    ∀ c ∈ (Number.whole n).toNumeral.render, p c = b := by
  intro c hc
  rcases wholeNumber_chars n c hc with rfl | hc
  · exact minus
  · exact class_of_isDigit digits hc

theorem read?_wholeNumber (n : Whole) :
    Value.read? (String.ofList (Number.whole n).toNumeral.render) =
      some (.number (.whole n)) := by
  have text : (Value.number (.whole n)).toTree.write .compact =
      String.ofList (Number.whole n).toNumeral.render := by
    rw [Value.toTree, Tree.write, Tree.render, List.append_nil]
  rw [← text]
  exact Value.read?_write Layout.blank_compact trivial (Nat.zero_le _) (Number.readsBack_whole n)

/-! One operand. -/

theorem operand_quote (cs : List Char) :
    operand ('"' :: cs) =
      (quoted? ('"' :: cs)).getD (fail (.token (String.ofList ('"' :: cs))) ('"' :: cs)) := by
  have placeholder : placeholder? ('"' :: cs) = none := placeholder?_eq_none rfl cs
  have null : bareWord? "null" .null ('"' :: cs) = none := rfl
  have yes : bareWord? "true" (.bool true) ('"' :: cs) = none := rfl
  have no : bareWord? "false" (.bool false) ('"' :: cs) = none := rfl
  have number : number? ('"' :: cs) = none := rfl
  rw [operand, placeholder, null, number, yes, no]
  rfl

theorem operand_null (h : Spells "null" cs) (stop : SeparatorFirst rest) :
    operand (cs ++ rest) = (.ok (.literal .null), rest) := by
  have null := bareWord?_append h .null stop
  obtain ⟨c, cs, rfl, -⟩ := h.exists_cons (k := 'n') rfl
  have sigil : Placeholder.isSigil c = false :=
    h.class (by decide) (by decide) c List.mem_cons_self
  rw [List.cons_append] at null ⊢
  rw [operand, placeholder?_eq_none sigil, null]
  rfl

theorem operand_bool {b : Bool} (h : Spells (if b then "true" else "false") cs)
    (stop : SeparatorFirst rest) : operand (cs ++ rest) = (.ok (.literal (.bool b)), rest) := by
  have found := bareWord?_append h (.bool b) stop
  obtain ⟨c, cs, rfl, -⟩ : ∃ c tail, cs = c :: tail ∧ c.toLower = if b then 't' else 'f' := by
    cases b with
    | true => exact h.exists_cons (k := 't') rfl
    | false => exact h.exists_cons (k := 'f') rfl
  have sigil : Placeholder.isSigil c = false :=
    h.class (by decide) (by cases b <;> decide) c List.mem_cons_self
  have number : startsNumber c = false :=
    h.class (by decide) (by cases b <;> decide) c List.mem_cons_self
  have null : sameLetter 'n' c = false :=
    h.class (p := sameLetter 'n') (by decide) (by cases b <;> decide) c List.mem_cons_self
  rw [List.cons_append] at found ⊢
  rw [operand, placeholder?_eq_none sigil, bareWord?_eq_none rfl null, number?_eq_none number]
  cases b with
  | true =>
    have found : bareWord? "true" (.bool true) (c :: (cs ++ rest)) = _ := found
    rw [found]
    rfl
  | false =>
    have found : bareWord? "false" (.bool false) (c :: (cs ++ rest)) = _ := found
    have apart : sameLetter 't' c = false :=
      h.class (p := sameLetter 't') (by decide) (by decide) c List.mem_cons_self
    rw [bareWord?_eq_none rfl apart, found]
    rfl

theorem operand_whole (n : Whole) (stop : SeparatorFirst rest) :
    operand ((Number.whole n).toNumeral.render ++ rest) =
      (.ok (.literal (.number (.whole n))), rest) := by
  have all : ∀ c ∈ (Number.whole n).toNumeral.render, continuesNumber c = true :=
    class_of_wholeNumber rfl (by decide)
  have read := read?_wholeNumber n
  have first : ∀ c ∈ (Number.whole n).toNumeral.render,
      (!Placeholder.isSigil c && !sameLetter 'n' c && startsNumber c) = true :=
    class_of_wholeNumber rfl (by decide)
  obtain ⟨c, cs, htext⟩ := List.exists_cons_of_ne_nil (wholeNumber_ne_nil n)
  rw [htext] at all read first ⊢
  have hc := first c List.mem_cons_self
  simp only [Bool.and_eq_true, Bool.not_eq_true'] at hc
  have number : number? (c :: (cs ++ rest)) = some (.ok (.literal (.number (.whole n))), rest) :=
    number?_append (show (c :: cs).head?.any startsNumber = true from hc.2) all read rfl stop
  rw [List.cons_append]
  rw [operand, placeholder?_eq_none hc.1.1, bareWord?_eq_none rfl hc.1.2, number]
  rfl

/-- **A spelled operand** is read back, if nothing but a separator follows it. -/
theorem operand_spelled {text : List Char} {found : Operand} (h : found.Spelled text)
    (stop : SeparatorFirst rest) : operand (text ++ rest) = (.ok found, rest) := by
  cases h with
  | placeholder hsigil hindex =>
    rw [List.cons_append, operand, placeholder?_append hsigil hindex stop]
    rfl
  | null h => exact operand_null h stop
  | bool b h => exact operand_bool h stop
  | whole n => exact operand_whole n stop
  | literal sorted whole shallow hl hunits htext =>
    obtain ⟨body, hbody, ends⟩ := closing?_of_units? hunits
    obtain rfl := hbody.trans (List.append_nil body)
    rw [List.cons_append, operand_quote, quoted?, ends rest]
    simp only [content_of_units? sorted whole shallow hl hunits htext]
    rfl

theorem exists_cons_of_spelled {text : List Char} {found : Operand} (h : found.Spelled text) :
    ∃ c cs, text = c :: cs ∧ isBlank c = false ∧ c ≠ ',' := by
  have letter {word : List Char} {spelled : String} {k : Char} (h : Spells spelled word)
      (start : spelled.toList.head? = some k) (blank : isBlank k.toLower = false)
      (comma : k.toLower ≠ ',') : ∃ c cs, word = c :: cs ∧ isBlank c = false ∧ c ≠ ',' := by
    obtain ⟨c, cs, rfl, hc⟩ := h.exists_cons start
    refine ⟨c, cs, rfl, isBlank_of_toLower (hc ▸ blank), ?_⟩
    rintro rfl
    exact comma hc.symm
  cases h with
  | @placeholder sigil digits index hsigil hindex =>
    refine ⟨_, _, rfl, isBlank_of_class
      (fun _ => class_of_isBlank (by decide +kernel)) hsigil, ?_⟩
    rintro rfl
    cases hsigil
  | null h => exact letter h (k := 'n') rfl (by decide) (by decide)
  | bool b h =>
    cases b with
    | true => exact letter h (k := 't') rfl (by decide) (by decide)
    | false => exact letter h (k := 'f') rfl (by decide) (by decide)
  | whole n =>
    have all : ∀ c ∈ (Number.whole n).toNumeral.render, (!isBlank c && c != ',') = true :=
      class_of_wholeNumber rfl (by decide)
    obtain ⟨c, cs, htext⟩ := List.exists_cons_of_ne_nil (wholeNumber_ne_nil n)
    have hc := all c (htext ▸ List.mem_cons_self)
    simp only [Bool.and_eq_true, Bool.not_eq_true', bne_iff_ne] at hc
    exact ⟨c, cs, htext, hc⟩
  | literal => exact ⟨_, _, rfl, by decide, by decide⟩

end ValueList

end DocumentStore
