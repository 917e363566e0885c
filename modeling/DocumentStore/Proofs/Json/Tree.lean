import DocumentStore.Json.Tree
import DocumentStore.Proofs.Json.Numeral
import DocumentStore.Proofs.Json.Quoted

/- Reading undoes writing. A tree whose numbers and strings are well formed is written as a text
   that reads back as the tree, in every layout that puts only white space between the elements
   (`read?_write`). The reader counts its steps; each character of the text pays for two. -/
namespace DocumentStore.Json

/-- White space alone. -/
def Blank (cs : List Char) : Prop :=
  ∀ c ∈ cs, Tree.isSpace c = true

/-- The layout puts white space between the elements and nothing else but the colons. -/
structure Layout.Blank (l : Layout) : Prop where
  gap : ∀ depth, Json.Blank (l.gap depth)
  colon : ∃ blanks, Json.Blank blanks ∧ l.colon = ':' :: blanks

theorem blank_nil : Blank [] :=
  fun _ h => (nomatch h)

theorem Layout.blank_compact : Layout.compact.Blank :=
  ⟨fun _ => blank_nil, [], blank_nil, rfl⟩

theorem Layout.blank_pretty : Layout.pretty.Blank where
  gap depth := by
    intro c hc
    rcases List.mem_cons.mp hc with rfl | hc
    · rfl
    · rw [List.eq_of_mem_replicate hc]
      rfl
  colon := ⟨[' '], fun c hc => by rw [List.mem_singleton.mp hc]; rfl, rfl⟩

namespace Tree

open Numeral (Ends continues ends_cons)

mutual

/-- Every number and every string of the tree is one that JSON can write. -/
def Printable : Tree → Prop
  | .null | .bool _ => True
  | .number n => n.Valid
  | .string units => ∀ u ∈ units, u.Valid
  | .array items => PrintableItems items
  | .object members => PrintableMembers members

def PrintableItems : List Tree → Prop
  | [] => True
  | t :: items => t.Printable ∧ PrintableItems items

def PrintableMembers : List (List Unit16 × Tree) → Prop
  | [] => True
  | (key, t) :: members => (∀ u ∈ key, u.Valid) ∧ t.Printable ∧ PrintableMembers members

end

variable {l : Layout} {depth : Nat} {t : Tree} {rest blanks : List Char} {c : Char}

/-! White space. -/

theorem skipSpaces_append (h : Blank blanks) (cs : List Char) :
    skipSpaces (blanks ++ cs) = skipSpaces cs :=
  List.dropWhile_append_of_pos h

theorem skipSpaces_cons (h : isSpace c = false) : skipSpaces (c :: rest) = c :: rest :=
  List.dropWhile_cons_of_neg (by simp [h])

theorem not_space_of_start (start : c = '-' ∨ c.isDigit = true) : isSpace c = false := by
  rw [Bool.eq_false_iff]
  intro space
  simp only [isSpace, Bool.or_eq_true, decide_eq_true_eq] at space
  rcases space with ((rfl | rfl) | rfl) | rfl <;> exact absurd start (by decide)

theorem ends_append (h : Blank blanks) (ends : Ends rest) : Ends (blanks ++ rest) := by
  cases blanks with
  | nil => exact ends
  | cons c cs =>
    have space := h c List.mem_cons_self
    simp only [isSpace, Bool.or_eq_true, decide_eq_true_eq] at space
    apply ends_cons
    rcases space with ((rfl | rfl) | rfl) | rfl <;> decide

/-! The written text. -/

theorem exists_render_cons (l : Layout) (depth : Nat) (rest : List Char) (h : t.Printable) :
    ∃ c tail, render l depth t rest = c :: tail ∧ isSpace c = false ∧ c ≠ ']' := by
  cases t with
  | null => exact ⟨_, _, by rw [render], by decide, by decide⟩
  | bool b => cases b <;> exact ⟨_, _, by rw [render], by decide, by decide⟩
  | number n =>
    obtain ⟨c, tail, hn, start⟩ := n.exists_render_cons h
    refine ⟨c, tail ++ rest, by rw [render, hn, List.cons_append], not_space_of_start start, ?_⟩
    rintro rfl
    exact absurd start (by decide)
  | string units => exact ⟨_, _, by rw [render, Quoted.render], by decide, by decide⟩
  | array items => cases items <;> exact ⟨_, _, by rw [render], by decide, by decide⟩
  | object members =>
    rcases members with _ | ⟨⟨key, t⟩, members⟩ <;>
      exact ⟨_, _, by rw [render], by decide, by decide⟩

theorem skipSpaces_render (h : t.Printable) (blank : Blank blanks) :
    skipSpaces (blanks ++ render l depth t rest) = render l depth t rest := by
  obtain ⟨c, tail, hc, space, -⟩ := exists_render_cons l depth rest h
  rw [skipSpaces_append blank, hc, skipSpaces_cons space]

theorem length_lt_renderUnits (units : List Unit16) (rest : List Char) :
    rest.length < (Quoted.renderUnits units rest).length := by
  induction units with
  | nil => simp [Quoted.renderUnits]
  | cons u units ih =>
    rw [Quoted.renderUnits, List.length_append]
    omega

mutual

theorem length_lt_render : ∀ (t : Tree) (l : Layout) (depth : Nat) (rest : List Char),
    t.Printable → rest.length < (render l depth t rest).length
  | .null, l, depth, rest, _ => by simp only [render, List.length_cons]; omega
  | .bool true, l, depth, rest, _ => by simp only [render, List.length_cons]; omega
  | .bool false, l, depth, rest, _ => by simp only [render, List.length_cons]; omega
  | .number n, l, depth, rest, h => by
    obtain ⟨c, tail, hn, -⟩ := n.exists_render_cons h
    simp only [render, hn, List.length_append, List.length_cons]
    omega
  | .string units, l, depth, rest, _ => by
    have := length_lt_renderUnits units rest
    simp only [render, Quoted.render, List.length_cons]
    omega
  | .array [], l, depth, rest, _ => by simp only [render, List.length_cons]; omega
  | .array (t :: items), l, depth, rest, h => by
    have first := length_lt_render t l (depth + 1)
      (renderItems l (depth + 1) items (l.gap depth ++ ']' :: rest)) h.1
    have others := length_le_renderItems items l (depth + 1) (l.gap depth ++ ']' :: rest) h.2
    simp only [render, List.length_cons, List.length_append] at others ⊢
    omega
  | .object [], l, depth, rest, _ => by simp only [render, List.length_cons]; omega
  | .object ((key, t) :: members), l, depth, rest, h => by
    have first := length_lt_render t l (depth + 1)
      (renderMembers l (depth + 1) members (l.gap depth ++ '\x7d' :: rest)) h.2.1
    have others := length_le_renderMembers members l (depth + 1) (l.gap depth ++ '\x7d' :: rest) h.2.2
    have name := length_lt_renderUnits key (l.colon ++ render l (depth + 1) t
      (renderMembers l (depth + 1) members (l.gap depth ++ '\x7d' :: rest)))
    simp only [render, Quoted.render, List.length_cons, List.length_append] at others name ⊢
    omega

theorem length_le_renderItems : ∀ (items : List Tree) (l : Layout) (depth : Nat)
    (rest : List Char), PrintableItems items → rest.length ≤ (renderItems l depth items rest).length
  | [], l, depth, rest, _ => Nat.le_refl _
  | t :: items, l, depth, rest, h => by
    have first := length_lt_render t l depth (renderItems l depth items rest) h.1
    have others := length_le_renderItems items l depth rest h.2
    simp only [renderItems, List.length_cons, List.length_append]
    omega

theorem length_le_renderMembers : ∀ (members : List (List Unit16 × Tree)) (l : Layout)
    (depth : Nat) (rest : List Char), PrintableMembers members →
      rest.length ≤ (renderMembers l depth members rest).length
  | [], l, depth, rest, _ => Nat.le_refl _
  | (key, t) :: members, l, depth, rest, h => by
    have first := length_lt_render t l depth (renderMembers l depth members rest) h.2.1
    have others := length_le_renderMembers members l depth rest h.2.2
    have name := length_lt_renderUnits key (l.colon ++ render l depth t
      (renderMembers l depth members rest))
    simp only [renderMembers, Quoted.render, List.length_cons, List.length_append] at name ⊢
    omega

end

theorem ends_renderItems (items : List Tree) (ends : Ends rest) :
    Ends (renderItems l depth items rest) := by
  cases items with
  | nil => exact ends
  | cons t items => exact ends_cons (by decide)

theorem ends_renderMembers (members : List (List Unit16 × Tree)) (ends : Ends rest) :
    Ends (renderMembers l depth members rest) := by
  rcases members with _ | ⟨⟨key, t⟩, members⟩
  · exact ends
  · exact ends_cons (by decide)

/-! Reading. -/

theorem value?_number {fuel : Nat} {cs : List Char} (start : c = '-' ∨ c.isDigit = true)
    (blank : Blank blanks) : value? (fuel + 1) (blanks ++ c :: cs) =
      (Numeral.read? (c :: cs)).map fun (n, rest) => (.number n, rest) := by
  rw [value?, skipSpaces_append blank, skipSpaces_cons (not_space_of_start start)]
  split
  -- The other branches expect a character with which no number starts.
  all_goals first
    | rfl
    | next heq =>
      cases heq
      exact absurd start (by decide)

theorem value?_object {fuel : Nat} {cs : List Char} (blank : Blank blanks) :
    value? (fuel + 1) (blanks ++ '\x7b' :: cs) =
      match skipSpaces cs with
      | '\x7d' :: rest => some (.object [], rest)
      | rest => (members? fuel rest).map fun (members, rest) => (.object members, rest) := by
  rw [value?, skipSpaces_append blank, skipSpaces_cons (by decide)]
  rfl

mutual

/-- A written tree is read back, if what follows does not continue a number. Each character that is
    read pays for two steps: one of `value?`, one of `items?` or `members?`. -/
theorem value?_render (hl : l.Blank) : ∀ (t : Tree) (depth fuel : Nat) (blanks rest : List Char),
    t.Printable → Blank blanks → Ends rest →
    2 * (render l depth t rest).length ≤ fuel + 2 * rest.length →
    value? fuel (blanks ++ render l depth t rest) = some (t, rest)
  | t, depth, 0, blanks, rest, h, _, _, hfuel => by
    have := length_lt_render t l depth rest h
    omega
  | .null, depth, fuel + 1, blanks, rest, h, blank, _, _ => by
    rw [value?, skipSpaces_render h blank, render]
    rfl
  | .bool true, depth, fuel + 1, blanks, rest, h, blank, _, _ => by
    rw [value?, skipSpaces_render h blank, render]
    rfl
  | .bool false, depth, fuel + 1, blanks, rest, h, blank, _, _ => by
    rw [value?, skipSpaces_render h blank, render]
    rfl
  | .number n, depth, fuel + 1, blanks, rest, h, blank, ends, _ => by
    have back := Numeral.read?_render h ends
    obtain ⟨c, tail, hn, start⟩ := n.exists_render_cons h
    rw [hn, List.cons_append] at back
    rw [render, hn, List.cons_append, value?_number start blank, back, Option.map_some]
  | .string units, depth, fuel + 1, blanks, rest, h, blank, _, _ => by
    rw [value?, skipSpaces_render h blank, render, Quoted.render]
    simp only [Quoted.units?_renderUnits h, Option.map_some]
  | .array [], depth, fuel + 1, blanks, rest, h, blank, _, _ => by
    rw [value?, skipSpaces_render h blank, render]
    rfl
  | .array (t :: items), depth, fuel + 1, blanks, rest, h, blank, ends, hfuel => by
    have others := items?_render hl t items (depth + 1) fuel [] rest (l.gap depth) h.1
      h.2 blank_nil (hl.gap depth) (by
        simp only [render, List.length_cons, List.length_append] at hfuel
        omega)
    obtain ⟨c, tail, hc, -, apart⟩ := exists_render_cons l (depth + 1)
      (renderItems l (depth + 1) items (l.gap depth ++ ']' :: rest)) h.1
    rw [value?, skipSpaces_render h blank, render]
    simp only
    rw [skipSpaces_render h.1 (hl.gap _)]
    -- An array is empty only if a bracket comes next, but the first item does.
    split
    next heq =>
      rw [hc] at heq
      cases heq
      exact absurd rfl apart
    next =>
      rw [List.nil_append] at others
      rw [others, Option.map_some]
  | .object [], depth, fuel + 1, blanks, rest, h, blank, _, _ => by
    rw [value?, skipSpaces_render h blank, render]
    rfl
  | .object ((key, t) :: members), depth, fuel + 1, blanks, rest, h, blank, ends, hfuel => by
    have others := members?_render hl key t members (depth + 1) fuel [] rest (l.gap depth) h.1 h.2.1
      h.2.2 blank_nil (hl.gap depth) (by
        simp only [render, List.length_cons, List.length_append] at hfuel
        omega)
    rw [render, value?_object blank, skipSpaces_append (hl.gap _), Quoted.render, skipSpaces_cons (by decide)]
    rw [List.nil_append, Quoted.render] at others
    -- Neither is the object empty, for a quote comes next.
    split
    next heq => cases heq
    next => rw [others, Option.map_some]
  termination_by t => sizeOf t

theorem items?_render (hl : l.Blank) : ∀ (t : Tree) (items : List Tree) (depth fuel : Nat)
    (blanks rest gap : List Char), t.Printable → PrintableItems items → Blank blanks → Blank gap →
    2 * (render l depth t (renderItems l depth items (gap ++ ']' :: rest))).length + 1 ≤
      fuel + 2 * (rest.length + 1) →
    items? fuel (blanks ++ render l depth t (renderItems l depth items (gap ++ ']' :: rest))) =
      some (t :: items, rest)
  | t, items, depth, 0, blanks, rest, gap, h, hitems, _, _, hfuel => by
    have first := length_lt_render t l depth (renderItems l depth items (gap ++ ']' :: rest)) h
    have others := length_le_renderItems items l depth (gap ++ ']' :: rest) hitems
    simp only [List.length_append, List.length_cons] at others
    omega
  | t, [], depth, fuel + 1, blanks, rest, gap, h, _, blank, hgap, hfuel => by
    have first := value?_render hl t depth fuel blanks (gap ++ ']' :: rest) h blank
      (ends_append hgap (ends_cons (by decide))) (by
        simp only [renderItems, List.length_append, List.length_cons] at hfuel ⊢
        omega)
    rw [items?, renderItems, first]
    simp only
    rw [skipSpaces_append hgap, skipSpaces_cons (by decide)]
    rfl
  | t, u :: items, depth, fuel + 1, blanks, rest, gap, h, hitems, blank, hgap, hfuel => by
    have hall := length_lt_render t l depth
      (renderItems l depth (u :: items) (gap ++ ']' :: rest)) h
    have hothers := length_lt_render u l depth (renderItems l depth items (gap ++ ']' :: rest))
      hitems.1
    have hend := length_le_renderItems items l depth (gap ++ ']' :: rest) hitems.2
    simp only [renderItems, List.length_append, List.length_cons] at hall hend hfuel
    -- After the item comes a comma, which ends a number.
    have first := value?_render hl t depth fuel blanks
      (renderItems l depth (u :: items) (gap ++ ']' :: rest)) h blank
      (ends_renderItems (u :: items) (ends_append hgap (ends_cons (by decide)))) (by
        simp only [renderItems, List.length_append, List.length_cons]
        omega)
    have others := items?_render hl u items depth fuel (l.gap depth) rest gap hitems.1 hitems.2
      (hl.gap depth) hgap (by omega)
    rw [items?, first]
    simp only [renderItems]
    rw [skipSpaces_cons (by decide)]
    simp only [others, Option.map_some]
  termination_by t items => sizeOf t + sizeOf items + 1

theorem members?_render (hl : l.Blank) : ∀ (key : List Unit16) (t : Tree)
    (members : List (List Unit16 × Tree)) (depth fuel : Nat) (blanks rest gap : List Char),
    (∀ u ∈ key, u.Valid) → t.Printable → PrintableMembers members → Blank blanks → Blank gap →
    2 * (Quoted.render key (l.colon ++ render l depth t
      (renderMembers l depth members (gap ++ '\x7d' :: rest)))).length + 1 ≤
      fuel + 2 * (rest.length + 1) →
    members? fuel (blanks ++ Quoted.render key (l.colon ++ render l depth t
      (renderMembers l depth members (gap ++ '\x7d' :: rest)))) = some ((key, t) :: members, rest)
  | key, t, members, depth, 0, blanks, rest, gap, hkey, h, hmembers, _, _, hfuel => by
    have name := length_lt_renderUnits key (l.colon ++ render l depth t
      (renderMembers l depth members (gap ++ '\x7d' :: rest)))
    have first := length_lt_render t l depth
      (renderMembers l depth members (gap ++ '\x7d' :: rest)) h
    have others := length_le_renderMembers members l depth (gap ++ '\x7d' :: rest) hmembers
    simp only [Quoted.render, List.length_append, List.length_cons] at name others hfuel
    omega
  | key, t, [], depth, fuel + 1, blanks, rest, gap, hkey, h, _, blank, hgap, hfuel => by
    obtain ⟨spaces, hspaces, hcolon⟩ := hl.colon
    have name := length_lt_renderUnits key (l.colon ++ render l depth t (gap ++ '\x7d' :: rest))
    simp only [Quoted.render, renderMembers, List.length_append, List.length_cons] at name hfuel
    have first := value?_render hl t depth fuel spaces (gap ++ '\x7d' :: rest) h hspaces
      (ends_append hgap (ends_cons (by decide))) (by
        simp only [List.length_append, List.length_cons]
        omega)
    rw [members?, skipSpaces_append blank, Quoted.render, skipSpaces_cons (by decide)]
    simp only [renderMembers, Quoted.units?_renderUnits hkey, hcolon, List.cons_append]
    rw [skipSpaces_cons (by decide)]
    simp only [first]
    rw [skipSpaces_append hgap, skipSpaces_cons (by decide)]
    rfl
  | key, t, (other, u) :: members, depth, fuel + 1, blanks, rest, gap, hkey, h, hmembers, blank,
    hgap, hfuel => by
    obtain ⟨spaces, hspaces, hcolon⟩ := hl.colon
    have name := length_lt_renderUnits key (l.colon ++ render l depth t
      (renderMembers l depth ((other, u) :: members) (gap ++ '\x7d' :: rest)))
    have hall := length_lt_render t l depth
      (renderMembers l depth ((other, u) :: members) (gap ++ '\x7d' :: rest)) h
    have hend := length_le_renderMembers members l depth (gap ++ '\x7d' :: rest) hmembers.2.2
    have hothers := length_lt_render u l depth
      (renderMembers l depth members (gap ++ '\x7d' :: rest)) hmembers.2.1
    have hother := length_lt_renderUnits other (l.colon ++ render l depth u
      (renderMembers l depth members (gap ++ '\x7d' :: rest)))
    simp only [Quoted.render, renderMembers, List.length_append, List.length_cons] at name hall hother
    simp only [Quoted.render, renderMembers, List.length_append, List.length_cons] at hend hfuel
    have first := value?_render hl t depth fuel spaces
      (renderMembers l depth ((other, u) :: members) (gap ++ '\x7d' :: rest)) h hspaces
      (ends_renderMembers ((other, u) :: members) (ends_append hgap (ends_cons (by decide)))) (by
        simp only [Quoted.render, renderMembers, List.length_append, List.length_cons]
        omega)
    have others := members?_render hl other u members depth fuel (l.gap depth) rest gap hmembers.1
      hmembers.2.1 hmembers.2.2 (hl.gap depth) hgap (by
        simp only [Quoted.render, List.length_cons]
        omega)
    rw [members?, skipSpaces_append blank, Quoted.render, skipSpaces_cons (by decide)]
    simp only [Quoted.units?_renderUnits hkey, hcolon, List.cons_append]
    rw [skipSpaces_cons (by decide)]
    simp only [first]
    simp only [renderMembers]
    rw [skipSpaces_cons (by decide)]
    simp only [others, Option.map_some]
  termination_by _ t members => sizeOf t + sizeOf members + 1

end

/-- **A written tree** reads back. -/
theorem read?_write (hl : l.Blank) (h : t.Printable) : read? (t.write l).toList = some t := by
  have back := value?_render hl t 0 (2 * (render l 0 t []).length + 2) [] [] h blank_nil
    Numeral.ends_nil (by omega)
  rw [List.nil_append] at back
  rw [write, String.toList_ofList, read?, back]
  rfl

end Tree

end DocumentStore.Json
