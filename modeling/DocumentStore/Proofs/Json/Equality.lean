import DocumentStore.Json.Value

/- Equality of JSON values is an equivalence. It is coarser than equality of terms in one place,
   the sign of a zero, so partition keys that differ there are one key (`equalItems_congr`). -/
namespace DocumentStore.Json

theorem binary64_equal_refl (x : Binary64) : x.equal x = true := by
  simp [Binary64.equal]

theorem binary64_equal_symm {x y : Binary64} (h : x.equal y = true) : y.equal x = true := by
  simp only [Binary64.equal, Bool.and_eq_true, Bool.or_eq_true, beq_iff_eq] at h ⊢
  obtain ⟨hm, hs⟩ := h
  refine ⟨hm.symm, ?_⟩
  rcases hs with hs | hs
  · exact Or.inl hs.symm
  · exact Or.inr (hm ▸ hs)

theorem binary64_equal_trans {x y z : Binary64} (hxy : x.equal y = true) (hyz : y.equal z = true) :
    x.equal z = true := by
  simp only [Binary64.equal, Bool.and_eq_true, Bool.or_eq_true, beq_iff_eq] at hxy hyz ⊢
  obtain ⟨hm, hs⟩ := hxy
  obtain ⟨hn, ht⟩ := hyz
  refine ⟨hm.trans hn, ?_⟩
  rcases hs with hs | hs
  · rcases ht with ht | ht
    · exact Or.inl (hs.trans ht)
    · exact Or.inr (hm ▸ ht)
  · exact Or.inr hs

namespace Number

theorem equal_refl : ∀ n : Number, n.equal n = true
  | .whole n => by simp [equal]
  | .real x => binary64_equal_refl x

theorem equal_symm {m n : Number} (h : m.equal n = true) : n.equal m = true := by
  cases m with
  | whole m =>
    cases n with
    | whole n => simp only [equal, beq_iff_eq] at h ⊢; exact h.symm
    | real y => simp [equal] at h
  | real x =>
    cases n with
    | whole n => simp [equal] at h
    | real y => exact binary64_equal_symm h

theorem equal_trans {l m n : Number} (h : l.equal m = true) (h' : m.equal n = true) :
    l.equal n = true := by
  cases m with
  | whole m =>
    cases l <;> cases n <;> simp only [equal, Bool.false_eq_true, beq_iff_eq] at h h' ⊢
    exact h.trans h'
  | real y =>
    cases l <;> cases n <;> simp only [equal, Bool.false_eq_true] at h h' ⊢
    exact binary64_equal_trans h h'

end Number

namespace Value

/-! The three laws, each over values, lists of items and lists of members at once. -/

mutual

theorem equal_refl : ∀ v : Value, equal v v = true
  | .null => rfl
  | .bool _ => by simp [equal]
  | .number n => Number.equal_refl n
  | .string _ => by simp [equal]
  | .array items => equalItems_refl items
  | .object members => equalMembers_refl members

theorem equalItems_refl : ∀ vs : List Value, equalItems vs vs = true
  | [] => rfl
  | v :: vs => by simp only [equalItems, equal_refl v, equalItems_refl vs, Bool.and_self]

theorem equalMembers_refl : ∀ ms : List (String × Value), equalMembers ms ms = true
  | [] => rfl
  | (k, v) :: ms => by
    simp only [equalMembers, equal_refl v, equalMembers_refl ms, beq_self_eq_true, Bool.and_self]

end

mutual

theorem equal_symm (v w : Value) (h : equal v w = true) : equal w v = true := by
  cases v <;> cases w <;> simp only [equal, Bool.false_eq_true, beq_iff_eq] at h ⊢
  · exact h.symm
  · exact Number.equal_symm h
  · exact h.symm
  · exact equalItems_symm _ _ h
  · exact equalMembers_symm _ _ h

theorem equalItems_symm : ∀ (vs ws : List Value), equalItems vs ws = true → equalItems ws vs = true
  | [], [], _ => rfl
  | [], _ :: _, h => by simp [equalItems] at h
  | _ :: _, [], h => by simp [equalItems] at h
  | v :: vs, w :: ws, h => by
    simp only [equalItems, Bool.and_eq_true] at h ⊢
    exact ⟨equal_symm v w h.1, equalItems_symm vs ws h.2⟩

theorem equalMembers_symm : ∀ (ms ns : List (String × Value)),
    equalMembers ms ns = true → equalMembers ns ms = true
  | [], [], _ => rfl
  | [], _ :: _, h => by simp [equalMembers] at h
  | _ :: _, [], h => by simp [equalMembers] at h
  | (k, v) :: ms, (l, w) :: ns, h => by
    simp only [equalMembers, Bool.and_eq_true, beq_iff_eq] at h ⊢
    exact ⟨⟨h.1.1.symm, equal_symm v w h.1.2⟩, equalMembers_symm ms ns h.2⟩

end

mutual

theorem equal_trans (u v w : Value) (h : equal u v = true) (h' : equal v w = true) :
    equal u w = true := by
  -- The middle value fixes the kind of the other two.
  cases v <;> cases u <;> simp only [equal, Bool.false_eq_true, beq_iff_eq] at h <;>
    cases w <;> simp only [equal, Bool.false_eq_true, beq_iff_eq] at h' ⊢
  · exact h.trans h'
  · exact Number.equal_trans h h'
  · exact h.trans h'
  · exact equalItems_trans _ _ _ h h'
  · exact equalMembers_trans _ _ _ h h'

theorem equalItems_trans : ∀ (us vs ws : List Value),
    equalItems us vs = true → equalItems vs ws = true → equalItems us ws = true
  | [], [], _, _, h' => h'
  | [], _ :: _, _, h, _ => by simp [equalItems] at h
  | _ :: _, [], _, h, _ => by simp [equalItems] at h
  | _ :: _, _ :: _, [], _, h' => by simp [equalItems] at h'
  | u :: us, v :: vs, w :: ws, h, h' => by
    simp only [equalItems, Bool.and_eq_true] at h h' ⊢
    exact ⟨equal_trans u v w h.1 h'.1, equalItems_trans us vs ws h.2 h'.2⟩

theorem equalMembers_trans : ∀ (ls ms ns : List (String × Value)),
    equalMembers ls ms = true → equalMembers ms ns = true → equalMembers ls ns = true
  | [], [], _, _, h' => h'
  | [], _ :: _, _, h, _ => by simp [equalMembers] at h
  | _ :: _, [], _, h, _ => by simp [equalMembers] at h
  | _ :: _, _ :: _, [], _, h' => by simp [equalMembers] at h'
  | (j, u) :: ls, (k, v) :: ms, (l, w) :: ns, h, h' => by
    simp only [equalMembers, Bool.and_eq_true, beq_iff_eq] at h h' ⊢
    exact ⟨⟨h.1.1.trans h'.1.1, equal_trans u v w h.1.2 h'.1.2⟩,
      equalMembers_trans ls ms ns h.2 h'.2⟩

end

theorem equalItems_congr {ps qs : List Value} (h : equalItems ps qs = true) (vs : List Value) :
    equalItems vs ps = equalItems vs qs := by
  rw [Bool.eq_iff_iff]
  exact ⟨fun h' => equalItems_trans vs ps qs h' h,
    fun h' => equalItems_trans vs qs ps h' (equalItems_symm ps qs h)⟩

end Value

end DocumentStore.Json
