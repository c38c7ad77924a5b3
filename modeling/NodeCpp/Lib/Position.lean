import Mathlib.Algebra.Order.Ring.Nat

/-!
# Positions in a list

In a list whose elements record their own position, the recorded positions of any
selection increase, so an element of the selection is determined by its record.
Appending an element changes no other position. `below q i` are the positions
before `i` with a property, and their number is the rank of `i`.
-/

namespace NodeCpp.Lib

variable {α : Type*} {p : α → Bool} {f : α → Nat}

/-- The records of the selected elements are at least the base and increase. -/
theorem pairwise_filter_of_position {l : List α} {b : Nat}
    (h : ∀ k a, l[k]? = some a → p a → f a = b + k) :
    (∀ a ∈ l.filter p, b ≤ f a) ∧ (l.filter p).Pairwise fun x y => f x < f y := by
  induction l generalizing b with
  | nil => simp
  | cons a as ih =>
    have htail : ∀ k x, as[k]? = some x → p x → f x = b + 1 + k := by
      intro k x hx hp
      rw [h (k + 1) x (by simpa using hx) hp]
      omega
    obtain ⟨hge, hpair⟩ := ih htail
    by_cases ha : p a
    · have hfa : f a = b := h 0 a rfl ha
      rw [List.filter_cons_of_pos ha]
      refine ⟨?_, List.pairwise_cons.mpr ⟨?_, hpair⟩⟩
      · intro x hx
        rcases List.mem_cons.mp hx with rfl | hx
        · exact Nat.le_of_eq hfa.symm
        · have := hge x hx
          omega
      · intro x hx
        have := hge x hx
        omega
    · rw [List.filter_cons_of_neg ha]
      refine ⟨fun x hx => ?_, hpair⟩
      have := hge x hx
      omega

theorem filter_position_inj {l : List α} {b : Nat}
    (h : ∀ k a, l[k]? = some a → p a → f a = b + k) {i j : Nat} {x y : α}
    (hi : (l.filter p)[i]? = some x) (hj : (l.filter p)[j]? = some y) (hf : f x = f y) :
    i = j := by
  obtain ⟨hilt, rfl⟩ := List.getElem?_eq_some_iff.mp hi
  obtain ⟨hjlt, rfl⟩ := List.getElem?_eq_some_iff.mp hj
  have hpair := List.pairwise_iff_getElem.mp (pairwise_filter_of_position h).2
  rcases Nat.lt_trichotomy i j with hlt | heq | hgt
  · have := hpair i j hilt hjlt hlt
    omega
  · exact heq
  · have := hpair j i hjlt hilt hgt
    omega

theorem getElem?_concat_of_ne {l : List α} {a : α} {k : Nat} (hk : k ≠ l.length) :
    (l ++ [a])[k]? = l[k]? := by
  rcases Nat.lt_or_gt_of_ne hk with hlt | hgt
  · exact List.getElem?_append_left hlt
  · rw [List.getElem?_eq_none (by simp; omega), List.getElem?_eq_none (by omega)]

theorem sum_map_set {g : α → Nat} {l : List α} {k : Nat} {a : α} (hk : l[k]? = some a) (b : α) :
    ((l.set k b).map g).sum + g a = (l.map g).sum + g b := by
  induction l generalizing k with
  | nil => cases hk
  | cons x l ih =>
    cases k with
    | zero =>
      cases hk
      simp only [List.set_cons_zero, List.map_cons, List.sum_cons]
      omega
    | succ k =>
      have hrest := ih (k := k) hk
      simp only [List.set_cons_succ, List.map_cons, List.sum_cons]
      omega

/-- A selected element stands in the selection behind those before it. -/
theorem getElem?_filter_countP {l : List α} {i : Nat} {a : α} (hi : l[i]? = some a) (ha : p a) :
    (l.filter p)[(l.take i).countP p]? = some a := by
  induction l generalizing i with
  | nil => cases hi
  | cons x l ih =>
    cases i with
    | zero =>
      cases hi
      rw [List.filter_cons_of_pos ha]
      rfl
    | succ i =>
      have hrest := ih (i := i) hi
      cases hx : p x with
      | false =>
        rw [List.take_succ_cons, List.countP_cons_of_neg (by simp [hx]),
          List.filter_cons_of_neg (by simp [hx])]
        exact hrest
      | true =>
        rw [List.take_succ_cons, List.countP_cons_of_pos hx, List.filter_cons_of_pos hx]
        exact hrest

theorem findIdx_name {β : Type*} [DecidableEq β] {g : α → β} {l : List α} {k : Nat} {a : α}
    (hnodup : (l.map g).Nodup) (hk : l[k]? = some a) :
    (l.findIdx fun x => decide (g x = g a)) = k := by
  obtain ⟨hlt, rfl⟩ := List.getElem?_eq_some_iff.mp hk
  have hidx := hnodup.idxOf_getElem k (by simpa using hlt)
  rw [List.idxOf, List.findIdx_map, List.getElem_map] at hidx
  exact hidx

theorem mem_modify {g : α → α} {l : List α} {k : Nat} {a : α} (h : a ∈ l.modify k g) :
    a ∈ l ∨ ∃ b, l[k]? = some b ∧ a = g b := by
  obtain ⟨i, hi⟩ := List.mem_iff_getElem?.mp h
  by_cases hki : k = i
  · subst hki
    rw [List.getElem?_modify_eq] at hi
    obtain ⟨b, hb, rfl⟩ := Option.map_eq_some_iff.mp hi
    exact .inr ⟨b, hb, rfl⟩
  · rw [List.getElem?_modify_ne _ _ hki] at hi
    exact .inl (List.mem_of_getElem? hi)

/-- A change that a test does not see does not move the first element that passes it. -/
theorem findIdx_modify {g : α → α} (hg : ∀ a, p (g a) = p a) (l : List α) (k : Nat) :
    (l.modify k g).findIdx p = l.findIdx p := by
  induction l generalizing k with
  | nil => rw [List.modify_nil]
  | cons a l ih =>
    cases k with
    | zero => rw [List.modify_zero_cons, List.findIdx_cons, List.findIdx_cons, hg]
    | succ k => rw [List.modify_succ_cons, List.findIdx_cons, List.findIdx_cons, ih]

theorem map_set_of_eq {β : Type*} {g : α → β} {l : List α} {k : Nat} {a b : α} (hk : l[k]? = some a)
    (hg : g b = g a) : (l.set k b).map g = l.map g := by
  refine List.ext_getElem? fun i => ?_
  rw [List.getElem?_map, List.getElem?_map, List.getElem?_set]
  split
  · subst k
    obtain ⟨hi, -⟩ := List.getElem?_eq_some_iff.mp hk
    rw [hk, if_pos hi, Option.map_some, Option.map_some, hg]
  · rfl

theorem mem_set_of_ne {l : List α} {i : Nat} {a b c : α} (hi : l[i]? = some c) (ha : a ∈ l)
    (hne : a ≠ c) : a ∈ l.set i b := by
  obtain ⟨j, hj⟩ := List.mem_iff_getElem?.mp ha
  have hij : i ≠ j := by
    rintro rfl
    exact hne (Option.some.inj (hj.symm.trans hi))
  apply List.mem_iff_getElem?.mpr
  exact ⟨j, by rw [List.getElem?_set_ne hij, hj]⟩

theorem mem_set_self {l : List α} {i : Nat} {b c : α} (hi : l[i]? = some c) : b ∈ l.set i b := by
  obtain ⟨hlt, -⟩ := List.getElem?_eq_some_iff.mp hi
  exact List.mem_set hlt b

theorem countP_set_add {l : List α} {i : Nat} {a b : α}
    (h : l[i]? = some a) : (l.set i b).countP p + (p a).toNat = l.countP p + (p b).toNat := by
  obtain ⟨hi, rfl⟩ := List.getElem?_eq_some_iff.mp h
  have hpos : (p l[i]).toNat ≤ l.countP p := by
    cases hp : p l[i] with
    | false => exact Nat.zero_le _
    | true => exact List.countP_pos_iff.mpr ⟨_, List.getElem_mem hi, hp⟩
  rw [List.countP_set hi]
  cases hp : p l[i] <;> cases hb : p b <;>
    simp only [hp, Bool.toNat_true, Bool.toNat_false, Bool.false_eq_true, if_true, if_false]
      at hpos ⊢ <;>
    omega

/-! ## The positions with a property -/

/-- The positions before `i` that satisfy `q`, in order. -/
def below (q : Nat → Bool) (i : Nat) : List Nat := (List.range i).filter q

theorem below_succ_of_pos {q : Nat → Bool} {i : Nat} (h : q i) :
    below q (i + 1) = below q i ++ [i] := by
  simp [below, List.range_succ, h]

theorem below_succ_of_neg {q : Nat → Bool} {i : Nat} (h : q i = false) :
    below q (i + 1) = below q i := by
  simp [below, List.range_succ, h]

theorem below_eq_nil {q : Nat → Bool} {i : Nat} (h : ∀ j < i, q j = false) : below q i = [] := by
  simp only [below, List.filter_eq_nil_iff, List.mem_range, Bool.not_eq_true]
  exact h

/-- Positions are counted from an offset before which there is none. -/
theorem length_below_add {q : Nat → Bool} {a : Nat} (h : ∀ j < a, q j = false) (k : Nat) :
    (below q (a + k)).length = (below (fun j => q (a + j)) k).length := by
  rw [below, List.range_add, List.filter_append, ← below, below_eq_nil h, List.nil_append,
    List.filter_map, List.length_map]
  rfl

theorem below_isPrefix (q : Nat → Bool) {i n : Nat} (h : i ≤ n) :
    (below q i).IsPrefix (below q n) := by
  obtain ⟨k, rfl⟩ := Nat.exists_eq_add_of_le h
  rw [below, below, List.range_add, List.filter_append]
  exact List.prefix_append ..

theorem length_below_lt {q : Nat → Bool} {j i : Nat} (hj : q j) (h : j < i) :
    (below q j).length < (below q i).length := by
  have hle := (below_isPrefix q (Nat.succ_le_of_lt h)).length_le
  rw [below_succ_of_pos hj, List.length_append, List.length_singleton] at hle
  omega

/-- Every number below the count is the rank of a position. -/
theorem exists_length_below {q : Nat → Bool} {i m : Nat} (h : m < (below q i).length) :
    ∃ j < i, q j ∧ (below q j).length = m := by
  induction i with
  | zero => cases h
  | succ i ih =>
    cases hi : q i with
    | false =>
      rw [below_succ_of_neg hi] at h
      obtain ⟨j, hj, hq, hm⟩ := ih h
      exact ⟨j, Nat.lt_succ_of_lt hj, hq, hm⟩
    | true =>
      rw [below_succ_of_pos hi, List.length_append, List.length_singleton] at h
      by_cases hm : m < (below q i).length
      · obtain ⟨j, hj, hq, hm⟩ := ih hm
        exact ⟨j, Nat.lt_succ_of_lt hj, hq, hm⟩
      · exact ⟨i, Nat.lt_succ_self i, hi, by omega⟩

theorem countP_take (l : List α) (n : Nat) :
    (l.take n).countP p = (below (fun j => (l[j]?).any p) n).length := by
  induction n with
  | zero => rfl
  | succ n ih =>
    rw [List.take_add_one, List.countP_append, ih]
    cases hn : l[n]? with
    | none =>
      rw [below_succ_of_neg (by simp [hn])]
      rfl
    | some a =>
      cases ha : p a with
      | true =>
        rw [below_succ_of_pos (by simp [hn, ha])]
        simp [ha]
      | false =>
        rw [below_succ_of_neg (by simp [hn, ha])]
        simp [ha]

end NodeCpp.Lib
