import Mathlib.Algebra.Order.Ring.Nat
import Mathlib.Data.List.Range

/-!
# Memory segments

A flat memory is a function from offsets to cells. `segment` reads a half-open
range as a list and `store` overwrites a range by a list. The lemmas are what
a proof about code that moves blocks with offsets needs: cutting a range,
peeling its first cell, and reading across a store.
-/

namespace NodeCpp.Lib

variable {α : Type*}

/-- The cells at offsets `lo, …, hi - 1`. -/
def segment (mem : Nat → α) (lo hi : Nat) : List α :=
  (List.range' lo (hi - lo)).map mem

/-- The memory with `xs` written at offset `off`. -/
def store (mem : Nat → α) (off : Nat) (xs : List α) : Nat → α := fun i =>
  if h : off ≤ i ∧ i - off < xs.length then xs.get ⟨i - off, h.2⟩ else mem i

@[simp] theorem store_nil (mem : Nat → α) (off : Nat) : store mem off [] = mem := by
  funext i
  simp [store]

theorem store_append (mem : Nat → α) (off : Nat) (xs ys : List α) :
    store (store mem off xs) (off + xs.length) ys = store mem off (xs ++ ys) := by
  funext i
  simp only [store, List.length_append, List.get_eq_getElem]
  by_cases hxs : off ≤ i ∧ i - off < xs.length
  · rw [dif_neg (by omega), dif_pos hxs, dif_pos (by omega), List.getElem_append_left hxs.2]
  · by_cases hys : off + xs.length ≤ i ∧ i - (off + xs.length) < ys.length
    · rw [dif_pos hys, dif_pos (by omega), List.getElem_append_right (by omega)]
      congr 1
      omega
    · rw [dif_neg hys, dif_neg hxs, dif_neg (by omega)]

theorem store_comm (mem : Nat → α) {off₁ off₂ : Nat} {xs ys : List α}
    (h : off₁ + xs.length ≤ off₂ ∨ off₂ + ys.length ≤ off₁) :
    store (store mem off₁ xs) off₂ ys = store (store mem off₂ ys) off₁ xs := by
  funext i
  simp only [store]
  by_cases hxs : off₁ ≤ i ∧ i - off₁ < xs.length
  · rw [dif_neg (by omega), dif_pos hxs, dif_pos hxs]
  · by_cases hys : off₂ ≤ i ∧ i - off₂ < ys.length
    · rw [dif_pos hys, dif_neg hxs, dif_pos hys]
    · rw [dif_neg hys, dif_neg hxs, dif_neg hxs, dif_neg hys]

@[simp] theorem length_segment (mem : Nat → α) (lo hi : Nat) :
    (segment mem lo hi).length = hi - lo := by
  simp [segment]

theorem segment_of_le (mem : Nat → α) {lo hi : Nat} (h : hi ≤ lo) :
    segment mem lo hi = [] := by
  rw [segment, Nat.sub_eq_zero_of_le h]
  rfl

@[simp] theorem segment_self (mem : Nat → α) (lo : Nat) : segment mem lo lo = [] :=
  segment_of_le mem le_rfl

theorem segment_append (mem : Nat → α) {lo mid hi : Nat} (h₁ : lo ≤ mid) (h₂ : mid ≤ hi) :
    segment mem lo mid ++ segment mem mid hi = segment mem lo hi := by
  obtain ⟨m, rfl⟩ := Nat.exists_eq_add_of_le h₁
  obtain ⟨n, rfl⟩ := Nat.exists_eq_add_of_le h₂
  have hlen : lo + m + n - lo = m + n := by omega
  simp only [segment, Nat.add_sub_cancel_left, hlen, ← List.map_append, List.range'_append_1]

theorem segment_cons (mem : Nat → α) {lo hi : Nat} (h : lo < hi) :
    segment mem lo hi = mem lo :: segment mem (lo + 1) hi := by
  obtain ⟨n, rfl⟩ := Nat.exists_eq_add_of_lt h
  have h₁ : lo + n + 1 - lo = n + 1 := by omega
  have h₂ : lo + n + 1 - (lo + 1) = n := by omega
  simp only [segment, h₁, h₂, List.range'_succ, List.map_cons]

theorem getElem_segment (mem : Nat → α) {lo hi i : Nat} (h : i < (segment mem lo hi).length) :
    (segment mem lo hi)[i] = mem (lo + i) := by
  simp [segment]

theorem take_segment (mem : Nat → α) (n k : Nat) :
    (segment mem 0 n).take k = segment mem 0 (min k n) := by
  by_cases hk : k ≤ n
  · rw [← segment_append mem (Nat.zero_le k) hk, Nat.min_eq_left hk]
    exact List.take_left' (length_segment ..)
  · rw [Nat.min_eq_right (by omega), List.take_of_length_le]
    rw [length_segment]
    omega

theorem segment_eq_append {mem : Nat → α} {lo hi : Nat} {xs ys : List α}
    (h : segment mem lo hi = xs ++ ys) :
    segment mem lo (lo + xs.length) = xs ∧ segment mem (lo + xs.length) hi = ys := by
  have hlen := congrArg List.length h
  rw [length_segment, List.length_append] at hlen
  by_cases hle : lo ≤ hi
  · rw [← segment_append mem (Nat.le_add_right lo xs.length) (by omega)] at h
    apply List.append_inj h
    rw [length_segment]
    omega
  · have hx : xs = [] := List.length_eq_zero_iff.mp (by omega)
    have hy : ys = [] := List.length_eq_zero_iff.mp (by omega)
    subst hx hy
    exact ⟨segment_self mem lo, segment_of_le mem (by simpa using Nat.le_of_not_le hle)⟩

theorem segment_store_of_disjoint (mem : Nat → α) (off : Nat) (xs : List α) {lo hi : Nat}
    (h : hi ≤ off ∨ off + xs.length ≤ lo) :
    segment (store mem off xs) lo hi = segment mem lo hi := by
  refine List.map_congr_left fun i hi' => ?_
  rw [List.mem_range'_1] at hi'
  unfold store
  rw [dif_neg]
  omega

theorem segment_store_self (mem : Nat → α) (off : Nat) (xs : List α) :
    segment (store mem off xs) off (off + xs.length) = xs := by
  apply List.ext_getElem
  · simp
  · intro i h₁ h₂
    simp [segment, store, h₂]

theorem segment_store_segment (mem mem' : Nat → α) {lo hi n : Nat} (h : hi ≤ n) :
    segment (store mem' 0 (segment mem 0 n)) lo hi = segment mem lo hi := by
  refine List.map_congr_left fun i hi' => ?_
  rw [List.mem_range'_1] at hi'
  have hlt : i < n := by omega
  simp [store, segment, hlt]

theorem segment_store_eq (mem : Nat → α) {off hi : Nat} {xs : List α} (h : hi = off + xs.length) :
    segment (store mem off xs) off hi = xs := by
  rw [h, segment_store_self]

theorem store_segment (dst src : Nat → α) (off lo n i : Nat) :
    store dst off (segment src lo (lo + n)) i =
      if off ≤ i ∧ i < off + n then src (lo + (i - off)) else dst i := by
  unfold store
  split
  · next h =>
    rw [length_segment] at h
    rw [if_pos (by omega), List.get_eq_getElem, getElem_segment]
  · next h =>
    rw [length_segment] at h
    rw [if_neg (by omega)]

theorem segment_inj {mem mem' : Nat → α} {lo hi : Nat} :
    segment mem lo hi = segment mem' lo hi ↔ ∀ i, lo ≤ i → i < hi → mem i = mem' i := by
  rw [segment, segment, List.map_inj_left]
  refine forall_congr' fun i => ?_
  rw [List.mem_range'_1]
  exact ⟨fun h h₁ h₂ => h (by omega), fun h hi => h hi.1 (by omega)⟩

end NodeCpp.Lib
