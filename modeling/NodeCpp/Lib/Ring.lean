import Mathlib.Algebra.Order.Ring.Nat

/-!
# Rings of slots

Indices that only grow share the slots of a ring: the slot of an index is its remainder modulo
the number of slots. Indices of a window no longer than the ring are in different slots
(`eq_of_mod_eq`), so a flag per slot says which indices of the window are held (`Marks`), and a
queue can be kept in the slots of a window (`Queued`).
-/

namespace NodeCpp.Lib

/-- A window meets every slot once. -/
theorem eq_of_mod_eq {n t i j : Nat} (hi : t ≤ i) (hi' : i < t + n) (hj : t ≤ j) (hj' : j < t + n)
    (h : i % n = j % n) : i = j := by
  -- the difference is a multiple of the length, and shorter than it
  have hij : i - j = 0 :=
    Nat.eq_zero_of_dvd_of_lt (Nat.dvd_of_mod_eq_zero (Nat.sub_mod_eq_zero_of_mod_eq h)) (by omega)
  have hji : j - i = 0 :=
    Nat.eq_zero_of_dvd_of_lt (Nat.dvd_of_mod_eq_zero (Nat.sub_mod_eq_zero_of_mod_eq h.symm))
      (by omega)
  omega

/-- The flags of `n` slots are set where an index is held. -/
structure Marks (n : Nat) (flags : List Bool) (held : List Nat) : Prop where
  pos : 0 < n
  length : flags.length = n
  flag : ∀ s < n, flags[s]? = some true ↔ ∃ i ∈ held, i % n = s

namespace Marks

variable {n t i : Nat} {flags : List Bool} {held : List Nat}

theorem empty (h : 0 < n) : Marks n (List.replicate n false) [] where
  pos := h
  length := List.length_replicate
  flag := by
    intro s hs
    simp [hs]

/-- Within a window that covers what is held, the flag of an index tells whether it is held. -/
theorem held_iff (h : Marks n flags held) (hwin : ∀ j ∈ held, t ≤ j ∧ j < t + n) (hi : t ≤ i)
    (hi' : i < t + n) : flags[i % n]? = some true ↔ i ∈ held := by
  rw [h.flag _ (Nat.mod_lt _ h.pos)]
  constructor
  · rintro ⟨j, hj, hmod⟩
    obtain ⟨htj, hjn⟩ := hwin j hj
    exact eq_of_mod_eq htj hjn hi hi' hmod ▸ hj
  · intro hmem
    exact ⟨i, hmem, rfl⟩

theorem take (h : Marks n flags held) (i : Nat) :
    Marks n (flags.set (i % n) true) (i :: held) where
  pos := h.pos
  length := by rw [List.length_set, h.length]
  flag := by
    intro s hs
    have hlen := h.length
    rw [List.getElem?_set]
    split
    · rename_i heq
      subst heq
      simp [hlen, hs]
    · rename_i hne
      rw [h.flag s hs]
      simp [hne]

/-- An index of the window is given up: no other one is in its slot. -/
theorem drop (h : Marks n flags held) (hwin : ∀ j ∈ held, t ≤ j ∧ j < t + n)
    (hnodup : held.Nodup) (hi : i ∈ held) :
    Marks n (flags.set (i % n) false) (held.erase i) where
  pos := h.pos
  length := by rw [List.length_set, h.length]
  flag := by
    intro s hs
    have hlen := h.length
    rw [List.getElem?_set]
    split
    · rename_i heq
      subst heq
      simp only [hlen, hs, if_true, Option.some.injEq, Bool.false_eq_true, false_iff, not_exists,
        not_and]
      intro j hj hmod
      obtain ⟨hne, hj⟩ := (hnodup.mem_erase_iff).mp hj
      apply hne
      exact eq_of_mod_eq (hwin j hj).1 (hwin j hj).2 (hwin i hi).1 (hwin i hi).2 hmod
    · rename_i hne
      rw [h.flag s hs]
      constructor
      · rintro ⟨j, hj, hmod⟩
        refine ⟨j, (hnodup.mem_erase_iff).mpr ⟨?_, hj⟩, hmod⟩
        rintro rfl
        exact hne hmod
      · rintro ⟨j, hj, hmod⟩
        exact ⟨j, List.mem_of_mem_erase hj, hmod⟩

end Marks

/-- The slots from `t` on contain `items`, in order. -/
structure Queued {α : Type*} (n : Nat) (cells : List (Option α)) (t : Nat) (items : List α) :
    Prop where
  pos : 0 < n
  length : cells.length = n
  fits : items.length ≤ n
  cell : ∀ k x, items[k]? = some x → cells[(t + k) % n]? = some (some x)

namespace Queued

variable {α : Type*} {n t : Nat} {cells : List (Option α)} {items : List α} {x : α}

theorem empty (h : 0 < n) (t : Nat) : Queued n (List.replicate n (none : Option α)) t [] where
  pos := h
  length := List.length_replicate
  fits := Nat.zero_le _
  cell := nofun

theorem mod (h : Queued n cells t items) : Queued n cells (t % n) items where
  pos := h.pos
  length := h.length
  fits := h.fits
  cell := by
    intro k x hk
    rw [Nat.mod_add_mod]
    exact h.cell k x hk

theorem push (h : Queued n cells t items) (hroom : items.length < n) (x : α) :
    Queued n (cells.set ((t + items.length) % n) (some x)) t (items ++ [x]) where
  pos := h.pos
  length := by rw [List.length_set, h.length]
  fits := by
    rw [List.length_append]
    exact hroom
  cell := by
    intro k y hk
    rcases Nat.lt_trichotomy k items.length with hlt | heq | hgt
    · rw [List.getElem?_append_left hlt] at hk
      have hne : (t + items.length) % n ≠ (t + k) % n := by
        intro hmod
        have := eq_of_mod_eq (t := t) (by omega) (by omega) (by omega) (by omega) hmod
        omega
      rw [List.getElem?_set_ne hne]
      exact h.cell k y hk
    · subst heq
      have hslot : (t + items.length) % n < cells.length := by
        rw [h.length]
        exact Nat.mod_lt _ h.pos
      rw [List.getElem?_concat_length] at hk
      cases hk
      exact List.getElem?_set_self hslot
    · rw [List.getElem?_eq_none (by simp; omega)] at hk
      cases hk

theorem front (h : Queued n cells t (x :: items)) : cells[t % n]? = some (some x) := h.cell 0 x rfl

theorem pop (h : Queued n cells t (x :: items)) :
    Queued n (cells.set (t % n) none) (t + 1) items where
  pos := h.pos
  length := by rw [List.length_set, h.length]
  fits := Nat.le_of_succ_le h.fits
  cell := by
    intro k y hk
    have hfits : items.length + 1 ≤ n := h.fits
    obtain ⟨hklt, -⟩ := List.getElem?_eq_some_iff.mp hk
    have hne : t % n ≠ (t + 1 + k) % n := by
      intro hmod
      have := eq_of_mod_eq (t := t) (by omega) (by omega) (by omega) (by omega) hmod
      omega
    rw [List.getElem?_set_ne hne, show t + 1 + k = t + (k + 1) by omega]
    exact h.cell (k + 1) y hk

end Queued

end NodeCpp.Lib
