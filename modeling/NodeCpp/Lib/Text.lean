import Mathlib.Algebra.Order.Ring.Nat
import Mathlib.Data.List.Basic
import Mathlib.Data.List.DropRight

/-!
# Searching in strings

The searches of a string class, over any alphabet: the first position from a given one
on whose element satisfies a predicate, the last such position, and the part of a string
at a position. A string that is put together from parts is searched part by part
(`findFirst_append`, `findLast_append`); and what a search has found cuts the string into parts
(`findFirst_eq_some`, `cut_eq_some_iff`).
-/

namespace NodeCpp.Lib.Text

universe u

variable {α : Type u} {p : α → Bool}

/-- The first position from `pos` on whose element satisfies `p`. -/
def findFirst (p : α → Bool) (s : List α) (pos : Nat) : Option Nat :=
  ((s.drop pos).findIdx? p).map (· + pos)

/-- The last position whose element satisfies `p`. -/
def findLast (p : α → Bool) (s : List α) : Option Nat :=
  (s.reverse.findIdx? p).map fun i => s.length - 1 - i

/-- At most `count` elements from `pos` on. -/
def substr (s : List α) (pos count : Nat) : List α := (s.drop pos).take count

theorem findIdx?_append_cons {l : List α} (hl : ∀ x ∈ l, p x = false) {a : α} (ha : p a = true)
    (r : List α) : (l ++ a :: r).findIdx? p = some l.length := by
  induction l with
  | nil => simp [List.findIdx?_cons, ha]
  | cons x l ih =>
    obtain ⟨hx, hl⟩ := List.forall_mem_cons.mp hl
    simp [List.findIdx?_cons, hx, ih hl]

theorem findFirst_of_drop_eq {s m r : List α} {a : α} {pos : Nat} (h : s.drop pos = m ++ a :: r)
    (hm : ∀ x ∈ m, p x = false) (ha : p a = true) : findFirst p s pos = some (pos + m.length) := by
  rw [findFirst, h, findIdx?_append_cons hm ha, Option.map_some, Nat.add_comm]

theorem findFirst_of_forall {s : List α} {pos : Nat} (h : ∀ x ∈ s.drop pos, p x = false) :
    findFirst p s pos = none := by
  rw [findFirst, List.findIdx?_eq_none_iff.mpr h, Option.map_none]

theorem findFirst_append {l m : List α} (hm : ∀ x ∈ m, p x = false) {a : α} (ha : p a = true)
    (r : List α) : findFirst p (l ++ m ++ a :: r) l.length = some (l.length + m.length) := by
  have hdrop : (l ++ m ++ a :: r).drop l.length = m ++ a :: r := by
    rw [List.append_assoc, List.drop_left]
  exact findFirst_of_drop_eq hdrop hm ha

theorem findLast_append {l : List α} {a : α} (ha : p a = true) {r : List α}
    (hr : ∀ x ∈ r, p x = false) : findLast p (l ++ a :: r) = some l.length := by
  have hrev : ∀ x ∈ r.reverse, p x = false := fun x hx => hr x (List.mem_reverse.mp hx)
  rw [findLast, List.reverse_append, List.reverse_cons, List.append_assoc, List.singleton_append,
    findIdx?_append_cons hrev ha, Option.map_some]
  simp only [List.length_append, List.length_cons, List.length_reverse, Option.some.injEq]
  omega

/-! What a search has found says how the string is put together. -/

theorem findIdx?_eq_some_append {l : List α} {i : Nat} (h : l.findIdx? p = some i) :
    ∃ m a r, l = m ++ a :: r ∧ (∀ x ∈ m, p x = false) ∧ p a = true ∧ i = m.length := by
  induction l generalizing i with
  | nil => cases h
  | cons x l ih =>
    rw [List.findIdx?_cons] at h
    cases hx : p x with
    | true =>
      rw [hx, if_pos rfl] at h
      cases h
      exact ⟨[], x, l, rfl, nofun, hx, rfl⟩
    | false =>
      rw [hx, if_neg Bool.false_ne_true] at h
      obtain ⟨j, hj, rfl⟩ := Option.map_eq_some_iff.mp h
      obtain ⟨m, a, r, rfl, hm, ha, rfl⟩ := ih hj
      exact ⟨x :: m, a, r, rfl, List.forall_mem_cons.mpr ⟨hx, hm⟩, ha, rfl⟩

theorem findFirst_eq_some {s : List α} {pos i : Nat} (h : findFirst p s pos = some i) :
    ∃ m a r, s.drop pos = m ++ a :: r ∧ (∀ x ∈ m, p x = false) ∧ p a = true ∧
      i = pos + m.length := by
  obtain ⟨j, hj, rfl⟩ := Option.map_eq_some_iff.mp h
  obtain ⟨m, a, r, hs, hm, ha, rfl⟩ := findIdx?_eq_some_append hj
  exact ⟨m, a, r, hs, hm, ha, Nat.add_comm ..⟩

theorem findFirst_lt {s : List α} {pos i : Nat}
    (h : findFirst p s pos = some i) : pos ≤ i ∧ i < s.length := by
  obtain ⟨m, a, r, hs, -, -, rfl⟩ := findFirst_eq_some h
  have hlen := congrArg List.length hs
  simp only [List.length_drop, List.length_append, List.length_cons] at hlen
  omega

theorem findFirst_eq_none {s : List α} {pos : Nat} (h : findFirst p s pos = none) :
    ∀ x ∈ s.drop pos, p x = false := by
  rw [findFirst, Option.map_eq_none_iff, List.findIdx?_eq_none_iff] at h
  exact h

theorem findLast_eq_none {s : List α} (h : findLast p s = none) : ∀ x ∈ s, p x = false := by
  rw [findLast, Option.map_eq_none_iff, List.findIdx?_eq_none_iff] at h
  exact fun x hx => h x (List.mem_reverse.mpr hx)

theorem exists_span (p : α → Bool) (s : List α) :
    ∃ l r, s = l ++ r ∧ (∀ x ∈ l, p x = true) ∧ (r = [] ∨ ∃ a r', r = a :: r' ∧ p a = false) := by
  refine ⟨s.takeWhile p, s.dropWhile p, (List.takeWhile_append_dropWhile ..).symm,
    fun x hx => List.mem_takeWhile_imp hx, ?_⟩
  have hhead := List.head?_dropWhile_not p s
  cases hrest : s.dropWhile p with
  | nil => exact .inl rfl
  | cons a r =>
    rw [hrest] at hhead
    exact .inr ⟨a, r, rfl, hhead⟩

theorem getLast?_rdropWhile {s : List α} : ∀ x ∈ (s.rdropWhile p).getLast?, p x = false := by
  intro x hx
  have hne : s.rdropWhile p ≠ [] := by
    intro hnil
    rw [hnil] at hx
    cases hx
  have hlast := List.rdropWhile_last_not p s hne
  rw [Option.mem_def, List.getLast?_eq_some_getLast hne] at hx
  rw [← Option.some.inj hx]
  exact Bool.not_eq_true _ ▸ hlast

/-- What stands before the first separator, and what stands behind it. -/
def cut [DecidableEq α] (sep : α) : List α → Option (List α × List α)
  | [] => none
  | a :: s => if a = sep then some ([], s) else (cut sep s).map fun (l, r) => (a :: l, r)

theorem cut_eq_some_iff [DecidableEq α] {sep : α} {s l r : List α} :
    cut sep s = some (l, r) ↔ sep ∉ l ∧ s = l ++ sep :: r := by
  induction s generalizing l with
  | nil => simp [cut]
  | cons a s ih =>
    rw [cut]
    by_cases ha : a = sep
    · rw [if_pos ha]
      constructor
      · rintro ⟨⟩
        exact ⟨List.not_mem_nil, by rw [ha]; rfl⟩
      · rintro ⟨hnot, heq⟩
        cases l with
        | nil =>
          cases heq
          rfl
        | cons b l =>
          cases heq
          exact absurd (List.mem_cons.mpr (.inl ha.symm)) hnot
    · rw [if_neg ha]
      constructor
      · intro h
        obtain ⟨⟨l', r'⟩, hcut, heq⟩ := Option.map_eq_some_iff.mp h
        cases heq
        obtain ⟨hnot, rfl⟩ := ih.mp hcut
        refine ⟨fun hmem => ?_, rfl⟩
        exact (List.mem_cons.mp hmem).elim (fun h => ha h.symm) hnot
      · rintro ⟨hnot, heq⟩
        cases l with
        | nil =>
          cases heq
          exact absurd rfl ha
        | cons b l =>
          cases heq
          have hcut := ih.mpr ⟨fun hmem => hnot (List.mem_cons_of_mem _ hmem), rfl⟩
          rw [hcut]
          rfl

theorem not_sep_of_mem_splitOnP {s part : List α} (h : part ∈ s.splitOnP p) :
    ∀ x ∈ part, p x = false := by
  induction s generalizing part with
  | nil =>
    rw [List.splitOnP_nil, List.mem_singleton] at h
    rw [h]
    nofun
  | cons a s ih =>
    rw [List.splitOnP_cons_eq_if_modifyHead] at h
    split at h
    · rcases List.mem_cons.mp h with rfl | h
      · nofun
      · exact ih h
    · rename_i ha
      obtain ⟨first, rest, hs⟩ := List.exists_cons_of_ne_nil (List.splitOnP_ne_nil p s)
      rw [hs] at h ih
      rcases List.mem_cons.mp h with rfl | h
      · have hfirst := ih (List.mem_cons_self ..)
        exact List.forall_mem_cons.mpr ⟨Bool.not_eq_true _ ▸ ha, hfirst⟩
      · exact ih (List.mem_cons_of_mem _ h)

theorem drop_of_drop_eq {s m r : List α} {pos : Nat} (h : s.drop pos = m ++ r) :
    s.drop (pos + m.length) = r := by
  rw [← List.drop_drop, h, List.drop_left]

theorem drop_succ_of_drop_eq {s m r : List α} {a : α} {pos : Nat} (h : s.drop pos = m ++ a :: r) :
    s.drop (pos + m.length + 1) = r := by
  rw [← List.drop_drop, drop_of_drop_eq h]
  rfl

theorem substr_of_drop_eq {s m r : List α} {pos : Nat} (h : s.drop pos = m ++ r) :
    substr s pos m.length = m := by
  rw [substr, h, List.take_left]

theorem substr_append (l m r : List α) : substr (l ++ m ++ r) l.length m.length = m := by
  rw [substr, List.append_assoc, List.drop_left, List.take_left]

end NodeCpp.Lib.Text
