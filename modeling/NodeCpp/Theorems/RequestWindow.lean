import Mathlib.Data.List.Nodup
import NodeCpp.Http.Queue
import NodeCpp.Lib.Machine
import NodeCpp.Lib.Ring

/-!
# The window of requests in progress

`RRQueue` of any size under `getHead`, when there is room, and `release`, in any order, of the
indices in use. The indices in use lie between `tail` and `head`, which are at most the capacity
apart; `tail` is one of them unless there are none, and the flags of the slots say which they are.
All this ends with the `getHead` that makes `head` wrap around.

* `skip_spec` -- where the loop in `release` stops.
* `RRWindow.Inv.step` -- what a call keeps.
* `request_window` -- the window after every run with fewer than `2 ^ 64` calls of `getHead`.
* `window_wraps_around` -- one slot and `2 ^ 64` calls.
-/

namespace NodeCpp

open Lib

namespace RRQueue

variable {sizeExp : Nat} {q : RRQueue sizeExp}

theorem isActive_iff (q : RRQueue sizeExp) (idx : Nat) :
    q.isActive idx = true ↔ q.active[idx % 2 ^ sizeExp]? = some true := by
  rw [isActive, idxToStorageIdx]
  cases q.active[idx % 2 ^ sizeExp]? <;> simp

/-- The loop moves `tail` at least once and stops at `head` or at the next slot that is active;
the slots it has passed are not. -/
theorem skip_spec (q : RRQueue sizeExp) {n tail : Nat} (hbound : q.head < 2 ^ 64)
    (hlt : tail < q.head) (hfuel : q.head ≤ tail + n) :
    tail < q.skip n tail ∧ q.skip n tail ≤ q.head ∧
      (∀ j, tail < j → j < q.skip n tail → q.isActive j = false) ∧
      (q.skip n tail < q.head → q.isActive (q.skip n tail) = true) := by
  induction n generalizing tail with
  | zero => omega
  | succ n ih =>
    rw [skip, RRQueue.inc_of_lt (by omega)]
    split
    · rename_i hnext
      obtain ⟨hpast, hle, hidle, hstop⟩ := ih hnext.1 (by omega)
      refine ⟨by omega, hle, ?_, hstop⟩
      intro j hj hj'
      rcases Nat.lt_or_ge (tail + 1) j with hlt' | hge
      · exact hidle j hlt' hj'
      · rw [show j = tail + 1 by omega]
        exact hnext.2
    · rename_i hnext
      refine ⟨Nat.lt_succ_self tail, hlt, ?_, ?_⟩
      · intro j hj hj'
        omega
      · intro hlt'
        simpa [hlt'] using hnext

end RRQueue

/-- The queue, and the indices that have been got and not been released. -/
structure RRWindow (sizeExp : Nat) where
  queue : RRQueue sizeExp := {}
  taken : List Nat := []
  deriving DecidableEq, Repr

inductive WindowAct
  | getHead
  | release (idx : Nat)
  deriving DecidableEq, Repr

namespace RRWindow

variable {sizeExp : Nat} {w w' : RRWindow sizeExp}

def getHead (w : RRWindow sizeExp) : Option (RRWindow sizeExp) :=
  match w.queue.getHead with
  | .error _ => none
  | .ok (queue, idx) => some { queue := queue, taken := idx :: w.taken }

def release (w : RRWindow sizeExp) (idx : Nat) : Option (RRWindow sizeExp) :=
  match w.queue.release idx with
  | .error _ => none
  | .ok (queue, _) => some { queue := queue, taken := w.taken.erase idx }

end RRWindow

/-- `getHead` is called only when there is room, and `release` only for indices in use. -/
def requestWindow (sizeExp : Nat) : Machine (RRWindow sizeExp) WindowAct where
  step w
    | .getHead => if w.queue.canPush then w.getHead else none
    | .release idx => if idx ∈ w.taken then w.release idx else none

structure RRWindow.Sound {sizeExp : Nat} (w : RRWindow sizeExp) : Prop where
  tail_le : w.queue.tail ≤ w.queue.head
  head_le : w.queue.head ≤ w.queue.tail + 2 ^ sizeExp
  within : ∀ i ∈ w.taken, w.queue.tail ≤ i ∧ i < w.queue.head
  flags : Marks (2 ^ sizeExp) w.queue.active w.taken
  tail_active : w.queue.tail < w.queue.head → w.queue.tail ∈ w.taken
  /-- The slot `getHead` returns is not active. -/
  slot_free : w.queue.canPush = true → w.queue.isActive w.queue.head = false
  /-- There is no room if as many indices as there are slots lie between the oldest one in use
  and `head`. -/
  canPush_iff : w.queue.canPush = false ↔
    ∃ oldest ∈ w.taken, (∀ i ∈ w.taken, oldest ≤ i) ∧ oldest + 2 ^ sizeExp = w.queue.head
  /-- No assertion fails. -/
  getHead_ok : w.queue.canPush = true → w.getHead.isSome
  release_ok : ∀ i ∈ w.taken, (w.release i).isSome

namespace RRWindow

variable {sizeExp : Nat} {w w' : RRWindow sizeExp}

structure Inv (w : RRWindow sizeExp) : Prop where
  tail_le : w.queue.tail ≤ w.queue.head
  head_le : w.queue.head ≤ w.queue.tail + 2 ^ sizeExp
  within : ∀ i ∈ w.taken, w.queue.tail ≤ i ∧ i < w.queue.head
  nodup : w.taken.Nodup
  flags : Marks (2 ^ sizeExp) w.queue.active w.taken
  tail_active : w.queue.tail < w.queue.head → w.queue.tail ∈ w.taken
  bound : w.queue.head < 2 ^ 64

namespace Inv

theorem initial : Inv ({} : RRWindow sizeExp) where
  tail_le := Nat.le_refl _
  head_le := Nat.zero_le _
  within := nofun
  nodup := List.nodup_nil
  flags := Marks.empty (Nat.two_pow_pos sizeExp)
  tail_active := fun h => absurd h (Nat.lt_irrefl _)
  bound := Nat.two_pow_pos 64

theorem window (h : w.Inv) : ∀ i ∈ w.taken, w.queue.tail ≤ i ∧ i < w.queue.tail + 2 ^ sizeExp := by
  intro i hi
  have := h.within i hi
  have := h.head_le
  omega

theorem isActive_iff (h : w.Inv) {i : Nat} (hi : w.queue.tail ≤ i)
    (hi' : i < w.queue.tail + 2 ^ sizeExp) : w.queue.isActive i = true ↔ i ∈ w.taken := by
  rw [RRQueue.isActive_iff]
  exact h.flags.held_iff h.window hi hi'

theorem canPush_iff (h : w.Inv) (hexp : sizeExp < 64) :
    w.queue.canPush = true ↔ w.queue.head < w.queue.tail + 2 ^ sizeExp :=
  RRQueue.canPush_iff hexp h.tail_le h.bound

theorem slot_free (h : w.Inv) (hexp : sizeExp < 64) (hpush : w.queue.canPush = true) :
    w.queue.isActive w.queue.head = false := by
  have hroom := (h.canPush_iff hexp).mp hpush
  rw [Bool.eq_false_iff]
  intro hactive
  have hmem := (h.isActive_iff h.tail_le hroom).mp hactive
  exact Nat.lt_irrefl _ (h.within _ hmem).2

theorem getHead_eq (hpush : w.queue.canPush = true) :
    w.getHead = some
      { queue := { w.queue with
          active := w.queue.active.set (RRQueue.idxToStorageIdx sizeExp w.queue.head) true
          head := RRQueue.inc w.queue.head }
        taken := w.queue.head :: w.taken } := by
  rw [RRWindow.getHead, RRQueue.getHead, hpush]
  rfl

theorem getHead (h : w.Inv) (hexp : sizeExp < 64) (hpush : w.queue.canPush = true)
    (hlt : w.queue.head + 1 < 2 ^ 64) :
    ∃ w', w.getHead = some w' ∧ w'.Inv ∧ w'.queue.head = w.queue.head + 1 := by
  have hroom := (h.canPush_iff hexp).mp hpush
  have hle := h.tail_le
  refine ⟨_, getHead_eq hpush, ?_, RRQueue.inc_of_lt hlt⟩
  rw [RRQueue.inc_of_lt hlt]
  refine ⟨Nat.le_succ_of_le h.tail_le, hroom, ?_, ?_, h.flags.take w.queue.head, ?_, hlt⟩
  · intro i hi
    show w.queue.tail ≤ i ∧ i < w.queue.head + 1
    rcases List.mem_cons.mp hi with rfl | hi
    · omega
    · have := h.within i hi
      omega
  · apply List.nodup_cons.mpr ⟨?_, h.nodup⟩
    intro hmem
    exact Nat.lt_irrefl _ (h.within _ hmem).2
  · intro _
    show w.queue.tail ∈ w.queue.head :: w.taken
    rcases Nat.lt_or_ge w.queue.tail w.queue.head with hlt | hge
    · exact List.mem_cons_of_mem _ (h.tail_active hlt)
    · rw [Nat.le_antisymm hle hge]
      exact List.mem_cons_self

/-- The queue when the flag of an index in use has been cleared. -/
def cleared (w : RRWindow sizeExp) (i : Nat) : RRQueue sizeExp :=
  { w.queue with active := w.queue.active.set (RRQueue.idxToStorageIdx sizeExp i) false }

/-- Releasing an index moves `tail` only if it is the oldest one. -/
theorem release_eq (h : w.Inv) {i : Nat} (hi : i ∈ w.taken) :
    w.release i = some
      { queue := if i = w.queue.tail then
          { cleared w i with
            tail := (cleared w i).skip (w.queue.head - w.queue.tail) w.queue.tail }
        else cleared w i
        taken := w.taken.erase i } := by
  have hin := h.within i hi
  have hassert : ¬(i < w.queue.tail ∨ w.queue.head ≤ i) := by omega
  rw [RRWindow.release, RRQueue.release, if_neg hassert]
  rfl

/-- The oldest index is released and `tail` moves over the slots released before. -/
theorem moveTail (h : w.Inv) (hlt : w.queue.tail < w.queue.head) {t : Nat}
    (hpast : w.queue.tail < t) (hle : t ≤ w.queue.head)
    (hidle : ∀ j, w.queue.tail < j → j < t → (cleared w w.queue.tail).isActive j = false)
    (hstop : t < w.queue.head → (cleared w w.queue.tail).isActive t = true) :
    RRWindow.Inv (⟨{ cleared w w.queue.tail with tail := t }, w.taken.erase w.queue.tail⟩ :
      RRWindow sizeExp) := by
  have hflags := h.flags.drop h.window h.nodup (h.tail_active hlt)
  have hhead := h.head_le
  have hactive : ∀ j, w.queue.tail ≤ j → j < w.queue.head →
      ((cleared w w.queue.tail).isActive j = true ↔ j ∈ w.taken.erase w.queue.tail) := by
    intro j hj hj'
    rw [RRQueue.isActive_iff]
    refine hflags.held_iff (t := w.queue.tail) ?_ hj (by omega)
    intro k hk
    exact h.window k (List.mem_of_mem_erase hk)
  refine ⟨hle, ?_, ?_, h.nodup.erase _, hflags, ?_, h.bound⟩
  · show w.queue.head ≤ t + 2 ^ sizeExp
    omega
  · intro j hj
    show t ≤ j ∧ j < w.queue.head
    obtain ⟨hne, hmem⟩ := h.nodup.mem_erase_iff.mp hj
    have hin := h.within j hmem
    refine ⟨?_, hin.2⟩
    by_contra hbefore
    have hoff := hidle j (by omega) (by omega)
    have hon := (hactive j hin.1 hin.2).mpr hj
    rw [hoff] at hon
    cases hon
  · intro hlt'
    exact (hactive t (by omega) hlt').mp (hstop hlt')

theorem release (h : w.Inv) {i : Nat} (hi : i ∈ w.taken) :
    ∃ w', w.release i = some w' ∧ w'.Inv ∧ w'.queue.head = w.queue.head := by
  have hin := h.within i hi
  refine ⟨_, h.release_eq hi, ?_⟩
  by_cases htail : i = w.queue.tail
  · subst htail
    rw [if_pos rfl]
    refine ⟨?_, rfl⟩
    have hfuel : w.queue.head ≤ w.queue.tail + (w.queue.head - w.queue.tail) := by omega
    obtain ⟨hpast, hle, hidle, hstop⟩ := (cleared w w.queue.tail).skip_spec h.bound hin.2 hfuel
    exact h.moveTail hin.2 hpast hle hidle hstop
  · rw [if_neg htail]
    refine ⟨⟨h.tail_le, h.head_le, ?_, h.nodup.erase _, h.flags.drop h.window h.nodup hi, ?_,
      h.bound⟩, rfl⟩
    · intro j hj
      exact h.within j (List.mem_of_mem_erase hj)
    · intro hlt
      exact h.nodup.mem_erase_iff.mpr ⟨fun heq => htail heq.symm, h.tail_active hlt⟩

/-- The step lemma; `getHead` needs a value of the counter that has not been used. -/
theorem step (h : w.Inv) (hexp : sizeExp < 64) {a : WindowAct}
    (hlt : w.queue.head + [a].count .getHead < 2 ^ 64)
    (hs : (requestWindow sizeExp).step w a = some w') :
    w'.Inv ∧ w'.queue.head = w.queue.head + [a].count .getHead := by
  cases a with
  | getHead =>
    obtain ⟨hpush, hs⟩ := Option.ite_none_right_eq_some.mp hs
    obtain ⟨w₁, hw₁, hinv⟩ := h.getHead hexp hpush hlt
    cases hs.symm.trans hw₁
    exact hinv
  | release idx =>
    obtain ⟨hmem, hs⟩ := Option.ite_none_right_eq_some.mp hs
    obtain ⟨w₁, hw₁, hinv⟩ := h.release hmem
    cases hs.symm.trans hw₁
    exact hinv

/-- The run lemma. -/
theorem run (h : w.Inv) (hexp : sizeExp < 64) {as : List WindowAct}
    (hcount : w.queue.head + as.count .getHead < 2 ^ 64)
    (hrun : (requestWindow sizeExp).run w as = some w') : w'.Inv := by
  induction as generalizing w with
  | nil =>
    cases hrun
    exact h
  | cons a as ih =>
    obtain ⟨w₁, hs, hrest⟩ := (requestWindow sizeExp).run_cons hrun
    have hsplit : (a :: as).count .getHead = [a].count .getHead + as.count .getHead := by
      rw [← List.count_append, List.singleton_append]
    -- what the step takes of the bound is what `head` has moved
    obtain ⟨h₁, hhead⟩ := h.step hexp (by omega) hs
    exact ih h₁ (by omega) hrest

theorem full_iff (h : w.Inv) (hexp : sizeExp < 64) : w.queue.canPush = false ↔
    ∃ oldest ∈ w.taken, (∀ i ∈ w.taken, oldest ≤ i) ∧ oldest + 2 ^ sizeExp = w.queue.head := by
  have hpos : 0 < 2 ^ sizeExp := Nat.two_pow_pos sizeExp
  have hhead := h.head_le
  have hpush := h.canPush_iff hexp
  constructor
  · intro hfull
    rw [hfull] at hpush
    have hroom : ¬w.queue.head < w.queue.tail + 2 ^ sizeExp := by simpa using hpush
    refine ⟨w.queue.tail, h.tail_active (by omega), ?_, by omega⟩
    intro i hi
    exact (h.within i hi).1
  · rintro ⟨oldest, hmem, hleast, heq⟩
    have hin := h.within oldest hmem
    have htail := hleast _ (h.tail_active (by omega))
    rw [Bool.eq_false_iff]
    intro hcan
    have := hpush.mp hcan
    omega

end Inv

end RRWindow

/-- The window after every run of `getHead`, when there is room, and `release`, of the indices in
use, for every size of the queue that its `uint64_t` capacity can have, as long as `getHead` has
been called fewer than `2 ^ 64` times. -/
theorem request_window (sizeExp : Nat) (hexp : sizeExp < 64) (as : List WindowAct)
    (hcount : as.count .getHead < 2 ^ 64) (w : RRWindow sizeExp)
    (hrun : (requestWindow sizeExp).run {} as = some w) : w.Sound := by
  have h : w.Inv := RRWindow.Inv.initial.run hexp (by rwa [Nat.zero_add]) hrun
  refine ⟨h.tail_le, h.head_le, h.within, h.flags, h.tail_active, h.slot_free hexp,
    h.full_iff hexp, ?_, ?_⟩
  · intro hpush
    rw [RRWindow.Inv.getHead_eq hpush]
    rfl
  · intro i hi
    obtain ⟨w', hw, -⟩ := h.release hi
    simp [hw]

/-- Four slots: the second request is released before the first one, and `tail` moves over both;
a request then gets the slot of the first one. -/
theorem request_window_reused :
    ∃ w : RRWindow 2, (requestWindow 2).run {}
        [.getHead, .getHead, .getHead, .getHead, .release 1, .release 0, .getHead] = some w ∧
      w.queue.tail = 2 ∧ w.queue.head = 5 ∧ w.Sound := by
  obtain ⟨w, hrun, htail, hhead⟩ : ∃ w : RRWindow 2, (requestWindow 2).run {}
      [.getHead, .getHead, .getHead, .getHead, .release 1, .release 0, .getHead] = some w ∧
        w.queue.tail = 2 ∧ w.queue.head = 5 := by decide +kernel
  exact ⟨w, hrun, htail, hhead, request_window 2 (by decide) _ (by decide) w hrun⟩

/-- One request after the other, each released before the next one is taken. -/
def oneByOne (n : Nat) : List WindowAct :=
  (List.range n).flatMap fun i => [.getHead, .release i]

theorem run_oneByOne {n : Nat} (hn : n < 2 ^ 64) :
    ∃ w : RRWindow 0, (requestWindow 0).run {} (oneByOne n) = some w ∧ w.queue.Free ∧
      w.queue.head = n ∧ w.taken = [] := by
  induction n with
  | zero => exact ⟨{}, rfl, ⟨rfl, by decide⟩, rfl, rfl⟩
  | succ n ih =>
    obtain ⟨w, hrun, hfree, hhead, htaken⟩ := ih (by omega)
    obtain ⟨q₁, hget, hbusy, htail⟩ := hfree.getHead (hhead ▸ hn)
    obtain ⟨q₂, hrelease, hfree₂, hhead₂⟩ := hbusy.release
    refine ⟨⟨q₂, []⟩, ?_, hfree₂, ?_, rfl⟩
    · rw [oneByOne, List.range_succ, List.flatMap_append, Machine.run_append, ← oneByOne, hrun]
      rw [htail, hhead] at hrelease
      have hpush := hfree.canPush
      simp [Machine.run, requestWindow, RRWindow.getHead, RRWindow.release, hpush, hget, hhead,
        hrelease, htaken]
    · show q₂.head = n + 1
      rw [hhead₂, hbusy.1, htail, hhead]

/-- The `2 ^ 64`-th request makes `head` wrap around: it is in use, `tail` is its index and `head`
is 0, and releasing it fails an assertion. -/
theorem window_wraps_around :
    ∃ w : RRWindow 0, (requestWindow 0).run {} (oneByOne (2 ^ 64 - 1) ++ [.getHead]) = some w ∧
      w.taken = [2 ^ 64 - 1] ∧ w.queue.tail = 2 ^ 64 - 1 ∧ w.queue.head = 0 ∧
      w.release (2 ^ 64 - 1) = none ∧ ¬w.Sound := by
  obtain ⟨w, hrun, hfree, hhead, htaken⟩ := run_oneByOne (n := 2 ^ 64 - 1) (by decide)
  have htail : w.queue.tail = 2 ^ 64 - 1 := hfree.1.symm.trans hhead
  have hwraps : RRQueue.inc w.queue.head = 0 := by rw [hhead]; rfl
  have hget := RRWindow.Inv.getHead_eq hfree.canPush
  rw [hwraps, htaken, hhead] at hget
  have hstep : (requestWindow 0).step w .getHead = w.getHead := if_pos hfree.canPush
  refine ⟨⟨{ w.queue with
      active := w.queue.active.set (RRQueue.idxToStorageIdx 0 (2 ^ 64 - 1)) true
      head := 0 }, [2 ^ 64 - 1]⟩, ?_, rfl, htail, rfl, ?_, ?_⟩
  · rw [Machine.run_append, hrun, Option.bind_some, Machine.run_singleton, hstep, hget]
  · rw [RRWindow.release, RRQueue.release, if_pos (.inr (Nat.zero_le _))]
  · intro hsound
    have hle : w.queue.tail ≤ 0 := hsound.tail_le
    rw [htail] at hle
    exact absurd hle (by decide)

end NodeCpp
