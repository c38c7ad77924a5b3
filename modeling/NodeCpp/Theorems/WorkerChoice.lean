import Mathlib.Algebra.BigOperators.Ring.List
import Mathlib.Algebra.Order.BigOperators.Group.List
import Mathlib.Algebra.Order.Ring.Nat
import NodeCpp.Cluster.WorkerLoad

/-!
# The worker that a connection goes to

A worker should get a connection only if its load is not far above the average. In `comparisonBase`
the division by the number of workers applies to the second summand alone, so no load is ever too
high: the connections go round.

* `WorkerLoad.Counted.exists_withinBound` -- there is always a worker below the bound.
* `WorkerLoad.Counted.getCandidateAndIncrementLoad_eq` -- the next worker is chosen, whatever its load.
* `WorkerLoad.balances_iff` -- when that is the choice that was meant.
-/

namespace NodeCpp

namespace WorkerLoad

variable {l : WorkerLoad}

def loads (l : WorkerLoad) : List Nat := (l.workers.take l.usedSlotCnt).map fun w => w.load.toNat

/-- There are workers, and the total is the sum of their loads. -/
structure Counted (l : WorkerLoad) : Prop where
  used : 0 < l.usedSlotCnt
  fits : l.usedSlotCnt ≤ l.workers.length
  size : l.workers.length = maxThreads
  current : l.current < l.usedSlotCnt
  total : l.totalLoadCtr.toNat = l.loads.sum
  small : l.loads.sum < 2 ^ 31

/-- The base that was meant: both summands are divided. -/
def loadBound (l : WorkerLoad) : Nat :=
  (l.loads.sum <<< 32 + l.loads.sum <<< 28) / l.usedSlotCnt + 1

def withinBound (l : WorkerLoad) (i : Nat) : Bool := (l.loads[i]?).any (· <<< 32 < l.loadBound)

/-- The worker behind the one chosen last. -/
def next (l : WorkerLoad) : Nat := (l.current + 1) % l.usedSlotCnt

/-- There are workers below the bound, and the first of them gets the connection, in the order of the
search. -/
def Balances (l : WorkerLoad) : Prop :=
  (∃ i < l.usedSlotCnt, l.withinBound i = true) ∧
  ∃ i w, l.candidates.find? l.withinBound = some i ∧ l.workers[i]? = some w ∧
    l.getCandidateAndIncrementLoad = .ok (w.id, l.incrementLoad i)

namespace Counted

theorem length_loads (h : l.Counted) : l.loads.length = l.usedSlotCnt := by
  rw [loads, List.length_map, List.length_take, Nat.min_eq_left h.fits]

/-- Not all of the loads are above the average. -/
theorem exists_withinBound (h : l.Counted) : ∃ i < l.usedSlotCnt, l.withinBound i = true := by
  have hne : l.loads ≠ [] := List.ne_nil_of_length_pos (h.length_loads ▸ h.used)
  have hsum : (l.loads.map fun x => l.usedSlotCnt * x).sum = l.usedSlotCnt * l.loads.sum := by
    simpa using List.sum_map_mul_left l.loads id l.usedSlotCnt
  obtain ⟨x, hx, hle⟩ := List.exists_le_of_sum_le hne (fun x => l.usedSlotCnt * x)
    (fun _ => l.loads.sum) (by simp [hsum, h.length_loads])
  obtain ⟨i, hi, rfl⟩ := List.mem_iff_getElem.mp hx
  refine ⟨i, h.length_loads ▸ hi, ?_⟩
  have hbound : l.loads[i] <<< 32 ≤
      (l.loads.sum <<< 32 + l.loads.sum <<< 28) / l.usedSlotCnt := by
    rw [Nat.le_div_iff_mul_le h.used, Nat.shiftLeft_eq, Nat.shiftLeft_eq]
    calc l.loads[i] * 2 ^ 32 * l.usedSlotCnt
      _ = l.usedSlotCnt * l.loads[i] * 2 ^ 32 := by ac_rfl
      _ ≤ l.loads.sum * 2 ^ 32 := Nat.mul_le_mul_right _ hle
      _ ≤ _ := Nat.le_add_right ..
  simp only [withinBound, List.getElem?_eq_getElem hi, Option.any_some, decide_eq_true_eq]
  exact Nat.lt_succ_of_le hbound

theorem comparisonBase_toNat (h : l.Counted) :
    l.comparisonBase.toNat =
      l.loads.sum * 2 ^ 32 + l.loads.sum * 2 ^ 28 / l.usedSlotCnt + 1 := by
  have hsmall := h.small
  have hused : (UInt64.ofNat l.usedSlotCnt).toNat = l.usedSlotCnt := by
    refine Nat.mod_eq_of_lt ?_
    have := h.fits
    have := h.size
    simp only [maxThreads] at this
    omega
  have hsecond : l.loads.sum * 2 ^ 28 % 2 ^ 64 = l.loads.sum * 2 ^ 28 :=
    Nat.mod_eq_of_lt (by omega)
  have hdiv := Nat.div_le_self (l.loads.sum * 2 ^ 28) l.usedSlotCnt
  simp only [comparisonBase, UInt64.toNat_add, UInt64.toNat_div, UInt64.toNat_shiftLeft, h.total,
    hused, Nat.shiftLeft_eq, UInt64.reduceToNat, Nat.reduceMod, hsecond]
  generalize l.loads.sum * 2 ^ 28 / l.usedSlotCnt = second at hdiv ⊢
  omega

theorem isCandidate {i : Nat} (h : l.Counted) (hi : i < l.usedSlotCnt) :
    l.isCandidate i = true := by
  have hlt := Nat.lt_of_lt_of_le hi h.fits
  have hsmall := h.small
  have hload : l.workers[i].load.toNat ≤ l.loads.sum := by
    refine List.le_sum_of_mem (List.mem_map.mpr ⟨l.workers[i], ?_, rfl⟩)
    exact List.mem_take_iff_getElem.mpr ⟨i, by omega, rfl⟩
  have hshift : (l.workers[i].load <<< (32 : UInt64)).toNat = l.workers[i].load.toNat * 2 ^ 32 := by
    rw [UInt64.toNat_shiftLeft, Nat.shiftLeft_eq]
    refine Nat.mod_eq_of_lt ?_
    show _ * 2 ^ 32 < _
    omega
  rw [WorkerLoad.isCandidate, List.getElem?_eq_getElem hlt]
  refine decide_eq_true (UInt64.lt_iff_toNat_lt.mpr ?_)
  rw [hshift, h.comparisonBase_toNat]
  generalize l.loads.sum * 2 ^ 28 / l.usedSlotCnt = second
  omega

theorem candidates_head? (h : l.Counted) : l.candidates.head? = some l.next := by
  have hcurrent := h.current
  rw [candidates, List.head?_append, List.head?_drop, next]
  rcases Nat.lt_or_ge (l.current + 1) l.usedSlotCnt with hlt | hge
  · rw [List.getElem?_range hlt, Nat.mod_eq_of_lt hlt]
    rfl
  · have hlast : l.usedSlotCnt = l.current + 1 := by omega
    rw [hlast, Nat.mod_self, List.getElem?_eq_none (by simp), List.range_succ_eq_map]
    rfl

theorem getCandidateAndIncrementLoad_eq (h : l.Counted) :
    ∃ w, l.workers[l.next]? = some w ∧
      l.getCandidateAndIncrementLoad = .ok (w.id, l.incrementLoad l.next) := by
  have hnext : l.next < l.usedSlotCnt := Nat.mod_lt _ h.used
  obtain ⟨rest, hcons⟩ := List.head?_eq_some_iff.mp h.candidates_head?
  obtain ⟨w, hget⟩ : ∃ w, l.workers[l.next]? = some w :=
    ⟨_, List.getElem?_eq_getElem (Nat.lt_of_lt_of_le hnext h.fits)⟩
  refine ⟨w, hget, ?_⟩
  rw [getCandidateAndIncrementLoad, if_neg (Nat.ne_of_gt h.used), hcons,
    List.find?_cons_of_pos (h.isCandidate hnext)]
  simp only [hget]

end Counted

/-- The choice is the one that was meant if the next worker is below the bound. -/
theorem balances_iff (h : l.Counted) : l.Balances ↔ l.withinBound l.next = true := by
  obtain ⟨w, hget, hchoice⟩ := h.getCandidateAndIncrementLoad_eq
  obtain ⟨rest, hcons⟩ := List.head?_eq_some_iff.mp h.candidates_head?
  constructor
  · rintro ⟨-, i, w', hfind, -, hchoice'⟩
    -- the worker that was meant is the one whose load has been counted up
    have hi : i = l.next := by
      have := congrArg (fun r => r.toOption.map fun r => r.2.current) (hchoice'.symm.trans hchoice)
      exact Option.some.inj this
    exact hi ▸ List.find?_some hfind
  · intro hnext
    refine ⟨h.exists_withinBound, l.next, w, ?_, hget, hchoice⟩
    rw [hcons, List.find?_cons_of_pos hnext]

/-- Two workers with the loads given. -/
def twoLoads (x y : UInt64) (current : Nat) : WorkerLoad where
  workers := ⟨x, ⟨1, 1⟩⟩ :: ⟨y, ⟨2, 1⟩⟩ :: List.replicate 126 {}
  usedSlotCnt := 2
  totalLoadCtr := x + y
  current := current

theorem twoLoads_balances : (twoLoads 3 3 0).Balances :=
  (balances_iff (by constructor <;> decide +kernel)).mpr (by decide +kernel)

/-- The second of two workers has all the load, and gets the next connection too. -/
theorem twoLoads_not_balances :
    (twoLoads 0 9 0).withinBound 1 = false ∧
      (twoLoads 0 9 0).getCandidateAndIncrementLoad =
        .ok (⟨2, 1⟩, (twoLoads 0 9 0).incrementLoad 1) := by
  decide +kernel

end WorkerLoad

end NodeCpp
