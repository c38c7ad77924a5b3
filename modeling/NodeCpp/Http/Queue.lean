import NodeCpp.Net.Os

/-!
# RRQueue

The window of requests in progress: `head` counts those that have been taken, `tail` is
the oldest one that has not been released, and the slot of an index is its remainder modulo
the capacity `2 ^ sizeExp`. Both counters are `uint64_t`, and so are the indices taken from them.
Sockets use `RRQueue<0>`, with a single slot.
-/

namespace NodeCpp

structure RRQueue (sizeExp : Nat) where
  head : Nat := 0
  tail : Nat := 0
  /-- The flag `active` of every slot. -/
  active : List Bool := List.replicate (2 ^ sizeExp) false
  deriving DecidableEq, Repr

namespace RRQueue

variable {sizeExp : Nat} {q q' : RRQueue sizeExp}

/-- `idxToStorageIdx`, where the code masks the low bits. -/
def idxToStorageIdx (sizeExp idx : Nat) : Nat := idx % 2 ^ sizeExp

def capacity (sizeExp : Nat) : Nat := 2 ^ sizeExp % 2 ^ 64

/-- `++` of a counter. -/
def inc (n : Nat) : Nat := (n + 1) % 2 ^ 64

theorem inc_of_lt {n : Nat} (h : n + 1 < 2 ^ 64) : inc n = n + 1 := by
  rw [inc, Nat.mod_eq_of_lt h]

def canPush (q : RRQueue sizeExp) : Bool :=
  decide ((q.head + (2 ^ 64 - q.tail)) % 2 ^ 64 < capacity sizeExp)

def isActive (q : RRQueue sizeExp) (idx : Nat) : Bool :=
  (q.active[idxToStorageIdx sizeExp idx]?).getD false

/-- The loop in `release` that moves `tail` over the slots that have been released. -/
def skip (q : RRQueue sizeExp) : Nat → Nat → Nat
  | 0, tail => tail
  | n + 1, tail =>
      if inc tail < q.head ∧ q.isActive (inc tail) = false then skip q n (inc tail) else inc tail

/-- The queue afterwards, and whether another request may be taken. -/
def release (q : RRQueue sizeExp) (idx : Nat) : Except Failure (RRQueue sizeExp × Bool) :=
  if idx < q.tail ∨ q.head ≤ idx then .error .assertion
  else
    let q := { q with active := q.active.set (idxToStorageIdx sizeExp idx) false }
    let q := if idx = q.tail then { q with tail := q.skip (q.head - q.tail) q.tail } else q
    .ok (q, q.canPush)

/-- The queue afterwards, and the index that the request and the response in the slot get. -/
def getHead (q : RRQueue sizeExp) : Except Failure (RRQueue sizeExp × Nat) :=
  if !q.canPush then .error .assertion
  else
    .ok ({ q with
      active := q.active.set (idxToStorageIdx sizeExp q.head) true
      head := inc q.head }, q.head)

/-- As long as no counter has wrapped around, there is room if less than a whole ring is in use. -/
theorem canPush_iff (hexp : sizeExp < 64) (hle : q.tail ≤ q.head) (hlt : q.head < 2 ^ 64) :
    q.canPush = true ↔ q.head < q.tail + 2 ^ sizeExp := by
  have hcapacity : capacity sizeExp = 2 ^ sizeExp :=
    Nat.mod_eq_of_lt (Nat.pow_lt_pow_right (by decide) hexp)
  rw [canPush, decide_eq_true_iff, hcapacity]
  omega

/-! ## One slot -/

/-- The only slot is taken, and `head` has not wrapped around. -/
def Busy (q : RRQueue 0) : Prop := q.head = q.tail + 1 ∧ q.head < 2 ^ 64

def Free (q : RRQueue 0) : Prop := q.head = q.tail ∧ q.head < 2 ^ 64

theorem Busy.canPush {q : RRQueue 0} (h : q.Busy) : q.canPush = false := by
  obtain ⟨h, hlt⟩ := h
  rw [Bool.eq_false_iff]
  intro hpush
  have hroom := (canPush_iff (by decide) (by omega) hlt).mp hpush
  omega

theorem Free.canPush {q : RRQueue 0} (h : q.Free) : q.canPush = true :=
  (canPush_iff (by decide) h.1.ge h.2).mpr (by rw [h.1]; simp)

theorem Busy.release {q : RRQueue 0} (h : q.Busy) :
    ∃ q', q.release q.tail = .ok (q', true) ∧ q'.Free ∧ q'.head = q.head := by
  obtain ⟨h, hlt⟩ := h
  have hin : ¬(q.tail < q.tail ∨ q.head ≤ q.tail) := by omega
  let q' : RRQueue 0 :=
    { q with active := q.active.set (idxToStorageIdx 0 q.tail) false, tail := q.head }
  have hfree : q'.Free := ⟨rfl, hlt⟩
  refine ⟨q', ?_, hfree, rfl⟩
  have hnext : inc q.tail = q.head := by rw [inc_of_lt (h ▸ hlt), h]
  have hfuel : q.head - q.tail = 1 := by omega
  rw [RRQueue.release, if_neg hin]
  simp only [if_true, hfuel, skip, hnext, Nat.lt_irrefl, false_and, if_false]
  exact congrArg (fun b => Except.ok (q', b)) hfree.canPush

theorem Free.getHead {q : RRQueue 0} (h : q.Free) (hlt : q.head + 1 < 2 ^ 64) :
    ∃ q', q.getHead = .ok (q', q.head) ∧ q'.Busy ∧ q'.tail = q.head := by
  refine ⟨{ q with
    active := q.active.set (idxToStorageIdx 0 q.head) true
    head := inc q.head }, ?_, ?_, h.1.symm⟩
  · rw [RRQueue.getHead, h.canPush]
    rfl
  · rw [inc_of_lt hlt]
    exact ⟨congrArg (· + 1) h.1, hlt⟩

end RRQueue

end NodeCpp
