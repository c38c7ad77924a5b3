import NodeCpp.Lib.Ring
import NodeCpp.Net.Os

/-!
# The queue between threads

`CircularBuffer` keeps at most `2 ^ maxszBits - 1` items in a ring of `2 ^ maxszBits` places; one
place stays free, so that `head == tail` means that there are none. `MWSRFixedSizeQueueWithFlowControl`
puts a mutex and two condition variables around it. Here are the sections its functions run under
the mutex; where a section waits, it has changed nothing and is run again when its thread has been
woken.

* `CircularBuffer.Holds` -- the items of a buffer, in order.
* `Holds.pushBack`, `Holds.popFront` -- the buffer is a queue.
* `lockedPush`, `lockedPop` -- the sections under the mutex, and what they do (`MWSRQueue.Holds`).

The counters `nfulls` and `hwmsize` are statistics nobody reads, and are left out.
-/

namespace NodeCpp

open Lib

structure CircularBuffer (α : Type) (maxszBits : Nat) where
  head : Nat := 0
  tail : Nat := 0
  /-- The objects that have been constructed in the buffer. -/
  buffer : List (Option α) := List.replicate (2 ^ maxszBits) none
  deriving DecidableEq, Repr

namespace CircularBuffer

variable {α : Type} {maxszBits : Nat} {b b' : CircularBuffer α maxszBits}

def bufsz (maxszBits : Nat) : Nat := 2 ^ maxszBits

def maxsz (maxszBits : Nat) : Nat := bufsz maxszBits - 1

/-- The subtraction may wrap around; adding `bufsz` brings it back. -/
def size (b : CircularBuffer α maxszBits) : Nat :=
  ((b.head : Int) - b.tail + if b.tail ≤ b.head then 0 else bufsz maxszBits).toNat

def isFull (b : CircularBuffer α maxszBits) : Bool := b.size == maxsz maxszBits

def pushBack (b : CircularBuffer α maxszBits) (t : α) :
    Except Failure (CircularBuffer α maxszBits) :=
  if b.size < maxsz maxszBits then
    .ok { b with
      buffer := b.buffer.set b.head (some t)
      head := (b.head + 1) &&& maxsz maxszBits }
  else .error .assertion

def popFront (b : CircularBuffer α maxszBits) :
    Except Failure (CircularBuffer α maxszBits × α) :=
  if 0 < b.size then
    match b.buffer[b.tail]? with
    | some (some t) =>
        .ok ({ b with
          buffer := b.buffer.set b.tail none
          tail := (b.tail + 1) &&& maxsz maxszBits }, t)
    -- moving from a place without an object is undefined
    | _ => .error .error
  else .error .assertion

/-- The buffer contains `items`, in the order in which they are popped. -/
structure Holds (b : CircularBuffer α maxszBits) (items : List α) : Prop where
  tail_lt : b.tail < 2 ^ maxszBits
  head_eq : b.head = (b.tail + items.length) % 2 ^ maxszBits
  fits : items.length < 2 ^ maxszBits
  queued : Queued (2 ^ maxszBits) b.buffer b.tail items

theorem and_maxsz (n : Nat) : n &&& maxsz maxszBits = n % 2 ^ maxszBits :=
  Nat.and_two_pow_sub_one_eq_mod n maxszBits

namespace Holds

variable {items : List α} {t : α}

theorem empty : Holds ({} : CircularBuffer α maxszBits) [] where
  tail_lt := Nat.two_pow_pos maxszBits
  head_eq := (Nat.zero_mod _).symm
  fits := Nat.two_pow_pos maxszBits
  queued := Queued.empty (Nat.two_pow_pos maxszBits) 0

theorem size (h : b.Holds items) : b.size = items.length := by
  have htail := h.tail_lt
  have hfits := h.fits
  rw [CircularBuffer.size, bufsz, h.head_eq]
  rcases Nat.lt_or_ge (b.tail + items.length) (2 ^ maxszBits) with hlt | hge
  · rw [Nat.mod_eq_of_lt hlt, if_pos (Nat.le_add_right ..)]
    omega
  · rw [Nat.mod_eq_sub_mod hge, Nat.mod_eq_of_lt (by omega), if_neg (by omega)]
    omega

theorem isFull (h : b.Holds items) : b.isFull = true ↔ items.length = maxsz maxszBits := by
  rw [CircularBuffer.isFull, h.size, beq_iff_eq]

theorem length_le (h : b.Holds items) : items.length ≤ maxsz maxszBits :=
    Nat.le_sub_one_of_lt h.fits

theorem pushBack (h : b.Holds items) (hroom : items.length < maxsz maxszBits) (t : α) :
    ∃ b', b.pushBack t = .ok b' ∧ b'.Holds (items ++ [t]) := by
  have hroom' : items.length + 1 < 2 ^ maxszBits := by
    unfold maxsz bufsz at hroom
    omega
  refine ⟨{ b with
    buffer := b.buffer.set b.head (some t)
    head := (b.head + 1) &&& maxsz maxszBits }, ?_, h.tail_lt, ?_, ?_, ?_⟩
  · rw [CircularBuffer.pushBack, h.size, if_pos hroom]
  · show (b.head + 1) &&& maxsz maxszBits = (b.tail + (items ++ [t]).length) % 2 ^ maxszBits
    rw [and_maxsz, h.head_eq, Nat.mod_add_mod, List.length_append]
    rfl
  · rw [List.length_append]
    exact hroom'
  · have hpush := h.queued.push h.fits t
    rw [← h.head_eq] at hpush
    exact hpush

theorem popFront (h : b.Holds (t :: items)) :
    ∃ b', b.popFront = .ok (b', t) ∧ b'.Holds items := by
  have hslot : b.tail % 2 ^ maxszBits = b.tail := Nat.mod_eq_of_lt h.tail_lt
  have hfront := h.queued.front
  have hpop := h.queued.pop.mod
  rw [hslot] at hfront hpop
  refine ⟨{ b with
    buffer := b.buffer.set b.tail none
    tail := (b.tail + 1) &&& maxsz maxszBits }, ?_, ?_, ?_, ?_, ?_⟩
  · have hpos : 0 < (t :: items).length := Nat.succ_pos _
    rw [CircularBuffer.popFront, h.size, if_pos hpos, hfront]
  · show (b.tail + 1) &&& maxsz maxszBits < 2 ^ maxszBits
    rw [and_maxsz]
    exact Nat.mod_lt _ (Nat.two_pow_pos _)
  · show b.head = (((b.tail + 1) &&& maxsz maxszBits) + items.length) % 2 ^ maxszBits
    rw [and_maxsz, h.head_eq, Nat.mod_add_mod, List.length_cons]
    congr 1
    omega
  · exact Nat.lt_of_succ_lt h.fits
  · show Queued _ _ ((b.tail + 1) &&& maxsz maxszBits) _
    rw [and_maxsz]
    exact hpop

end Holds

end CircularBuffer

/-! ## The sections under the mutex -/

structure MWSRQueue (α : Type) (maxszBits : Nat) where
  coll : CircularBuffer α maxszBits := {}
  killflag : Bool := false
  deriving DecidableEq, Repr

/-- How a section under the mutex ends: its thread waits for a condition variable, returns because
of `killflag`, or has done its work. -/
inductive Locked (β : Type)
  | waits
  | killed
  | done (b : β)
  deriving DecidableEq, Repr

/-- The three `pop_front`. -/
inductive PopCall
  | one
  | many (count : Nat)
  | timed (count : Nat)
  deriving DecidableEq, Repr

namespace MWSRQueue

variable {α : Type} {maxszBits : Nat} {q q' : MWSRQueue α maxszBits}

/-- `push_back`. -/
def lockedPush (q : MWSRQueue α maxszBits) (it : α) :
    Except Failure (Locked (MWSRQueue α maxszBits)) :=
  if q.coll.isFull && !q.killflag then .ok .waits
  else if q.killflag then .ok .killed
  else if q.coll.isFull then .error .assertion
  else do
    let coll ← q.coll.pushBack it
    return .done { q with coll := coll }

/-- The loop that moves items out. -/
def moveOut (coll : CircularBuffer α maxszBits) :
    Nat → Except Failure (CircularBuffer α maxszBits × List α)
  | 0 => .ok (coll, [])
  | n + 1 => do
      let (coll, t) ← coll.popFront
      let (coll, ts) ← moveOut coll n
      return (coll, t :: ts)

/-- `count <= coll.size() ? count : coll.size()`. -/
def sz2move (q : MWSRQueue α maxszBits) (count : Nat) : Nat :=
  if count ≤ q.coll.size then count else q.coll.size

/-- `pop_front`; `expired` says that the wait of the timed one has timed out. -/
def lockedPop (q : MWSRQueue α maxszBits) (call : PopCall) (expired : Bool) :
    Except Failure (Locked (MWSRQueue α maxszBits × List α)) :=
  let stops := match call with
    | .one | .many _ => false
    | .timed _ => expired
  if q.coll.size == 0 && !stops && !q.killflag then .ok .waits
  else if q.killflag then .ok .killed
  else do
    let count ← match call with
      | .one => if 0 < q.coll.size then .ok 1 else .error .assertion
      | .many count => if 0 < q.coll.size then .ok (q.sz2move count) else .error .assertion
      | .timed count => .ok (q.sz2move count)
    let (coll, ts) ← moveOut q.coll count
    return .done ({ q with coll := coll }, ts)

/-! ### What they do -/

/-- The queue contains `items` and has not been killed. -/
structure Holds (q : MWSRQueue α maxszBits) (items : List α) : Prop where
  coll : q.coll.Holds items
  alive : q.killflag = false

theorem moveOut_holds {coll : CircularBuffer α maxszBits} {items : List α} (h : coll.Holds items)
    {n : Nat} (hn : n ≤ items.length) :
    ∃ coll', moveOut coll n = .ok (coll', items.take n) ∧ coll'.Holds (items.drop n) := by
  induction n generalizing coll items with
  | zero => exact ⟨coll, rfl, h⟩
  | succ n ih =>
    cases items with
    | nil => cases hn
    | cons t items =>
      obtain ⟨coll₁, hpop, h₁⟩ := h.popFront
      obtain ⟨coll', hmove, h'⟩ := ih h₁ (Nat.le_of_succ_le_succ hn)
      refine ⟨coll', ?_, h'⟩
      simp only [moveOut, hpop, hmove, bind, Except.bind]
      rfl

namespace Holds

variable {items : List α} {call : PopCall} {expired : Bool}

theorem empty : Holds ({} : MWSRQueue α maxszBits) [] := ⟨CircularBuffer.Holds.empty, rfl⟩

theorem size (h : q.Holds items) : q.coll.size = items.length := h.coll.size

theorem length_le (h : q.Holds items) : items.length ≤ CircularBuffer.maxsz maxszBits :=
  h.coll.length_le

theorem isFull (h : q.Holds items) :
    q.coll.isFull = true ↔ items.length = CircularBuffer.maxsz maxszBits := h.coll.isFull

theorem lockedPush_full (h : q.Holds items) (hfull : q.coll.isFull = true) (it : α) :
    q.lockedPush it = .ok .waits := by
  simp [lockedPush, hfull, h.alive]

theorem lockedPush_room (h : q.Holds items) (hroom : q.coll.isFull = false) (it : α) :
    ∃ q', q.lockedPush it = .ok (.done q') ∧ q'.Holds (items ++ [it]) := by
  have hlt : items.length < CircularBuffer.maxsz maxszBits := by
    apply Nat.lt_of_le_of_ne h.length_le
    intro heq
    rw [h.isFull.mpr heq] at hroom
    cases hroom
  obtain ⟨coll, hpush, hcoll⟩ := h.coll.pushBack hlt it
  refine ⟨{ q with coll := coll }, ?_, hcoll, h.alive⟩
  simp [lockedPush, hroom, h.alive, hpush, bind, Except.bind, pure, Except.pure]

/-- The section of `pop_front` does not wait. -/
def ready (items : List α) (call : PopCall) (expired : Bool) : Prop :=
  items ≠ [] ∨ expired = true ∧ ∃ count, call = .timed count

def takes : PopCall → Nat
  | .one => 1
  | .many count | .timed count => count

theorem lockedPop_waits (h : q.Holds items) (hwait : ¬ready items call expired) :
    q.lockedPop call expired = .ok .waits := by
  obtain ⟨hempty, htimed⟩ := not_or.mp hwait
  have hsize : q.coll.size = 0 := by
    rw [h.size, not_not.mp hempty]
    rfl
  cases call with
  | one | many count => simp [lockedPop, hsize, h.alive]
  | timed count =>
    have hexpired : expired = false := by
      cases expired with
      | false => rfl
      | true => exact absurd ⟨rfl, count, rfl⟩ htimed
    simp [lockedPop, hsize, h.alive, hexpired]

theorem sz2move (h : q.Holds items) (count : Nat) :
    q.sz2move count = min count items.length := by
  rw [MWSRQueue.sz2move, h.size]
  split <;> omega

theorem lockedPop_ready (h : q.Holds items) (hready : ready items call expired) :
    ∃ q', q.lockedPop call expired = .ok (.done (q', items.take (takes call))) ∧
      q'.Holds (items.drop (takes call)) := by
  have hmin : ∀ count, ∃ coll', moveOut q.coll (min count items.length) =
      .ok (coll', items.take count) ∧ coll'.Holds (items.drop count) := by
    intro count
    obtain ⟨coll', hmove, hholds⟩ := moveOut_holds h.coll (Nat.min_le_right count items.length)
    rw [List.take_eq_take_min, List.drop_eq_drop_min]
    exact ⟨coll', hmove, hholds⟩
  obtain ⟨coll', hmove, hholds⟩ := hmin (takes call)
  refine ⟨{ q with coll := coll' }, ?_, hholds, h.alive⟩
  rcases hready with hne | ⟨rfl, count, rfl⟩
  · have hpos : 0 < items.length := List.length_pos_iff.mpr hne
    have hone : min 1 items.length = 1 := Nat.min_eq_left hpos
    have hsize : ¬items.length = 0 := Nat.ne_of_gt hpos
    cases call with
    | one =>
      rw [takes, hone] at hmove
      simp [lockedPop, h.size, hsize, hpos, h.alive, hmove, bind, Except.bind, pure,
        Except.pure, takes]
    | many count =>
      rw [takes] at hmove
      simp [lockedPop, h.size, hsize, hpos, h.alive, h.sz2move, hmove, bind, Except.bind,
        pure, Except.pure, takes]
    | timed count =>
      rw [takes] at hmove
      simp [lockedPop, h.size, hsize, h.alive, h.sz2move, hmove, bind, Except.bind,
        pure, Except.pure, takes]
  · rw [takes] at hmove
    simp [lockedPop, h.alive, h.sz2move, hmove, bind, Except.bind, pure, Except.pure, takes]

end Holds

end MWSRQueue

end NodeCpp
