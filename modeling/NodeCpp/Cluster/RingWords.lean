import NodeCpp.Cluster.MsgQueue
import NodeCpp.Lib.Machine

/-!
# CircularBuffer in 64-bit words

`head`, `tail` and the sizes of `CircularBuffer` are `size_t`, and `size()` has no branch: a mask made
from a comparison adds `bufsz` where `head - tail` has wrapped around. `bufsz` itself is
`1 << maxsz_bits`, which is an `int`: for 31 bits it is negative, and as a `size_t` close to 2^64, so
that there is no array of that size and no such class.

* `RingWords.toCircular` -- the words compute what `CircularBuffer` has as numbers.
* `RingWords.bounded_fifo` -- the buffer is a queue, in every run.
-/

namespace NodeCpp

open Lib

namespace RingWords

/-- `1 << maxsz_bits`, an `int` that becomes a `size_t`. -/
def bufsz (maxszBits : Nat) : UInt64 := UInt64.ofBitVec ((1#32 <<< maxszBits).signExtend 64)

/-- `maxsz`, and `mask`. -/
def maxsz (maxszBits : Nat) : UInt64 := bufsz maxszBits - 1

/-- The class compiles: the shift is within the width of an `int`, and an array of `bufsz` objects
of at least one byte is not larger than an object can be. -/
def Instantiable (maxszBits : Nat) : Prop := maxszBits < 32 ∧ (bufsz maxszBits).toNat < 2 ^ 63

instance (maxszBits : Nat) : Decidable (Instantiable maxszBits) :=
  inferInstanceAs (Decidable (_ ∧ _))

theorem Instantiable.le {maxszBits : Nat} (h : Instantiable maxszBits) : maxszBits ≤ 30 := by
  have hall : ∀ n < 32, (bufsz n).toNat < 2 ^ 63 → n ≤ 30 := by decide
  exact hall maxszBits h.1 h.2

end RingWords

structure RingWords (α : Type) (maxszBits : Nat) where
  head : UInt64 := 0
  tail : UInt64 := 0
  buffer : List (Option α) := List.replicate (RingWords.bufsz maxszBits).toNat none
  deriving DecidableEq, Repr

namespace RingWords

variable {α : Type} {maxszBits : Nat} {w : RingWords α maxszBits}

def size (w : RingWords α maxszBits) : UInt64 :=
  w.head - w.tail + (((decide (w.head ≥ w.tail)).toUInt64 - 1) &&& bufsz maxszBits)

def isFull (w : RingWords α maxszBits) : Bool := w.size == maxsz maxszBits

def pushBack (w : RingWords α maxszBits) (t : α) : Except Failure (RingWords α maxszBits) :=
  if w.size < maxsz maxszBits then
    .ok { w with
      buffer := w.buffer.set w.head.toNat (some t)
      head := (w.head + 1) &&& maxsz maxszBits }
  else .error .assertion

def popFront (w : RingWords α maxszBits) : Except Failure (RingWords α maxszBits × α) :=
  if w.size > 0 then
    match w.buffer[w.tail.toNat]? with
    | some (some t) =>
        .ok ({ w with
          buffer := w.buffer.set w.tail.toNat none
          tail := (w.tail + 1) &&& maxsz maxszBits }, t)
    -- moving from a place without an object is undefined
    | _ => .error .error
  else .error .assertion

/-! ## The words as numbers -/

/-- The buffer with numbers for the words. -/
def toCircular (w : RingWords α maxszBits) : CircularBuffer α maxszBits :=
  ⟨w.head.toNat, w.tail.toNat, w.buffer⟩

theorem bufsz_toNat (h : maxszBits ≤ 30) : (bufsz maxszBits).toNat = 2 ^ maxszBits := by
  have hall : ∀ n < 31, (bufsz n).toNat = 2 ^ n := by decide
  exact hall maxszBits (by omega)

theorem maxsz_toNat (h : maxszBits ≤ 30) :
    (maxsz maxszBits).toNat = CircularBuffer.maxsz maxszBits := by
  have hall : ∀ n < 31, (maxsz n).toNat = 2 ^ n - 1 := by decide
  exact hall maxszBits (by omega)

/-- What the expression without a branch is equivalent to. -/
theorem size_eq (w : RingWords α maxszBits) :
    w.size = if w.tail ≤ w.head then w.head - w.tail else w.head - w.tail + bufsz maxszBits := by
  have hone : true.toUInt64 - 1 = 0 := rfl
  have hzero : false.toUInt64 - 1 = -1 := by decide
  by_cases h : w.tail ≤ w.head
  · simp [size, h, hone]
  · simp [size, h, hzero]

theorem size_toNat (h : maxszBits ≤ 30) (htail : w.tail.toNat < 2 ^ maxszBits) :
    w.size.toNat = w.toCircular.size := by
  have hpow : 2 ^ maxszBits ≤ 2 ^ 30 := Nat.pow_le_pow_right (by decide) h
  rw [size_eq, CircularBuffer.size, CircularBuffer.bufsz, toCircular]
  dsimp only
  by_cases hle : w.tail ≤ w.head
  · have hle' := UInt64.le_iff_toNat_le.mp hle
    rw [if_pos hle, if_pos hle', UInt64.toNat_sub_of_le _ _ hle]
    omega
  · have hle' : ¬ w.tail.toNat ≤ w.head.toNat := mt UInt64.le_iff_toNat_le.mpr hle
    rw [if_neg hle, if_neg hle', UInt64.toNat_add, UInt64.toNat_sub, bufsz_toNat h]
    generalize 2 ^ maxszBits = n at *
    omega

theorem next_toNat {x : UInt64} (h : maxszBits ≤ 30) (hx : x.toNat < 2 ^ maxszBits) :
    ((x + 1) &&& maxsz maxszBits).toNat = (x.toNat + 1) &&& CircularBuffer.maxsz maxszBits := by
  have hpow : 2 ^ maxszBits ≤ 2 ^ 30 := Nat.pow_le_pow_right (by decide) h
  have hadd : (x + 1).toNat = x.toNat + 1 := by
    rw [UInt64.toNat_add]
    refine Nat.mod_eq_of_lt ?_
    show x.toNat + 1 < _
    omega
  rw [UInt64.toNat_and, hadd, maxsz_toNat h]

/-! ## Runs -/

inductive Call (α : Type)
  | push (t : α)
  | pop
  deriving DecidableEq, Repr

/-- The buffer with a queue beside it. -/
def step (s : RingWords α maxszBits × List α) : Call α → Option (RingWords α maxszBits × List α)
  | .push t =>
      if s.1.size.toNat < 2 ^ maxszBits - 1 then
        (s.1.pushBack t).toOption.map fun w => (w, s.2 ++ [t])
      else none
  | .pop =>
      if s.1.size > 0 then s.1.popFront.toOption.map fun r => (r.1, s.2.tail) else none

def machine : Machine (RingWords α maxszBits × List α) (Call α) := ⟨step⟩

/-- The buffer behaves as the queue beside it. -/
structure Fifo (s : RingWords α maxszBits × List α) : Prop where
  size : s.1.size.toNat = s.2.length
  full : s.1.isFull = true ↔ s.2.length = 2 ^ maxszBits - 1
  head_lt : s.1.head.toNat < 2 ^ maxszBits
  tail_lt : s.1.tail.toNat < 2 ^ maxszBits
  push : s.1.size.toNat < 2 ^ maxszBits - 1 → ∀ t, ∃ w, s.1.pushBack t = .ok w
  pop : s.1.size > 0 → ∃ w t, s.1.popFront = .ok (w, t) ∧ s.2.head? = some t

variable {items : List α}

theorem start_holds (hbits : maxszBits ≤ 30) :
    CircularBuffer.Holds ({} : RingWords α maxszBits).toCircular [] := by
  have hstart : ({} : RingWords α maxszBits).toCircular = {} := by
    simp only [toCircular, bufsz_toNat hbits]
    rfl
  rw [hstart]
  exact .empty

theorem head_lt (h : w.toCircular.Holds items) : w.head.toNat < 2 ^ maxszBits := by
  show w.toCircular.head < _
  rw [h.head_eq]
  exact Nat.mod_lt _ (Nat.two_pow_pos _)

theorem size_of_holds (hbits : maxszBits ≤ 30) (h : w.toCircular.Holds items) :
    w.size.toNat = items.length :=
  (size_toNat hbits h.tail_lt).trans h.size

theorem toCircular_pushBack (hbits : maxszBits ≤ 30) (h : w.toCircular.Holds items) (t : α) :
    (w.pushBack t).map toCircular = w.toCircular.pushBack t := by
  simp only [pushBack, CircularBuffer.pushBack, h.size, UInt64.lt_iff_toNat_lt,
    size_of_holds hbits h, maxsz_toNat hbits]
  split
  · have hnext := next_toNat hbits (head_lt h)
    simp only [Except.map, toCircular, hnext]
  · rfl

theorem toCircular_popFront (hbits : maxszBits ≤ 30) (h : w.toCircular.Holds items) :
    w.popFront.map (fun r => (r.1.toCircular, r.2)) = w.toCircular.popFront := by
  simp only [popFront, CircularBuffer.popFront, h.size, gt_iff_lt, UInt64.lt_iff_toNat_lt,
    size_of_holds hbits h, UInt64.toNat_zero]
  split
  · have hnext := next_toNat hbits h.tail_lt
    show Except.map _ _ = match w.buffer[w.tail.toNat]? with | some (some t) => _ | _ => _
    rcases w.buffer[w.tail.toNat]? with _ | _ | t
    · rfl
    · rfl
    · simp only [Except.map, toCircular, hnext]
  · rfl

/-- The step lemma: the buffer holds the queue beside it. -/
theorem step_holds (hbits : maxszBits ≤ 30) {s s' : RingWords α maxszBits × List α} {c : Call α}
    (h : s.1.toCircular.Holds s.2) (hstep : machine.step s c = some s') :
    s'.1.toCircular.Holds s'.2 := by
  cases c with
  | push t =>
    obtain ⟨hroom, hstep⟩ := Option.ite_none_right_eq_some.mp hstep
    obtain ⟨w, hw, rfl⟩ := Option.map_eq_some_iff.mp hstep
    rw [size_of_holds hbits h] at hroom
    obtain ⟨b, hb, hholds⟩ := h.pushBack hroom t
    rw [← toCircular_pushBack hbits h, toOption_eq_some hw] at hb
    cases hb
    exact hholds
  | pop =>
    obtain ⟨hsome, hstep⟩ := Option.ite_none_right_eq_some.mp hstep
    obtain ⟨r, hr, rfl⟩ := Option.map_eq_some_iff.mp hstep
    obtain ⟨t, items, hitems⟩ : ∃ t items, s.2 = t :: items := by
      apply List.exists_cons_of_length_pos
      rw [← size_of_holds hbits h]
      exact UInt64.lt_iff_toNat_lt.mp hsome
    rw [hitems] at h ⊢
    obtain ⟨b, hb, hholds⟩ := h.popFront
    rw [← toCircular_popFront hbits h, toOption_eq_some hr] at hb
    cases hb
    exact hholds

theorem fifo_of_holds (hbits : maxszBits ≤ 30) {s : RingWords α maxszBits × List α}
    (h : s.1.toCircular.Holds s.2) : Fifo s where
  size := size_of_holds hbits h
  full := by
    rw [isFull, beq_iff_eq, ← UInt64.toNat_inj, size_of_holds hbits h, maxsz_toNat hbits]
    rfl
  head_lt := head_lt h
  tail_lt := h.tail_lt
  push hroom t := by
    rw [size_of_holds hbits h] at hroom
    obtain ⟨b, hb, -⟩ := h.pushBack hroom t
    rw [← toCircular_pushBack hbits h] at hb
    obtain ⟨w, hw, -⟩ := map_eq_ok hb
    exact ⟨w, hw⟩
  pop hsome := by
    obtain ⟨t, items, hitems⟩ : ∃ t items, s.2 = t :: items := by
      apply List.exists_cons_of_length_pos
      rw [← size_of_holds hbits h]
      exact UInt64.lt_iff_toNat_lt.mp hsome
    rw [hitems] at h ⊢
    obtain ⟨b, hb, -⟩ := h.popFront
    rw [← toCircular_popFront hbits h] at hb
    obtain ⟨⟨w, t'⟩, hw, heq⟩ := map_eq_ok hb
    cases heq
    exact ⟨w, _, hw, rfl⟩

/-- In all runs the buffer is a queue of at most `2 ^ maxszBits - 1` items. -/
theorem bounded_fifo (hbits : Instantiable maxszBits) (calls : List (Call α))
    (s : RingWords α maxszBits × List α) (hrun : machine.run ({}, []) calls = some s) : Fifo s := by
  have hbits := hbits.le
  apply fifo_of_holds hbits
  exact machine.run_kept (fun _ _ _ h => step_holds hbits h) (start_holds hbits) hrun

/-- The last of three places is left, and then taken again at the start of the buffer. -/
theorem bounded_fifo_wrapped :
    ∃ s : RingWords Nat 2 × List Nat,
      machine.run ({}, []) [.push 7, .push 8, .push 9, .pop, .push 10] = some s ∧
        s.1.head = 0 ∧ s.1.isFull = true ∧ s.2 = [8, 9, 10] ∧ Fifo s :=
  ⟨_, rfl, rfl, by decide, rfl,
    bounded_fifo (by decide) [.push 7, .push 8, .push 9, .pop, .push 10] _ rfl⟩

end RingWords

end NodeCpp
