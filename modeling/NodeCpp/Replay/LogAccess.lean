import NodeCpp.Replay.BinaryLog
import NodeCpp.Lib.Machine

/-!
# The accesses of a recording log

What the calls that record do, one step after the other: the assertions they check, what they load
and what they store. `BinaryLog.exec_eq_perform` says that the calls are these steps, so a property
of the steps (nothing is stored before the last assertion, nothing is stored outside of the block)
is one of the calls.
-/

namespace NodeCpp

open Lib

/-- The data of a call: a null pointer, or bytes; and their number. -/
structure LogData where
  ptr : Option (List UInt8)
  sz : UInt32
  length_eq : ∀ bytes ∈ ptr, bytes.length = sz.toNat

inductive LogCall
  | addFrame (frameType : UInt32) (data : LogData)
  | startAddingFrame (frameType : UInt32) (data : LogData)
  | continueAddingFrame (data : LogData)
  | addingFrameDone

inductive LogAccess
  /-- An assertion, and whether it holds. -/
  | check (holds : Bool)
  /-- An `uint32_t` is read. -/
  | load (off : Nat)
  | store (off : Nat) (bytes : List UInt8)
  deriving DecidableEq, Repr

/-- What a step stores, with its place. -/
def LogAccess.stored? : LogAccess → Option (Nat × List UInt8)
  | .store off bytes => some (off, bytes)
  | _ => none

namespace BinaryLog

def exec (log : BinaryLog) : LogCall → Except LogFailure BinaryLog
  | .addFrame frameType data => log.addFrame frameType data.ptr data.sz
  | .startAddingFrame frameType data => log.startAddingFrame frameType data.ptr data.sz
  | .continueAddingFrame data => log.continueAddingFrame data.ptr data.sz
  | .addingFrameDone => log.addingFrameDone

/-- The steps of a call, in their order. -/
def accesses (log : BinaryLog) : LogCall → List LogAccess
  | .addFrame frameType data =>
      let h := log.writePos
      [.check (log.mode = .recording), .check (log.currentFrameSize = 0),
        .check (log.currentFrameType = 0), .check (log.fh = none), .check (frameType ≠ 0),
        .check (data.ptr.isSome ∨ data.sz = 0), .load h, .check (log.u32At h = 0)] ++
      (match data.ptr with
        | some bytes =>
            [.check (h + sizeofFrameHeader + data.sz.toNat ≤ log.size),
              .store (h + sizeofFrameHeader) (bytes.take data.sz.toNat),
              .store (h + 4) (toBytes 4 data.sz.toNat)]
        | none => [.check (h + data.sz.toNat ≤ log.size), .store (h + 4) (toBytes 4 0)]) ++
      [.store (h + sizeofFrameHeader + data.sz.toNat) (toBytes 4 0),
        .store h (toBytes 4 frameType.toNat)]
  | .startAddingFrame frameType data =>
      let h := log.writePos
      [.check (log.mode = .recording), .check (frameType ≠ 0), .check data.ptr.isSome,
        .check (h + sizeofFrameHeader + data.sz.toNat ≤ log.size),
        .check (log.currentFrameSize = 0), .check (log.currentFrameType = 0),
        .check (log.fh = none), .load h, .check (log.u32At h = 0),
        .store (h + sizeofFrameHeader) ((data.ptr.getD []).take data.sz.toNat)]
  | .continueAddingFrame data =>
      [.check (log.mode = .recording), .check data.ptr.isSome,
        .check (log.writePos + data.sz.toNat ≤ log.size), .check (log.currentFrameSize ≠ 0),
        .check (log.currentFrameType ≠ 0), .check (log.fh ≠ none),
        .store log.writePos ((data.ptr.getD []).take data.sz.toNat)]
  | .addingFrameDone =>
      let fh := log.fh.getD 0
      [.check (log.mode = .recording), .check (log.currentFrameSize ≠ 0),
        .check (log.currentFrameType ≠ 0), .check (log.fh ≠ none),
        .store log.writePos (toBytes 4 0), .store (fh + 4) (toBytes 4 log.currentFrameSize),
        .store fh (toBytes 4 log.currentFrameType.toNat)]

/-- Steps one after the other, in a block of `size` bytes. -/
def perform (size : Nat) : (Nat → UInt8) → List LogAccess → Except LogFailure (Nat → UInt8)
  | mem, [] => .ok mem
  | mem, .check holds :: rest => if holds then perform size mem rest else .error .assertion
  | mem, .load off :: rest =>
      if off + 4 ≤ size then perform size mem rest else .error .outOfBounds
  | mem, .store off bytes :: rest =>
      if off + bytes.length ≤ size then perform size (store mem off bytes) rest
      else .error .outOfBounds

/-- The log once the steps of a call have been done. -/
def finish (log : BinaryLog) (mem : Nat → UInt8) : LogCall → BinaryLog
  | .addFrame _ data =>
      { log with mem := mem, writePos := log.writePos + sizeofFrameHeader + data.sz.toNat }
  | .startAddingFrame frameType data =>
      { log with
        mem := mem
        currentFrameType := frameType
        fh := some log.writePos
        writePos := log.writePos + sizeofFrameHeader + data.sz.toNat
        currentFrameSize := data.sz.toNat }
  | .continueAddingFrame data =>
      { log with
        mem := mem
        writePos := log.writePos + data.sz.toNat
        currentFrameSize := log.currentFrameSize + data.sz.toNat }
  | .addingFrameDone =>
      { log with mem := mem, fh := none, currentFrameSize := 0, currentFrameType := 0 }

theorem assert_bind {α : Type} {p : Prop} [Decidable p] (f : Unit → Except LogFailure α) :
    (assert p >>= f) = if p then f () else .error .assertion := by
  unfold assert
  split <;> rfl

theorem load32_bind {α : Type} (log : BinaryLog) (off : Nat) (f : Nat → Except LogFailure α) :
    (log.load32 off >>= f) =
      if off + 4 ≤ log.size then f (log.u32At off) else .error .outOfBounds := by
  unfold load32
  split <;> rfl

theorem write_bind {α : Type} (log : BinaryLog) (off : Nat) (bytes : List UInt8)
    (f : BinaryLog → Except LogFailure α) :
    (log.write off bytes >>= f) =
      if off + bytes.length ≤ log.size then f { log with mem := store log.mem off bytes }
      else .error .outOfBounds := by
  unfold write
  split <;> rfl

/-- A call is its steps. -/
theorem exec_eq_perform (log : BinaryLog) (c : LogCall) :
    log.exec c = (perform log.size log.mem (log.accesses c)).map (log.finish · c) := by
  cases c with
  | addFrame frameType data =>
    obtain ⟨ptr, sz, hlen⟩ := data
    cases ptr with
    | none =>
      simp only [exec, addFrame, accesses, assert_bind, load32_bind, write32, write_bind,
        perform, List.cons_append, List.nil_append, decide_eq_true_eq, apply_ite (Except.map _),
        finish]
      unfold write
      rfl
    | some bytes =>
      simp only [exec, addFrame, accesses, assert_bind, load32_bind, write32, write_bind,
        perform, List.cons_append, List.nil_append, decide_eq_true_eq, apply_ite (Except.map _),
        finish]
      unfold write
      rfl
  | startAddingFrame frameType data =>
    simp only [exec, startAddingFrame, accesses, assert_bind, load32_bind, write_bind, perform,
      decide_eq_true_eq, apply_ite (Except.map _), finish]
    rfl
  | continueAddingFrame data =>
    simp only [exec, continueAddingFrame, accesses, assert_bind, write_bind, perform,
      decide_eq_true_eq, apply_ite (Except.map _), finish]
    rfl
  | addingFrameDone =>
    simp only [exec, addingFrameDone, accesses, assert_bind, write32, write_bind, perform,
      decide_eq_true_eq, apply_ite (Except.map _), finish]
    rfl

def passes : List LogAccess → Bool
  | [] => true
  | .check holds :: rest => holds && passes rest
  | _ :: rest => passes rest

def stored : List LogAccess → List (Nat × List UInt8)
  | [] => []
  | .check holds :: rest => if holds then stored rest else []
  | .load _ :: rest => stored rest
  | .store off bytes :: rest => (off, bytes) :: stored rest

theorem stored_of_passes {steps : List LogAccess} (h : passes steps = true) :
    stored steps = steps.filterMap LogAccess.stored? := by
  induction steps with
  | nil => rfl
  | cons step rest ih =>
    cases step with
    | check holds =>
      rw [passes, Bool.and_eq_true] at h
      rw [stored, if_pos h.1]
      exact ih h.2
    | load off => exact ih h
    | store off bytes => exact congrArg _ (ih h)

theorem passes_of_perform {size : Nat} {mem mem' : Nat → UInt8} {steps : List LogAccess}
    (h : perform size mem steps = .ok mem') : passes steps = true := by
  induction steps generalizing mem with
  | nil => rfl
  | cons step rest ih =>
    cases step with
    | check holds =>
      cases holds with
      | false => cases h
      | true => exact ih h
    | load off =>
      unfold perform at h
      split at h
      · exact ih h
      · cases h
    | store off bytes =>
      unfold perform at h
      split at h
      · exact ih h
      · cases h

theorem exec_ok {log log' : BinaryLog} {c : LogCall} (h : log.exec c = .ok log') :
    passes (log.accesses c) = true ∧ ∃ mem, log' = log.finish mem c := by
  rw [exec_eq_perform] at h
  obtain ⟨mem, hmem, hfinish⟩ := map_eq_ok h
  exact ⟨passes_of_perform hmem, mem, hfinish.symm⟩

end BinaryLog

end NodeCpp
