import NodeCpp.Buffer.Until
import NodeCpp.Socket.Read

/-!
# Coroutine readers

`a_read`, `a_someDataAvailable` and `a_readUntil`. A call either returns at once
or registers a handle in `ahd_read` and suspends; `Await` records where, and
`resume` is what runs when the handle is resumed. `CoroStep.returned` are the
bytes a step moves into the coroutine's own buffer, `CoroStep.outcome` what
`a_readUntil` returns.
-/

namespace NodeCpp

open Lib

/-- Where a reader is suspended, with the locals it needs to go on. -/
inductive Await
  | read (buff : Buffer) (minBytes maxBytes : Nat)
  | someDataAvailable
  | readUntil (b : Buffer) (what : UInt8)
  deriving DecidableEq, Repr

/-- The result of running a coroutine up to its return or its next suspension. -/
structure CoroStep where
  data : SocketData
  await : Option Await := none
  returned : List UInt8 := []
  outcome : Option CircularByteBuffer.Outcome := none

namespace SocketBase

/-- `await_suspend` of the awaiters: registers the handle. -/
def suspend (d : SocketData) (minBytes : Nat) (w : Await) (returned : List UInt8) : CoroStep where
  data := { d with ahdRead := some minBytes }
  await := some w
  returned := returned

/-- `await_resume` of `a_read`. -/
def resumeRead (d : SocketData) (buff : Buffer) (minBytes maxBytes : Nat) :
    Except Failure CoroStep := do
  let (readBuffer, buff) ← d.readBuffer.getReadyData buff maxBytes
  if buff.size < minBytes then .error .assertion
  else .ok { data := { d with readBuffer := readBuffer }, returned := buff.bytes }

def aRead (d : SocketData) (buff : Buffer) (minBytes maxBytes : Nat) : Except Failure CoroStep :=
  let buff := buff.clear
  if buff.capacity < minBytes ∨ maxBytes < minBytes then .error .assertion
  else
    let maxBytes := if buff.capacity < maxBytes then buff.capacity else maxBytes
    if minBytes ≤ d.readBuffer.usedSize then resumeRead d buff minBytes maxBytes
    else .ok (suspend d minBytes (.read buff minBytes maxBytes) [])

def aSomeDataAvailable (d : SocketData) : CoroStep :=
  if 1 ≤ d.readBuffer.usedSize then { data := d } else suspend d 1 .someDataAvailable []

/-- The loop of `a_readUntil`, from a `read_ready_data_until` to the next one. One round is
enough, as a round that does not end the loop empties `readBuffer`. -/
def readUntilLoop (what : UInt8) : Nat → SocketData → Buffer → Except Failure CoroStep
  | 0, _, _ => .error .assertion
  | rounds + 1, d, b => do
      let (readBuffer, b, rus) ← d.readBuffer.readReadyDataUntil b what
      let d := { d with readBuffer := readBuffer }
      match rus with
      | .ok | .insufficientBuffer => .ok { data := d, returned := b.bytes, outcome := some rus }
      | .inProgress =>
          if 1 ≤ readBuffer.usedSize then do
            let s ← readUntilLoop what rounds d b
            .ok { s with returned := b.bytes ++ s.returned }
          else .ok (suspend d 1 (.readUntil b what) b.bytes)
      | .timeout | .failed => .error .assertion

def aReadUntil (d : SocketData) (b : Buffer) (what : UInt8) : Except Failure CoroStep :=
  readUntilLoop what 1 d b

/-- The continuation of a suspended reader; a resumption with an exception set leaves the
coroutine by throwing it. -/
def resume (d : SocketData) (failed : Bool) : Await → Except Failure CoroStep
  | .read buff minBytes maxBytes =>
      if failed then .ok { data := d } else resumeRead d buff minBytes maxBytes
  | .someDataAvailable => .ok { data := d }
  | .readUntil b what =>
      if failed then .ok { data := d }
      else if ¬1 ≤ d.readBuffer.usedSize then .error .assertion
      else readUntilLoop what 1 d b

/-! ## What the readers take -/

/-- The step takes a prefix of `readBuffer` and returns it. -/
def Takes (d : SocketData) (s : CoroStep) : Prop :=
  s.data.readBuffer.WF ∧ s.returned ++ s.data.readBuffer.contents = d.readBuffer.contents

variable {d : SocketData} (hwf : d.readBuffer.WF)
include hwf

theorem resumeRead_takes {buff : Buffer} {minBytes maxBytes : Nat} {s : CoroStep}
    (h : resumeRead d buff minBytes maxBytes = .ok s) : Takes d s := by
  obtain ⟨⟨c, b⟩, hget, h⟩ := bind_eq_ok h
  dsimp only at h
  split at h
  · cases h
  · cases h
    obtain ⟨hwf', hcontents, -⟩ := CircularByteBuffer.getReadyData_contents hwf hget
    exact ⟨hwf', hcontents⟩

theorem aRead_takes {buff : Buffer} {minBytes maxBytes : Nat} {s : CoroStep}
    (h : aRead d buff minBytes maxBytes = .ok s) : Takes d s := by
  unfold aRead at h
  dsimp only at h
  split at h
  · cases h
  split at h
  · exact resumeRead_takes hwf h
  · cases h
    exact ⟨hwf, rfl⟩

theorem aSomeDataAvailable_takes : Takes d (aSomeDataAvailable d) := by
  unfold aSomeDataAvailable
  split
  · exact ⟨hwf, rfl⟩
  · exact ⟨hwf, rfl⟩

theorem aReadUntil_takes {b : Buffer} {what : UInt8} {s : CoroStep}
    (h : aReadUntil d b what = .ok s) : Takes d s := by
  unfold aReadUntil readUntilLoop at h
  obtain ⟨⟨c, b', rus⟩, hread, h⟩ := bind_eq_ok h
  have htakes := CircularByteBuffer.readReadyDataUntil_contents hwf hread
  cases rus with
  | ok => cases h; exact htakes
  | insufficientBuffer => cases h; exact htakes
  | inProgress =>
    have hempty := CircularByteBuffer.readReadyDataUntil_inProgress hwf hread
    simp only [hempty] at h
    cases h
    exact htakes
  | timeout => cases h
  | failed => cases h

theorem resume_takes {failed : Bool} {w : Await} {s : CoroStep}
    (h : resume d failed w = .ok s) : Takes d s := by
  cases w with
  | read buff minBytes maxBytes =>
    simp only [resume] at h
    split at h
    · cases h; exact ⟨hwf, rfl⟩
    · exact resumeRead_takes hwf h
  | someDataAvailable => cases h; exact ⟨hwf, rfl⟩
  | readUntil b what =>
    simp only [resume] at h
    split at h
    · cases h; exact ⟨hwf, rfl⟩
    · split at h
      · cases h
      · exact aReadUntil_takes hwf h

end SocketBase

end NodeCpp
