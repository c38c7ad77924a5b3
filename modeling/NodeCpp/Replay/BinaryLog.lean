import NodeCpp.Lib.Bytes
import NodeCpp.Lib.Fallible
import NodeCpp.Lib.Segment

/-!
# BinaryLog

The log of record and replay. Frames are written one behind the other into a block of memory, each
with its type and size in front, and the type 0 stands behind the last one. `deinit` writes the
block to a file up to `writePos`, and `initForReplaying` reads it back.

Addresses are offsets from `mem`. What is in the memory that `VirtualMemory::allocate` returns is an
argument. A load or a store outside of the block fails. The fields of a header have the sizes and
the byte order they have on x86-64.
-/

namespace NodeCpp

open Lib

inductive LogMode
  | notUsing
  | recording
  | replaying
  deriving DecidableEq, Repr

inductive LogFailure
  | assertion
  | outOfBounds
  deriving DecidableEq, Repr

structure BinaryLog where
  mode : LogMode := .notUsing
  mem : Nat → UInt8 := fun _ => 0
  size : Nat := 0
  fh : Option Nat := none
  writePos : Nat := 0
  currentFrameSize : Nat := 0
  currentFrameType : UInt32 := 0
  frameIdx : Nat := 0

structure FrameData where
  ptr : Nat
  size : Nat
  type : UInt32
  deriving DecidableEq, Repr

/-- `sizeof( LogHeader )`. -/
def sizeofLogHeader : Nat := 40

/-- `sizeof( FrameHeader )`. -/
def sizeofFrameHeader : Nat := 8

namespace BinaryLog

def assert (p : Prop) [Decidable p] : Except LogFailure Unit :=
  if p then .ok () else .error .assertion

/-! ## Memory -/

/-- An `uint32_t` in memory. -/
def u32At (log : BinaryLog) (off : Nat) : Nat := ofBytes (segment log.mem off (off + 4))

def load32 (log : BinaryLog) (off : Nat) : Except LogFailure Nat :=
  if off + 4 ≤ log.size then .ok (log.u32At off) else .error .outOfBounds

/-- `memcpy`. -/
def write (log : BinaryLog) (off : Nat) (bytes : List UInt8) : Except LogFailure BinaryLog :=
  if off + bytes.length ≤ log.size then .ok { log with mem := store log.mem off bytes }
  else .error .outOfBounds

/-- An assignment to an `uint32_t`, which takes the low bytes of `n`. -/
def write32 (log : BinaryLog) (off n : Nat) : Except LogFailure BinaryLog :=
  log.write off (toBytes 4 n)

/-- `lh->size`. -/
def headerSize (log : BinaryLog) : Nat := ofBytes (segment log.mem 16 24)

/-! ## Recording -/

def initForRecording (log : BinaryLog) (allocated : Nat → UInt8) (szExp : Nat) :
    Except LogFailure BinaryLog := do
  assert (log.mode = .notUsing)
  assert (16 ≤ szExp)
  assert (szExp ≤ 48)
  let log := { log with
    mode := .recording
    size := 2 ^ szExp
    mem := allocated
    writePos := sizeofLogHeader }
  log.write32 log.writePos 0

/-- The log as `initForRecording` leaves it. -/
def freshLog (allocated : Nat → UInt8) (szExp : Nat) : BinaryLog where
  mode := .recording
  mem := store allocated sizeofLogHeader (toBytes 4 0)
  size := 2 ^ szExp
  writePos := sizeofLogHeader

/-- `data` is null or points to `sz` bytes. -/
def addFrame (log : BinaryLog) (frameType : UInt32) (data : Option (List UInt8)) (sz : UInt32) :
    Except LogFailure BinaryLog := do
  assert (log.mode = .recording)
  assert (log.currentFrameSize = 0)
  assert (log.currentFrameType = 0)
  assert (log.fh = none)
  assert (frameType ≠ 0)
  assert (data.isSome ∨ sz = 0)
  let h := log.writePos
  let type ← log.load32 h
  assert (type = 0)
  let log ← match data with
    | some bytes => do
        assert (log.writePos + sizeofFrameHeader + sz.toNat ≤ log.size)
        let log ← log.write (h + sizeofFrameHeader) (bytes.take sz.toNat)
        log.write32 (h + 4) sz.toNat
    | none => do
        assert (log.writePos + sz.toNat ≤ log.size)
        log.write32 (h + 4) 0
  let log := { log with writePos := h + sizeofFrameHeader + sz.toNat }
  let log ← log.write32 log.writePos 0
  log.write32 h frameType.toNat

def startAddingFrame (log : BinaryLog) (frameType : UInt32) (data : Option (List UInt8))
    (sz : UInt32) : Except LogFailure BinaryLog := do
  assert (log.mode = .recording)
  assert (frameType ≠ 0)
  assert data.isSome
  assert (log.writePos + sizeofFrameHeader + sz.toNat ≤ log.size)
  assert (log.currentFrameSize = 0)
  assert (log.currentFrameType = 0)
  assert (log.fh = none)
  let fh := log.writePos
  let type ← log.load32 fh
  assert (type = 0)
  let log ← log.write (fh + sizeofFrameHeader) ((data.getD []).take sz.toNat)
  return { log with
    currentFrameType := frameType
    fh := some fh
    writePos := fh + sizeofFrameHeader + sz.toNat
    currentFrameSize := sz.toNat }

def continueAddingFrame (log : BinaryLog) (data : Option (List UInt8)) (sz : UInt32) :
    Except LogFailure BinaryLog := do
  assert (log.mode = .recording)
  assert data.isSome
  assert (log.writePos + sz.toNat ≤ log.size)
  assert (log.currentFrameSize ≠ 0)
  assert (log.currentFrameType ≠ 0)
  assert (log.fh ≠ none)
  let log ← log.write log.writePos ((data.getD []).take sz.toNat)
  return { log with
    writePos := log.writePos + sz.toNat
    currentFrameSize := log.currentFrameSize + sz.toNat }

def addingFrameDone (log : BinaryLog) : Except LogFailure BinaryLog := do
  assert (log.mode = .recording)
  assert (log.currentFrameSize ≠ 0)
  assert (log.currentFrameType ≠ 0)
  assert (log.fh ≠ none)
  let fh := log.fh.getD 0
  let log ← log.write32 log.writePos 0
  let log ← log.write32 (fh + 4) log.currentFrameSize
  let log ← log.write32 fh log.currentFrameType.toNat
  return { log with fh := none, currentFrameSize := 0, currentFrameType := 0 }

/-- What `deinit` writes to the file. -/
def deinit (log : BinaryLog) : Option (List UInt8) :=
  if log.mode = .recording then some (segment log.mem 0 log.writePos) else none

/-! ## Replaying -/

/-- The condition under which both functions below take a frame. -/
def hasFrame (log : BinaryLog) (frame : Nat) : Bool :=
  frame + sizeofFrameHeader < log.size && log.u32At frame ≠ 0 &&
    frame + sizeofFrameHeader + log.u32At (frame + 4) ≤ log.size

def nextFrame (log : BinaryLog) (frame : Nat) : Nat :=
  frame + sizeofFrameHeader + log.u32At (frame + 4)

theorem nextFrame_le {log : BinaryLog} {frame : Nat} (h : log.hasFrame frame = true) :
    log.nextFrame frame ≤ log.size ∧ frame + sizeofFrameHeader < log.size := by
  simp only [hasFrame, Bool.and_eq_true, decide_eq_true_eq] at h
  exact ⟨h.2, h.1.1⟩

/-- The loop of `dbgWalkThrougFrames`. -/
def walkFrames (log : BinaryLog) (frame : Nat) : Nat :=
  if h : log.hasFrame frame = true then walkFrames log (log.nextFrame frame) + 1 else 0
termination_by log.size - frame
decreasing_by
  have hle := nextFrame_le h
  simp only [nextFrame, sizeofFrameHeader] at hle ⊢
  omega

def dbgWalkThrougFrames (log : BinaryLog) : Except LogFailure Nat := do
  assert (log.mode = .replaying)
  assert (log.headerSize ≤ log.size)
  return log.walkFrames sizeofLogHeader

def maxBuffsize : Nat := 2 ^ 26

/-- `file` is the content of the file, if it can be opened. -/
def initForReplaying (log : BinaryLog) (allocated : Nat → UInt8) (file : Option (List UInt8)) :
    Except LogFailure BinaryLog := do
  assert (log.mode = .notUsing)
  assert file.isSome
  let bytes := (file.getD []).take maxBuffsize
  assert (0 < bytes.length)
  let log := { log with
    mode := .replaying
    size := bytes.length
    mem := store allocated 0 bytes }
  assert (log.headerSize ≤ log.size)
  let log := { log with fh := some sizeofLogHeader }
  let _ ← log.dbgWalkThrougFrames
  return log

def readNextFrame (log : BinaryLog) : Except LogFailure (BinaryLog × FrameData) := do
  assert (log.mode = .replaying)
  let fh := log.fh.getD 0
  -- otherwise there are no more frames
  assert (log.hasFrame fh)
  return ({ log with fh := some (log.nextFrame fh), frameIdx := log.frameIdx + 1 },
    { ptr := fh + sizeofFrameHeader
      size := log.u32At (fh + 4)
      type := UInt32.ofNat (log.u32At fh) })

end BinaryLog

/-! ## Frames -/

/-- Bytes that a caller passes together with their number, which is an `uint32_t`. -/
structure Block where
  bytes : List UInt8
  length_lt : bytes.length < 2 ^ 32

def Block.sz (data : Block) : UInt32 := UInt32.ofNat data.bytes.length

/-- How the payload of a frame is given to the log. -/
inductive Payload
  /-- `addFrame` with a null pointer. -/
  | null
  | whole (data : Block)
  /-- `startAddingFrame`, any number of `continueAddingFrame`, `addingFrameDone`. -/
  | parts (first : Block) (rest : List Block)

structure RecordedFrame where
  type : UInt32
  type_ne : type ≠ 0
  payload : Payload

/-- A frame as a reader sees it. -/
structure Frame where
  type : UInt32
  size : Nat
  payload : List UInt8
  deriving DecidableEq, Repr

def Payload.bytes : Payload → List UInt8
  | .null => []
  | .whole data => data.bytes
  | .parts first rest => first.bytes ++ rest.flatMap Block.bytes

def RecordedFrame.frame (f : RecordedFrame) : Frame where
  type := f.type
  size := f.payload.bytes.length
  payload := f.payload.bytes

namespace BinaryLog

def continueAll (log : BinaryLog) : List Block → Except LogFailure BinaryLog
  | [] => return log
  | data :: rest => do
      let log ← log.continueAddingFrame (some data.bytes) data.sz
      log.continueAll rest

def record (log : BinaryLog) (f : RecordedFrame) : Except LogFailure BinaryLog :=
  match f.payload with
  | .null => log.addFrame f.type none 0
  | .whole data => log.addFrame f.type (some data.bytes) data.sz
  | .parts first rest => do
      let log ← log.startAddingFrame f.type (some first.bytes) first.sz
      let log ← log.continueAll rest
      log.addingFrameDone

def recordAll (log : BinaryLog) : List RecordedFrame → Except LogFailure BinaryLog
  | [] => return log
  | f :: frames => do
      let log ← log.record f
      log.recordAll frames

/-- The next `n` calls of `readNextFrame`. -/
def readFrames (log : BinaryLog) : Nat → Except LogFailure (BinaryLog × List Frame)
  | 0 => return (log, [])
  | n + 1 => do
      let (log, fd) ← log.readNextFrame
      let payload := segment log.mem fd.ptr (fd.ptr + fd.size)
      let (log, frames) ← log.readFrames n
      return (log, { type := fd.type, size := fd.size, payload := payload } :: frames)

/-- Frames are recorded and written to the file, and the file is read again: the number of frames
that are counted, and what as many calls of `readNextFrame` as there are frames return. The first
two arguments are what the memory contains that is allocated for either. -/
def roundTrip (recording replaying : Nat → UInt8) (szExp : Nat) (frames : List RecordedFrame) :
    Except LogFailure (Nat × List Frame) := do
  let log ← BinaryLog.initForRecording {} recording szExp
  let log ← log.recordAll frames
  let replay ← BinaryLog.initForReplaying {} replaying log.deinit
  let count ← replay.dbgWalkThrougFrames
  let (_, read) ← replay.readFrames frames.length
  return (count, read)

end BinaryLog

end NodeCpp
