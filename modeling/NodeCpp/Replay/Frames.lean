import NodeCpp.Replay.LogAccess

/-!
# Frames on a log that is ready for them

What the calls that record leave behind, each with the exact condition under which it returns. A
frame that is added as a whole and one that is added in parts both end in `withFrame`; in between
the log is `adding`.
-/

namespace NodeCpp

open Lib

theorem Block.toNat_sz (data : Block) : data.sz.toNat = data.bytes.length := by
  rw [Block.sz, UInt32.toNat_ofNat']
  exact Nat.mod_eq_of_lt data.length_lt

/-- The block as the data of a call. -/
def Block.data (data : Block) : LogData where
  ptr := some data.bytes
  sz := data.sz
  length_eq bytes hbytes := by
    cases hbytes
    exact data.toNat_sz.symm

namespace BinaryLog

def addParts (log : BinaryLog) (frameType : UInt32) (first : Block) (rest : List Block) :
    Except LogFailure BinaryLog := do
  let log ← log.startAddingFrame frameType (some first.bytes) first.sz
  let log ← log.continueAll rest
  log.addingFrameDone

/-- The log is recording, no frame is being added, and the type behind the last frame is 0. -/
structure Ready (log : BinaryLog) : Prop where
  mode : log.mode = .recording
  currentFrameSize : log.currentFrameSize = 0
  currentFrameType : log.currentFrameType = 0
  fh : log.fh = none
  terminator : log.u32At log.writePos = 0

/-- The log with one more frame: payload, size, the type 0 behind it, and last its own type. -/
def withFrame (log : BinaryLog) (frameType : UInt32) (bytes : List UInt8) : BinaryLog :=
  let h := log.writePos
  let mem := store (store log.mem (h + 8) bytes) (h + 4) (toBytes 4 bytes.length)
  { log with
    mem := store (store mem (h + 8 + bytes.length) (toBytes 4 0)) h (toBytes 4 frameType.toNat)
    writePos := h + 8 + bytes.length }

/-- The log with `bytes` of a frame behind it that is still being added. -/
def adding (log : BinaryLog) (frameType : UInt32) (bytes : List UInt8) : BinaryLog :=
  { log with
    mem := store log.mem (log.writePos + 8) bytes
    currentFrameType := frameType
    fh := some log.writePos
    writePos := log.writePos + 8 + bytes.length
    currentFrameSize := bytes.length }

/-! ## One call -/

/-- The assertions among the steps hold, and the accesses are inside the block. -/
def allowed (size : Nat) : List LogAccess → Prop
  | [] => True
  | .check holds :: rest => holds = true ∧ allowed size rest
  | .load off :: rest => off + 4 ≤ size ∧ allowed size rest
  | .store off bytes :: rest => off + bytes.length ≤ size ∧ allowed size rest

def after : (Nat → UInt8) → List LogAccess → Nat → UInt8
  | mem, [] => mem
  | mem, .store off bytes :: rest => after (store mem off bytes) rest
  | mem, _ :: rest => after mem rest

theorem succeeds_perform (size : Nat) (mem : Nat → UInt8) (steps : List LogAccess) :
    Succeeds (perform size mem steps) (allowed size steps) (· = after mem steps) := by
  induction steps generalizing mem with
  | nil => exact ⟨trivial, rfl⟩
  | cons step rest ih =>
    cases step with
    | check holds =>
      cases holds with
      | false => exact fun h => nomatch h.1
      | true => exact (ih mem).congr (and_iff_right rfl).symm fun _ _ h => h
    | load off => exact Succeeds.of_ite (ih mem)
    | store off bytes => exact Succeeds.of_ite (ih _)

theorem succeeds_exec (log : BinaryLog) (c : LogCall) :
    Succeeds (log.exec c) (allowed log.size (log.accesses c))
      (· = log.finish (after log.mem (log.accesses c)) c) := by
  rw [exec_eq_perform]
  exact (succeeds_perform log.size log.mem (log.accesses c)).map fun _ => congrArg (log.finish · c)

variable {log : BinaryLog} {type : UInt32} {bytes : List UInt8}

/-! ## The frame as a whole -/

theorem Ready.addFrame (h : log.Ready) (htype : type ≠ 0) (data : LogData)
    (hdata : data.ptr.isSome ∨ data.sz = 0) :
    Succeeds (log.addFrame type data.ptr data.sz)
      (log.writePos + 8 + data.sz.toNat + 4 ≤ log.size)
      (· = log.withFrame type (data.ptr.getD [])) := by
  obtain ⟨ptr, sz, hlen⟩ := data
  apply (log.succeeds_exec (.addFrame type ⟨ptr, sz, hlen⟩)).congr
  · cases ptr with
    | none =>
      have hsz : sz = 0 := hdata.resolve_left nofun
      simp [accesses, allowed, h.mode, h.currentFrameSize, h.currentFrameType, h.fh, h.terminator,
        htype, hsz, sizeofFrameHeader]
      omega
    | some bytes =>
      have hsz : bytes.length = sz.toNat := hlen bytes rfl
      simp only [accesses, allowed, List.cons_append, List.nil_append, decide_eq_true_eq]
      simp [h.mode, h.currentFrameSize, h.currentFrameType, h.fh, h.terminator, htype, hsz,
        sizeofFrameHeader]
      omega
  · rintro _ - rfl
    cases ptr with
    | none =>
      cases hdata.resolve_left nofun
      simp [accesses, after, finish, withFrame, sizeofFrameHeader]
    | some bytes =>
      have hsz : bytes.length = sz.toNat := hlen bytes rfl
      simp [accesses, after, finish, withFrame, sizeofFrameHeader, ← hsz]

/-! ## The frame in parts -/

theorem Ready.startAddingFrame (h : log.Ready) (htype : type ≠ 0) (first : Block) :
    Succeeds (log.startAddingFrame type (some first.bytes) first.sz)
      (log.writePos + 8 + first.bytes.length ≤ log.size) (· = log.adding type first.bytes) := by
  apply (log.succeeds_exec (.startAddingFrame type first.data)).congr
  · simp [accesses, allowed, Block.data, first.toNat_sz, h.mode, h.currentFrameSize,
      h.currentFrameType, h.fh, h.terminator, htype, sizeofFrameHeader]
    omega
  · rintro _ - rfl
    simp [accesses, after, finish, adding, Block.data, first.toNat_sz, sizeofFrameHeader]

theorem succeeds_continueAddingFrame (hmode : log.mode = .recording) (htype : type ≠ 0)
    (data : Block) :
    Succeeds ((log.adding type bytes).continueAddingFrame (some data.bytes) data.sz)
      (bytes ≠ [] ∧ log.writePos + 8 + (bytes ++ data.bytes).length ≤ log.size)
      (· = log.adding type (bytes ++ data.bytes)) := by
  apply ((log.adding type bytes).succeeds_exec (.continueAddingFrame data.data)).congr
  · simp [accesses, allowed, adding, Block.data, data.toNat_sz, hmode, htype, Nat.add_assoc,
      and_comm]
  · rintro _ - rfl
    simp [accesses, after, finish, adding, Block.data, data.toNat_sz, store_append, ← Nat.add_assoc]

theorem succeeds_continueAll (hmode : log.mode = .recording) (htype : type ≠ 0)
    (hne : bytes ≠ []) (hfits : log.writePos + 8 + bytes.length ≤ log.size) (rest : List Block) :
    Succeeds ((log.adding type bytes).continueAll rest)
      (log.writePos + 8 + (bytes ++ rest.flatMap Block.bytes).length ≤ log.size)
      (· = log.adding type (bytes ++ rest.flatMap Block.bytes)) := by
  induction rest generalizing bytes with
  | nil =>
    rw [List.flatMap_nil, List.append_nil]
    exact ⟨hfits, rfl⟩
  | cons data rest ih =>
    rw [List.flatMap_cons, ← List.append_assoc]
    apply ((succeeds_continueAddingFrame hmode htype data).bind fun _ hc heq => heq ▸
      ih (List.append_ne_nil_of_left_ne_nil hne _) hc.2).congr
    · have hle : log.writePos + 8 + (bytes ++ data.bytes ++ rest.flatMap Block.bytes).length ≤
          log.size → log.writePos + 8 + (bytes ++ data.bytes).length ≤ log.size := by
        rw [List.length_append]
        omega
      tauto
    · exact fun _ _ h => h

/-- `addingFrameDone` writes the terminator before the size, `addFrame` behind it. -/
theorem Ready.addingFrameDone (h : log.Ready) (htype : type ≠ 0) :
    Succeeds (log.adding type bytes).addingFrameDone
      (bytes ≠ [] ∧ log.writePos + 8 + bytes.length + 4 ≤ log.size)
      (· = log.withFrame type bytes) := by
  apply ((log.adding type bytes).succeeds_exec .addingFrameDone).congr
  · simp [accesses, allowed, adding, h.mode, htype]
    omega
  · rintro _ - rfl
    have hapart : log.writePos + 4 + (toBytes 4 bytes.length).length ≤
        log.writePos + 8 + bytes.length := by
      rw [length_toBytes]
      omega
    simp [accesses, after, finish, adding, withFrame, store_comm _ (.inl hapart), h.fh,
      h.currentFrameSize, h.currentFrameType]

/-- A log that has been given an empty first part refuses whatever comes next. -/
theorem Ready.addParts (h : log.Ready) (htype : type ≠ 0) (first : Block) (rest : List Block) :
    Succeeds (log.addParts type first rest)
      (first.bytes ≠ [] ∧
        log.writePos + 8 + (first.bytes ++ rest.flatMap Block.bytes).length + 4 ≤ log.size)
      (· = log.withFrame type (first.bytes ++ rest.flatMap Block.bytes)) := by
  have hrest : log.writePos + 8 + first.bytes.length ≤ log.size →
      Succeeds ((log.adding type first.bytes).continueAll rest >>= BinaryLog.addingFrameDone)
        (first.bytes ≠ [] ∧
          log.writePos + 8 + (first.bytes ++ rest.flatMap Block.bytes).length + 4 ≤ log.size)
        (· = log.withFrame type (first.bytes ++ rest.flatMap Block.bytes)) := by
    intro hfits
    by_cases hne : first.bytes = []
    · cases rest with
      | nil => exact (h.addingFrameDone htype).congr (by simp) (by simp)
      | cons data rest =>
        apply (((succeeds_continueAddingFrame h.mode htype data).bind_of_not
          fun hc => hc.1 hne).bind_of_not id).congr
        · tauto
        · exact fun _ hfalse _ => hfalse.elim
    · apply ((succeeds_continueAll h.mode htype hne hfits rest).bind fun _ _ heq => heq ▸
        h.addingFrameDone htype).congr
      · have happend := List.append_ne_nil_of_left_ne_nil hne (rest.flatMap Block.bytes)
        have hle : log.writePos + 8 + (first.bytes ++ rest.flatMap Block.bytes).length + 4 ≤
          log.size → log.writePos + 8 + (first.bytes ++ rest.flatMap Block.bytes).length ≤
            log.size := by omega
        tauto
      · exact fun _ _ hQ => hQ
  apply ((h.startAddingFrame htype first).bind fun _ hfits heq => heq ▸ hrest hfits).congr
  · have hle : log.writePos + 8 + (first.bytes ++ rest.flatMap Block.bytes).length + 4 ≤
        log.size → log.writePos + 8 + first.bytes.length ≤ log.size := by
      rw [List.length_append]
      omega
    tauto
  · exact fun _ _ hQ => hQ

end BinaryLog

end NodeCpp
