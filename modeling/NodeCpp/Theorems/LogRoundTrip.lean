import NodeCpp.Replay.Frames

/-!
# The round trip of the binary log

While frames are recorded, the memory from the header to `writePos` is the encodings of the frames
one behind the other (`Recorded`), whichever way they are added (`Recorded.withFrame`). A reader
takes its frames off the front of what is left of the file (`Replaying`).

The reader asks for at least one byte behind the header of a frame. A frame without a payload is
read if another frame stands behind it, and is not if it is the last one.
-/

namespace NodeCpp

open Lib

namespace Frame

def encode (f : Frame) : List UInt8 := toBytes 4 f.type.toNat ++ (toBytes 4 f.size ++ f.payload)

@[simp] theorem length_encode (f : Frame) : f.encode.length = 8 + f.payload.length := by
  simp only [encode, List.length_append, length_toBytes]
  omega

end Frame

def encodeAll (frames : List Frame) : List UInt8 := frames.flatMap Frame.encode

theorem encodeAll_append (frames : List Frame) (f : Frame) :
    encodeAll (frames ++ [f]) = encodeAll frames ++ f.encode := by
  simp [encodeAll]

theorem encodeAll_cons (f : Frame) (frames : List Frame) :
    encodeAll (f :: frames) = f.encode ++ encodeAll frames := List.flatMap_cons

/-- A frame whose size is its size, and small enough for the header. -/
structure Frame.Valid (f : Frame) : Prop where
  type_ne : f.type ≠ 0
  size_eq : f.size = f.payload.length
  size_lt : f.size < 256 ^ 4

/-- The last frame, if there is any, has a payload. -/
def EndsWithPayload (frames : List Frame) : Prop := ∀ f ∈ frames.getLast?, f.payload ≠ []

theorem EndsWithPayload.tail {f : Frame} {frames : List Frame}
    (h : EndsWithPayload (f :: frames)) : EndsWithPayload frames := by
  intro g hg
  apply h g
  cases frames with
  | nil => cases hg
  | cons f' frames => rwa [List.getLast?_cons_cons]

/-- A frame that is added in parts has something in the first one. -/
def Payload.wellStarted : Payload → Prop
  | .parts first _ => first.bytes ≠ []
  | _ => True

namespace BinaryLog

variable {log log' : BinaryLog} {frames : List Frame} {bytes : List UInt8} {type : UInt32}

/-! ## What one access does -/

theorem assert_pos {p : Prop} [Decidable p] (h : p) : assert p = .ok () := if_pos h

theorem succeeds_assert {p : Prop} [Decidable p] : Succeeds (assert p) p fun _ => True :=
  Succeeds.ite.congr Iff.rfl fun _ _ _ => trivial

theorem succeeds_write (off : Nat) (bytes : List UInt8) :
    Succeeds (log.write off bytes) (off + bytes.length ≤ log.size)
      (· = { log with mem := store log.mem off bytes }) := Succeeds.ite

theorem succeeds_write32 (off n : Nat) :
    Succeeds (log.write32 off n) (off + 4 ≤ log.size)
      (· = { log with mem := store log.mem off (toBytes 4 n) }) := by
  have h := log.succeeds_write off (toBytes 4 n)
  rw [length_toBytes] at h
  exact h

/-! ## Recording -/

structure Recorded (log : BinaryLog) (frames : List Frame) : Prop where
  mode : log.mode = .recording
  currentFrameSize : log.currentFrameSize = 0
  currentFrameType : log.currentFrameType = 0
  fh : log.fh = none
  writePos : log.writePos = 40 + (encodeAll frames).length
  room : log.writePos + 4 ≤ log.size
  header : segment log.mem 16 24 = toBytes 8 0
  image : segment log.mem 40 log.writePos = encodeAll frames
  terminator : segment log.mem log.writePos (log.writePos + 4) = toBytes 4 0

theorem freshLog_room (allocated : Nat → UInt8) {szExp : Nat} (hexp : 16 ≤ szExp) :
    (freshLog allocated szExp).writePos + 4 ≤ (freshLog allocated szExp).size := by
  have hpow : 2 ^ 16 ≤ 2 ^ szExp := Nat.pow_le_pow_right (by decide) hexp
  show sizeofLogHeader + 4 ≤ 2 ^ szExp
  rw [sizeofLogHeader]
  omega

theorem succeeds_initForRecording (allocated : Nat → UInt8) (szExp : Nat) :
    Succeeds (BinaryLog.initForRecording {} allocated szExp) (16 ≤ szExp ∧ szExp ≤ 48)
      (· = freshLog allocated szExp) := by
  apply Succeeds.congr
  · apply Succeeds.bind succeeds_assert
    intro _ _ _
    apply Succeeds.bind succeeds_assert
    intro _ _ _
    apply Succeeds.bind succeeds_assert
    intro _ _ _
    exact succeeds_write32 _ _
  · constructor
    · rintro ⟨-, h₁, h₂, -⟩
      exact ⟨h₁, h₂⟩
    · rintro ⟨h₁, h₂⟩
      exact ⟨rfl, h₁, h₂, freshLog_room allocated h₁⟩
  · rintro _ - rfl
    rfl

/-- The header of the log is never written, and its size is read. -/
theorem freshLog_recorded {allocated : Nat → UInt8} {szExp : Nat}
    (hheader : segment allocated 16 24 = toBytes 8 0) (hexp : 16 ≤ szExp) :
    (freshLog allocated szExp).Recorded [] where
  mode := rfl
  currentFrameSize := rfl
  currentFrameType := rfl
  fh := rfl
  writePos := rfl
  room := freshLog_room allocated hexp
  header := by
    rw [← hheader]
    exact segment_store_of_disjoint _ _ _ (.inl (show 24 ≤ sizeofLogHeader by decide))
  image := segment_self _ _
  terminator := segment_store_eq _ rfl

namespace Recorded

theorem ready (h : log.Recorded frames) : log.Ready where
  mode := h.mode
  currentFrameSize := h.currentFrameSize
  currentFrameType := h.currentFrameType
  fh := h.fh
  terminator := by
    rw [u32At, h.terminator]
    rfl

theorem withFrame (h : log.Recorded frames) (type : UInt32) (bytes : List UInt8)
    (hroom : log.writePos + 8 + bytes.length + 4 ≤ log.size) :
    (log.withFrame type bytes).Recorded (frames ++ [⟨type, bytes.length, bytes⟩]) := by
  have hpos := h.writePos
  have hbefore : ∀ {lo hi : Nat}, hi ≤ log.writePos →
      segment (log.withFrame type bytes).mem lo hi = segment log.mem lo hi := by
    intro lo hi hle
    simp only [BinaryLog.withFrame]
    rw [segment_store_of_disjoint _ _ _ (.inl hle),
      segment_store_of_disjoint _ _ _ (.inl (by omega)),
      segment_store_of_disjoint _ _ _ (.inl (by omega)),
      segment_store_of_disjoint _ _ _ (.inl (by omega))]
  refine ⟨h.mode, h.currentFrameSize, h.currentFrameType, h.fh, ?_, hroom, ?_, ?_, ?_⟩
  · show log.writePos + 8 + bytes.length = _
    rw [hpos, encodeAll_append, List.length_append, Frame.length_encode, Nat.add_assoc,
      Nat.add_assoc]
  · rw [hbefore (by omega), h.header]
  · -- the frames before, the header and the payload
    rw [encodeAll_append, Frame.encode, ← h.image, ← hbefore le_rfl]
    show segment _ 40 (log.writePos + 8 + bytes.length) = _
    rw [← segment_append _ (show 40 ≤ log.writePos by omega) (by omega),
      ← segment_append _ (show log.writePos ≤ log.writePos + 4 by omega) (by omega),
      ← segment_append _ (show log.writePos + 4 ≤ log.writePos + 8 by omega) (by omega)]
    congr 2
    · exact segment_store_eq _ (by rw [length_toBytes])
    · simp only [BinaryLog.withFrame]
      congr 1
      · rw [segment_store_of_disjoint _ _ _ (.inr (by rw [length_toBytes])),
          segment_store_of_disjoint _ _ _ (.inl (by omega))]
        exact segment_store_eq _ (by rw [length_toBytes])
      · rw [segment_store_of_disjoint _ _ _ (.inr (by rw [length_toBytes]; omega)),
          segment_store_of_disjoint _ _ _ (.inl le_rfl),
          segment_store_of_disjoint _ _ _ (.inr (by rw [length_toBytes])), segment_store_self]
  · simp only [BinaryLog.withFrame]
    rw [segment_store_of_disjoint _ _ _ (.inr (by rw [length_toBytes]; omega))]
    exact segment_store_eq _ (by rw [length_toBytes])

theorem record (h : log.Recorded frames) (f : RecordedFrame) :
    Succeeds (log.record f)
      (f.payload.wellStarted ∧ log.writePos + f.frame.encode.length + 4 ≤ log.size) fun log' =>
        log'.Recorded (frames ++ [f.frame]) ∧ log'.size = log.size := by
  obtain ⟨type, htype, payload⟩ := f
  cases payload with
  | null =>
    apply (h.ready.addFrame htype ⟨none, 0, nofun⟩ (.inr rfl)).congr
    · simp [Payload.wellStarted, RecordedFrame.frame, Payload.bytes]
    · rintro _ hroom rfl
      exact ⟨h.withFrame type [] hroom, rfl⟩
  | whole data =>
    have hsz : data.data.sz.toNat = data.bytes.length := data.toNat_sz
    apply (h.ready.addFrame htype data.data (.inl rfl)).congr
    · simp [Payload.wellStarted, RecordedFrame.frame, Payload.bytes, hsz, Nat.add_assoc]
    · rintro _ hroom rfl
      rw [hsz] at hroom
      exact ⟨h.withFrame type data.bytes hroom, rfl⟩
  | parts first rest =>
    apply (h.ready.addParts htype first rest).congr
    · simp [Payload.wellStarted, RecordedFrame.frame, Payload.bytes, Nat.add_assoc]
    · rintro _ ⟨-, hroom⟩ rfl
      exact ⟨h.withFrame type _ hroom, rfl⟩

end Recorded

theorem Recorded.recordAll (h : log.Recorded frames) (fs : List RecordedFrame) :
    Succeeds (log.recordAll fs)
      ((∀ f ∈ fs, f.payload.wellStarted) ∧
        log.writePos + (encodeAll (fs.map RecordedFrame.frame)).length + 4 ≤ log.size) fun log' =>
          log'.Recorded (frames ++ fs.map RecordedFrame.frame) ∧ log'.size = log.size := by
  induction fs generalizing log frames with
  | nil =>
    refine ⟨⟨List.forall_mem_nil _, h.room⟩, ?_, rfl⟩
    simpa using h
  | cons f fs ih =>
    have hrest : ∀ log₁ : BinaryLog, log₁.Recorded (frames ++ [f.frame]) ∧ log₁.size = log.size →
        Succeeds (log₁.recordAll fs) ((∀ f ∈ fs, f.payload.wellStarted) ∧
          log.writePos + f.frame.encode.length +
            (encodeAll (fs.map RecordedFrame.frame)).length + 4 ≤ log.size) fun log' =>
          log'.Recorded (frames ++ (f :: fs).map RecordedFrame.frame) ∧
            log'.size = log.size := by
      rintro log₁ ⟨h₁, hsize⟩
      have hpos : log₁.writePos = log.writePos + f.frame.encode.length := by
        rw [h₁.writePos, h.writePos, encodeAll_append, List.length_append, Nat.add_assoc]
      rw [← hsize, ← hpos, List.map_cons, List.append_cons]
      exact ih h₁
    apply ((h.record f).bind fun log₁ _ => hrest log₁).congr
    · rw [List.forall_mem_cons, List.map_cons, encodeAll_cons, List.length_append]
      have hle : log.writePos + f.frame.encode.length +
          (encodeAll (fs.map RecordedFrame.frame)).length + 4 ≤ log.size →
          log.writePos + f.frame.encode.length + 4 ≤ log.size := by omega
      rw [← Nat.add_assoc log.writePos]
      tauto
    · exact fun _ _ hQ => hQ

/-! ## Replaying -/

/-- What is left of the log at `p` is the frames, and nothing behind them. -/
structure Replaying (log : BinaryLog) (p : Nat) (left : List Frame) : Prop where
  image : segment log.mem p log.size = encodeAll left
  ends : p + (encodeAll left).length = log.size

variable {f : Frame} {left : List Frame} {p : Nat}

namespace Replaying

theorem fields (h : log.Replaying p (f :: left)) (hf : f.Valid) :
    log.u32At p = f.type.toNat ∧ log.u32At (p + 4) = f.size ∧
      segment log.mem (p + 8) (p + 8 + f.size) = f.payload := by
  have himage := h.image
  rw [encodeAll_cons, Frame.encode, List.append_assoc, List.append_assoc] at himage
  obtain ⟨htype, himage⟩ := segment_eq_append himage
  rw [length_toBytes] at htype himage
  obtain ⟨hsize, himage⟩ := segment_eq_append himage
  rw [length_toBytes] at hsize himage
  obtain ⟨hpayload, -⟩ := segment_eq_append himage
  refine ⟨?_, ?_, ?_⟩
  · rw [u32At, htype, ofBytes_toBytes f.type.toNat_lt]
  · rw [u32At, hsize, ofBytes_toBytes hf.size_lt]
  · rw [hf.size_eq]
    exact hpayload

theorem tail (h : log.Replaying p (f :: left)) (hf : f.Valid) :
    log.Replaying (p + 8 + f.size) left := by
  have himage := h.image
  have hends := h.ends
  rw [encodeAll_cons] at himage hends
  obtain ⟨-, himage⟩ := segment_eq_append himage
  rw [Frame.length_encode, ← hf.size_eq, ← Nat.add_assoc] at himage
  rw [List.length_append, Frame.length_encode, ← hf.size_eq] at hends
  exact ⟨himage, by omega⟩

theorem nextFrame (h : log.Replaying p (f :: left)) (hf : f.Valid) :
    log.nextFrame p = p + 8 + f.size := by
  rw [BinaryLog.nextFrame, (h.fields hf).2.1, sizeofFrameHeader]

theorem hasFrame (h : log.Replaying p (f :: left)) (hf : f.Valid)
    (hlast : EndsWithPayload (f :: left)) : log.hasFrame p = true := by
  obtain ⟨htype, hsize, -⟩ := h.fields hf
  have hends := (h.tail hf).ends
  have hne : f.type.toNat ≠ 0 := fun hzero => hf.type_ne (UInt32.toNat_inj.mp hzero)
  have hbehind : 0 < f.size + (encodeAll left).length := by
    cases left with
    | nil =>
      have hpos := List.length_pos_iff.mpr (hlast f rfl)
      rw [hf.size_eq]
      omega
    | cons g left =>
      rw [encodeAll_cons, List.length_append, Frame.length_encode]
      omega
  simp only [BinaryLog.hasFrame, htype, hsize, sizeofFrameHeader, Bool.and_eq_true,
    decide_eq_true_eq]
  exact ⟨⟨decide_eq_true (by omega), hne⟩, by omega⟩

theorem not_hasFrame (h : log.Replaying p []) : log.hasFrame p = false := by
  have hends : p + 0 = log.size := h.ends
  have hnot : ¬p + sizeofFrameHeader < log.size := by rw [sizeofFrameHeader]; omega
  simp [BinaryLog.hasFrame, hnot]

theorem not_hasFrame_of_empty (h : log.Replaying p [f]) (hempty : f.payload = []) :
    log.hasFrame p = false := by
  have hends : p + (encodeAll [f]).length = log.size := h.ends
  rw [encodeAll_cons, List.length_append, Frame.length_encode, hempty] at hends
  have hnot : ¬p + sizeofFrameHeader < log.size := by
    rw [← hends]
    exact Nat.lt_irrefl _
  simp [BinaryLog.hasFrame, hnot]

theorem walkFrames (h : log.Replaying p left) (hvalid : ∀ f ∈ left, f.Valid)
    (hlast : EndsWithPayload left) : log.walkFrames p = left.length := by
  induction left generalizing p with
  | nil => rw [BinaryLog.walkFrames, dif_neg (by simp [h.not_hasFrame]), List.length_nil]
  | cons f left ih =>
    obtain ⟨hf, hvalid⟩ := List.forall_mem_cons.mp hvalid
    rw [BinaryLog.walkFrames, dif_pos (h.hasFrame hf hlast), h.nextFrame hf,
      ih (h.tail hf) hvalid hlast.tail, List.length_cons]

theorem readNextFrame (h : log.Replaying p (f :: left)) (hmode : log.mode = .replaying)
    (hfh : log.fh = some p) (hf : f.Valid) (hlast : EndsWithPayload (f :: left)) :
    ∃ log', log.readNextFrame = .ok (log', ⟨p + 8, f.size, f.type⟩) ∧ log'.mode = .replaying ∧
      log'.fh = some (p + 8 + f.size) ∧ log'.mem = log.mem ∧ log'.size = log.size := by
  obtain ⟨htype, hsize, -⟩ := h.fields hf
  have hnext := h.nextFrame hf
  refine ⟨{ log with fh := some (p + 8 + f.size), frameIdx := log.frameIdx + 1 }, ?_, hmode, rfl,
    rfl, rfl⟩
  simp only [BinaryLog.readNextFrame, assert_pos hmode, hfh, Option.getD_some,
    assert_pos (h.hasFrame hf hlast), ok_bind, htype, hsize, hnext, sizeofFrameHeader,
    UInt32.ofNat_toNat]
  rfl

theorem readFrames (h : log.Replaying p left) (hmode : log.mode = .replaying)
    (hfh : log.fh = some p) (hvalid : ∀ f ∈ left, f.Valid) (hlast : EndsWithPayload left) :
    ∃ log', log.readFrames left.length = .ok (log', left) := by
  induction left generalizing log p with
  | nil => exact ⟨log, rfl⟩
  | cons f left ih =>
    obtain ⟨hf, hvalid⟩ := List.forall_mem_cons.mp hvalid
    obtain ⟨-, -, hpayload⟩ := h.fields hf
    have htail := h.tail hf
    obtain ⟨log₁, hread₁, hmode₁, hfh₁, hmem, hsize⟩ := h.readNextFrame hmode hfh hf hlast
    obtain ⟨log', hread⟩ := ih ⟨by rw [hmem, hsize, htail.image], by rw [hsize, htail.ends]⟩
      hmode₁ hfh₁ hvalid hlast.tail
    refine ⟨log', ?_⟩
    simp only [List.length_cons, BinaryLog.readFrames, hread₁, ok_bind, hread, hmem, hpayload]
    rfl

end Replaying

def span (frames : List Frame) : Nat := (frames.map fun f => 8 + f.size).sum

/-- What has been read lies within the log, the last header with something behind it. -/
theorem readFrames_bounds {n : Nat} {read : List Frame}
    (h : log.readFrames n = .ok (log', read)) {last : Frame} (hlast : last ∈ read.getLast?) :
    log.fh.getD 0 + span read ≤ log.size ∧ log.fh.getD 0 + span read < log.size + last.size := by
  induction n generalizing log read with
  | zero =>
    cases h
    cases hlast
  | succ n ih =>
    obtain ⟨⟨log₁, fd⟩, hread₁, h⟩ := bind_eq_ok h
    obtain ⟨⟨log₂, frames⟩, hread, h⟩ := bind_eq_ok h
    cases h
    obtain ⟨-, -, h₁⟩ := bind_eq_ok hread₁
    obtain ⟨_, hassert, h₁⟩ := bind_eq_ok h₁
    cases h₁
    have hhas := (succeeds_assert.of_ok hassert).1
    obtain ⟨hle, hlt⟩ := nextFrame_le hhas
    simp only [nextFrame, sizeofFrameHeader] at hle hlt
    simp only [span, List.map_cons, List.sum_cons]
    cases frames with
    | nil =>
      cases hlast
      simp only [List.map_nil, List.sum_nil, List.getLast_singleton]
      omega
    | cons f frames =>
      rw [List.getLast?_cons_cons] at hlast
      have hrest := ih hread hlast
      simp only [span, Option.getD_some, nextFrame, sizeofFrameHeader] at hrest
      omega

theorem span_frames (fs : List RecordedFrame) :
    span (fs.map RecordedFrame.frame) = (encodeAll (fs.map RecordedFrame.frame)).length := by
  induction fs with
  | nil => rfl
  | cons f fs ih =>
    rw [List.map_cons, encodeAll_cons, List.length_append, ← ih, Frame.length_encode]
    rfl

theorem Recorded.initForReplaying (h : log.Recorded frames) (allocated : Nat → UInt8) :
    ∃ replay, BinaryLog.initForReplaying {} allocated log.deinit = .ok replay ∧
      replay.mode = .replaying ∧ replay.fh = some 40 ∧ replay.headerSize ≤ replay.size ∧
      replay.size = min maxBuffsize log.writePos ∧
      (log.writePos ≤ maxBuffsize → replay.Replaying 40 frames) := by
  have hpos := h.writePos
  have hdeinit : log.deinit = some (segment log.mem 0 log.writePos) := if_pos h.mode
  have hlarge : 40 ≤ min maxBuffsize log.writePos := by
    rw [maxBuffsize]
    omega
  have hlen : (segment log.mem 0 (min maxBuffsize log.writePos)).length =
      min maxBuffsize log.writePos := by rw [length_segment, Nat.sub_zero]
  -- the file has all of the header, so nothing of what was allocated is left in it
  have hheader : ofBytes (segment (store allocated 0
      (segment log.mem 0 (min maxBuffsize log.writePos))) 16 24) = 0 := by
    rw [segment_store_segment _ _ (by omega), h.header]
    decide
  refine ⟨{
    mode := .replaying
    size := min maxBuffsize log.writePos
    mem := store allocated 0 (segment log.mem 0 (min maxBuffsize log.writePos))
    fh := some sizeofLogHeader }, ?_, rfl, rfl, ?_, rfl, ?_⟩
  · have hsome : (some (segment log.mem 0 log.writePos)).isSome = true := rfl
    have hnonempty : 0 < min maxBuffsize log.writePos := by omega
    simp only [BinaryLog.initForReplaying, dbgWalkThrougFrames, headerSize, hdeinit,
      assert_pos hsome, Option.getD_some, take_segment, hlen, hheader, assert_pos hnonempty,
      assert_pos (Nat.zero_le _), assert_pos trivial, ok_bind]
    rfl
  · rw [headerSize, hheader]
    exact Nat.zero_le _
  · intro hle
    have hmin : min maxBuffsize log.writePos = log.writePos := Nat.min_eq_right hle
    refine ⟨?_, ?_⟩
    · simp only [hmin]
      rw [segment_store_segment _ _ le_rfl, h.image]
    · exact (hmin.trans hpos).symm

theorem length_payload_le {f : Frame} (hf : f ∈ frames) :
    f.payload.length ≤ (encodeAll frames).length := by
  induction frames with
  | nil => cases hf
  | cons g frames ih =>
    rw [encodeAll_cons, List.length_append, Frame.length_encode]
    rcases List.mem_cons.mp hf with rfl | hf
    · omega
    · have := ih hf
      omega

end BinaryLog

open BinaryLog

/-- If the size in the header of the log is 0 as allocated, frames recorded in the log are read back
from its file exactly if every frame added in parts has something in the first one, the last frame
has a payload, the memory has room for the frames and the terminator behind them, and the file is
not larger than what is read of it. -/
theorem log_round_trip_iff {recording : Nat → UInt8}
    (hheader : segment recording 16 24 = toBytes 8 0) (replaying : Nat → UInt8) (szExp : Nat)
    (hexp : 16 ≤ szExp ∧ szExp ≤ 48) (fs : List RecordedFrame) :
    roundTrip recording replaying szExp fs = .ok (fs.length, fs.map RecordedFrame.frame) ↔
      (∀ f ∈ fs, f.payload.wellStarted) ∧ EndsWithPayload (fs.map RecordedFrame.frame) ∧
        40 + (encodeAll (fs.map RecordedFrame.frame)).length + 4 ≤ 2 ^ szExp ∧
        40 + (encodeAll (fs.map RecordedFrame.frame)).length ≤ maxBuffsize := by
  obtain ⟨_, hinit, rfl⟩ := (succeeds_initForRecording recording szExp).of_cond hexp
  have hrecord := (freshLog_recorded hheader hexp.1).recordAll fs
  change Succeeds _ (_ ∧ 40 + _ + 4 ≤ 2 ^ szExp) _ at hrecord
  constructor
  · intro h
    obtain ⟨log₁, hinit₁, h⟩ := bind_eq_ok h
    cases hinit.symm.trans hinit₁
    obtain ⟨log, hlog, h⟩ := bind_eq_ok h
    obtain ⟨⟨hstarted, hroom⟩, hrec, -⟩ := hrecord.of_ok hlog
    obtain ⟨replay, hreplay, -, hfh, -, hsize, -⟩ := hrec.initForReplaying replaying
    obtain ⟨replay₁, hreplay₁, h⟩ := bind_eq_ok h
    cases hreplay.symm.trans hreplay₁
    obtain ⟨count, -, h⟩ := bind_eq_ok h
    obtain ⟨⟨log', read⟩, hread, h⟩ := bind_eq_ok h
    cases h
    have hpos := hrec.writePos
    rw [List.nil_append] at hpos
    -- the last frame that has been read ends within the file, and its header before the end
    have hbounds : ∀ last ∈ (fs.map RecordedFrame.frame).getLast?, last.payload ≠ [] ∧
        40 + (encodeAll (fs.map RecordedFrame.frame)).length ≤ maxBuffsize := by
      intro last hlast
      have h := readFrames_bounds hread hlast
      obtain ⟨f, -, rfl⟩ := List.mem_map.mp (List.mem_of_mem_getLast? hlast)
      rw [hfh, Option.getD_some, span_frames, hsize] at h
      refine ⟨?_, by omega⟩
      rw [← List.length_pos_iff]
      show 0 < f.frame.size
      omega
    refine ⟨hstarted, fun last hlast => (hbounds last hlast).1, hroom, ?_⟩
    cases hlast : (fs.map RecordedFrame.frame).getLast? with
    | none =>
      rw [List.getLast?_eq_none_iff.mp hlast]
      decide
    | some last => exact (hbounds last hlast).2
  · rintro ⟨hstarted, hlast, hroom, hfile⟩
    obtain ⟨log, hlog, hrec, -⟩ := hrecord.of_cond ⟨hstarted, hroom⟩
    have hpos := hrec.writePos
    rw [List.nil_append] at hrec hpos
    obtain ⟨replay, hreplay, hmode, hfh, hheader, hsize, himage⟩ := hrec.initForReplaying replaying
    have hvalid : ∀ f ∈ fs.map RecordedFrame.frame, f.Valid := by
      intro f hf
      have hle := length_payload_le hf
      obtain ⟨r, -, rfl⟩ := List.mem_map.mp hf
      refine ⟨r.type_ne, rfl, ?_⟩
      show r.frame.payload.length < 256 ^ 4
      rw [maxBuffsize] at hfile
      omega
    have hleft := himage (by omega)
    obtain ⟨log', hread⟩ := hleft.readFrames hmode hfh hvalid hlast
    have hwalk := hleft.walkFrames hvalid hlast
    rw [List.length_map] at hread hwalk
    simp only [roundTrip, hinit, hlog, hreplay, dbgWalkThrougFrames, assert_pos hmode,
      assert_pos hheader, sizeofLogHeader, hwalk, hread, ok_bind]
    rfl

/-- A call of the main function, and data that arrives in two parts. -/
def twoFrames : List RecordedFrame :=
  [⟨1, by decide, .null⟩, ⟨11, by decide, .parts ⟨[1, 2], by decide⟩ [⟨[3], by decide⟩]⟩]

theorem log_round_trip_iff_two :
    (16 ≤ 16 ∧ 16 ≤ 48) ∧ roundTrip (fun _ => 0) (fun _ => 0) 16 twoFrames =
      .ok (2, [⟨1, 0, []⟩, ⟨11, 3, [1, 2, 3]⟩]) := by
  refine ⟨by decide,
    (log_round_trip_iff (by decide) (fun _ => 0) 16 (by decide) twoFrames).mpr ⟨?_, ?_, ?_, ?_⟩⟩
  · intro f hf
    simp only [twoFrames, List.mem_cons, List.not_mem_nil, or_false] at hf
    rcases hf with rfl | rfl
    · trivial
    · exact List.cons_ne_nil 1 [2]
  · rintro last ⟨⟩
    exact List.cons_ne_nil 1 [2, 3]
  · decide
  · decide

/-- The call of the main function is the only frame. It is in the file, and it is not read. -/
theorem main_call_lost :
    roundTrip (fun _ => 0) (fun _ => 0) 16 [⟨1, by decide, .null⟩] = .error .assertion := by
  obtain ⟨_, hinit, rfl⟩ := (succeeds_initForRecording (fun _ => 0) 16).of_cond (by decide)
  have h₀ : (freshLog (fun _ => 0) 16).Recorded [] := freshLog_recorded (by decide) le_rfl
  obtain ⟨log, hlog, hrec, -⟩ := (h₀.recordAll [⟨1, by decide, .null⟩]).of_cond
    ⟨by simp [Payload.wellStarted], show 40 + 8 + 4 ≤ 2 ^ 16 by decide⟩
  have hpos : log.writePos = 48 := hrec.writePos
  obtain ⟨replay, hreplay, hmode, hfh, hheader, -, himage⟩ := hrec.initForReplaying fun _ => 0
  have hleft := himage (by rw [hpos]; decide)
  have hlost := hleft.not_hasFrame_of_empty rfl
  simp only [roundTrip, hinit, hlog, hreplay, dbgWalkThrougFrames, assert_pos hmode,
    assert_pos hheader, ok_bind, List.length_singleton, readFrames, readNextFrame, hfh,
    Option.getD_some, hlost]
  rfl

end NodeCpp
