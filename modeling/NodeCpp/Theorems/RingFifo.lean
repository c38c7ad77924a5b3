import NodeCpp.Buffer.Storage
import NodeCpp.Buffer.Until
import NodeCpp.Lib.Machine

/-!
# CircularByteBuffer is a FIFO, until it writes

A buffer and all the calls that can be made on it, with a record of the bytes that have gone in
and come out.

* `RingWorld.exec` -- one call.
* `RingWorld.Inv.exec` -- every call but `write` keeps the FIFO.
* `RingWorld.exec_wf` -- every call keeps `begin` and `end` inside the block.
* `ring_is_fifo` -- the buffer after every run without `write`.
* `ring_write_drains_iff` -- `write` hands out a prefix of the contents only if they are in one
  piece, or by chance: when they wrap around, its first call passes `end` where it means `begin`.
-/

namespace NodeCpp

open Lib
open CircularByteBuffer (ReaderReply WriterReply)

/-- The calls of `CircularByteBuffer`, with what the reader, the writer and a new block do. -/
inductive RingCall
  | append (block : Nat → UInt8) (data : List UInt8)
  | read (reply₁ reply₂ : ReaderReply) (targetSz : Nat)
  | getReadyData (b : Buffer) (bytes2read : Nat)
  | readReadyDataUntil (b : Buffer) (what : UInt8)
  | tryReadByte
  | readByte
  | write (reply₁ reply₂ : WriterReply)

namespace RingCall

def isWrite : RingCall → Bool
  | write .. => true
  | _ => false

/-- What the assertions at the start of a call ask for. -/
def Admissible (c : CircularByteBuffer) : RingCall → Prop
  | getReadyData b bytes2read => b.size = 0 ∧ bytes2read ≤ b.capacity
  | readReadyDataUntil b _ => b.size = 0 ∧ b.capacity ≠ 0
  | readByte => c.beginOff ≠ c.endOff
  | _ => True

end RingCall

/-- A buffer, all the bytes taken out of it and all the bytes put into it. -/
structure RingWorld where
  buffer : CircularByteBuffer
  taken : List UInt8 := []
  put : List UInt8 := []

namespace RingWorld

def init (block : Nat → UInt8) (szExp : Nat) : RingWorld where
  buffer := .ofSizeExp block szExp

/-- The bytes that have come out of the front. -/
def takes (w : RingWorld) (c : CircularByteBuffer) (bytes : List UInt8) : RingWorld :=
  { w with buffer := c, taken := w.taken ++ bytes }

/-- The bytes that have gone in at the back. -/
def puts (w : RingWorld) (c : CircularByteBuffer) (bytes : List UInt8) : RingWorld :=
  { w with buffer := c, put := w.put ++ bytes }

def exec (w : RingWorld) : RingCall → Except Failure RingWorld
  | .append block data =>
      let (c, done) := w.buffer.append block data
      .ok (w.puts c (if done then data else []))
  | .read reply₁ reply₂ targetSz =>
      let (c, bytes) := w.buffer.readWith reply₁ reply₂ targetSz
      .ok (w.puts c bytes)
  | .getReadyData b bytes2read => do
      let (c, b) ← w.buffer.getReadyData b bytes2read
      .ok (w.takes c b.bytes)
  | .readReadyDataUntil b what => do
      let (c, b, _) ← w.buffer.readReadyDataUntil b what
      .ok (w.takes c b.bytes)
  | .tryReadByte =>
      let (c, found, byte) := w.buffer.tryReadByte
      .ok (w.takes c (if found then [byte] else []))
  | .readByte => do
      let (c, byte) ← w.buffer.readByte
      .ok (w.takes c [byte])
  | .write reply₁ reply₂ =>
      let (c, written) := w.buffer.writeTo reply₁ reply₂
      .ok (w.takes c written.bytes)

/-- What has come out, followed by the contents, is what has gone in. -/
structure Inv (w : RingWorld) : Prop where
  wf : w.buffer.WF
  fifo : w.taken ++ w.buffer.contents = w.put

variable {w w' : RingWorld} {a : RingCall}

/-- A call other than `write` puts bytes in at the back or takes bytes out at the front. -/
inductive Moves (w : RingWorld) : RingWorld → Prop
  | puts {c : CircularByteBuffer} {bytes : List UInt8} (hwf : c.WF)
      (hcontents : c.contents = w.buffer.contents ++ bytes) : Moves w (w.puts c bytes)
  | takes {c : CircularByteBuffer} {bytes : List UInt8} (hwf : c.WF)
      (hcontents : bytes ++ c.contents = w.buffer.contents) : Moves w (w.takes c bytes)

/-- The step lemma, one case per call. -/
theorem exec_moves (hwf : w.buffer.WF) (ha : a.isWrite = false) (hexec : w.exec a = .ok w') :
    w.Moves w' := by
  cases a with
  | append block data =>
    obtain ⟨hwf', htrue, hfalse⟩ := CircularByteBuffer.append_contents hwf block data
    obtain ⟨⟨c, done⟩, hr⟩ : ∃ r, w.buffer.append block data = r := ⟨_, rfl⟩
    rw [hr] at hwf' htrue hfalse
    rw [exec, hr] at hexec
    cases hexec
    cases done with
    | true => exact .puts hwf' (htrue rfl)
    | false =>
      -- no block large enough: nothing is stored
      cases hfalse rfl
      exact .puts hwf' (List.append_nil _).symm
  | read reply₁ reply₂ targetSz =>
    cases hexec
    obtain ⟨hwf', hcontents⟩ := CircularByteBuffer.readWith_contents hwf reply₁ reply₂ targetSz
    exact .puts hwf' hcontents
  | getReadyData b bytes2read =>
    obtain ⟨⟨c, b'⟩, hc, hexec⟩ := bind_eq_ok hexec
    cases hexec
    obtain ⟨hwf', hcontents, -⟩ := CircularByteBuffer.getReadyData_contents hwf hc
    exact .takes hwf' hcontents
  | readReadyDataUntil b what =>
    obtain ⟨⟨c, b', o⟩, hc, hexec⟩ := bind_eq_ok hexec
    cases hexec
    obtain ⟨hwf', hcontents⟩ := CircularByteBuffer.readReadyDataUntil_contents hwf hc
    exact .takes hwf' hcontents
  | tryReadByte =>
    by_cases hempty : w.buffer.beginOff = w.buffer.endOff
    · have hnone : w.buffer.tryReadByte = (w.buffer, false, 0) := by
        simp [CircularByteBuffer.tryReadByte, CircularByteBuffer.empty, hempty]
      rw [exec, hnone] at hexec
      cases hexec
      exact .takes hwf rfl
    · have hone : w.buffer.tryReadByte = (w.buffer.takeByte.1, true, w.buffer.takeByte.2) := by
        simp [CircularByteBuffer.tryReadByte, CircularByteBuffer.empty, hempty]
      obtain ⟨hwf', hcontents⟩ := CircularByteBuffer.takeByte_contents hwf hempty
      rw [exec, hone] at hexec
      cases hexec
      exact .takes hwf' hcontents
  | readByte =>
    obtain ⟨⟨c, byte⟩, hc, hexec⟩ := bind_eq_ok hexec
    cases hexec
    unfold CircularByteBuffer.readByte at hc
    split at hc
    · rename_i hne
      cases hc
      obtain ⟨hwf', hcontents⟩ := CircularByteBuffer.takeByte_contents hwf hne
      exact .takes hwf' hcontents
    · cases hc
  | write reply₁ reply₂ => cases ha

theorem Inv.init (block : Nat → UInt8) (szExp : Nat) : (RingWorld.init block szExp).Inv where
  wf := CircularByteBuffer.ofSizeExp_wf block szExp
  fifo := by
    show [] ++ (CircularByteBuffer.ofSizeExp block szExp).contents = []
    exact CircularByteBuffer.contents_eq_nil_of_empty (b := .ofSizeExp block szExp) rfl

theorem Inv.exec (h : w.Inv) (ha : a.isWrite = false) (hexec : w.exec a = .ok w') : w'.Inv := by
  cases exec_moves h.wf ha hexec with
  | @puts c bytes hwf hcontents =>
    refine ⟨hwf, ?_⟩
    show w.taken ++ c.contents = w.put ++ bytes
    rw [hcontents, ← List.append_assoc, h.fifo]
  | @takes c bytes hwf hcontents =>
    refine ⟨hwf, ?_⟩
    show w.taken ++ bytes ++ c.contents = w.put
    rw [List.append_assoc, hcontents, h.fifo]

theorem exec_wf (hwf : w.buffer.WF) (hexec : w.exec a = .ok w') : w'.buffer.WF := by
  by_cases ha : a.isWrite = false
  · cases exec_moves hwf ha hexec with
    | puts hwf' => exact hwf'
    | takes hwf' => exact hwf'
  · cases a with
    | write reply₁ reply₂ =>
      cases hexec
      exact (CircularByteBuffer.writeTo_contents hwf reply₁ reply₂).1
    | _ => exact absurd rfl ha

theorem exec_ok (hwf : w.buffer.WF) (ha : a.Admissible w.buffer) : ∃ w', w.exec a = .ok w' := by
  cases a with
  | getReadyData b bytes2read =>
    obtain ⟨hempty, hcap⟩ := ha
    have hc : ∃ x, w.buffer.getReadyData b bytes2read = .ok x := by
      unfold CircularByteBuffer.getReadyData
      rw [if_neg (by omega)]
      dsimp only
      split
      · exact ⟨_, rfl⟩
      · split
        · exact ⟨_, rfl⟩
        · split <;> exact ⟨_, rfl⟩
    obtain ⟨x, hx⟩ := hc
    exact ⟨_, by rw [exec, hx]; rfl⟩
  | readReadyDataUntil b what =>
    have hnil : b.bytes = [] := List.length_eq_zero_iff.mp ha.1
    obtain ⟨c, b', hc, -⟩ := CircularByteBuffer.readReadyDataUntil_scan hwf what hnil ha.2
    exact ⟨_, by rw [exec, hc]; rfl⟩
  | readByte =>
    have hc : w.buffer.readByte = .ok w.buffer.takeByte := if_pos ha
    exact ⟨_, by rw [exec, hc]; rfl⟩
  | append | read | tryReadByte | write => exact ⟨_, rfl⟩

end RingWorld

def ring : Machine RingWorld RingCall where
  step w a := (w.exec a).toOption

/-- What holds of a buffer after a run. -/
structure RingCorrect (w : RingWorld) : Prop where
  /-- All bytes taken out and the current contents are all bytes put in. -/
  fifo : w.taken ++ w.buffer.contents = w.put
  usedSize : w.buffer.usedSize = w.buffer.contents.length
  capacity : w.buffer.usedSize + w.buffer.remainingCapacity + 1 = w.buffer.allocSize
  begin_lt : w.buffer.beginOff < w.buffer.allocSize
  end_lt : w.buffer.endOff < w.buffer.allocSize
  /-- An append that returns false changes nothing. -/
  append_false : ∀ block data, (w.buffer.append block data).2 = false →
    (w.buffer.append block data).1 = w.buffer
  /-- A call within its asserted preconditions goes through. -/
  goes_on : ∀ a : RingCall, a.Admissible w.buffer → (ring.step w a).isSome

/-- CircularByteBuffer is a FIFO. -/
theorem ring_is_fifo (block : Nat → UInt8) (szExp : Nat) (acts : List RingCall) (w : RingWorld)
    (hacts : ∀ a ∈ acts, a.isWrite = false)
    (hrun : ring.run (RingWorld.init block szExp) acts = some w) : RingCorrect w := by
  have h : w.Inv := ring.run_kept_of_mem (J := RingWorld.Inv)
    (fun _ _ _ hJ hG hs => hJ.exec hG (toOption_eq_some hs)) (RingWorld.Inv.init block szExp)
    hacts hrun
  exact {
    fifo := h.fifo
    usedSize := (CircularByteBuffer.length_contents h.wf).symm
    capacity := CircularByteBuffer.usedSize_add_remainingCapacity h.wf
    begin_lt := h.wf.begin_lt
    end_lt := h.wf.end_lt
    append_false := fun block data => (CircularByteBuffer.append_contents h.wf block data).2.2
    goes_on := by
      intro a ha
      obtain ⟨w', hw'⟩ := RingWorld.exec_ok h.wf ha
      show ((w.exec a).toOption).isSome
      rw [hw']
      rfl }

/-- A run in which the contents wrap around and then move to a larger block. -/
def wrappingCalls : List RingCall :=
  [.append (fun _ => 0) [1, 2, 3], .getReadyData { capacity := 1024 } 2,
    .append (fun _ => 0) [4], .read ⟨[5], true⟩ ⟨[], false⟩ 1, .append (fun _ => 9) [6, 7],
    .readReadyDataUntil { capacity := 1024 } 5, .tryReadByte, .readByte]

theorem ring_is_fifo_wrapping :
    ∃ w, ring.run (RingWorld.init (fun _ => 0) 2) wrappingCalls = some w ∧ RingCorrect w :=
  let ⟨w, hw⟩ := Option.isSome_iff_exists.mp (show
    (ring.run (RingWorld.init (fun _ => 0) 2) wrappingCalls).isSome by decide)
  ⟨w, hw, ring_is_fifo (fun _ => 0) 2 wrappingCalls w (by decide) hw⟩

/-! ## write -/

/-- A write hands out the first bytes of the contents and leaves the others, exactly if the
contents are in one piece, or the cells at `end` happen to be equal to those at `begin`, as many as
the writer accepts in its first call. -/
theorem ring_write_drains_iff (block : Nat → UInt8) (szExp : Nat) (acts : List RingCall)
    (w : RingWorld) (hrun : ring.run (RingWorld.init block szExp) acts = some w)
    (reply₁ reply₂ : WriterReply) :
    ((w.buffer.writeTo reply₁ reply₂).2.bytes =
          w.buffer.contents.take (w.buffer.writeTo reply₁ reply₂).2.bytesWritten ∧
        (w.buffer.writeTo reply₁ reply₂).1.contents =
          w.buffer.contents.drop (w.buffer.writeTo reply₁ reply₂).2.bytesWritten) ↔
      w.buffer.beginOff ≤ w.buffer.endOff ∨
        segment w.buffer.mem w.buffer.endOff
            (w.buffer.endOff + reply₁.accepted (w.buffer.allocSize - w.buffer.beginOff)) =
          segment w.buffer.mem w.buffer.beginOff
            (w.buffer.beginOff + reply₁.accepted (w.buffer.allocSize - w.buffer.beginOff)) := by
  have hwf : w.buffer.WF := ring.run_kept (J := fun w => w.buffer.WF)
    (fun _ _ _ hJ hs => RingWorld.exec_wf hJ (toOption_eq_some hs))
    (CircularByteBuffer.ofSizeExp_wf block szExp) hrun
  obtain ⟨rest, -, hcount, hbytes, hcontents⟩ :=
    CircularByteBuffer.writeTo_passes hwf reply₁ reply₂
  have hdrop := (CircularByteBuffer.writeTo_contents hwf reply₁ reply₂).2
  -- what is passed over is what should have been handed out
  have htake : w.buffer.contents.take (w.buffer.writeTo reply₁ reply₂).2.bytesWritten =
      segment w.buffer.mem w.buffer.beginOff
        (w.buffer.beginOff + w.buffer.acceptedFirst reply₁) ++ rest := by
    rw [← hcontents, hcount]
    exact List.take_left' (by simp)
  rw [and_iff_left hdrop, htake, hbytes, List.append_left_inj]
  unfold CircularByteBuffer.offeredFirst CircularByteBuffer.acceptedFirst
  by_cases hin : w.buffer.beginOff ≤ w.buffer.endOff
  · rw [if_pos hin]
    exact iff_of_true rfl (.inl hin)
  · rw [if_neg hin, if_neg hin]
    exact (or_iff_right hin).symm

theorem ring_write_drains_iff_onePiece :
    ∃ w, ring.run (RingWorld.init (fun _ => 0) 2) [.append (fun _ => 0) [1, 2, 3]] = some w ∧
      ((w.buffer.writeTo ⟨2, true⟩ ⟨0, false⟩).2.bytes = w.buffer.contents.take 2 ∧
        (w.buffer.writeTo ⟨2, true⟩ ⟨0, false⟩).1.contents = w.buffer.contents.drop 2) :=
  ⟨_, rfl, (ring_write_drains_iff (fun _ => 0) 2 [.append (fun _ => 0) [1, 2, 3]] _ rfl
    ⟨2, true⟩ ⟨0, false⟩).mpr (.inl (by decide))⟩

/-- Four cells, full up to the end and with the front taken: `3, 4` are the contents, `1, 2` are
sent. -/
theorem ring_write_sends_stale :
    ∃ w, ring.run (RingWorld.init (fun _ => 0) 2)
        [.append (fun _ => 0) [1, 2, 3], .getReadyData { capacity := 1024 } 2,
          .append (fun _ => 0) [4]] = some w ∧
      w.buffer.contents = [3, 4] ∧
      (w.buffer.writeTo ⟨2, true⟩ ⟨0, false⟩).2 = ⟨[1, 2], 2⟩ ∧
      (w.buffer.writeTo ⟨2, true⟩ ⟨0, false⟩).1.contents = [] :=
  ⟨_, rfl, by decide, by decide, by decide⟩

/-! ## The write buffer of a socket -/

section

open CircularByteBuffer

/-- A ring and an ideal buffer after the same appends and writes of a socket. -/
inductive SendsAs : CircularByteBuffer → Fifo → Prop
  | new (block : Nat → UInt8) (szExp : Nat) : SendsAs (ofSizeExp block szExp) { sizeExp := szExp }
  | append {b : CircularByteBuffer} {f : Fifo} (h : SendsAs b f) (block : Nat → UInt8)
      (data : List UInt8) (hdone : (b.append block data).2 = true) :
      SendsAs (b.append block data).1 (f.append data)
  | write {b : CircularByteBuffer} {f : Fifo} (h : SendsAs b f) (os : Fifo.WriteReplies)
      (hcut : os.cut = b.cutAt) :
      SendsAs (b.writeTo (socketWriter (f.firstLen os.cut) os.first)
        (socketWriter b.endOff os.second)).1 (f.write os).1

variable {b : CircularByteBuffer} {f : Fifo}

theorem SendsAs.fifo (h : SendsAs b f) : b.WF ∧ b.fifo = f := by
  induction h with
  | new block szExp => exact ⟨ofSizeExp_wf block szExp, rfl⟩
  | append _ block data hdone ih =>
    obtain ⟨hwf, rfl⟩ := ih
    exact ⟨(append_contents hwf block data).1, append_fifo hwf block hdone⟩
  | write _ os hcut ih =>
    obtain ⟨hwf, rfl⟩ := ih
    exact ⟨(writeTo_contents hwf _ _).1, (writeTo_fifo hwf hcut).1⟩

/-- In every run the ring holds what the ideal buffer holds, in a block of the same size, and sends as
many bytes. -/
theorem ring_refines_fifo (h : SendsAs b f) :
    b.contents = f.contents ∧ b.sizeExp = f.sizeExp ∧ ∀ os, os.cut = b.cutAt →
      (b.writeTo (socketWriter (f.firstLen os.cut) os.first)
        (socketWriter b.endOff os.second)).2.bytesWritten = (f.write os).2.sentSize := by
  obtain ⟨hwf, rfl⟩ := h.fifo
  exact ⟨rfl, rfl, fun os hcut => (writeTo_fifo hwf hcut).2⟩

/-- The kernel takes two of three bytes, and two more are appended: the contents wrap around, and the
next write sends all three bytes in two pieces. -/
theorem ring_refines_fifo_wrapped :
    ∃ b f, SendsAs b f ∧ b.contents = f.contents ∧ f.contents = [3, 4, 5] ∧ b.cutAt = 2 ∧
      (b.writeTo (socketWriter (f.firstLen 2) (.sent 2))
      (socketWriter b.endOff (.sent 1))).2.bytesWritten
        = 3 := by
  have hfirst := SendsAs.append (.new (fun _ => 0) 2) (fun _ => 0) [1, 2, 3] rfl
  have hwritten := hfirst.write { first := .sent 2 } rfl
  have hwrapped := hwritten.append (fun _ => 0) [4, 5] rfl
  obtain ⟨hcontents, -, hwrite⟩ := ring_refines_fifo hwrapped
  refine ⟨_, _, hwrapped, hcontents, rfl, rfl, ?_⟩
  exact hwrite { cut := 2, first := .sent 2, second := .sent 1 } rfl

end

end NodeCpp
