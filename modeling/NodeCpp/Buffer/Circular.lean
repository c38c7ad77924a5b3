import NodeCpp.Lib.Segment
import NodeCpp.Net.Os

/-!
# CircularByteBuffer: the reading side

The ring buffer of `net_common.h` with its physical layout: a block of
`alloc_size()` cells and the offsets `begin` and `end` into it. The buffer is
full with one cell unused, so that `begin == end` always means empty.

`contents` is the byte sequence the buffer holds. The calls of the reading side are
characterised by what they do to it:

* `read` appends exactly what the reader delivered, whoever it is (`readWith_contents`), and so
  with the reader of the sockets (`read_readWith`, `read_contents`);
* `get_ready_data` takes a prefix (`getReadyData_contents`).
-/

namespace NodeCpp

open Lib

variable {b b' : CircularByteBuffer} {bytes : List UInt8} {r : RecvResult}
  {reply₁ reply₂ : RecvReply} {targetSz : Nat}

/-! ## Buffer, the linear byte buffer -/

def minBuffer : Nat := 1024

/-- `Buffer`: the bytes in use and the capacity of the block behind them (0 when there is
none). -/
structure Buffer where
  bytes : List UInt8 := []
  capacity : Nat := 0
  deriving DecidableEq, Repr

namespace Buffer

def size (b : Buffer) : Nat := b.bytes.length

/-- `ensureCapacity`: both branches, no block yet and a block that is too small, allocate at
least `MIN_BUFFER` cells. -/
def ensureCapacity (b : Buffer) (sz : Nat) : Buffer :=
  if b.capacity = 0 ∨ b.capacity < sz then { b with capacity := max sz minBuffer } else b

def append (b : Buffer) (dt : List UInt8) : Buffer :=
  let b := b.ensureCapacity (b.size + dt.length)
  { b with bytes := b.bytes ++ dt }

def appendUint8 (b : Buffer) (val : UInt8) : Buffer := b.append [val]

def clear (b : Buffer) : Buffer := { b with bytes := [] }

@[simp] theorem bytes_append (b : Buffer) (dt : List UInt8) :
    (b.append dt).bytes = b.bytes ++ dt := by
  simp only [append, ensureCapacity]
  split <;> rfl

@[simp] theorem bytes_appendUint8 (b : Buffer) (val : UInt8) :
    (b.appendUint8 val).bytes = b.bytes ++ [val] :=
  b.bytes_append [val]

end Buffer

/-! ## The ring -/

/-- `CircularByteBuffer`; `beginOff` and `endOff` are `begin` and `end` relative to the
block. -/
structure CircularByteBuffer where
  mem : Nat → UInt8 := fun _ => 0
  sizeExp : Nat := 12
  beginOff : Nat := 0
  endOff : Nat := 0

namespace CircularByteBuffer

def allocSize (b : CircularByteBuffer) : Nat := 2 ^ b.sizeExp

def usedSize (b : CircularByteBuffer) : Nat :=
  if b.beginOff ≤ b.endOff then b.endOff - b.beginOff
  else b.allocSize - (b.beginOff - b.endOff)

def empty (b : CircularByteBuffer) : Bool := b.beginOff == b.endOff

structure WF (b : CircularByteBuffer) : Prop where
  begin_lt : b.beginOff < b.allocSize
  end_lt : b.endOff < b.allocSize

/-- The bytes held, in order: one range, or two when the contents wrap around. -/
def contents (b : CircularByteBuffer) : List UInt8 :=
  if b.beginOff ≤ b.endOff then segment b.mem b.beginOff b.endOff
  else segment b.mem b.beginOff b.allocSize ++ segment b.mem 0 b.endOff

theorem length_contents (hwf : b.WF) : b.contents.length = b.usedSize := by
  have := hwf.begin_lt
  unfold contents usedSize
  split
  · simp
  · simp only [List.length_append, length_segment]
    omega

theorem contents_eq_nil_of_empty (h : b.beginOff = b.endOff) : b.contents = [] := by
  simp [contents, h]

/-! ### read -/

/-- The second half of `read`, once the first answer has filled the block to its end: the
reader is asked for the range before `begin` when `target_sz` is not reached yet. -/
def readRest (b : CircularByteBuffer) (r : RecvResult) (reply₂ : RecvReply) (targetSz : Nat) :
    Except Failure (CircularByteBuffer × RecvResult) :=
  if b.beginOff + targetSz ≤ b.allocSize then .ok (b, r)
  else if 1 < b.beginOff - b.endOff then do
    let r₂ ← internalGetPacketBytes2 (b.beginOff - b.endOff - 1) reply₂
    .ok ({ b with mem := store b.mem b.endOff r₂.bytes
                  endOff := b.endOff + r₂.bytes.length }, ⟨r₂.ret, r.bytes ++ r₂.bytes⟩)
  else .ok (b, r)

/-- `read`: the reader is asked for the free range after `end`. Returns the buffer, the bytes
read and the reader's last return value. -/
def read (b : CircularByteBuffer) (reply₁ reply₂ : RecvReply) (targetSz : Nat) :
    Except Failure (CircularByteBuffer × RecvResult) :=
  if b.endOff < b.beginOff then do
    let r ← internalGetPacketBytes2 (b.beginOff - b.endOff - 1) reply₁
    .ok ({ b with mem := store b.mem b.endOff r.bytes
                  endOff := b.endOff + r.bytes.length }, r)
  else do
    let endpoint := if b.beginOff ≠ 0 then b.allocSize else b.allocSize - 1
    let sz2read := endpoint - b.endOff
    let r ← internalGetPacketBytes2 sz2read reply₁
    let newEnd := b.endOff + r.bytes.length
    let b₁ := { b with mem := store b.mem b.endOff r.bytes
                       endOff := if newEnd = b.allocSize then 0 else newEnd }
    -- `!can_continue || !till_end`
    if ¬(r.ret = .ok ∧ r.bytes.length = sz2read) ∨ newEnd ≠ b.allocSize then .ok (b₁, r)
    else b₁.readRest r reply₂ targetSz

def offered (b : CircularByteBuffer) : Nat :=
  if b.endOff < b.beginOff then b.beginOff - b.endOff - 1
  else (if b.beginOff ≠ 0 then b.allocSize else b.allocSize - 1) - b.endOff

/-- The free range after `end`, which `read` offers to the reader first, is not empty. -/
def hasRoom (b : CircularByteBuffer) : Bool :=
  if b.endOff < b.beginOff then decide (b.endOff + 1 < b.beginOff)
  else decide (b.endOff < if b.beginOff ≠ 0 then b.allocSize else b.allocSize - 1)

theorem hasRoom_iff_offered : b.hasRoom ↔ b.offered ≠ 0 := by
  unfold hasRoom offered
  split <;> rw [decide_eq_true_eq] <;> omega

/-- `read` after the first answer. -/
def readOn (b : CircularByteBuffer) (r : RecvResult) (reply₂ : RecvReply) (targetSz : Nat) :
    Except Failure (CircularByteBuffer × RecvResult) :=
  let newEnd := b.endOff + r.bytes.length
  let stored := { b with mem := store b.mem b.endOff r.bytes, endOff := newEnd }
  if b.endOff < b.beginOff then .ok (stored, r)
  else
    let b₁ := { stored with endOff := if newEnd = b.allocSize then 0 else newEnd }
    if ¬(r.ret = .ok ∧ r.bytes.length = b.offered) ∨ newEnd ≠ b.allocSize then .ok (b₁, r)
    else b₁.readRest r reply₂ targetSz

theorem read_eq (b : CircularByteBuffer) (reply₁ reply₂ : RecvReply) (targetSz : Nat) :
    b.read reply₁ reply₂ targetSz =
      internalGetPacketBytes2 b.offered reply₁ >>= fun r => b.readOn r reply₂ targetSz := by
  unfold read readOn offered
  split <;> rfl

/-- What follows the first answer: nothing, or a second one. The block does not grow. -/
theorem readRest_cases {r₁ : RecvResult} (h : b.readRest r₁ reply₂ targetSz = .ok (b', r)) :
    b'.sizeExp = b.sizeExp ∧ (r = r₁ ∨ ∃ size r₂, internalGetPacketBytes2 size reply₂ = .ok r₂ ∧
      r = ⟨r₂.ret, r₁.bytes ++ r₂.bytes⟩) := by
  unfold readRest at h
  split at h
  · cases h
    exact ⟨rfl, .inl rfl⟩
  · split at h
    · obtain ⟨r₂, hr₂, h⟩ := bind_eq_ok h
      cases h
      exact ⟨rfl, .inr ⟨_, r₂, hr₂, rfl⟩⟩
    · cases h
      exact ⟨rfl, .inl rfl⟩

theorem readOn_cases {r₁ : RecvResult} (h : b.readOn r₁ reply₂ targetSz = .ok (b', r)) :
    b'.sizeExp = b.sizeExp ∧ (r = r₁ ∨ ∃ size r₂, internalGetPacketBytes2 size reply₂ = .ok r₂ ∧
      r = ⟨r₂.ret, r₁.bytes ++ r₂.bytes⟩) := by
  unfold readOn at h
  split at h
  · cases h
    exact ⟨rfl, .inl rfl⟩
  · rcases ite_eq_iff.mp h with ⟨-, h⟩ | ⟨-, h⟩
    · cases h
      exact ⟨rfl, .inl rfl⟩
    · exact (readRest_cases h :)

theorem read_ret_ne_failed (h₁ : reply₁ ≠ .error) (h₂ : reply₂ ≠ .error)
    (h : b.read reply₁ reply₂ targetSz = .ok (b', r)) : r.ret ≠ .failed := by
  rw [read_eq] at h
  obtain ⟨r₁, hr₁, h⟩ := bind_eq_ok h
  obtain ⟨-, rfl | ⟨size, r₂, hr₂, rfl⟩⟩ := readOn_cases h
  · exact internalGetPacketBytes2_ret_ne_failed h₁ hr₁
  · exact (internalGetPacketBytes2_ret_ne_failed h₂ hr₂ :)

theorem read_data (hne : bytes ≠ []) (h : b.read (.data bytes) reply₂ targetSz = .ok (b', r)) :
    b'.sizeExp = b.sizeExp ∧ 0 < r.bytes.length := by
  rw [read_eq] at h
  obtain ⟨r₁, hr₁, h⟩ := bind_eq_ok h
  have hpos := internalGetPacketBytes2_data_pos hne hr₁
  obtain ⟨hexp, rfl | ⟨size, r₂, -, rfl⟩⟩ := readOn_cases h
  · exact ⟨hexp, hpos⟩
  · exact ⟨hexp, by rw [List.length_append]; omega⟩

theorem readRest_ok (b : CircularByteBuffer) (r : RecvResult) (reply₂ : RecvReply)
    (targetSz : Nat) : ∃ x, b.readRest r reply₂ targetSz = .ok x := by
  unfold readRest
  split
  · exact ⟨_, rfl⟩
  · split
    · rename_i hmore
      obtain ⟨r₂, hr₂⟩ := internalGetPacketBytes2_ok (Nat.sub_ne_zero_of_lt hmore) reply₂
      rw [hr₂]
      exact ⟨_, rfl⟩
    · exact ⟨_, rfl⟩

theorem read_ok (h : b.hasRoom) (reply₁ reply₂ : RecvReply) (targetSz : Nat) :
    ∃ x, b.read reply₁ reply₂ targetSz = .ok x := by
  obtain ⟨r, hr⟩ := internalGetPacketBytes2_ok (hasRoom_iff_offered.mp h) reply₁
  rw [read_eq, hr]
  show ∃ x, b.readOn r reply₂ targetSz = .ok x
  unfold readOn
  split
  · exact ⟨_, rfl⟩
  · extract_lets
    split
    · exact ⟨_, rfl⟩
    · exact readRest_ok ..

theorem read_of_full (h : ¬b.hasRoom) (reply₁ reply₂ : RecvReply) (targetSz : Nat) :
    b.read reply₁ reply₂ targetSz = .error .assertion := by
  rw [read_eq, not_not.mp (mt hasRoom_iff_offered.mpr h)]
  rfl

/-- There is room after `end` unless all cells but one are in use. -/
theorem hasRoom_iff (hwf : b.WF) : b.hasRoom ↔ b.usedSize + 1 < b.allocSize := by
  have hbegin := hwf.begin_lt
  have hend := hwf.end_lt
  rw [hasRoom_iff_offered]
  unfold offered usedSize
  repeat' split
  all_goals omega

theorem read_wouldBlock (hroom : b.hasRoom) (reply₂ : RecvReply) (targetSz : Nat) :
    b.read .wouldBlock reply₂ targetSz = .ok (b, ⟨.pending, []⟩) := by
  have hoffer := hasRoom_iff_offered.mp hroom
  have hget : internalGetPacketBytes2 b.offered .wouldBlock = .ok ⟨.pending, []⟩ := if_neg hoffer
  have hend : ¬b.endOff < b.beginOff → b.endOff ≠ b.allocSize := by
    intro hwrap
    rw [offered, if_neg hwrap] at hoffer
    split at hoffer <;> omega
  rw [read_eq, hget]
  show b.readOn _ reply₂ targetSz = _
  unfold readOn
  split
  · simp
  · rename_i hwrap
    simp [hend hwrap]

/-- A store into the free range after `end`, not reaching the end of the block when the
contents are in one piece: the contents grow by what was stored. -/
theorem contents_store (hwf : b.WF)
    (hroom : if b.endOff < b.beginOff then b.endOff + bytes.length < b.beginOff
      else b.endOff + bytes.length < b.allocSize) : let b' : CircularByteBuffer :=
      { b with mem := store b.mem b.endOff bytes, endOff := b.endOff + bytes.length }
    b'.WF ∧ b'.contents = b.contents ++ bytes := by
  intro b'
  have hbegin := hwf.begin_lt
  have hnew : segment b'.mem b.endOff (b.endOff + bytes.length) = bytes :=
    segment_store_self _ _ _
  by_cases hwrap : b.endOff < b.beginOff
  · -- the contents wrap around: both old ranges lie outside the store
    rw [if_pos hwrap] at hroom
    refine ⟨⟨hbegin, by show b.endOff + bytes.length < b.allocSize; omega⟩, ?_⟩
    have h₁ : ¬b.beginOff ≤ b.endOff := by omega
    have h₂ : ¬b.beginOff ≤ b.endOff + bytes.length := by omega
    have hfront : segment b'.mem b.beginOff b.allocSize = segment b.mem b.beginOff b.allocSize :=
      segment_store_of_disjoint _ _ _ (.inr (by omega))
    have hback : segment b'.mem 0 b.endOff = segment b.mem 0 b.endOff :=
      segment_store_of_disjoint _ _ _ (.inl le_rfl)
    have hcut : segment b'.mem 0 (b.endOff + bytes.length) = segment b.mem 0 b.endOff ++ bytes := by
      rw [← segment_append b'.mem (Nat.zero_le b.endOff) (Nat.le_add_right _ _), hnew, hback]
    show (if b.beginOff ≤ b.endOff + bytes.length then _ else _) = _
    rw [if_neg h₂, contents, if_neg h₁, List.append_assoc, ← hcut]
    exact congrArg (· ++ _) hfront
  · rw [if_neg hwrap] at hroom
    refine ⟨⟨hbegin, hroom⟩, ?_⟩
    have h₁ : b.beginOff ≤ b.endOff := by omega
    have h₂ : b.beginOff ≤ b.endOff + bytes.length := by omega
    have hold : segment b'.mem b.beginOff b.endOff = segment b.mem b.beginOff b.endOff :=
      segment_store_of_disjoint _ _ _ (.inl le_rfl)
    show (if b.beginOff ≤ b.endOff + bytes.length then _ else _) = _
    rw [if_pos h₂, contents, if_pos h₁, ← hold,
      ← segment_append b'.mem h₁ (Nat.le_add_right b.endOff bytes.length), hnew]

/-- A store that fills the block up to its end leaves `end` at the start of the block. -/
theorem contents_store_tillEnd (hwf : b.WF) (hin : b.beginOff ≤ b.endOff)
    (hbegin : b.beginOff ≠ 0) (hfull : b.endOff + bytes.length = b.allocSize) :
    let b' : CircularByteBuffer := { b with mem := store b.mem b.endOff bytes, endOff := 0 }
    b'.WF ∧ b'.contents = b.contents ++ bytes := by
  intro b'
  have hpos : 0 < b.allocSize := lt_of_le_of_lt (Nat.zero_le _) hwf.begin_lt
  refine ⟨⟨hwf.begin_lt, hpos⟩, ?_⟩
  have hnew : segment b'.mem b.endOff b.allocSize = bytes := by
    rw [← hfull]
    exact segment_store_self _ _ _
  have hold : segment b'.mem b.beginOff b.endOff = segment b.mem b.beginOff b.endOff :=
    segment_store_of_disjoint _ _ _ (.inl le_rfl)
  show (if b.beginOff ≤ 0 then _ else segment b'.mem b.beginOff b.allocSize ++ segment b'.mem 0 0)
    = _
  rw [if_neg (by omega), segment_self, List.append_nil, contents, if_pos hin, ← hold,
    ← segment_append b'.mem hin (by omega), hnew]

/-! ### read with any reader -/

/-- What a reader does with an offer: the bytes it stores, of which there are at most as many as
offered, and whether it can continue. -/
structure ReaderReply where
  bytes : List UInt8
  canContinue : Bool
  deriving DecidableEq, Repr

/-- The second half of `read`. -/
def readRestWith (b : CircularByteBuffer) (bytes : List UInt8) (reply₂ : ReaderReply)
    (targetSz : Nat) : CircularByteBuffer × List UInt8 :=
  if b.beginOff + targetSz ≤ b.allocSize then (b, bytes)
  else if 1 < b.beginOff - b.endOff then
    let bytes₂ := reply₂.bytes.take (b.beginOff - b.endOff - 1)
    ({ b with mem := store b.mem b.endOff bytes₂, endOff := b.endOff + bytes₂.length },
      bytes ++ bytes₂)
  else (b, bytes)

/-- `read`: the buffer and all the bytes read. -/
def readWith (b : CircularByteBuffer) (reply₁ reply₂ : ReaderReply) (targetSz : Nat) :
    CircularByteBuffer × List UInt8 :=
  if b.endOff < b.beginOff then
    let bytes := reply₁.bytes.take (b.beginOff - b.endOff - 1)
    ({ b with mem := store b.mem b.endOff bytes, endOff := b.endOff + bytes.length }, bytes)
  else
    let endpoint := if b.beginOff ≠ 0 then b.allocSize else b.allocSize - 1
    let bytes := reply₁.bytes.take (endpoint - b.endOff)
    let newEnd := b.endOff + bytes.length
    let b₁ := { b with mem := store b.mem b.endOff bytes
                       endOff := if newEnd = b.allocSize then 0 else newEnd }
    if !reply₁.canContinue ∨ newEnd ≠ b.allocSize then (b₁, bytes)
    else b₁.readRestWith bytes reply₂ targetSz

theorem readRestWith_contents (hwf : b.WF) (bytes : List UInt8) (reply₂ : ReaderReply)
    (targetSz : Nat) :
    let r := b.readRestWith bytes reply₂ targetSz
    ∃ more, r.2 = bytes ++ more ∧ r.1.WF ∧ r.1.contents = b.contents ++ more := by
  unfold readRestWith
  split
  · exact ⟨[], by simp, hwf, by simp⟩
  · split
    · rename_i hmore
      refine ⟨_, rfl, ?_⟩
      apply contents_store hwf
      rw [if_pos (by omega), List.length_take]
      omega
    · exact ⟨[], by simp, hwf, by simp⟩

theorem readWith_contents (hwf : b.WF) (reply₁ reply₂ : ReaderReply) (targetSz : Nat) :
    let r := b.readWith reply₁ reply₂ targetSz
    r.1.WF ∧ r.1.contents = b.contents ++ r.2 := by
  have hend := hwf.end_lt
  unfold readWith
  split
  · rename_i hwrap
    apply contents_store hwf
    rw [if_pos hwrap, List.length_take]
    omega
  · rename_i hwrap
    dsimp only
    generalize hoffer : (if b.beginOff ≠ 0 then b.allocSize else b.allocSize - 1) - b.endOff = offer
    have hlen : (reply₁.bytes.take offer).length ≤ offer := List.length_take_le ..
    generalize reply₁.bytes.take offer = bytes at hlen ⊢
    by_cases htill : b.endOff + bytes.length = b.allocSize
    · have hbegin : b.beginOff ≠ 0 := by
        intro hzero
        rw [if_neg (not_not.mpr hzero)] at hoffer
        omega
      have h₁ := contents_store_tillEnd hwf (by omega) hbegin htill
      simp only [htill, ne_eq, not_true_eq_false, or_false, if_true]
      split
      · exact h₁
      · obtain ⟨more, hmore, hwf', hcontents⟩ := readRestWith_contents h₁.1 bytes reply₂ targetSz
        rw [hmore, hcontents, h₁.2, List.append_assoc]
        exact ⟨hwf', rfl⟩
    · simp only [htill, ne_eq, not_false_eq_true, or_true, if_true, if_false]
      apply contents_store hwf
      rw [if_neg hwrap]
      split at hoffer <;> omega

/-- What the reader of a socket does with an offer of `size` bytes. -/
def socketReader (size : Nat) : RecvReply → ReaderReply
  | .data bytes => ⟨bytes, decide (size ≤ bytes.length)⟩
  | .wouldBlock | .error => ⟨[], false⟩

theorem internalGetPacketBytes2_socketReader {size : Nat} {reply : RecvReply}
    (h : internalGetPacketBytes2 size reply = .ok r) :
    r.bytes = (socketReader size reply).bytes.take size ∧
      ((socketReader size reply).canContinue = true ↔ r.ret = .ok ∧ r.bytes.length = size) := by
  have hpos := internalGetPacketBytes2_pos h
  unfold internalGetPacketBytes2 at h
  rw [if_neg (by omega)] at h
  cases reply with
  | data bytes =>
    cases h
    simp only [socketReader, decide_eq_true_eq, List.length_take, true_and]
    omega
  | wouldBlock =>
    cases h
    simp [socketReader]
  | error =>
    cases h
    simp [socketReader]

def offeredRest (b : CircularByteBuffer) : Nat := b.beginOff - 1

theorem readRest_readRestWith (hend : b.endOff = 0) {r' : RecvResult}
    (h : b.readRest r reply₂ targetSz = .ok (b', r')) :
    b.readRestWith r.bytes (socketReader b.offeredRest reply₂) targetSz = (b', r'.bytes) := by
  unfold readRest at h
  unfold readRestWith
  split at h
  · rename_i hdone
    cases h
    rw [if_pos hdone]
  · rename_i hdone
    rw [if_neg hdone]
    split at h
    · rename_i hmore
      obtain ⟨r₂, hr₂, h⟩ := bind_eq_ok h
      have hoffer : b.beginOff - b.endOff - 1 = b.offeredRest := by
        rw [hend, Nat.sub_zero, offeredRest]
      rw [hoffer] at hr₂
      obtain ⟨hbytes, -⟩ := internalGetPacketBytes2_socketReader hr₂
      cases h
      rw [if_pos hmore, hoffer, hbytes]
    · rename_i hmore
      cases h
      rw [if_neg hmore]

theorem read_readWith (h : b.read reply₁ reply₂ targetSz = .ok (b', r)) :
    b.readWith (socketReader b.offered reply₁) (socketReader b.offeredRest reply₂) targetSz =
      (b', r.bytes) := by
  unfold read at h
  unfold readWith offered
  split at h
  · rename_i hwrap
    obtain ⟨r₁, hr₁, h⟩ := bind_eq_ok h
    obtain ⟨hbytes, -⟩ := internalGetPacketBytes2_socketReader hr₁
    cases h
    rw [if_pos hwrap, if_pos hwrap, hbytes]
  · rename_i hwrap
    obtain ⟨r₁, hr₁, h⟩ := bind_eq_ok h
    obtain ⟨hbytes, hcontinue⟩ := internalGetPacketBytes2_socketReader hr₁
    simp only [if_neg hwrap]
    rw [← hbytes]
    by_cases htill : b.endOff + r₁.bytes.length = b.allocSize
    · simp only [htill, ne_eq, not_true_eq_false, or_false, if_true] at h ⊢
      by_cases hcan : r₁.ret = .ok ∧
          r₁.bytes.length = (if b.beginOff ≠ 0 then b.allocSize else b.allocSize - 1) - b.endOff
      · rw [if_neg (not_not.mpr hcan)] at h
        rw [hcontinue.mpr hcan, if_neg (by decide)]
        exact readRest_readRestWith rfl h
      · rw [if_pos hcan] at h
        cases h
        rw [if_pos (by simpa using mt hcontinue.mp hcan)]
    · simp only [htill, ne_eq, not_false_eq_true, or_true, if_true, if_false] at h ⊢
      cases h
      rfl

theorem read_contents (hwf : b.WF) (h : b.read reply₁ reply₂ targetSz = .ok (b', r)) :
    b'.WF ∧ b'.contents = b.contents ++ r.bytes := by
  have hwith := readWith_contents hwf (socketReader b.offered reply₁)
    (socketReader b.offeredRest reply₂) targetSz
  rw [read_readWith h] at hwith
  exact hwith

/-! ### Moving `begin` -/

def wrapBegin (c : CircularByteBuffer) : CircularByteBuffer :=
  if c.beginOff = c.allocSize then { c with beginOff := 0 } else c

theorem contents_advance (hwf : b.WF) {n : Nat}
    (hroom : if b.beginOff ≤ b.endOff then b.beginOff + n ≤ b.endOff
      else b.beginOff + n < b.allocSize) :
    let b' : CircularByteBuffer := { b with beginOff := b.beginOff + n }
    b'.WF ∧ segment b.mem b.beginOff (b.beginOff + n) ++ b'.contents = b.contents := by
  intro b'
  have hend := hwf.end_lt
  by_cases hin : b.beginOff ≤ b.endOff
  · rw [if_pos hin] at hroom
    refine ⟨⟨by show b.beginOff + n < b.allocSize; omega, hend⟩, ?_⟩
    show _ ++ (if b.beginOff + n ≤ b.endOff then segment b.mem (b.beginOff + n) b.endOff else _) = _
    rw [if_pos hroom, contents, if_pos hin]
    exact segment_append _ (Nat.le_add_right _ _) hroom
  · rw [if_neg hin] at hroom
    refine ⟨⟨hroom, hend⟩, ?_⟩
    show _ ++ (if b.beginOff + n ≤ b.endOff then _ else
      segment b.mem (b.beginOff + n) b.allocSize ++ segment b.mem 0 b.endOff) = _
    rw [if_neg (by omega), contents, if_neg hin, ← List.append_assoc,
      segment_append _ (Nat.le_add_right _ _) (le_of_lt hroom)]

/-- When the contents wrap around, moving `begin` to the start of the block takes exactly the
bytes up to the end of the block. -/
theorem contents_wrapBegin (hwf : b.WF) (hwrap : ¬b.beginOff ≤ b.endOff) :
    let b' : CircularByteBuffer := { b with beginOff := 0 }
    b'.WF ∧ segment b.mem b.beginOff b.allocSize ++ b'.contents = b.contents := by
  intro b'
  refine ⟨⟨lt_of_le_of_lt (Nat.zero_le _) hwf.begin_lt, hwf.end_lt⟩, ?_⟩
  show _ ++ (if 0 ≤ b.endOff then segment b.mem 0 b.endOff else _) = _
  rw [if_pos (Nat.zero_le _), contents, if_neg hwrap]

theorem contents_pass (hwf : b.WF) {n : Nat}
    (hroom : if b.beginOff ≤ b.endOff then b.beginOff + n ≤ b.endOff
      else b.beginOff + n ≤ b.allocSize) :
    (wrapBegin { b with beginOff := b.beginOff + n }).WF ∧
      segment b.mem b.beginOff (b.beginOff + n) ++
        (wrapBegin { b with beginOff := b.beginOff + n }).contents = b.contents := by
  have hend := hwf.end_lt
  by_cases hall : b.beginOff + n = b.allocSize
  · have hwrap : ¬b.beginOff ≤ b.endOff := by
      intro hin
      rw [if_pos hin] at hroom
      omega
    rw [show wrapBegin { b with beginOff := b.beginOff + n } = { b with beginOff := 0 } from
      if_pos hall, hall]
    exact contents_wrapBegin hwf hwrap
  · rw [show wrapBegin { b with beginOff := b.beginOff + n } =
      { b with beginOff := b.beginOff + n } from if_neg hall]
    exact contents_advance hwf (by split at hroom <;> split <;> omega)

/-! ### get_ready_data -/

def getReadyData (c : CircularByteBuffer) (b : Buffer) (bytes2read : Nat) :
    Except Failure (CircularByteBuffer × Buffer) :=
  if b.size ≠ 0 ∨ b.capacity < bytes2read then .error .assertion
  else if c.beginOff ≤ c.endOff then
    let diff := c.endOff - c.beginOff
    let sz2copy := if diff ≤ bytes2read then diff else bytes2read
    .ok ({ c with beginOff := c.beginOff + sz2copy },
      b.append (segment c.mem c.beginOff (c.beginOff + sz2copy)))
  else
    let sz2copy := c.allocSize - c.beginOff
    if bytes2read < sz2copy then
      .ok ({ c with beginOff := c.beginOff + bytes2read },
        b.append (segment c.mem c.beginOff (c.beginOff + bytes2read)))
    else if sz2copy < bytes2read then
      let b := b.append (segment c.mem c.beginOff c.allocSize)
      let sz2copy2 := min (bytes2read - sz2copy) c.endOff
      .ok ({ c with beginOff := sz2copy2 }, b.append (segment c.mem 0 sz2copy2))
    else
      .ok ({ c with beginOff := 0 }, b.append (segment c.mem c.beginOff c.allocSize))

theorem getReadyData_ok (c : CircularByteBuffer) {b : Buffer} {bytes2read : Nat}
    (hempty : b.bytes = []) (hroom : bytes2read ≤ b.capacity) :
    ∃ x, c.getReadyData b bytes2read = .ok x := by
  have hpre : ¬(b.size ≠ 0 ∨ b.capacity < bytes2read) := by
    rw [Buffer.size, hempty, List.length_nil]
    omega
  unfold getReadyData
  rw [if_neg hpre]
  dsimp only
  repeat' split
  all_goals exact ⟨_, rfl⟩

theorem getReadyData_contents {c c' : CircularByteBuffer} (hwf : c.WF) {b b' : Buffer}
    {bytes2read : Nat} (h : c.getReadyData b bytes2read = .ok (c', b')) :
    c'.WF ∧ b'.bytes ++ c'.contents = c.contents ∧ b'.size = min bytes2read c.usedSize := by
  have hbegin := hwf.begin_lt
  unfold getReadyData at h
  split at h
  · cases h
  rename_i hpre
  have hnil : b.bytes = [] := by
    rw [not_or, not_not] at hpre
    exact List.length_eq_zero_iff.mp hpre.1
  split at h
  · -- the contents are in one piece
    rename_i hin
    cases h
    have hadv := contents_advance hwf
      (n := if c.endOff - c.beginOff ≤ bytes2read then c.endOff - c.beginOff else bytes2read)
      (by rw [if_pos hin]; split <;> omega)
    refine ⟨hadv.1, by rw [Buffer.bytes_append, hnil]; exact hadv.2, ?_⟩
    simp only [Buffer.size, Buffer.bytes_append, hnil, List.nil_append, length_segment,
      usedSize, if_pos hin]
    split <;> omega
  · rename_i hwrap
    dsimp only at h
    split at h
    · -- they wrap, and the tail of the block is enough
      rename_i hlt
      cases h
      have hadv := contents_advance hwf (n := bytes2read) (by rw [if_neg hwrap]; omega)
      refine ⟨hadv.1, by rw [Buffer.bytes_append, hnil]; exact hadv.2, ?_⟩
      simp only [Buffer.size, Buffer.bytes_append, hnil, List.nil_append, length_segment,
        usedSize, if_neg hwrap]
      omega
    · have hback := contents_wrapBegin hwf hwrap
      split at h
      · -- the tail of the block and then a prefix of its start
        cases h
        have hadv := contents_advance hback.1 (n := min (bytes2read - (c.allocSize - c.beginOff))
          c.endOff) (by rw [if_pos (Nat.zero_le _)]; show 0 + _ ≤ c.endOff; omega)
        simp only [Nat.zero_add] at hadv
        refine ⟨hadv.1, ?_, ?_⟩
        · rw [Buffer.bytes_append, Buffer.bytes_append, hnil, List.nil_append, List.append_assoc,
            ← hback.2]
          exact congrArg _ hadv.2
        · simp only [Buffer.size, Buffer.bytes_append, hnil, List.nil_append, length_segment,
            List.length_append, usedSize, if_neg hwrap]
          omega
      · cases h
        refine ⟨hback.1, by rw [Buffer.bytes_append, hnil]; exact hback.2, ?_⟩
        simp only [Buffer.size, Buffer.bytes_append, hnil, List.nil_append, length_segment,
          usedSize, if_neg hwrap]
        omega

/-! ### read_ready_data_until -/

/-- `CoroStandardOutcomes`. -/
inductive Outcome
  | ok
  | timeout
  | insufficientBuffer
  | inProgress
  | failed
  deriving DecidableEq, Repr

/-- The copying loop of `read_ready_data_until_impl`; the first argument is the number of
cells left before `workingEnd`. Returns `begin` and the target buffer. -/
def untilLoop (mem : Nat → UInt8) (what : UInt8) : Nat → Nat → Buffer → Nat × Buffer
  | 0, beginOff, b => (beginOff, b)
  | left + 1, beginOff, b =>
      if mem beginOff ≠ what ∧ b.size < b.capacity then
        untilLoop mem what left (beginOff + 1) (b.appendUint8 (mem beginOff))
      else (beginOff, b)

def readReadyDataUntilImpl (c : CircularByteBuffer) (b : Buffer) (what : UInt8)
    (workingEnd : Nat) : Except Failure (CircularByteBuffer × Buffer × Outcome) :=
  if c.beginOff = workingEnd then .ok (c, b, .inProgress)
  else
    let (beginOff, b) := untilLoop c.mem what (workingEnd - c.beginOff) c.beginOff b
    if beginOff < workingEnd ∧ c.mem beginOff = what then
      .ok ({ c with beginOff := beginOff + 1 }, b.appendUint8 (c.mem beginOff), .ok)
    else if b.capacity = b.size then .ok ({ c with beginOff := beginOff }, b, .insufficientBuffer)
    else if beginOff ≠ workingEnd then .error .assertion
    else .ok ({ c with beginOff := beginOff }, b, .inProgress)

def readReadyDataUntil (c : CircularByteBuffer) (b : Buffer) (what : UInt8) :
    Except Failure (CircularByteBuffer × Buffer × Outcome) :=
  if b.size ≠ 0 ∨ b.capacity = 0 then .error .assertion
  else if c.beginOff = c.endOff then .ok (c, b, .inProgress)
  else if c.beginOff < c.endOff then c.readReadyDataUntilImpl b what c.endOff
  else do
    let (c, b, firstRet) ← c.readReadyDataUntilImpl b what c.allocSize
    let c := c.wrapBegin
    if firstRet = .ok ∨ firstRet = .insufficientBuffer then .ok (c, b, firstRet)
    else c.readReadyDataUntilImpl b what c.endOff

end CircularByteBuffer

end NodeCpp
