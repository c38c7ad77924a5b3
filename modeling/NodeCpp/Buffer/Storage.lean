import NodeCpp.Buffer.Circular
import NodeCpp.Buffer.Fifo

/-!
# CircularByteBuffer: storing, growing and writing out

The rest of `net_common.h`: `append` with the growth of the block, the bytes taken one by one, and
`write` with any writer. Lengths are natural numbers: a block and the
data for it are in memory at the same time, so their sizes do not overflow `size_t`.

* `append_contents` -- an append adds its data at the back, or changes nothing.
* `append_returns_iff`, `sizeExp_append` -- when it returns true, and the size it leaves.
* `takeByte_contents` -- one byte from the front.
* `writeTo_contents` -- a write drops what the writer has accepted.
* `append_fifo`, `writeTo_fifo` -- the ring does what the ideal `Fifo` does.

What the writer is offered is another matter: when the contents wrap around, `write` passes `end`
where it means `begin` (`offeredFirst`).
-/

namespace NodeCpp

open Lib

variable {b : CircularByteBuffer} {left newSizeExp totalSz : Nat}

namespace CircularByteBuffer

/-- `max_allowed_size_exp`, which nothing assigns. -/
def maxAllowedSizeExp : Nat := 32

/-- The constructor; a new block contains anything. -/
def ofSizeExp (block : Nat → UInt8) (szExp : Nat) : CircularByteBuffer where
  mem := block
  sizeExp := szExp

def remainingCapacity (b : CircularByteBuffer) : Nat := b.allocSize - 1 - b.usedSize

theorem allocSize_pos (b : CircularByteBuffer) : 0 < b.allocSize := Nat.two_pow_pos _

theorem ofSizeExp_wf (block : Nat → UInt8) (szExp : Nat) : (ofSizeExp block szExp).WF :=
  ⟨allocSize_pos _, allocSize_pos _⟩

theorem usedSize_lt (hwf : b.WF) : b.usedSize < b.allocSize := by
  have hbegin := hwf.begin_lt
  have hend := hwf.end_lt
  unfold usedSize
  split <;> omega

theorem usedSize_add_remainingCapacity (hwf : b.WF) :
    b.usedSize + b.remainingCapacity + 1 = b.allocSize := by
  have hlt := usedSize_lt hwf
  unfold remainingCapacity
  omega

/-! ## append -/

/-- The loop of `resize_up_and_append`. The first argument is how often the exponent can still be
raised within `max_allowed_size_exp`; the exponent the loop starts with is not compared with it. -/
def growExp (totalSz : Nat) : Nat → Nat → Option Nat
  | 0, newSizeExp => if 2 ^ newSizeExp < totalSz + 1 then none else some newSizeExp
  | left + 1, newSizeExp =>
      if 2 ^ newSizeExp < totalSz + 1 then growExp totalSz left (newSizeExp + 1)
      else some newSizeExp

/-- The contents copied to the start of a new block, and their size. -/
def copyTo (b : CircularByteBuffer) (block : Nat → UInt8) : (Nat → UInt8) × Nat :=
  if b.beginOff ≤ b.endOff then
    (store block 0 (segment b.mem b.beginOff b.endOff), b.endOff - b.beginOff)
  else
    let sz := b.allocSize - b.beginOff
    (store (store block 0 (segment b.mem b.beginOff b.allocSize)) sz (segment b.mem 0 b.endOff),
      sz + b.endOff)

def resizeUpAndAppend (b : CircularByteBuffer) (block : Nat → UInt8) (data : List UInt8) :
    CircularByteBuffer × Bool :=
  let totalSz := b.usedSize + data.length
  match growExp totalSz (maxAllowedSizeExp - (b.sizeExp + 1)) (b.sizeExp + 1) with
  | none => (b, false)
  | some newSizeExp =>
      let (mem, sz) := b.copyTo block
      ({ mem := store mem sz data
         sizeExp := newSizeExp
         beginOff := 0
         endOff := sz + data.length }, true)

/-- `append`; `block` is what a new block contains, if one is needed. -/
def append (b : CircularByteBuffer) (block : Nat → UInt8) (data : List UInt8) :
    CircularByteBuffer × Bool :=
  if b.remainingCapacity < data.length then b.resizeUpAndAppend block data
  else
    let fwdFreeSz := b.allocSize - b.endOff
    if data.length ≤ fwdFreeSz then
      let newEnd := b.endOff + data.length
      ({ b with mem := store b.mem b.endOff data
                endOff := if newEnd = b.allocSize then 0 else newEnd }, true)
    else
      ({ b with mem := store (store b.mem b.endOff (data.take fwdFreeSz)) 0 (data.drop fwdFreeSz)
                endOff := data.length - fwdFreeSz }, true)

theorem growExp_eq_some {e : Nat} (h : growExp totalSz left newSizeExp = some e) :
    e = max newSizeExp (Nat.clog 2 (totalSz + 1)) := by
  induction left generalizing newSizeExp with
  | zero =>
    unfold growExp at h
    split at h
    · cases h
    rename_i henough
    cases h
    have hclog : Nat.clog 2 (totalSz + 1) ≤ e :=
      Nat.clog_le_of_le_pow (Nat.not_lt.mp henough)
    omega
  | succ left ih =>
    unfold growExp at h
    split at h
    · rename_i hshort
      have hclog : newSizeExp < Nat.clog 2 (totalSz + 1) :=
        (Nat.lt_clog_iff_pow_lt (by decide)).mpr hshort
      rw [ih h]
      omega
    · rename_i henough
      cases h
      have hclog : Nat.clog 2 (totalSz + 1) ≤ e :=
        Nat.clog_le_of_le_pow (Nat.not_lt.mp henough)
      omega

/-- The new block has room for everything, and for the unused cell. -/
theorem growExp_room {e : Nat} (h : growExp totalSz left newSizeExp = some e) :
    totalSz < 2 ^ e := by
  have hclog : Nat.clog 2 (totalSz + 1) ≤ e := by
    rw [growExp_eq_some h]
    exact Nat.le_max_right _ _
  exact (Nat.clog_le_iff_le_pow (by decide)).mp hclog

theorem isSome_growExp :
    (growExp totalSz left newSizeExp).isSome ↔ totalSz + 1 ≤ 2 ^ (newSizeExp + left) := by
  induction left generalizing newSizeExp with
  | zero =>
    unfold growExp
    split <;> simp <;> omega
  | succ left ih =>
    unfold growExp
    split
    · rw [ih, Nat.add_right_comm, Nat.add_assoc]
    · rename_i henough
      have hmono : 2 ^ newSizeExp ≤ 2 ^ (newSizeExp + (left + 1)) :=
        Nat.pow_le_pow_right (by decide) (Nat.le_add_right _ _)
      simp only [Option.isSome_some, true_iff]
      omega

theorem copyTo_contents (hwf : b.WF) (block : Nat → UInt8) :
    segment (b.copyTo block).1 0 (b.copyTo block).2 = b.contents ∧
      (b.copyTo block).2 = b.usedSize := by
  have hbegin := hwf.begin_lt
  unfold copyTo contents usedSize
  split
  · refine ⟨?_, rfl⟩
    apply segment_store_eq
    rw [length_segment, Nat.zero_add]
  · rename_i hwrap
    refine ⟨?_, by dsimp only; omega⟩
    -- the second range is stored behind the first one
    have hlen : (segment b.mem b.beginOff b.allocSize).length = b.allocSize - b.beginOff :=
      length_segment ..
    have hback : (segment b.mem 0 b.endOff).length = b.endOff := by
      rw [length_segment, Nat.sub_zero]
    dsimp only
    rw [← segment_append _ (Nat.zero_le (b.allocSize - b.beginOff)) (Nat.le_add_right _ _)]
    congr 1
    · rw [segment_store_of_disjoint _ _ _ (.inl le_rfl)]
      exact segment_store_eq _ (by rw [hlen, Nat.zero_add])
    · exact segment_store_eq _ (by rw [hback])

theorem resizeUpAndAppend_contents (hwf : b.WF) (block : Nat → UInt8) (data : List UInt8) :
    let r := b.resizeUpAndAppend block data
    r.1.WF ∧ (r.2 = true → r.1.contents = b.contents ++ data) ∧ (r.2 = false → r.1 = b) := by
  obtain ⟨hcopied, hsz⟩ := copyTo_contents hwf block
  unfold resizeUpAndAppend
  dsimp only
  split
  · exact ⟨hwf, nofun, fun _ => rfl⟩
  · rename_i e he
    have hroom := growExp_room he
    generalize b.copyTo block = copy at hcopied hsz
    obtain ⟨mem, sz⟩ := copy
    dsimp only at hcopied hsz ⊢
    refine ⟨⟨Nat.two_pow_pos e, ?_⟩, fun _ => ?_, nofun⟩
    · show sz + data.length < 2 ^ e
      omega
    · show (if 0 ≤ sz + data.length then segment (store mem sz data) 0
        (sz + data.length) else _) = _
      rw [if_pos (Nat.zero_le _), ← segment_append _ (Nat.zero_le sz) (Nat.le_add_right _ _),
        segment_store_self, segment_store_of_disjoint _ _ _ (.inl le_rfl), hcopied]

/-- Data that reach over the end of the block: a store up to the end, and one at the start. -/
theorem contents_store_around (hwf : b.WF) {front back : List UInt8} (hin : b.beginOff ≤ b.endOff)
    (hfull : b.endOff + front.length = b.allocSize) (hroom : back.length < b.beginOff) :
    let b' : CircularByteBuffer :=
      { b with mem := store (store b.mem b.endOff front) 0 back, endOff := back.length }
    b'.WF ∧ b'.contents = b.contents ++ (front ++ back) := by
  intro b'
  obtain ⟨hwf₁, hfront⟩ := contents_store_tillEnd hwf hin (by omega) hfull
  have hfits : if 0 < b.beginOff then 0 + back.length < b.beginOff
      else 0 + back.length < b.allocSize := by
    rw [if_pos (by omega), Nat.zero_add]
    exact hroom
  have hback := contents_store hwf₁ hfits
  dsimp only at hfront hback
  rw [hfront, List.append_assoc, Nat.zero_add] at hback
  exact hback

theorem append_contents (hwf : b.WF) (block : Nat → UInt8) (data : List UInt8) :
    let r := b.append block data
    r.1.WF ∧ (r.2 = true → r.1.contents = b.contents ++ data) ∧ (r.2 = false → r.1 = b) := by
  have hbegin := hwf.begin_lt
  have hend := hwf.end_lt
  unfold append
  split
  · exact resizeUpAndAppend_contents hwf block data
  · rename_i hfits
    have hroom := usedSize_add_remainingCapacity hwf
    unfold usedSize at hroom
    dsimp only
    split
    · rename_i hfwd
      by_cases htill : b.endOff + data.length = b.allocSize
      · -- the block is filled to its end, so `begin` is not at its start
        have hin : b.beginOff ≤ b.endOff := by
          by_contra hwrap
          rw [if_neg hwrap] at hroom
          omega
        rw [if_pos hin] at hroom
        have h := contents_store_tillEnd hwf hin (by omega) htill
        simp only [if_pos htill]
        exact ⟨h.1, fun _ => h.2, nofun⟩
      · -- the data end before the block does
        have hroom' : if b.endOff < b.beginOff then b.endOff + data.length < b.beginOff
            else b.endOff + data.length < b.allocSize := by
          split at hroom <;> split <;> omega
        have h := contents_store hwf hroom'
        simp only [if_neg htill]
        exact ⟨h.1, fun _ => h.2, nofun⟩
    · -- the data go around the end of the block
      rename_i hfwd
      have hin : b.beginOff ≤ b.endOff := by
        by_contra hwrap
        rw [if_neg hwrap] at hroom
        omega
      rw [if_pos hin] at hroom
      have htake : (data.take (b.allocSize - b.endOff)).length = b.allocSize - b.endOff := by
        rw [List.length_take]
        omega
      have hdrop : (data.drop (b.allocSize - b.endOff)).length =
          data.length - (b.allocSize - b.endOff) := List.length_drop
      have hfull : b.endOff + (data.take (b.allocSize - b.endOff)).length = b.allocSize := by omega
      have hback : (data.drop (b.allocSize - b.endOff)).length < b.beginOff := by omega
      have h := contents_store_around hwf hin hfull hback
      rw [List.take_append_drop] at h
      dsimp only at h
      rw [hdrop] at h
      exact ⟨h.1, fun _ => h.2, nofun⟩

/-- An append returns true if its data fit under the limit, or under twice the present size: the
first doubling is not compared with the limit. -/
theorem append_returns_iff (hwf : b.WF) (block : Nat → UInt8) (data : List UInt8) :
    (b.append block data).2 = true ↔
      b.usedSize + data.length + 1 ≤ 2 ^ max (b.sizeExp + 1) maxAllowedSizeExp := by
  have hroom := usedSize_add_remainingCapacity hwf
  unfold append
  split
  · have hmax : b.sizeExp + 1 + (maxAllowedSizeExp - (b.sizeExp + 1)) =
        max (b.sizeExp + 1) maxAllowedSizeExp := by omega
    rw [← hmax, ← isSome_growExp]
    unfold resizeUpAndAppend
    dsimp only
    split
    · rename_i hnone
      rw [hnone]
      exact iff_of_false Bool.false_ne_true Bool.false_ne_true
    · rename_i e he
      rw [he]
      exact iff_of_true rfl rfl
  · have hmono : 2 ^ b.sizeExp ≤ 2 ^ max (b.sizeExp + 1) maxAllowedSizeExp :=
      Nat.pow_le_pow_right (by decide) (by omega)
    unfold allocSize at hroom
    dsimp only
    split <;> exact iff_of_true rfl (by omega)

/-- The exponent after an append: the old one, or at least the next one if the block has been
replaced. -/
theorem sizeExp_append (b : CircularByteBuffer) (block : Nat → UInt8) (data : List UInt8) :
    (b.append block data).1.sizeExp = b.sizeExp ∨
      b.remainingCapacity < data.length ∧ (b.append block data).2 = true ∧
        (b.append block data).1.sizeExp =
          max (b.sizeExp + 1) (Nat.clog 2 (b.usedSize + data.length + 1)) := by
  unfold append
  split
  · rename_i hshort
    unfold resizeUpAndAppend
    dsimp only
    split
    · exact .inl rfl
    · rename_i e he
      exact .inr ⟨hshort, rfl, growExp_eq_some he⟩
  · dsimp only
    split <;> exact .inl rfl

/-! ## Bytes one by one -/

/-- The byte at `begin` is taken. -/
def takeByte (b : CircularByteBuffer) : CircularByteBuffer × UInt8 :=
  (wrapBegin { b with beginOff := b.beginOff + 1 }, b.mem b.beginOff)

def tryReadByte (b : CircularByteBuffer) : CircularByteBuffer × Bool × UInt8 :=
  if !b.empty then (b.takeByte.1, true, b.takeByte.2) else (b, false, 0)

def readByte (b : CircularByteBuffer) : Except Failure (CircularByteBuffer × UInt8) :=
  if b.beginOff ≠ b.endOff then .ok b.takeByte else .error .assertion

theorem takeByte_contents (hwf : b.WF) (hne : b.beginOff ≠ b.endOff) :
    b.takeByte.1.WF ∧ b.takeByte.2 :: b.takeByte.1.contents = b.contents := by
  have hbegin := hwf.begin_lt
  obtain ⟨hwf', hcontents⟩ := contents_pass hwf (n := 1) (by split <;> omega)
  rw [segment_cons _ (Nat.lt_succ_self _), segment_self, List.singleton_append] at hcontents
  exact ⟨hwf', hcontents⟩

/-! ## write with any writer -/

/-- What a writer does with an offer: how many bytes it accepts, at most as many as offered, and
whether it can continue. It never says so when it has not accepted all of them. -/
structure WriterReply where
  count : Nat
  canContinue : Bool
  deriving DecidableEq, Repr

def WriterReply.accepted (reply : WriterReply) (size : Nat) : Nat := min reply.count size

def WriterReply.continues (reply : WriterReply) (size : Nat) : Bool :=
  reply.canContinue && decide (size ≤ reply.count)

structure Written where
  bytes : List UInt8 := []
  bytesWritten : Nat := 0
  deriving DecidableEq, Repr

/-- `write`. The first call of a wrapped buffer is for the cells at `end`, as many as there are
from `begin` to the end of the block. -/
def writeTo (b : CircularByteBuffer) (reply₁ reply₂ : WriterReply) : CircularByteBuffer × Written :=
  if b.beginOff < b.endOff then
    let n := reply₁.accepted (b.endOff - b.beginOff)
    ({ b with beginOff := b.beginOff + n }, ⟨segment b.mem b.beginOff (b.beginOff + n), n⟩)
  else if b.endOff < b.beginOff then
    let sz2write := b.allocSize - b.beginOff
    let n := reply₁.accepted sz2write
    let accepted := segment b.mem b.endOff (b.endOff + n)
    let b₁ := wrapBegin { b with beginOff := b.beginOff + n }
    if !reply₁.continues sz2write ∨ b.beginOff + n ≠ b.allocSize then (b₁, ⟨accepted, n⟩)
    else if b₁.beginOff ≠ b₁.endOff then
      let bw := reply₂.accepted (b₁.endOff - b₁.beginOff)
      ({ b₁ with beginOff := b₁.beginOff + bw },
        ⟨accepted ++ segment b.mem b₁.beginOff (b₁.beginOff + bw), n + bw⟩)
    else (b₁, ⟨accepted, n⟩)
  else (b, {})

def acceptedFirst (b : CircularByteBuffer) (reply₁ : WriterReply) : Nat :=
  if b.beginOff ≤ b.endOff then reply₁.accepted (b.endOff - b.beginOff)
  else reply₁.accepted (b.allocSize - b.beginOff)

/-- Where the cells of the first call are. -/
def offeredFirst (b : CircularByteBuffer) : Nat :=
  if b.beginOff ≤ b.endOff then b.beginOff else b.endOff

theorem WriterReply.accepted_le (reply : WriterReply) (size : Nat) : reply.accepted size ≤ size :=
  Nat.min_le_right ..

/-- A write passes over the cells from `begin` on, as many as the writer has accepted. The cells of
a second call are those passed over. -/
theorem writeTo_passes (hwf : b.WF) (reply₁ reply₂ : WriterReply) :
    let r := b.writeTo reply₁ reply₂
    let n := b.acceptedFirst reply₁
    ∃ rest, r.1.WF ∧ r.2.bytesWritten = n + rest.length ∧
      r.2.bytes = segment b.mem b.offeredFirst (b.offeredFirst + n) ++ rest ∧
      segment b.mem b.beginOff (b.beginOff + n) ++ rest ++ r.1.contents = b.contents := by
  have hbegin := hwf.begin_lt
  have hend := hwf.end_lt
  unfold writeTo acceptedFirst offeredFirst
  by_cases hlt : b.beginOff < b.endOff
  · simp only [if_pos hlt, if_pos hlt.le]
    have hle := reply₁.accepted_le (b.endOff - b.beginOff)
    generalize reply₁.accepted (b.endOff - b.beginOff) = n at hle ⊢
    obtain ⟨hwf', hcontents⟩ := contents_advance hwf (n := n) (by rw [if_pos hlt.le]; omega)
    exact ⟨[], hwf', by simp, by simp, by simpa using hcontents⟩
  · by_cases hwrap : b.endOff < b.beginOff
    · have hnot : ¬b.beginOff ≤ b.endOff := by omega
      simp only [if_neg hlt, if_pos hwrap, if_neg hnot]
      have hle := reply₁.accepted_le (b.allocSize - b.beginOff)
      generalize reply₁.accepted (b.allocSize - b.beginOff) = n at hle ⊢
      obtain ⟨hwf', hcontents⟩ := contents_pass hwf (n := n) (by rw [if_neg hnot]; omega)
      split
      · exact ⟨[], hwf', by simp, by simp, by simpa using hcontents⟩
      · rename_i hmore
        rw [show wrapBegin { b with beginOff := b.beginOff + n } = { b with beginOff := 0 } from
          if_pos (not_not.mp (not_or.mp hmore).2)] at hwf' hcontents ⊢
        split
        · -- the second call, for the cells at the start of the block
          have hle₂ := reply₂.accepted_le (b.endOff - 0)
          generalize reply₂.accepted (b.endOff - 0) = bw at hle₂ ⊢
          obtain ⟨hwf₂, hcontents₂⟩ := contents_advance hwf' (n := bw)
            (by rw [if_pos (Nat.zero_le _)]; show 0 + bw ≤ b.endOff; omega)
          refine ⟨segment b.mem 0 (0 + bw), hwf₂, by simp, rfl, ?_⟩
          rw [← hcontents, List.append_assoc]
          exact congrArg _ hcontents₂
        · exact ⟨[], hwf', by simp, by simp, by simpa using hcontents⟩
    · have heq : b.beginOff = b.endOff := by omega
      have hnone : reply₁.accepted (b.endOff - b.beginOff) = 0 := by
        rw [heq, Nat.sub_self]
        exact Nat.min_zero _
      simp only [if_neg hlt, if_neg hwrap, if_pos heq.le, hnone]
      exact ⟨[], hwf, rfl, by simp, by simp⟩

theorem writeTo_contents (hwf : b.WF) (reply₁ reply₂ : WriterReply) :
    let r := b.writeTo reply₁ reply₂
    r.1.WF ∧ r.1.contents = b.contents.drop r.2.bytesWritten := by
  obtain ⟨rest, hwf', hcount, -, hcontents⟩ := writeTo_passes hwf reply₁ reply₂
  refine ⟨hwf', ?_⟩
  rw [hcount, ← hcontents]
  exact (List.drop_left' (by simp)).symm

/-! ## The ring as a Fifo -/

/-- What the sockets see of a ring. -/
def fifo (b : CircularByteBuffer) : Fifo where
  contents := b.contents
  sizeExp := b.sizeExp

theorem fifo_usedSize (hwf : b.WF) : b.fifo.usedSize = b.usedSize :=
  length_contents hwf

theorem fifo_remainingCapacity (hwf : b.WF) : b.fifo.remainingCapacity = b.remainingCapacity := by
  rw [Fifo.remainingCapacity, fifo_usedSize hwf]
  rfl

theorem append_fifo (hwf : b.WF) (block : Nat → UInt8) {data : List UInt8}
    (h : (b.append block data).2 = true) : (b.append block data).1.fifo = b.fifo.append data := by
  have hcontents := (append_contents hwf block data).2.1 h
  have hexp : (b.append block data).1.sizeExp = (b.fifo.append data).sizeExp := by
    rw [Fifo.append, fifo_remainingCapacity hwf, fifo_usedSize hwf]
    unfold append at h ⊢
    split
    · rename_i hgrows
      rw [if_pos hgrows] at h
      unfold resizeUpAndAppend at h ⊢
      dsimp only at h ⊢
      split
      · rename_i hnone
        rw [hnone] at h
        cases h
      · rename_i e he
        exact growExp_eq_some he
    · dsimp only
      split <;> rfl
  show Fifo.mk _ _ = Fifo.mk _ _
  rw [hcontents, hexp]
  rfl

/-- What the writer of a socket does with an offer of `size` bytes. -/
def socketWriter (size : Nat) (reply : SendReply) : WriterReply :=
  let r := internalSendPacket size reply
  ⟨r.sentSize, decide (r.ret = .ok)⟩

/-- Where the contents are cut by the end of the block, as the ideal FIFO is told. -/
def cutAt (b : CircularByteBuffer) : Nat :=
  if b.beginOff ≤ b.endOff then 0 else b.allocSize - b.beginOff

theorem writeTo_sizeExp (b : CircularByteBuffer) (reply₁ reply₂ : WriterReply) :
    (b.writeTo reply₁ reply₂).1.sizeExp = b.sizeExp := by
  have hwrap : ∀ c : CircularByteBuffer, (wrapBegin c).sizeExp = c.sizeExp := by
    intro c
    unfold wrapBegin
    split <;> rfl
  unfold writeTo
  dsimp only
  repeat' split
  all_goals first | rfl | exact hwrap _

theorem accepted_socketWriter (size : Nat) (reply : SendReply) :
    (socketWriter size reply).accepted size = (internalSendPacket size reply).sentSize :=
  Nat.min_eq_left (internalSendPacket_sentSize_le size reply)

theorem continues_socketWriter (size : Nat) (reply : SendReply) :
    (socketWriter size reply).continues size = true ↔
      (internalSendPacket size reply).ret = .ok ∧
        (internalSendPacket size reply).sentSize = size := by
  have hle := internalSendPacket_sentSize_le size reply
  unfold WriterReply.continues
  rw [Bool.and_eq_true, decide_eq_true_iff]
  exact and_congr decide_eq_true_iff ⟨hle.antisymm, Eq.ge⟩

theorem writeTo_bytesWritten (hwf : b.WF) {os : Fifo.WriteReplies} (hcut : os.cut = b.cutAt) :
    (b.writeTo (socketWriter (b.fifo.firstLen os.cut) os.first)
        (socketWriter b.endOff os.second)).2.bytesWritten = (b.fifo.write os).2.sentSize := by
  have hbegin := hwf.begin_lt
  have hend := hwf.end_lt
  have hused := fifo_usedSize hwf
  unfold usedSize at hused
  unfold cutAt at hcut
  by_cases hin : b.beginOff ≤ b.endOff
  · -- the contents are in one piece
    rw [if_pos hin] at hused hcut
    have hlen : b.fifo.firstLen os.cut = b.endOff - b.beginOff := by
      rw [Fifo.firstLen, if_pos hcut, hused]
    have hfifo : (b.fifo.write os).2.sentSize =
        (internalSendPacket (b.endOff - b.beginOff) os.first).sentSize := by
      simp only [Fifo.write, hlen, hused, Nat.lt_irrefl, and_false, if_false]
    rw [hfifo, hlen]
    unfold writeTo
    by_cases hlt : b.beginOff < b.endOff
    · rw [if_pos hlt]
      exact accepted_socketWriter _ _
    · have hle := internalSendPacket_sentSize_le (b.endOff - b.beginOff) os.first
      rw [if_neg hlt, if_neg (by omega)]
      show 0 = _
      omega
  · -- they wrap, and take two sends
    rw [if_neg hin] at hused hcut
    have hlen : b.fifo.firstLen os.cut = b.allocSize - b.beginOff := by
      rw [Fifo.firstLen, if_neg (by omega), hcut, hused]
      omega
    have hsecond : b.fifo.usedSize - (b.allocSize - b.beginOff) = b.endOff := by omega
    have hmore : b.allocSize - b.beginOff < b.fifo.usedSize ↔ 0 ≠ b.endOff := by omega
    have hle := internalSendPacket_sentSize_le (b.allocSize - b.beginOff) os.first
    simp only [Fifo.write, hlen, hsecond, hmore]
    unfold writeTo
    simp only [if_neg (show ¬b.beginOff < b.endOff by omega),
      if_pos (show b.endOff < b.beginOff by omega), accepted_socketWriter]
    by_cases hall : (internalSendPacket (b.allocSize - b.beginOff) os.first).ret = .ok ∧
        (internalSendPacket (b.allocSize - b.beginOff) os.first).sentSize =
          b.allocSize - b.beginOff
    · have htill : b.beginOff + (b.allocSize - b.beginOff) = b.allocSize := by omega
      have hwrapped : wrapBegin { b with beginOff := b.beginOff + (b.allocSize - b.beginOff) } =
          { b with beginOff := 0 } := if_pos htill
      rw [hall.2, (continues_socketWriter _ _).mpr hall, if_neg (by simp [htill]), hwrapped]
      by_cases hne : 0 ≠ b.endOff
      · rw [if_pos hne, if_pos ⟨hall.1, rfl, hne⟩]
        show _ + (socketWriter b.endOff os.second).accepted (b.endOff - 0) = _
        rw [Nat.sub_zero, accepted_socketWriter]
      · rw [if_neg hne, if_neg fun h => hne h.2.2]
        exact hall.2.symm
    · -- the first send falls short, so there is no second
      have hstop : (!(socketWriter (b.allocSize - b.beginOff) os.first).continues
          (b.allocSize - b.beginOff)) = true := by
        simpa using mt (continues_socketWriter _ _).mp hall
      rw [if_pos (.inl hstop), if_neg fun h => hall ⟨h.1, h.2.1⟩]

/-- A write is a write of the ideal FIFO, as far as the buffer and the count go. -/
theorem writeTo_fifo (hwf : b.WF) {os : Fifo.WriteReplies} (hcut : os.cut = b.cutAt) :
    let r := b.writeTo (socketWriter (b.fifo.firstLen os.cut) os.first)
      (socketWriter b.endOff os.second)
    r.1.fifo = (b.fifo.write os).1 ∧ r.2.bytesWritten = (b.fifo.write os).2.sentSize := by
  have hcount := writeTo_bytesWritten hwf hcut
  refine ⟨?_, hcount⟩
  have hcontents := (writeTo_contents hwf (socketWriter (b.fifo.firstLen os.cut) os.first)
    (socketWriter b.endOff os.second)).2
  have hexp : (b.fifo.write os).1.sizeExp = b.sizeExp := by
    simp only [Fifo.write]
    split <;> rfl
  show Fifo.mk _ _ = Fifo.mk _ _
  rw [hcontents, writeTo_sizeExp, hcount, hexp, Fifo.write_contents]
  rfl

end CircularByteBuffer

end NodeCpp
