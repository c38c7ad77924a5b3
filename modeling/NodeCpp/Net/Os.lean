import NodeCpp.Lib.Fallible

/-!
# The operating-system perimeter

The calls of `internal_usage_only` that move bytes, with the kernel's answer as
an argument: a reply is what the kernel decides, the functions are what the
code makes of it. A kernel never takes more bytes than it is offered and never
delivers more than the room it is given, so replies are clamped to the offer.
-/

namespace NodeCpp

variable {buffSz : Nat} {r : RecvResult} {reply : SendReply}

/-- `COMMLAYER_RET_FAILED`, `COMMLAYER_RET_OK` and `COMMLAYER_RET_PENDING`. -/
inductive CommRet
  | failed
  | ok
  | pending
  deriving DecidableEq, Repr

/-- How a call can end other than by returning: a failed `NODECPP_ASSERT`, or a
thrown `Error`. -/
inductive Failure
  | assertion
  | error
  deriving DecidableEq, Repr

inductive SendReply
  | sent (count : Nat)
  | wouldBlock
  | error
  deriving DecidableEq, Repr

/-- What `internal_send_packet` reports: its return value and `sentSize`. -/
structure SendResult where
  ret : CommRet
  sentSize : Nat
  deriving DecidableEq, Repr

/-- `internal_send_packet` on `size` bytes. -/
def internalSendPacket (size : Nat) : SendReply → SendResult
  | .sent count =>
      let sentSize := min count size
      ⟨if sentSize = size then .ok else .pending, sentSize⟩
  | .wouldBlock => ⟨.pending, 0⟩
  | .error => ⟨.failed, 0⟩

theorem internalSendPacket_sentSize_le (size : Nat) (reply : SendReply) :
    (internalSendPacket size reply).sentSize ≤ size := by
  cases reply with
  | sent count => exact Nat.min_le_right count size
  | wouldBlock => exact Nat.zero_le size
  | error => exact Nat.zero_le size

theorem internalSendPacket_ret_ne_failed (size : Nat) (h : reply ≠ .error) :
    (internalSendPacket size reply).ret ≠ .failed := by
  cases reply with
  | sent count =>
    simp only [internalSendPacket]
    split <;> simp
  | wouldBlock => simp [internalSendPacket]
  | error => exact absurd rfl h

theorem internalSendPacket_failed {size : Nat} (h : (internalSendPacket size reply).ret = .failed) :
    (internalSendPacket size reply).sentSize = 0 := by
  cases reply with
  | sent count => exact absurd h (internalSendPacket_ret_ne_failed size nofun)
  | wouldBlock => rfl
  | error => rfl

/-- Offered `size` bytes, the kernel takes all of them or none. -/
def SendReply.takesAllOrNone (size : Nat) : SendReply → Prop
  | .sent count => count = 0 ∨ size ≤ count
  | _ => True

instance (size : Nat) : DecidablePred (SendReply.takesAllOrNone size)
  | .sent count => inferInstanceAs (Decidable (count = 0 ∨ size ≤ count))
  | .wouldBlock | .error => isTrue trivial

theorem internalSendPacket_takesAllOrNone {size : Nat} (h : reply.takesAllOrNone size)
    (hpart : (internalSendPacket size reply).sentSize ≠ size) :
    (internalSendPacket size reply).sentSize = 0 := by
  cases reply with
  | sent count =>
    simp only [SendReply.takesAllOrNone] at h
    simp only [internalSendPacket] at hpart ⊢
    omega
  | wouldBlock => rfl
  | error => rfl

/-- Offered `size` bytes, the kernel takes all of them. -/
def SendReply.takesAll (size : Nat) : SendReply → Prop
  | .sent count => size ≤ count
  | .wouldBlock => size = 0
  | .error => False

instance (size : Nat) : DecidablePred (SendReply.takesAll size)
  | .sent count => inferInstanceAs (Decidable (size ≤ count))
  | .wouldBlock => inferInstanceAs (Decidable (size = 0))
  | .error => isFalse not_false

theorem internalSendPacket_takesAll (size : Nat) (os : SendReply) :
    ((internalSendPacket size os).ret ≠ .failed ∧ (internalSendPacket size os).sentSize = size) ↔
      os.takesAll size := by
  cases os with
  | sent count =>
    simp only [internalSendPacket, SendReply.takesAll]
    constructor
    · rintro ⟨-, h⟩
      omega
    · intro h
      exact ⟨by split <;> simp, by omega⟩
  | wouldBlock => simp [internalSendPacket, SendReply.takesAll, eq_comm]
  | error => simp [internalSendPacket, SendReply.takesAll]

/-- The kernel's answer to `recvfrom`; no bytes means that the peer has ended. -/
inductive RecvReply
  | data (bytes : List UInt8)
  | wouldBlock
  | error
  deriving DecidableEq, Repr

def RecvReply.bytes : RecvReply → List UInt8
  | .data bytes => bytes
  | .wouldBlock | .error => []

/-- What `internal_get_packet_bytes2` reports: its return value and the bytes it
has stored. -/
structure RecvResult where
  ret : CommRet
  bytes : List UInt8
  deriving DecidableEq, Repr

/-- `internal_get_packet_bytes2` with room for `buffSz` bytes, which it asserts not to
be zero. -/
def internalGetPacketBytes2 (buffSz : Nat) (reply : RecvReply) : Except Failure RecvResult :=
  if buffSz = 0 then .error .assertion
  else
    match reply with
    | .data bytes => .ok ⟨.ok, bytes.take buffSz⟩
    | .wouldBlock => .ok ⟨.pending, []⟩
    | .error => .ok ⟨.failed, []⟩

theorem internalGetPacketBytes2_ok (h : buffSz ≠ 0) (reply : RecvReply) :
    ∃ r, internalGetPacketBytes2 buffSz reply = .ok r := by
  unfold internalGetPacketBytes2
  rw [if_neg h]
  cases reply <;> exact ⟨_, rfl⟩

theorem internalGetPacketBytes2_pos {reply : RecvReply}
    (h : internalGetPacketBytes2 buffSz reply = .ok r) : 0 < buffSz := by
  unfold internalGetPacketBytes2 at h
  split at h
  · cases h
  · omega

theorem internalGetPacketBytes2_data_pos {bytes : List UInt8} (hne : bytes ≠ [])
    (h : internalGetPacketBytes2 buffSz (.data bytes) = .ok r) : 0 < r.bytes.length := by
  have hpos := internalGetPacketBytes2_pos h
  have hlen := List.length_pos_iff.mpr hne
  rw [internalGetPacketBytes2, if_neg (by omega)] at h
  cases h
  rw [List.length_take]
  omega

theorem internalGetPacketBytes2_ret_ne_failed {reply : RecvReply} (hreply : reply ≠ .error)
    (h : internalGetPacketBytes2 buffSz reply = .ok r) : r.ret ≠ .failed := by
  unfold internalGetPacketBytes2 at h
  split at h
  · cases h
  cases reply with
  | data bytes => cases h; nofun
  | wouldBlock => cases h; nofun
  | error => exact absurd rfl hreply

end NodeCpp
