import NodeCpp.Socket.Data

/-!
# Receiving and the remote end

`infraProcessReadEvent` and `infraProcessRemoteEnded`, cut at the points where
they run user code: what is to be run next is part of the result (`ReadNext`),
and what follows it is a function of its own.

A read event receives into `readBuffer` when a coroutine waits for data, and
into the manager's `recvBuffer` otherwise.
-/

namespace NodeCpp

open Lib

variable {d : SocketData} {os : ReadReplies}

namespace NetSocketManager

def recvBufferCapacity : Nat := 64 * 1024

/-- The kernel's answers to the one or two receives of a read event. -/
structure ReadReplies where
  first : RecvReply
  second : RecvReply := .wouldBlock
  deriving DecidableEq, Repr

/-- What a read event goes on with: the reader keeps waiting, it is resumed (with an
exception when `failed`, and with the remote end processed afterwards when `ended`), the
data listeners get the bytes, the remote end is processed, or nothing. -/
inductive ReadNext
  | wait
  | resume (failed ended : Bool)
  | dispatch (recvBuffer : List UInt8)
  | ended
  | done
  deriving DecidableEq, Repr

/-- `OSLayer::infraGetPacketBytes2`; a receive that would block counts as a success. -/
def infraGetPacketBytes2 (readBuffer : CircularByteBuffer) (os : ReadReplies) (targetSz : Nat) :
    Except Failure (CircularByteBuffer × List UInt8 × Bool) := do
  let (readBuffer, r) ← readBuffer.read os.first os.second targetSz
  .ok (readBuffer, r.bytes, r.ret == .ok || r.ret == .pending)

/-- The branch of `infraProcessReadEvent` for a registered reader, after the receive. -/
def readEventReceived (d : SocketData) (requiredMinSz : Nat) (readBuffer : CircularByteBuffer)
    (bytes : List UInt8) (readOk : Bool) : SockStep ReadNext :=
  let currentSz := d.readBuffer.usedSize
  let d := { d with readBuffer := readBuffer }
  if !readOk then
    let (d, fx) := errorCloseSocket d
    ⟨{ d with ahdRead := none }, .received bytes :: fx, .ok (.resume true false)⟩
  else
    let totalReceivedSz := readBuffer.usedSize
    let addedSz := totalReceivedSz - currentSz
    if 0 < addedSz then
      if requiredMinSz ≤ totalReceivedSz then
        ⟨{ d with ahdRead := none }, [.received bytes], .ok (.resume false false)⟩
      else ⟨d, [.received bytes], .ok .wait⟩
    else
      ⟨{ d with ahdRead := none }, [.received bytes],
        .ok (.resume (!decide (requiredMinSz ≤ totalReceivedSz)) true)⟩

/-- `infraProcessReadEvent`, up to the user code it runs. -/
def infraProcessReadEvent (d : SocketData) (os : ReadReplies) : SockStep ReadNext :=
  match d.ahdRead with
  | some requiredMinSz =>
      match infraGetPacketBytes2 d.readBuffer os requiredMinSz with
      | .error e => ⟨d, [], .error e⟩
      | .ok (readBuffer, bytes, readOk) =>
          readEventReceived d requiredMinSz readBuffer bytes readOk
  | none =>
      match internalGetPacketBytes2 recvBufferCapacity os.first with
      | .error e => ⟨d, [], .error e⟩
      | .ok r =>
          if r.ret = .ok then
            if r.bytes.length ≠ 0 then ⟨d, [.received r.bytes], .ok (.dispatch r.bytes)⟩
            else ⟨d, [], .ok .ended⟩
          else
            let (d, fx) := errorCloseSocket d
            ⟨d, fx, .ok .done⟩

/-- `infraProcessRemoteEnded` before the `end` handlers; the flag says whether they run. -/
def infraProcessRemoteEnded (d : SocketData) : SocketData × List Fx × Bool :=
  if !d.remoteEnded then ({ d with remoteEnded := true }, [.unsetPollin], true)
  else (d, [], false)

/-- `infraProcessRemoteEnded` after the `end` handlers. -/
def afterRemoteEnded (d : SocketData) : SocketData × List Fx :=
  if d.state = .LocalEnded then closeSocket d
  else if !d.allowHalfOpen && d.state != .LocalEnding then
    if !d.writeBuffer.empty then ({ d with state := .LocalEnding }, [])
    else
      let (d, fx) := closeSocket { d with state := .LocalEnded }
      (d, .shutdownSend :: fx)
  else (d, [])

@[simp] theorem infraProcessRemoteEnded_readBuffer (d : SocketData) :
    (infraProcessRemoteEnded d).1.readBuffer = d.readBuffer := by
  unfold infraProcessRemoteEnded; split <;> rfl

@[simp] theorem afterRemoteEnded_readBuffer (d : SocketData) :
    (afterRemoteEnded d).1.readBuffer = d.readBuffer := by
  simp only [afterRemoteEnded, closeSocket]
  repeat' split
  all_goals simp

/-- A receive for a registered reader puts what the kernel delivered behind the contents of
`readBuffer`. -/
theorem infraProcessReadEvent_contents (hwf : d.readBuffer.WF) (hreader : d.ahdRead.isSome)
    {next : ReadNext} (h : (infraProcessReadEvent d os).res = .ok next) :
    let s := infraProcessReadEvent d os
    s.data.readBuffer.WF ∧ s.data.readBuffer.contents = d.readBuffer.contents ++ s.received := by
  obtain ⟨minSz, hmin⟩ := Option.isSome_iff_exists.mp hreader
  simp only [infraProcessReadEvent, hmin] at h ⊢
  cases hget : infraGetPacketBytes2 d.readBuffer os minSz with
  | error e => simp [hget] at h
  | ok x =>
    obtain ⟨⟨readBuffer, r⟩, hread, hx⟩ := bind_eq_ok hget
    cases hx
    obtain ⟨hwf', hcontents⟩ := CircularByteBuffer.read_contents hwf hread
    simp only [readEventReceived]
    split
    · simp [errorCloseSocket, hwf', hcontents, SockStep.received, Fx.receivedBytes]
    · split
      · split <;> simp [hwf', hcontents, SockStep.received, Fx.receivedBytes]
      · simp [hwf', hcontents, SockStep.received, Fx.receivedBytes]

theorem infraProcessReadEvent_readBuffer (hreader : d.ahdRead = none) (os : ReadReplies) :
    (infraProcessReadEvent d os).data.readBuffer = d.readBuffer := by
  simp only [infraProcessReadEvent, hreader, errorCloseSocket]
  repeat' split
  all_goals simp

theorem infraProcessReadEvent_received_nil (hreader : d.ahdRead = none)
    (hnone : os.first.bytes = []) : (infraProcessReadEvent d os).received = [] := by
  simp only [infraProcessReadEvent, hreader, internalGetPacketBytes2, recvBufferCapacity]
  cases hfirst : os.first with
  | data bytes =>
    rw [hfirst] at hnone
    simp [show bytes = [] from hnone, SockStep.received]
  | wouldBlock => simp [SockStep.received, errorCloseSocket]
  | error => simp [SockStep.received, errorCloseSocket]

end NetSocketManager

end NodeCpp
