import NodeCpp.Socket.Data

/-!
# Sending and ending

`appWrite`, `appWrite2`, `appEnd`, `appDestroy` and `_infraProcessWriteEvent`.
Bytes that the kernel does not take at once wait in two places: in `writeBuffer`
and, when a coroutine's buffer does not fit there, in `ahd_write.b`.
-/

namespace NodeCpp

namespace OSLayer

def appDestroy (d : SocketData) : SockStep Unit :=
  if !d.isValid then ⟨d, [], .error .error⟩
  else
    let (d, fx) := closeSocket d
    ⟨d, .lingerZero :: fx, .ok ()⟩

def appEnd (d : SocketData) : SockStep Unit :=
  if !d.isValid then ⟨d, [], .error .error⟩
  else if d.writeBuffer.empty then
    if d.remoteEnded then
      let (d, fx) := closeSocket d
      ⟨d, .shutdownSend :: fx, .ok ()⟩
    else ⟨{ d with state := .LocalEnded }, [.shutdownSend], .ok ()⟩
  else ⟨{ d with state := .LocalEnding }, [], .ok ()⟩

/-- The body shared by `appSetKeepAlive` and `appSetNoDelay`: a refused `setsockopt` closes
the socket with an error. -/
def appSetOption (d : SocketData) (accepted : Bool) : SockStep Unit :=
  if !d.isValid then ⟨d, [], .error .error⟩
  else if accepted then ⟨d, [], .ok ()⟩
  else
    let (d, fx) := errorCloseSocket d
    ⟨d, fx, .ok ()⟩

def appSetKeepAlive : SocketData → Bool → SockStep Unit := appSetOption

def appSetNoDelay : SocketData → Bool → SockStep Unit := appSetOption

end OSLayer

namespace NetSocketManagerBase

/-- The branch of `appWrite` and `appWrite2` for an empty `writeBuffer`: the kernel is offered
the data and `writeBuffer` gets the rest. The asserted `sentSize < size` of the last case
follows from `sentSize != size`. -/
def writeToEmpty (d : SocketData) (data : List UInt8) (os : SendReply) : SockStep Bool :=
  let r := internalSendPacket data.length os
  if r.ret = .failed then
    let (d, fx) := errorCloseSocket d
    ⟨d, fx, .ok false⟩
  else if r.sentSize = data.length then ⟨d, [.sent data], .ok true⟩
  else
    ⟨{ d with writeBuffer := d.writeBuffer.append (data.drop r.sentSize) },
      [.sent (data.take r.sentSize), .setPollout], .ok false⟩

def appWrite (d : SocketData) (data : List UInt8) (os : SendReply) : SockStep Bool :=
  if !d.isValid then ⟨d, [], .error .error⟩
  else if d.state = .LocalEnding ∨ d.state = .LocalEnded then
    let (d, fx) := errorCloseSocket d
    ⟨d, fx, .ok false⟩
  else if d.writeBuffer.usedSize = 0 then writeToEmpty d data os
  else ⟨{ d with writeBuffer := d.writeBuffer.append data }, [], .ok false⟩

/-- `appWrite2`: a buffer that does not fit behind waiting bytes is kept as it is. -/
def appWrite2 (d : SocketData) (buff : List UInt8) (os : SendReply) : SockStep Bool :=
  if !d.isValid then ⟨d, [], .error .error⟩
  else if d.state = .LocalEnding ∨ d.state = .LocalEnded then
    let (d, fx) := errorCloseSocket d
    ⟨d, fx, .ok false⟩
  else if d.writeBuffer.usedSize = 0 then writeToEmpty d buff os
  else if buff.length ≤ d.writeBuffer.remainingCapacity then
    ⟨{ d with writeBuffer := d.writeBuffer.append buff }, [], .ok true⟩
  else if d.ahdWrite.length ≠ 0 then ⟨d, [], .error .assertion⟩
  else ⟨{ d with ahdWrite := buff }, [], .ok false⟩

inductive ShouldEmit
  | EmitNone
  | EmitConnect
  | EmitDrain
  deriving DecidableEq, Repr

/-- The kernel's answers during a write event: `SO_ERROR` for a connecting socket, the sends
from `writeBuffer`, and the send from `ahd_write.b`. -/
structure WriteEventReplies where
  success : Bool := true
  buf : Fifo.WriteReplies
  coro : SendReply := .wouldBlock
  deriving DecidableEq, Repr

/-- The `all_done` block of `_infraProcessWriteEvent`. -/
def writeEventDone (d : SocketData) : SocketData × List Fx :=
  if d.state = .LocalEnding then
    if d.remoteEnded then
      let (d, fx) := closeSocket d
      (d, .shutdownSend :: fx ++ [Fx.unsetPollout])
    else ({ d with state := .LocalEnded }, [.shutdownSend, .unsetPollout])
  else (d, [.unsetPollout])

/-- `_infraProcessWriteEvent` once `writeBuffer` has been emptied: the coroutine's buffer is
sent from its first byte, and kept whole unless all of it is taken. -/
def writeEventDrained (d : SocketData) (coro : SendReply) : SockStep ShouldEmit :=
  if d.ahdWrite.length ≠ 0 then
    let r := internalSendPacket d.ahdWrite.length coro
    if r.ret = .failed then
      let (d, fx) := errorCloseSocket d
      let (d, fx') := writeEventDone d
      ⟨d, fx ++ fx', .ok .EmitDrain⟩
    else if r.sentSize = d.ahdWrite.length then
      let (d', fx) := writeEventDone { d with ahdWrite := [] }
      ⟨d', .sent d.ahdWrite :: fx, .ok .EmitDrain⟩
    else ⟨d, [.sent (d.ahdWrite.take r.sentSize)], .ok .EmitNone⟩
  else
    let (d, fx) := writeEventDone d
    ⟨d, fx, .ok .EmitDrain⟩

def infraProcessWriteEvent (d : SocketData) (os : WriteEventReplies) : SockStep ShouldEmit :=
  if d.state = .Connecting then
    if os.success then
      let d := { d with state := .Connected }
      if !d.writeBuffer.empty then ⟨d, [], .error .assertion⟩
      else ⟨d, [.unsetPollout], .ok .EmitConnect⟩
    else
      let (d, fx) := errorCloseSocket d
      ⟨d, fx, .ok .EmitNone⟩
  else if !d.writeBuffer.empty then
    let (writeBuffer, r) := d.writeBuffer.write os.buf
    let sent := .sent (d.writeBuffer.contents.take r.sentSize)
    let d := { d with writeBuffer := writeBuffer }
    if r.ret = .failed then
      let (d, fx) := errorCloseSocket d
      ⟨d, sent :: fx, .ok .EmitNone⟩
    else if d.writeBuffer.empty then
      let s := writeEventDrained d os.coro
      { s with fx := sent :: s.fx }
    -- the assertion compares what was sent with what is left
    else if ¬r.sentSize < d.writeBuffer.usedSize then ⟨d, [sent], .error .assertion⟩
    else ⟨d, [sent], .ok .EmitNone⟩
  else ⟨d, [], .error .assertion⟩

/-! ## What the calls do on a connected socket -/

section Connected

variable {d : SocketData} (hconn : d.state = .Connected)
include hconn

/-- A direct send that does not fail: what the kernel does not take ends up in `writeBuffer`. -/
theorem writeToEmpty_connected (data : List UInt8) {os : SendReply} (hos : os ≠ .error)
    (hempty : d.writeBuffer.contents = []) :
    let s := writeToEmpty d data os
    s.data.state = .Connected ∧ s.data.ahdWrite = d.ahdWrite ∧ s.returns ∧
      s.sent ++ s.data.writeBuffer.contents = data := by
  have hret := internalSendPacket_ret_ne_failed data.length hos
  simp only [writeToEmpty, hret, if_false]
  split <;> simp [hconn, hempty, SockStep.sent, Fx.sentBytes]

theorem appWrite_connected (data : List UInt8) {os : SendReply} (hos : os ≠ .error) :
    let s := appWrite d data os
    s.data.state = .Connected ∧ s.data.ahdWrite = d.ahdWrite ∧ s.returns ∧
      s.sent ++ s.data.writeBuffer.contents = d.writeBuffer.contents ++ data := by
  by_cases hempty : d.writeBuffer.contents = []
  · simpa [appWrite, SocketData.isValid, hconn, hempty] using
      writeToEmpty_connected hconn data hos hempty
  · simp [appWrite, SocketData.isValid, hconn, hempty, SockStep.sent]

/-- `appWrite2` either treats its buffer as `appWrite` does, or keeps it in the empty
`ahd_write.b`, or fails and changes nothing. -/
theorem appWrite2_connected (buff : List UInt8) {os : SendReply} (hos : os ≠ .error) :
    let s := appWrite2 d buff os
    s.data.state = .Connected ∧
      ((s.returns ∧ s.data.ahdWrite = d.ahdWrite ∧
          s.sent ++ s.data.writeBuffer.contents = d.writeBuffer.contents ++ buff) ∨
        (s.returns ∧ d.ahdWrite = [] ∧ s.data.ahdWrite = buff ∧ s.sent = [] ∧
          s.data.writeBuffer = d.writeBuffer) ∨
        (s.returns = false ∧ s.sent = [] ∧ s.data = d)) := by
  by_cases hempty : d.writeBuffer.contents = []
  · obtain ⟨hst, hb, hok, hlaw⟩ := writeToEmpty_connected hconn buff hos hempty
    simp [appWrite2, SocketData.isValid, hconn, hempty, hst, hb, hok, hlaw]
  · have hused : d.writeBuffer.usedSize ≠ 0 := by simpa using hempty
    simp only [appWrite2, SocketData.isValid, hconn, hused, ne_eq, reduceCtorEq,
      Bool.not_eq_true', or_self, if_false]
    by_cases hroom : buff.length ≤ d.writeBuffer.remainingCapacity
    · simp [hroom, SockStep.sent]
    · by_cases hb : d.ahdWrite = [] <;> simp [hroom, hb, hconn, SockStep.sent]

end Connected

end NetSocketManagerBase

end NodeCpp
