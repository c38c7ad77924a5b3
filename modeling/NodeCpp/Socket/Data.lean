import NodeCpp.Buffer.Circular
import NodeCpp.Buffer.Fifo

/-!
# The state of a socket

`SocketBase::DataForCommandProcessing`, the part of it the sending, receiving
and closing code reads and writes. A function of the socket layer takes the
data of one socket and yields a `SockStep`: the data afterwards, what it asked
of its surroundings (`Fx`), and how it ended. The data stay visible when a call
ends in a failed assertion.
-/

namespace NodeCpp

/-- `DataForCommandProcessing::State`. -/
inductive SockState
  | Uninitialized
  | Connecting
  | Connected
  | LocalEnding
  | LocalEnded
  | Closing
  | ErrorClosing
  | Closed
  deriving DecidableEq, Repr

/-- The states in which `closeSocket` and `errorCloseSocket` do nothing any more. -/
def SockState.closing : SockState → Bool
  | .Closing | .ErrorClosing | .Closed => true
  | _ => false

/-- The states of a socket that waits for its close event. -/
def SockState.toBeClosed : SockState → Bool
  | .Closing | .ErrorClosing => true
  | _ => false

/-- `DataForCommandProcessing`. `ahdRead` is `ahd_read`: the `min_bytes` of the registered
handle, if one is registered; `ahdWrite` is the buffer `ahd_write.b`. -/
structure SocketData where
  state : SockState := .Uninitialized
  index : Nat := 0
  ahdRead : Option Nat := none
  ahdWrite : List UInt8 := []
  remoteEnded : Bool := false
  paused : Bool := false
  allowHalfOpen : Bool := false
  refed : Bool := false
  writeBuffer : Fifo := {}
  readBuffer : CircularByteBuffer := {}
  osSocket : Nat := 0

def SocketData.isValid (d : SocketData) : Bool := d.state != .Uninitialized

/-- What a socket-layer call does besides updating the socket's data. -/
inductive Fx
  | setPollout
  | unsetPollout
  | unsetPollin
  | queueClose (err : Bool)
  | lingerZero
  | shutdownSend
  | sent (bytes : List UInt8)
  | received (bytes : List UInt8)
  deriving DecidableEq, Repr

def Fx.sentBytes : Fx → List UInt8
  | .sent bytes => bytes
  | _ => []

def Fx.receivedBytes : Fx → List UInt8
  | .received bytes => bytes
  | _ => []

structure SockStep (α : Type) where
  data : SocketData
  fx : List Fx := []
  res : Except Failure α

/-- The call returned, rather than ending in a failed assertion or a thrown error. -/
def SockStep.returns {α : Type} (s : SockStep α) : Bool := s.res.isOk

@[simp] theorem SockStep.returns_ok {α : Type} (d : SocketData) (fx : List Fx) (a : α) :
    SockStep.returns ⟨d, fx, .ok a⟩ = true := rfl

@[simp] theorem SockStep.returns_error {α : Type} (d : SocketData) (fx : List Fx) (e : Failure) :
    SockStep.returns (⟨d, fx, .error e⟩ : SockStep α) = false := rfl

def SockStep.sent {α : Type} (s : SockStep α) : List UInt8 := s.fx.flatMap Fx.sentBytes

def SockStep.received {α : Type} (s : SockStep α) : List UInt8 := s.fx.flatMap Fx.receivedBytes

/-- The bytes a socket holds for sending: `writeBuffer`, then `ahd_write.b`. -/
def SocketData.held (d : SocketData) : List UInt8 := d.writeBuffer.contents ++ d.ahdWrite

/-- The body shared by `closeSocket` and `errorCloseSocket`: only a socket that is not
closing yet changes its state and queues a close event. -/
def closeWith (state : SockState) (err : Bool) (d : SocketData) : SocketData × List Fx :=
  if d.state.closing then (d, []) else ({ d with state := state }, [.queueClose err])

def closeSocket : SocketData → SocketData × List Fx := closeWith .Closing false

def errorCloseSocket : SocketData → SocketData × List Fx := closeWith .ErrorClosing true

@[simp] theorem closeWith_writeBuffer (state : SockState) (err : Bool) (d : SocketData) :
    (closeWith state err d).1.writeBuffer = d.writeBuffer := by
  unfold closeWith; split <;> rfl

@[simp] theorem closeWith_ahdWrite (state : SockState) (err : Bool) (d : SocketData) :
    (closeWith state err d).1.ahdWrite = d.ahdWrite := by
  unfold closeWith; split <;> rfl

@[simp] theorem closeWith_readBuffer (state : SockState) (err : Bool) (d : SocketData) :
    (closeWith state err d).1.readBuffer = d.readBuffer := by
  unfold closeWith; split <;> rfl

@[simp] theorem closeWith_received (state : SockState) (err : Bool) (d : SocketData) :
    (closeWith state err d).2.flatMap Fx.receivedBytes = [] := by
  unfold closeWith; split <;> rfl

@[simp] theorem closeWith_sent (state : SockState) (err : Bool) (d : SocketData) :
    (closeWith state err d).2.flatMap Fx.sentBytes = [] := by
  unfold closeWith; split <;> rfl

end NodeCpp
