import NodeCpp.Lib.OneShot
import NodeCpp.Coro.World

/-!
# Releasing the waiting coroutines

`forceReleasingAllCoroHandles`, of which there are four: `SocketBase`, `ServerBase`, `HttpSocketBase`
and `HttpServerBase` each have their own, for the fields the class itself declares. Each of them
looks at its fields in the order below. A handle it finds gets an exception, the field is cleared,
and the coroutine is resumed; what the coroutine does then, on this object or anywhere else, is a
`Reaction`.

None of the four is virtual. `SocketBase::onFinalCleanup` and
`ServerBase::internalCleanupBeforeClosing` call the one of their own class, whatever class the
object has.
-/

namespace NodeCpp

open Lib.OneShot

/-- The fields of `SocketBase::DataForCommandProcessing` for waiting coroutines. -/
inductive SockField
  | accepted
  | connect
  | read
  | write
  | drain
  deriving DecidableEq, Repr

/-- Those of `HttpSocketBase`; the others are inherited. -/
inductive HttpSockField
  | base (f : SockField)
  | continueGetting
  deriving DecidableEq, Repr

/-- Those of `ServerBase::DataForCommandProcessing`. -/
inductive ServerField
  | listen
  | connection
  | close
  deriving DecidableEq, Repr

/-- Those of `HttpServerBase`; the others are inherited. -/
inductive HttpServerField
  | base (f : ServerField)
  | request
  deriving DecidableEq, Repr

/-- The order in which `SocketBase` releases its fields. -/
def SockField.order : List SockField := [.accepted, .connect, .read, .write, .drain]

/-- `ServerBase` releases these; a coroutine in `ahd_close` is resumed by `rrOnClose` later. -/
def ServerField.order : List ServerField := [.listen, .connection]

section

variable {φ η σ : Type} [DecidableEq φ] (react : Reaction φ η σ) (s : Pass φ η σ)

/-- `SocketBase::forceReleasingAllCoroHandles` on an object with the fields `φ`, among which those
of `SocketBase` are given by `field`. -/
def SocketBase.forceReleasingAllCoroHandles (field : SockField → φ) : Pass φ η σ :=
  fireAll react (SockField.order.map field) s

def ServerBase.forceReleasingAllCoroHandles (field : ServerField → φ) : Pass φ η σ :=
  fireAll react (ServerField.order.map field) s

end

variable {η σ : Type}

/-- `HttpSocketBase::forceReleasingAllCoroHandles`, which hides the one of `SocketBase`. -/
def HttpSocketBase.forceReleasingAllCoroHandles (react : Reaction HttpSockField η σ) :
    Pass HttpSockField η σ → Pass HttpSockField η σ :=
  fireAll react [.continueGetting]

/-- `HttpServerBase::forceReleasingAllCoroHandles`, which hides the one of `ServerBase`. -/
def HttpServerBase.forceReleasingAllCoroHandles (react : Reaction HttpServerField η σ) :
    Pass HttpServerField η σ → Pass HttpServerField η σ :=
  fireAll react [.request]

/-- The coroutines in `SocketBase::onFinalCleanup`, on an `HttpSocketBase`. -/
def HttpSocketBase.onFinalCleanup (react : Reaction HttpSockField η σ)
    (s : Pass HttpSockField η σ) : Pass HttpSockField η σ :=
  SocketBase.forceReleasingAllCoroHandles react s .base

/-- The coroutines in `ServerBase::internalCleanupBeforeClosing`, on an `HttpServerBase`. -/
def HttpServerBase.internalCleanupBeforeClosing (react : Reaction HttpServerField η σ)
    (s : Pass HttpServerField η σ) : Pass HttpServerField η σ :=
  ServerBase.forceReleasingAllCoroHandles react s .base

theorem SockField.mem_order (f : SockField) : f ∈ order := by cases f <;> decide

end NodeCpp
