import NodeCpp.Socket.Call
import NodeCpp.Timer.Manager

/-!
# Coroutines that await socket operations

An await that cannot return at once registers the handle of its coroutine in a
field of the socket (`ahd_connect`, `ahd_read.h`, `ahd_write.h`, `ahd_drain`) and,
if it has a period, with the timers. An event takes the handle out of its field
and resumes it; a timer resumes the handle it has kept. Failure and timeout travel
in the promise of the coroutine (`CoroEData`), where `await_resume` finds them.

A handle names a coroutine, not an await: what a resumption continues is whatever
the coroutine is suspended in. `Handle.susp` is a ghost that says for which of its
awaits the handle was registered.

* `CoroWorld.await` -- `await_ready` and `await_suspend` of the awaiters.
* `CoroWorld.event` -- what an action does, up to the resumption it leads to.
* `CoroWorld.resume` -- `hr()`, with `await_resume`.
* `coroutines` -- all of it as a machine; user code that does not await shows up
  as calls on sockets and timers.
-/

namespace NodeCpp

/-- The fields awaiters register in; nothing ever sets `ahd_accepted`. -/
inductive HandleField
  | connect
  | read
  | write
  | drain
  deriving DecidableEq, Repr

/-- A `coroutine_handle`. -/
structure Handle where
  coro : Nat
  susp : Nat
  deriving DecidableEq, Repr

structure CoroEData where
  status : CircularByteBuffer.Outcome := .ok
  isException : Bool := false
  deriving DecidableEq, Repr

inductive AwaitOp
  | connect
  | reader (w : Await)
  | write
  | drain
  deriving DecidableEq, Repr

def AwaitOp.field : AwaitOp → HandleField
  | connect => .connect
  | reader _ => .read
  | write => .write
  | drain => .drain

/-- An await that has suspended its coroutine; `timer` is the timer `to` of a timed one. -/
structure Suspension where
  sock : Nat
  op : AwaitOp
  timer : Option UInt64 := none
  deriving DecidableEq, Repr

/-- A coroutine: the data in its promise, where it is suspended, and how many of its suspensions
are over. -/
structure Coroutine where
  edata : CoroEData := {}
  waits : Option Suspension := none
  count : Nat := 0
  deriving DecidableEq, Repr

/-- A socket with the handles registered in it. -/
structure CoroSocket where
  data : SocketData := {}
  ahd : HandleField → Option Handle := fun _ => none

/-- An await that is over: which one, whether `setCoroException` was called for it, whether its
`await_resume` threw, and whether it was a timed one. -/
structure AwaitEnd where
  coro : Nat
  susp : Nat
  failed : Bool
  delivered : Bool
  timed : Bool
  deriving DecidableEq, Repr

/-- The `co_await` throws. The `await_resume` of a timed await is a coroutine of its own: what is
thrown there stays in the awaitable it returns. -/
def AwaitEnd.threw (e : AwaitEnd) : Bool := e.delivered && !e.timed

/-- Sockets, coroutines and timers. `handle` is the handle in the entry of a timer, `handlers` what
`infraTimeoutEvents` has collected and not run yet; `resumed` and `ended` are what has happened. -/
structure CoroWorld where
  socks : Nat → CoroSocket
  coros : Nat → Coroutine := fun _ => {}
  timeout : TimeoutManager := {}
  handle : UInt64 → Option Handle := fun _ => none
  handlers : List Handle := []
  resumed : List Handle := []
  ended : List AwaitEnd := []

/-- The awaits on a socket, with the period of the timed ones. -/
inductive AwaitCall
  | connect (period : Option Int32)
  | read (period : Option Int32) (buff : Buffer) (minBytes maxBytes : Nat)
  | someDataAvailable
  | write (buff : List UInt8) (os : SendReply)
  | drain (period : Option Int32)
  deriving DecidableEq, Repr

/-- How a coroutine comes to be resumed: its operation is done, it is failed by `setCoroException`,
or its timer has fired. -/
inductive Cause
  | event
  | failed
  | timeout
  deriving DecidableEq, Repr

/-- `setCoroException` or `setCoroStatus`, before the handle is called. -/
def Cause.mark (e : CoroEData) : Cause → CoroEData
  | .event => e
  | .failed => { e with isException := true }
  | .timeout => { e with status := .timeout }

inductive CoroAct
  -- user code
  | await (c s : Nat) (call : AwaitCall) (now : UInt64)
  | sock (s : Nat) (call : SockCall)
  | timer (op : TimeoutOp)
  -- the infrastructure
  | readEvent (s : Nat) (os : NetSocketManager.ReadReplies)
  | writeEvent (s : Nat) (os : NetSocketManagerBase.WriteEventReplies)
  | release (s : Nat) (f : HandleField)
  | timeoutEvents (now : UInt64)
  | fire
  deriving DecidableEq, Repr

/-- The calls on a socket that have nothing to do with handles. -/
def SockCall.plain : SockCall → Bool
  | .write .. | .end_ | .destroy | .setOption _ | .pause _ | .connecting | .accepted | .errorClose
  | .remoteEnded | .afterRemoteEnded | .closed => true
  | _ => false

namespace AwaitCall

def period : AwaitCall → Option Int32
  | connect period | read period _ _ _ | drain period => period
  | someDataAvailable | write _ _ => none

/-- The call and `await_ready`: the data behind it, and the operation to wait for, if any.
`pending` is the handle `appWrite2` asserts not to have failed. -/
def begin (d : SocketData) (pending : Option CoroEData) :
    AwaitCall → Except Failure (SocketData × Option AwaitOp)
  | connect _ => do
      let s := SockCall.connecting.run d
      let _ ← s.res
      .ok (s.data, some .connect)
  | read _ buff minBytes maxBytes => do
      let s ← SocketBase.aRead d buff minBytes maxBytes
      .ok (s.data, s.await.map .reader)
  | someDataAvailable =>
      let s := SocketBase.aSomeDataAvailable d
      .ok (s.data, s.await.map .reader)
  | write buff os => do
      if pending.any (·.isException) then .error .assertion
      else
        let s := NetSocketManagerBase.appWrite2 d buff os
        let writeOk ← s.res
        .ok (s.data, if writeOk then none else some .write)
  | drain _ => .ok (d, if d.writeBuffer.empty then none else some .drain)

end AwaitCall

namespace CoroWorld

open Function

def setData (w : CoroWorld) (s : Nat) (data : SocketData) : CoroWorld :=
  { w with socks := update w.socks s { w.socks s with data := data } }

/-- `setTimeoutForAction`; the entry keeps the handle unless the id was taken. -/
def setTimeoutForAction (w : CoroWorld) (h : Handle) (ms : Int32) (now : UInt64) :
    Option (CoroWorld × UInt64) :=
  match w.timeout.appSetTimeout ms now with
  | .error _ => none
  | .ok (timeout, id) =>
      let next := w.timeout.lastId + 1
      some ({ w with
        timeout := timeout
        handle := if (w.timeout.timers next).isNone then update w.handle next (some h)
          else w.handle }, id)

/-- `await_suspend`: `initCoroData`, and the handle goes into its field. -/
def register (w : CoroWorld) (c s : Nat) (data : SocketData) (op : AwaitOp)
    (timer : Option UInt64) : CoroWorld :=
  let co := w.coros c
  { w with
    socks := update w.socks s
      { data := data, ahd := update (w.socks s).ahd op.field (some ⟨c, co.count⟩) }
    coros := update w.coros c
      { co with edata := { co.edata with status := .ok }, waits := some ⟨s, op, timer⟩ } }

def await (w : CoroWorld) (c s : Nat) (call : AwaitCall) (now : UInt64) : Option CoroWorld :=
  if (w.coros c).waits.isSome then none
  else
    match call.begin (w.socks s).data (((w.socks s).ahd .write).map fun h => (w.coros h.coro).edata)
    with
    | .error _ => none
    | .ok (data, none) => some (w.setData s data)
    | .ok (data, some op) =>
        match call.period with
        | none => some (w.register c s data op none)
        | some ms =>
            (w.setTimeoutForAction ⟨c, (w.coros c).count⟩ ms now).map fun p =>
              p.1.register c s data op (some p.2)

/-- A call on a timer user code has set. -/
def timer (w : CoroWorld) (op : TimeoutOp) : Option CoroWorld :=
  match op with
  | .infraTimeoutEvents _ => none
  | .appSetTimeout ms now =>
      match w.timeout.appSetTimeout ms now with
      | .error _ => none
      | .ok (timeout, _) =>
          let next := w.timeout.lastId + 1
          some { w with
            timeout := timeout
            handle := if (w.timeout.timers next).isNone then update w.handle next none
              else w.handle }
  | .appClearTimeout id | .appRefresh id _ | .appTimeoutDestructor id =>
      if (w.handle id).isSome then none
      else (op.run w.timeout).toOption.map fun timeout => { w with timeout := timeout }

/-- The handle in a field, if there is one, is taken out and resumed. -/
def take (w : CoroWorld) (s : Nat) (f : HandleField) (data : SocketData) (cause : Cause) :
    CoroWorld × Option (Handle × Cause) :=
  ({ w with socks := update w.socks s { data := data, ahd := update (w.socks s).ahd f none } },
    ((w.socks s).ahd f).map (·, cause))

def event (w : CoroWorld) : CoroAct → Option (CoroWorld × Option (Handle × Cause))
  | .await c s call now => (w.await c s call now).map (·, none)
  | .sock s call =>
      let r := call.run (w.socks s).data
      if call.plain ∧ r.returns then some (w.setData s r.data, none) else none
  | .timer op => (w.timer op).map (·, none)
  | .readEvent s os =>
      let r := NetSocketManager.infraProcessReadEvent (w.socks s).data os
      if ¬w.handlers.isEmpty then none
      else
        match r.res with
        | .error _ => none
        | .ok (.resume failed _) =>
            some (w.take s .read r.data (if failed then .failed else .event))
        | .ok _ => some (w.setData s r.data, none)
  -- `rrOnConnected` and `rrOnDrain`
  | .writeEvent s os =>
      let r := NetSocketManagerBase.infraProcessWriteEvent (w.socks s).data os
      if ¬w.handlers.isEmpty then none
      else
        match r.res with
        | .error _ => none
        | .ok .EmitConnect => some (w.take s .connect r.data .event)
        | .ok .EmitDrain => some (w.take s .drain r.data .event)
        | .ok .EmitNone => some (w.setData s r.data, none)
  -- `forceReleasingAllCoroHandles`, one field of it
  | .release s f =>
      let d := (w.socks s).data
      if ¬w.handlers.isEmpty ∨ d.state ≠ .Closed then none
      else some (w.take s f (if f = .read then { d with ahdRead := none } else d) .failed)
  | .timeoutEvents now =>
      if ¬w.handlers.isEmpty then none
      else
        match w.timeout.infraTimeoutEvents now with
        | .error _ => none
        | .ok (timeout, ids) =>
            some ({ w with timeout := timeout, handlers := ids.filterMap w.handle }, none)
  | .fire =>
      match w.handlers with
      | [] => none
      | h :: handlers => some ({ w with handlers := handlers }, some (h, .timeout))

/-- `clearTimeout( to )` and the destructor of `to`. -/
def clearAwait (m : TimeoutManager) : Option UInt64 → Except Failure TimeoutManager
  | none => .ok m
  | some id => (m.appClearTimeout id).map (·.appTimeoutDestructor id)

/-- The rest of `await_resume`, behind `clearTimeout`. -/
def awaitResume (d : SocketData) (e : CoroEData) (x : Suspension) : Except Failure SocketData :=
  if e.isException then .ok d
  else if x.timer.isSome ∧ e.status = .timeout then .ok d
  else
    match x.op with
    | .reader r => (SocketBase.resume d false r).map (·.data)
    | .connect | .write | .drain => .ok d

/-- `hr()`. A coroutine that is not suspended must not be resumed; what happens then is not
defined, and only the resumption is recorded. -/
def resume (w : CoroWorld) (h : Handle) (cause : Cause) : Option CoroWorld :=
  let co := w.coros h.coro
  let edata := cause.mark co.edata
  match co.waits with
  | none =>
      some { w with
        coros := update w.coros h.coro { co with edata := edata }
        resumed := w.resumed ++ [h] }
  | some x =>
      match clearAwait w.timeout x.timer, awaitResume (w.socks x.sock).data edata x with
      | .ok timeout, .ok data =>
          some { w.setData x.sock data with
            coros := update w.coros h.coro ⟨edata, none, co.count + 1⟩
            timeout := timeout
            resumed := w.resumed ++ [h]
            ended := w.ended ++ [{
              coro := h.coro
              susp := co.count
              failed := cause == .failed && h.susp == co.count
              delivered := edata.isException
              timed := x.timer.isSome }] }
      | _, _ => none

/-- The resumption an action leads to. -/
def resumption (w : CoroWorld) (a : CoroAct) : Option (Handle × Cause) := (w.event a).bind Prod.snd

def step (w : CoroWorld) (a : CoroAct) : Option CoroWorld :=
  (w.event a).bind fun p =>
    match p.2 with
    | none => some p.1
    | some r => p.1.resume r.1 r.2

end CoroWorld

/-- Coroutines, sockets and timers as a machine. -/
def coroutines : Lib.Machine CoroWorld CoroAct where
  step := CoroWorld.step

end NodeCpp
