import NodeCpp.Lib.Controller
import NodeCpp.Loop.Program
import NodeCpp.Timer.Manager

/-!
# The loop

`Infrastructure::runStandardLoop` as a controller of the registry. `Phase` says
where the loop is; an `infra` action runs the code from there to the next point
where user code may run, or to the next iteration of a loop of the source. At such
a point `handler` is set: user code makes any number of calls and returns. What
the kernel and the clock answer is part of the action (`Env`).

The loop starts with user code running (`main()` of the node), and `running`
stays true. A failed assertion leaves the loop aborted where it is, and so does a
step that would go on through a reference that a handler has left dangling.
-/

namespace NodeCpp

/-- The position of the loop of `pollPhase2`: the next index, `processed` and `retval`. -/
structure PollPos where
  i : Nat
  processed : Nat
  retval : Nat
  deriving DecidableEq, Repr

/-- What the infrastructure does next. -/
inductive Phase
  | infraEmitListeningEvents
  | infraTimeoutEvents
  | timers (handlers : List UInt64)
  | wait
  | pollPhase2 (pos : PollPos)
  -- the rest of `infraCheckPollFdSet` on the client at `cur`
  | afterReadHandler (cur : Nat) (revents : Revents) (pos : PollPos)
  | infraProcessRemoteEnded (cur : Nat) (revents : Revents) (pos : PollPos)
  | afterRemoteEnded (cur : Nat) (revents : Revents) (pos : PollPos)
  | infraProcessWriteEvent (cur : Nat) (revents : Revents) (pos : PollPos)
  -- the rest of `infraCheckPollFdSet` on the server at `cur`
  | handleConnectionEvent (cur : Nat) (pos : PollPos)
  | handleServerError (cur : Nat) (pos : PollPos)
  | closeServer (cur : Nat) (pos : PollPos)
  | emitInmediates (left : Nat)
  -- `infraGetCloseEvent`, and the stages of one close event
  | infraGetCloseEvent
  | handleErrorEvent (idx : Nat)
  | emitClose (idx : Nat)
  | handleCloseEvent (idx : Nat)
  | closed (idx : Nat)
  | onFinalCleanup (idx o : Nat)
  | infraProcessSockAcceptedEvents
  -- `infraGetCloseEvents` of the servers
  | infraGetCloseEvents
  | resetServer (idx : Nat)
  | reworkIfNecessary
  | returned
  deriving DecidableEq, Repr

/-- The state of the loop. `dispatched` lists the indices for which `infraCheckPollFdSet` has
been called since the last `poll`. -/
structure Ctl where
  phase : Phase := .infraEmitListeningEvents
  handler : Bool := true
  aborted : Bool := false
  timeout : TimeoutManager := {}
  inmediateQueue : Nat := 0
  dispatched : List Nat := []

/-- What the kernel and the clock answer. `awaited` tells a coroutine waiting for a connection, and
`recvCapacity` what the data handlers, which get `recvBuffer` by reference, have made of its
capacity. -/
structure Env where
  now : UInt64 := 0
  ready : Nat → Revents := fun _ => {}
  pollFails : Bool := false
  read : NetSocketManager.ReadReplies := { first := .wouldBlock }
  write : NetSocketManagerBase.WriteEventReplies := { buf := { first := .wouldBlock } }
  accepted : Option Nat := none
  awaited : Bool := false
  recvCapacity : Nat := NetSocketManager.recvBufferCapacity

inductive TimerCall
  | setTimeout (ms : Int32) (now : UInt64)
  | clearTimeout (id : UInt64)
  | refreshTimeout (id now : UInt64)
  | destructTimeout (id : UInt64)
  | setInmediate
  deriving DecidableEq, Repr

inductive Action
  | call (c : Call)
  | timer (c : TimerCall)
  | ret
  | infra (env : Env)

namespace Ctl

/-- Goes on without running user code. -/
def go (k : Ctl) (phase : Phase) : Ctl := { k with phase := phase }

/-- Runs user code, then goes on. -/
def user (k : Ctl) (phase : Phase) : Ctl := { k with phase := phase, handler := true }

def abort (k : Ctl) : Ctl := { k with aborted := true }

def refedTimeout (k : Ctl) : Bool :=
  !decide (k.inmediateQueue = 0) || k.timeout.infraRefedTimeout

/-- A timer operation; a failed assertion aborts. -/
def onTimeout (k : Ctl) : Except Failure TimeoutManager → Ctl
  | .ok m => { k with timeout := m }
  | .error _ => k.abort

def timerCall (k : Ctl) : TimerCall → Ctl
  | .setTimeout ms now => k.onTimeout ((k.timeout.appSetTimeout ms now).map Prod.fst)
  | .clearTimeout id => k.onTimeout (k.timeout.appClearTimeout id)
  | .refreshTimeout id now => k.onTimeout (k.timeout.appRefresh id now)
  | .destructTimeout id => k.onTimeout (.ok (k.timeout.appTimeoutDestructor id))
  | .setInmediate => { k with inmediateQueue := k.inmediateQueue + 1 }

end Ctl

/-- A step of the infrastructure: operations of the registry, and where the loop is then. -/
abbrev Plan := List Op × (Registry → Ctl)

namespace Loop

def failed (k : Ctl) : Plan := ([], fun _ => k.abort)

def infraEmitListeningEvents (k : Ctl) (r : Registry) : Plan :=
  match (r.queue .listen).batch with
  | ev :: _ =>
      if r.ioSockets.isValidId ev.idx then
        ([.take .listen, .listening ev.idx], fun _ => k.user .infraEmitListeningEvents)
      else ([.take .listen], fun _ => k)
  | [] =>
      if (r.queue .listen).waiting.isEmpty then
        ([.finish .listen], fun _ => k.go .infraTimeoutEvents)
      else ([.start .listen], fun _ => k)

/-- `infraTimeoutEvents` up to the handlers. -/
def infraTimeoutEvents (k : Ctl) (env : Env) : Plan :=
  match k.timeout.infraTimeoutEvents env.now with
  | .ok (m, handlers) => ([], fun _ => { k with timeout := m, phase := .timers handlers })
  | .error _ => failed k

/-- The number of entries of `osSide` that `poll` reports. -/
def retval (r : Registry) : Nat :=
  (r.ioSockets.slots.take r.ioSockets.baseSz).countP fun s => decide (s.pfd.revents ≠ {})

/-- `wait`, and what `pollPhase2` makes of its result. -/
def wait (k : Ctl) (r : Registry) (env : Env) : Plan :=
  if r.ioSockets.associatedCount = 0 then
    ([], fun _ => k.go (if k.refedTimeout then .emitInmediates k.inmediateQueue else .returned))
  else if env.pollFails then failed k
  else
    ([.poll env.ready], fun r =>
      { k with dispatched := []
               phase :=
                 if retval r = 0 then .emitInmediates k.inmediateQueue
                 else .pollPhase2 ⟨r.ioSockets.reservedCapacity, 0, retval r⟩ })

/-- `infraProcessReadEvent` up to the code it runs. -/
def infraProcessReadEvent (k : Ctl) (cur : Nat) (obj : SocketObj) (revents : Revents)
    (pos : PollPos) (env : Env) : Plan :=
  ([.entrySock cur (.readEvent env.read)], fun _ =>
    match (NetSocketManager.infraProcessReadEvent obj.data env.read).res with
    | .ok (.resume _ true) => k.user (.infraProcessRemoteEnded cur revents pos)
    | .ok (.resume _ false) => k.user (.infraProcessWriteEvent cur revents pos)
    | .ok (.dispatch _) => k.user (.afterReadHandler cur revents pos)
    | .ok .ended => k.go (.infraProcessRemoteEnded cur revents pos)
    | .ok .wait | .ok .done => k.go (.infraProcessWriteEvent cur revents pos)
    | .error _ => k.abort)

/-- `NetSocketManager::infraCheckPollFdSet`, its first part. -/
def infraCheckPollFdSet (k : Ctl) (r : Registry) (cur : Nat) (revents : Revents) (pos : PollPos)
    (env : Env) : Plan :=
  match r.client cur with
  | .error _ => failed k
  | .ok (_, obj) =>
      if revents.err then ([.entrySock cur .errorClose], fun _ => k.go (.pollPhase2 pos))
      else if revents.pollin then
        if !obj.data.paused then infraProcessReadEvent k cur obj revents pos env
        else ([], fun _ => k.go (.infraProcessWriteEvent cur revents pos))
      else if revents.hup then ([], fun _ => k.go (.infraProcessRemoteEnded cur revents pos))
      else ([], fun _ => k.go (.infraProcessWriteEvent cur revents pos))

/-- `NetServerManager::infraCheckPollFdSet`, its first part. -/
def infraCheckServer (k : Ctl) (r : Registry) (cur : Nat) (revents : Revents) (pos : PollPos)
    (env : Env) : Plan :=
  match r.server cur with
  | .error _ => failed k
  | .ok (s, _) =>
      if !revents.err && revents.pollin then
        match env.accepted with
        | none => ([], fun _ => k.go (.pollPhase2 pos))
        | some osSocket =>
            (Program.consumeAcceptedSocket r cur s osSocket, fun _ =>
              k.user (if env.awaited then .pollPhase2 pos else .handleConnectionEvent cur pos))
      else ([], fun _ => k.user (.handleServerError cur pos))

/-- One iteration of the loop of `pollPhase2`. -/
def pollPhase2 (k : Ctl) (r : Registry) (pos : PollPos) (env : Env) : Plan :=
  if pos.retval ≤ pos.processed then ([], fun _ => k.go (.emitInmediates k.inmediateQueue))
  else if r.ioSockets.size < pos.i then failed k
  else
    match r.ioSockets.slots[pos.i]? with
    | none => failed k
    | some s =>
        if s.pfd.revents = {} then ([], fun _ => k.go (.pollPhase2 { pos with i := pos.i + 1 }))
        else if s.pfd.fd ≤ 0 ∨ !s.used then failed k
        else
          let next : PollPos := { pos with i := pos.i + 1, processed := pos.processed + 1 }
          if !s.associated then ([], fun _ => k.go (.pollPhase2 next))
          else
            let k := { k with dispatched := k.dispatched ++ [pos.i] }
            match s.entry.emitter with
            | some (.client _) => infraCheckPollFdSet k r pos.i s.pfd.revents next env
            | some (.server _) => infraCheckServer k r pos.i s.pfd.revents next env
            | none => failed k

/-- `infraProcessRemoteEnded` up to the `end` handlers. -/
def infraProcessRemoteEnded (k : Ctl) (r : Registry) (cur : Nat) (revents : Revents)
    (pos : PollPos) : Plan :=
  match r.client cur with
  | .error _ => failed k
  | .ok (_, obj) =>
      ([.entrySock cur .remoteEnded], fun _ =>
        if obj.data.remoteEnded then k.go (.infraProcessWriteEvent cur revents pos)
        else k.user (.afterRemoteEnded cur revents pos))

def infraProcessWriteEvent (k : Ctl) (r : Registry) (cur : Nat) (revents : Revents)
    (pos : PollPos) (env : Env) : Plan :=
  if !revents.pollout then ([], fun _ => k.go (.pollPhase2 pos))
  else
    match r.client cur with
    | .error _ => failed k
    | .ok (_, obj) =>
        ([.entrySock cur (.writeEvent env.write)], fun _ =>
          match (NetSocketManagerBase.infraProcessWriteEvent obj.data env.write).res with
          | .ok .EmitConnect | .ok .EmitDrain => k.user (.pollPhase2 pos)
          | .ok .EmitNone => k.go (.pollPhase2 pos)
          | .error _ => k.abort)

/-- `emitInmediates`: immediates added by the handlers are cleared with the others. -/
def emitInmediates (k : Ctl) : Nat → Plan
  | 0 => ([.start .close], fun _ => { k with inmediateQueue := 0, phase := .infraGetCloseEvent })
  | left + 1 => ([], fun _ => k.user (.emitInmediates left))

/-- `infraGetCloseEvent`, the next event. -/
def infraGetCloseEvent (k : Ctl) (r : Registry) : Plan :=
  match (r.queue .close).batch with
  | [] => ([.clear .close, .start .accepted], fun _ => k.go .infraProcessSockAcceptedEvents)
  | ev :: _ =>
      if r.ioSockets.isValidId ev.idx && r.used ev.idx then
        ([.beginClose], fun _ =>
          match r.client ev.idx with
          | .ok (_, obj) =>
              if obj.data.state = .ErrorClosing then k.user (.handleErrorEvent ev.idx)
              else k.go (.emitClose ev.idx)
          | .error _ => k.abort)
      else ([.take .close], fun _ => k)

/-- `emitClose`, if the entry is still used. -/
def emitClose (k : Ctl) (r : Registry) (idx : Nat) : Plan :=
  if r.used idx then
    match r.client idx with
    | .error _ => failed k
    | .ok (_, obj) => ([.setRefed obj.data.index false], fun _ => k.user (.handleCloseEvent idx))
  else ([], fun _ => k.go (.handleCloseEvent idx))

/-- The socket is `Closed`, and `onFinalCleanup` releases its coroutines. -/
def closed (k : Ctl) (r : Registry) (idx : Nat) : Plan :=
  match r.client idx with
  | .error _ => failed k
  | .ok (o, _) =>
      (if r.used idx then [.entrySock idx .closed] else [], fun _ => k.user (.onFinalCleanup idx o))

def onFinalCleanup (k : Ctl) (r : Registry) (idx o : Nat) : Plan :=
  match r.liveSocket o with
  | none => failed k
  | some obj =>
      (Program.onFinalCleanup r o obj ++ [Op.endClose idx], fun _ => k.go .infraGetCloseEvent)

def infraProcessSockAcceptedEvents (k : Ctl) (r : Registry) : Plan :=
  match (r.queue .accepted).batch with
  | [] => ([.finish .accepted, .start .serverClose], fun _ => k.go .infraGetCloseEvents)
  | ev :: _ =>
      if ev.idx < r.ioSockets.size then
        ([.take .accepted, .at' ev.idx, .client ev.idx],
          fun _ => k.user .infraProcessSockAcceptedEvents)
      else ([.take .accepted], fun _ => k)

/-- `infraGetCloseEvents` of the servers, the next event, with the assertions of `rrOnClose`. -/
def infraGetCloseEvents (k : Ctl) (r : Registry) : Plan :=
  match (r.queue .serverClose).batch with
  | [] => ([.clear .serverClose], fun _ => k.go .reworkIfNecessary)
  | ev :: _ =>
      if ev.idx < r.ioSockets.size then
        match r.server ev.idx, r.ioSockets.slots[ev.idx]? with
        | .ok (s, srv), some slot =>
            ([.take .serverClose, .at' ev.idx, .check (decide (slot.pfd.fd = invalidSocket)),
                .check (decide (srv.state = .BeingClosed)),
                .check (decide (r.getSockCount s = 0)), .serverState s .Closed],
              fun _ => k.user (.resetServer ev.idx))
        | _, _ => failed k
      else ([.take .serverClose], fun _ => k)

def step (k : Ctl) (r : Registry) (env : Env) : Option Plan :=
  match k.phase with
  | .infraEmitListeningEvents => some (infraEmitListeningEvents k r)
  | .infraTimeoutEvents => some (infraTimeoutEvents k env)
  | .timers [] => some ([], fun _ => k.go .wait)
  | .timers (_ :: handlers) => some ([], fun _ => k.user (.timers handlers))
  | .wait => some (wait k r env)
  | .pollPhase2 pos => some (pollPhase2 k r pos env)
  | .afterReadHandler cur revents pos =>
      some ([.check (decide (env.recvCapacity = NetSocketManager.recvBufferCapacity))],
        fun _ => k.go (.infraProcessWriteEvent cur revents pos))
  | .infraProcessRemoteEnded cur revents pos =>
      some (infraProcessRemoteEnded k r cur revents pos)
  | .afterRemoteEnded cur revents pos =>
      some ([.entrySock cur .afterRemoteEnded],
        fun _ => k.go (.infraProcessWriteEvent cur revents pos))
  | .infraProcessWriteEvent cur revents pos =>
      some (infraProcessWriteEvent k r cur revents pos env)
  | .handleConnectionEvent cur pos => some ([.server cur], fun _ => k.user (.pollPhase2 pos))
  | .handleServerError cur pos => some ([.server cur], fun _ => k.user (.closeServer cur pos))
  | .closeServer cur pos =>
      some ([.queueServerError cur], fun _ => k.go (.pollPhase2 pos))
  | .emitInmediates left => some (emitInmediates k left)
  | .infraGetCloseEvent => some (infraGetCloseEvent k r)
  | .handleErrorEvent idx => some ([.client idx], fun _ => k.user (.emitClose idx))
  | .emitClose idx => some (emitClose k r idx)
  | .handleCloseEvent idx => some ([.client idx], fun _ => k.user (.closed idx))
  | .closed idx => some (closed k r idx)
  | .onFinalCleanup idx o => some (onFinalCleanup k r idx o)
  | .infraProcessSockAcceptedEvents => some (infraProcessSockAcceptedEvents k r)
  | .infraGetCloseEvents => some (infraGetCloseEvents k r)
  | .resetServer idx => some ([.resetEntry idx], fun _ => k.go .infraGetCloseEvents)
  | .reworkIfNecessary => some ([.reworkIfNecessary], fun _ => k.go .infraEmitListeningEvents)
  | .returned => none

/-- A reference that the phase goes on with points into a vector that has moved: the range-for over
the events, and for a close event `current` and `entry`. -/
def dangling (r : Registry) : Phase → Bool
  | .infraGetCloseEvent => (r.queue .close).storage.moved
  | .handleErrorEvent idx | .onFinalCleanup idx _ => !r.refsValid idx
  | .emitClose idx | .handleCloseEvent idx | .closed idx => !r.entryValid idx
  | .infraGetCloseEvents | .resetServer _ => (r.queue .serverClose).storage.moved
  | _ => false

/-- User code acts while a handler runs, the infrastructure otherwise. -/
def plan (k : Ctl) (r : Registry) (a : Action) : Option Plan :=
  if k.aborted then none
  else
    match a with
    | .call c => if k.handler then (c.program r).map fun ops => (ops, fun _ => k) else none
    | .timer c => if k.handler then some ([], fun _ => k.timerCall c) else none
    | .ret => if k.handler then some ([], fun _ => { k with handler := false }) else none
    | .infra env =>
        if k.handler then none else if dangling r k.phase then some (failed k) else step k r env

end Loop

/-- `runStandardLoop` over the registry. -/
def runStandardLoop : Lib.Controller Ctl Registry Op Action where
  base := registry
  plan := Loop.plan
  stuck := Ctl.abort

/-- The loop and the registry at the start of `main()`. -/
def Loop.init : Ctl × Registry := ({}, .init)

end NodeCpp
