import Mathlib.Logic.Function.Basic
import NodeCpp.Lib.Machine
import NodeCpp.Socket.Call
import NodeCpp.Table.NetSockets

/-!
# The registry: objects, table and pending events

The state the socket manager and the server manager share with the socket and
server objects: the table, the objects with the index each of them remembers,
and the vectors of pending events. `Op` lists what the code does to it between
two points where user code may run, in pieces small enough that every function
of the source is a short list of them (`Loop.Program`).

Objects are named by the order of their construction. Recorded beside the data of
the source are the object an event was queued for (`Pending.owner`), how often the
descriptor of a socket was passed to `internal_close` (`SocketObj.closes`), the close
event that is being processed (`Registry.current`), and whether a vector has moved
under the references to its elements (`Storage.moved`).
-/

namespace NodeCpp

/-! ## Vectors that move -/

/-- The buffer of a vector. `moved` tells that the elements have gone to a larger buffer since
`refer`. -/
structure Storage where
  size : Nat := 0
  capacity : Nat := 0
  moved : Bool := false
  deriving DecidableEq, Repr

namespace Storage

/-- `push_back`: a full buffer is replaced by one of twice the capacity. -/
def push (s : Storage) : Storage :=
  if s.size < s.capacity then { s with size := s.size + 1 }
  else { size := s.size + 1, capacity := max 1 (2 * s.capacity), moved := true }

/-- References to elements are taken. -/
def refer (s : Storage) : Storage := { s with moved := false }

/-- `clear()` keeps the buffer. -/
def clear (s : Storage) : Storage := { s with size := 0 }

end Storage

/-! ## Pending events -/

/-- `pendingCloseEvents` and `pendingAcceptedEvents` of the socket manager, `pendingCloseEvents`
and `pendingListenEvents` of the server manager. -/
inductive QueueId
  | close
  | accepted
  | serverClose
  | listen
  deriving DecidableEq, Repr

structure Pending where
  idx : Nat
  err : Bool := false
  owner : Emitter
  deriving DecidableEq, Repr

/-- A vector of pending events. While a pass over it is active, `batch` are the events the pass
has still to take and `waiting` those pushed since it started. The passes over `close` and
`serverClose` keep references into `storage`. -/
structure EventQueue where
  waiting : List Pending := []
  batch : List Pending := []
  active : Bool := false
  storage : Storage := {}
  deriving DecidableEq, Repr

namespace EventQueue

def events (q : EventQueue) : List Pending := q.batch ++ q.waiting

def pushAll (q : EventQueue) (evs : List Pending) : EventQueue :=
  { q with waiting := q.waiting ++ evs, storage := evs.foldl (fun s _ => s.push) q.storage }

def start (q : EventQueue) : EventQueue :=
  { batch := q.events, active := true, storage := q.storage.refer }

def take (q : EventQueue) : EventQueue := { q with batch := q.batch.tail }

/-- `clear()` after the pass: what was pushed during the pass goes as well. -/
def clear (q : EventQueue) : EventQueue := { storage := q.storage.clear }

/-- `erase()` of the events of the pass. -/
def finish (q : EventQueue) : EventQueue :=
  { waiting := q.waiting, storage := { q.storage with size := q.waiting.length } }

@[simp] theorem events_pushAll (q : EventQueue) (evs : List Pending) :
    (q.pushAll evs).events = q.events ++ evs := (List.append_assoc ..).symm

@[simp] theorem events_start (q : EventQueue) : q.start.events = q.events := List.append_nil _

@[simp] theorem events_clear (q : EventQueue) : q.clear.events = [] := rfl

theorem events_of_batch {q : EventQueue} {ev : Pending} {rest : List Pending}
    (h : q.batch = ev :: rest) : q.events = ev :: q.take.events := by
  simp [events, take, h]

theorem events_finish {q : EventQueue} (h : q.batch = []) : q.finish.events = q.events := by
  simp [events, finish, h]

end EventQueue

/-! ## Objects -/

/-- `ServerBase::DataForCommandProcessing::State`. -/
inductive ServerState
  | Unused
  | Listening
  | BeingClosed
  | Closed
  deriving DecidableEq, Repr

/-- A `SocketBase`; `server` is `myServerSocket`. -/
structure SocketObj where
  data : SocketData
  server : Option Nat := none
  alive : Bool := true
  closes : Nat := 0

/-- A `ServerBase`. The counter of its `socketList`, `MultiOwner::cnt`, has no initialiser: `cnt` is
what was in its place. -/
structure ServerObj where
  state : ServerState := .Unused
  index : Nat
  alive : Bool := true
  cnt : UInt64
  deriving DecidableEq, Repr

/-- `accum` is the storage of `ourSideAccum`. -/
structure Registry where
  ioSockets : NetSockets
  accum : Storage := {}
  sockets : List SocketObj := []
  servers : List ServerObj := []
  queue : QueueId → EventQueue := fun _ => {}
  current : Option Pending := none

namespace Registry

def init : Registry := { ioSockets := .init false }

def liveSocket (r : Registry) (o : Nat) : Option SocketObj :=
  (r.sockets[o]?).filter (·.alive)

def liveServer (r : Registry) (s : Nat) : Option ServerObj :=
  (r.servers[s]?).filter (·.alive)

/-- The index a live object remembers. -/
def indexOf (r : Registry) : Emitter → Option Nat
  | .client o => (r.liveSocket o).map (·.data.index)
  | .server s => (r.liveServer s).map (·.index)

def entry (r : Registry) (i : Nat) : NetSocketEntry :=
  match r.ioSockets.slots[i]? with
  | some s => s.entry
  | none => {}

def used (r : Registry) (i : Nat) : Bool := decide ((r.entry i).state ≠ .Unused)

/-- The accepted sockets in the `socketList` of a server. -/
def acceptedCount (r : Registry) (s : Nat) : Nat :=
  r.sockets.countP fun obj => obj.alive && decide (obj.server = some s)

/-- `getSockCount()`: `MultiOwner::cnt`, which counts from where it was found. -/
def getSockCount (r : Registry) (s : Nat) : UInt64 :=
  UInt64.ofNat (r.acceptedCount s) + ((r.servers[s]?).map ServerObj.cnt).getD 0

/-- `getClientSocket()` on the entry of a slot, with its assertions. -/
def client (r : Registry) (i : Nat) : Except Failure (Nat × SocketObj) :=
  match (r.entry i).emitter with
  | some (.client o) =>
      match r.liveSocket o with
      | some obj => .ok (o, obj)
      | none => .error .assertion
  | _ => .error .assertion

/-- `getServerSocket()` on the entry of a slot, with its assertions. -/
def server (r : Registry) (i : Nat) : Except Failure (Nat × ServerObj) :=
  match (r.entry i).emitter with
  | some (.server s) =>
      match r.liveServer s with
      | some obj => .ok (s, obj)
      | none => .error .assertion
  | _ => .error .assertion

def pushAll (r : Registry) (q : QueueId) (evs : List Pending) : Registry :=
  { r with queue := Function.update r.queue q ((r.queue q).pushAll evs) }

end Registry

/-! ## Operations -/

inductive PollChange
  | setPollin
  | unsetPollin
  | setPollout
  | unsetPollout
  deriving DecidableEq, Repr

def NetSockets.changePoll (t : NetSockets) (idx : Nat) : PollChange → Except Failure NetSockets
  | .setPollin => t.setPollin idx
  | .unsetPollin => t.unsetPollin idx
  | .setPollout => t.setPollout idx
  | .unsetPollout => t.unsetPollout idx

/-- The index of the used entry of an object. -/
def NetSockets.indexFor (t : NetSockets) (e : Emitter) : Option Nat :=
  t.slots.findIdx? fun s => s.used && decide (s.entry.emitter = some e)

/-- What an effect of a socket-layer call does to the table. -/
def Fx.pollChange : Fx → Option PollChange
  | .setPollout => some .setPollout
  | .unsetPollout => some .unsetPollout
  | .unsetPollin => some .unsetPollin
  | _ => none

inductive Op
  -- the constructors, with the registration of the new object
  | construct (osSocket : Nat) (server : Option Nat)
  | constructServer (osSocket : Nat) (cnt : UInt64)
  -- `reportBeingDestructed()`, the end of the destructors
  | destruct (e : Emitter)
  -- the table
  | setAssociated (idx : Nat)
  | changePoll (idx : Nat) (c : PollChange)
  | setRefed (idx : Nat) (refed : Bool)
  | setSocketClosed (idx : Nat)
  | resetEntry (idx : Nat)
  | poll (ready : Nat → Revents)
  | reworkIfNecessary
  -- assertions: a condition, `at( idx )`, `getClientSocket()` and `getServerSocket()`
  | check (holds : Bool)
  | at' (idx : Nat)
  | client (i : Nat)
  | server (i : Nat)
  -- a socket-layer call, through the object or through the entry of a slot
  | sock (o : Nat) (c : SockCall)
  | entrySock (i : Nat) (c : SockCall)
  -- servers
  | serverState (s : Nat) (state : ServerState)
  | listening (i : Nat)
  -- the event vectors; close events are pushed by socket-layer calls only
  | queue (q : QueueId) (hq : q ≠ .close) (e : Emitter)
  | queueServerError (i : Nat)
  | start (q : QueueId)
  | take (q : QueueId)
  | clear (q : QueueId)
  | finish (q : QueueId)
  -- the two ends of the processing of a close event
  | beginClose
  | endClose (i : Nat)

namespace Registry

/-- The storage of `ourSideAccum` after `addEntry`: a new entry goes there when `ourSide` is full. -/
def accumAdded (r : Registry) : Storage :=
  if r.ioSockets.freeIndex < r.ioSockets.slots.length ∨ r.ioSockets.baseSz < r.ioSockets.capacity
  then r.accum
  else r.accum.push

/-- A new socket, registered by `registerAndAssignSocket`. -/
def construct (r : Registry) (osSocket : Nat) (server : Option Nat) :
    Except Failure Registry := do
  let t ← r.ioSockets.addEntry (.client r.sockets.length) osSocket
  .ok { r with ioSockets := t
               accum := r.accumAdded
               sockets := r.sockets ++
                 [{ data := { index := r.ioSockets.freeIndex, osSocket := osSocket }
                    server := server }] }

def constructServer (r : Registry) (osSocket : Nat) (cnt : UInt64) :
    Except Failure Registry := do
  let t ← r.ioSockets.addEntry (.server r.servers.length) osSocket
  .ok { r with ioSockets := t
               accum := r.accumAdded
               servers := r.servers ++ [{ index := r.ioSockets.freeIndex, cnt := cnt }] }

/-- `appReportBeingDestructed`; the object is gone afterwards. -/
def destruct (r : Registry) (e : Emitter) : Except Failure Registry :=
  match e with
  | .client o =>
      match r.liveSocket o with
      | none => .error .assertion
      | some obj => do
          let t ← r.ioSockets.setUnused obj.data.index
          .ok { r with ioSockets := t, sockets := r.sockets.set o { obj with alive := false } }
  | .server s =>
      match r.liveServer s with
      | none => .error .assertion
      | some obj => do
          let t ← r.ioSockets.setUnused obj.index
          .ok { r with ioSockets := t, servers := r.servers.set s { obj with alive := false } }

/-- A socket-layer call on a live socket; `idx` is the index it uses for the table and for the
close event. -/
def sockAt (r : Registry) (o : Nat) (obj : SocketObj) (idx : Nat) (c : SockCall) :
    Except Failure Registry := do
  let step := c.run obj.data
  let _ ← step.res
  let t ← (step.fx.filterMap Fx.pollChange).foldlM (fun t change => t.changePoll idx change)
    r.ioSockets
  let r' := { r with ioSockets := t, sockets := r.sockets.set o { obj with data := step.data } }
  .ok (r'.pushAll .close
    ((closeEvents step.fx).map fun err => { idx := idx, err := err, owner := .client o }))

/-- A call that finds the index in the data of the socket. -/
def sock (r : Registry) (o : Nat) (c : SockCall) : Except Failure Registry :=
  match r.liveSocket o with
  | none => .error .assertion
  | some obj => r.sockAt o obj obj.data.index c

/-- The index a step on the entry of a slot uses: `_infraProcessWriteEvent` has only the data of
the socket, the others take it from the entry. -/
def stepIndex (r : Registry) (i : Nat) (obj : SocketObj) : SockCall → Nat
  | .writeEvent _ => obj.data.index
  | _ => (r.entry i).index

def entrySock (r : Registry) (i : Nat) (c : SockCall) : Except Failure Registry := do
  let (o, obj) ← r.client i
  r.sockAt o obj (r.stepIndex i obj c) c

def serverState (r : Registry) (s : Nat) (state : ServerState) : Except Failure Registry :=
  match r.liveServer s with
  | none => .error .assertion
  | some obj => .ok { r with servers := r.servers.set s { obj with state := state } }

/-- `rrOnListening` and `emitListening`, which assigns the index again. -/
def listening (r : Registry) (i : Nat) : Except Failure Registry := do
  let _ ← r.ioSockets.at' i
  let (s, obj) ← r.server i
  .ok { r with servers := r.servers.set s { obj with state := .Listening, index := i } }

/-- An event for a live object, under the index it remembers. -/
def queueEvent (r : Registry) (q : QueueId) (e : Emitter) : Except Failure Registry :=
  match r.indexOf e with
  | none => .error .assertion
  | some idx => .ok (r.pushAll q [{ idx := idx, owner := e }])

/-- The end of `infraMakeErrorEventAndClose`: a close event for the server in a slot, under the
index of the entry. -/
def queueServerError (r : Registry) (i : Nat) : Except Failure Registry :=
  match (r.entry i).emitter with
  | none => .error .assertion
  | some e => .ok (r.pushAll .serverClose [{ idx := (r.entry i).index, err := true, owner := e }])

/-- The next event of a pass is taken; the close pass takes only events of unused slots without
further ado. -/
def take (r : Registry) (q : QueueId) : Except Failure Registry :=
  match (r.queue q).batch with
  | [] => .error .assertion
  | e :: _ =>
      if q = .close ∧ r.used e.idx then .error .assertion
      else .ok { r with queue := Function.update r.queue q (r.queue q).take }

/-- A pass ends when all its events are taken and none is being processed. -/
def endPass (r : Registry) (q : QueueId) (f : EventQueue → EventQueue) :
    Except Failure Registry :=
  if (r.queue q).batch = [] ∧ r.current = none then
    .ok { r with queue := Function.update r.queue q (f (r.queue q)) }
  else .error .assertion

/-- The reference to the entry of a slot that a close event is processed through is valid. -/
def entryValid (r : Registry) (i : Nat) : Bool :=
  decide (i < r.ioSockets.baseSz) || !r.accum.moved

/-- The references `current` and `entry` of `infraGetCloseEvent` are valid. -/
def refsValid (r : Registry) (i : Nat) : Bool :=
  !(r.queue .close).storage.moved && r.entryValid i

/-- `infraGetCloseEvent` on an event of a used slot, up to `setSocketClosed`. Events are
processed one after the other. -/
def beginClose (r : Registry) : Except Failure Registry :=
  match (r.queue .close).batch, r.current with
  | e :: _, none => do
      let s ← r.ioSockets.at' e.idx
      let (o, obj) ← r.client e.idx
      let t ← r.ioSockets.setSocketClosed s.entry.index
      .ok { r with ioSockets := t
                   accum := r.accum.refer
                   sockets := r.sockets.set o { obj with closes := obj.closes + 1 }
                   queue := Function.update r.queue .close (r.queue .close).take
                   current := some e }
  | _, _ => .error .assertion

/-- The entry is reset through the references, and the processing of its close event is over. -/
def endClose (r : Registry) (i : Nat) : Except Failure Registry :=
  if r.current.map Pending.idx = some i ∧ r.refsValid i then do
    let t ← r.ioSockets.resetEntry i
    .ok { r with ioSockets := t, current := none }
  else .error .assertion

/-- `updateIndex` on the objects of all entries of a compacted table. -/
def updateIndices (r : Registry) (t : NetSockets) : Registry :=
  { r with
    ioSockets := t
    sockets := r.sockets.mapIdx fun o obj =>
      { obj with data := { obj.data with index := (t.indexFor (.client o)).getD obj.data.index } }
    servers := r.servers.mapIdx fun s obj =>
      { obj with index := (t.indexFor (.server s)).getD obj.index } }

/-- `reworkIfNecessary`, which is called when no close event is being processed. -/
def reworkIfNecessary (r : Registry) : Except Failure Registry :=
  if r.current = none then do
    let t ← r.ioSockets.mergeAccum
    let t' ← t.makeCompactIfNecessary
    .ok (if t.compacts then { r.updateIndices t' with accum := r.accum.clear }
      else { r with ioSockets := t', accum := r.accum.clear })
  else .error .assertion

/-- Runs an operation that touches the table only. -/
def onTable (r : Registry) (x : Except Failure NetSockets) : Except Failure Registry := do
  let t ← x
  .ok { r with ioSockets := t }

end Registry

namespace Op

def run (r : Registry) : Op → Except Failure Registry
  | .construct osSocket owner => r.construct osSocket owner
  | .constructServer osSocket cnt => r.constructServer osSocket cnt
  | .destruct e => r.destruct e
  | .setAssociated idx => r.onTable (r.ioSockets.setAssociated idx)
  | .changePoll idx c => r.onTable (r.ioSockets.changePoll idx c)
  | .setRefed idx refed => r.onTable (r.ioSockets.setRefed idx refed)
  | .setSocketClosed idx => r.onTable (r.ioSockets.setSocketClosed idx)
  | .resetEntry idx => r.onTable (r.ioSockets.resetEntry idx)
  | .poll ready => .ok { r with ioSockets := r.ioSockets.poll ready }
  | .reworkIfNecessary => r.reworkIfNecessary
  | .check holds => if holds then .ok r else .error .assertion
  | .at' idx => (r.ioSockets.at' idx).map fun _ => r
  | .client i => (r.client i).map fun _ => r
  | .server i => (r.server i).map fun _ => r
  | .sock o c => r.sock o c
  | .entrySock i c => r.entrySock i c
  | .serverState s state => r.serverState s state
  | .listening i => r.listening i
  | .queue q _ e => r.queueEvent q e
  | .queueServerError i => r.queueServerError i
  | .start q => .ok { r with queue := Function.update r.queue q (r.queue q).start }
  | .take q => r.take q
  | .clear q => if (r.queue q).active then r.endPass q .clear else .error .assertion
  | .finish q => r.endPass q .finish
  | .beginClose => r.beginClose
  | .endClose i => r.endClose i

end Op

/-- The registry under its operations; a failed assertion refuses the operation. -/
def registry : Lib.Machine Registry Op where
  step r op := (op.run r).toOption

end NodeCpp
