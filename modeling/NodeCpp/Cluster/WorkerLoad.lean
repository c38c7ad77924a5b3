import NodeCpp.Cluster.Agents

/-!
# Loads of workers

Listeners hand each connection to a worker that is not loaded too much; `WorkerLoad` counts what
each worker has. The counter goes up when a connection is dispatched, and down in
`NetSockets::setSocketClosed` of the worker's thread, which does not ask what socket it is.

* `WorkerLoad` -- the counters, as the listeners and the workers use them.
* `loadWorld` -- listeners that dispatch, and workers that open and close sockets.
-/

namespace NodeCpp

open Lib

def maxThreads : Nat := 128

/-- `WorkerLoad::Worker`. A `ThreadID` has an invalid slot at first. -/
structure LoadedWorker where
  load : UInt64 := 0
  id : ThreadID := ⟨0xffffffffffffffff, 0⟩
  deriving DecidableEq, Repr

structure WorkerLoad where
  workers : List LoadedWorker := List.replicate maxThreads {}
  usedSlotCnt : Nat := 0
  totalLoadCtr : UInt64 := 0
  current : Nat := 0
  deriving DecidableEq, Repr

namespace WorkerLoad

/-- `addWorker`, with the index it assigns. -/
def addWorker (l : WorkerLoad) (id : ThreadID) : Except Failure (Nat × WorkerLoad) :=
  if l.usedSlotCnt < maxThreads then
    .ok (l.usedSlotCnt, { l with
      workers := l.workers.modify l.usedSlotCnt ({ · with id := id })
      usedSlotCnt := l.usedSlotCnt + 1 })
  else .error .assertion

def decrementLoadCtr (l : WorkerLoad) (idx : Nat) : Except Failure WorkerLoad :=
  if idx < l.usedSlotCnt then
    .ok { l with
      workers := l.workers.modify idx fun w => { w with load := w.load - 1 }
      totalLoadCtr := l.totalLoadCtr - 1 }
  else .error .assertion

/-- Only the second summand is divided. -/
def comparisonBase (l : WorkerLoad) : UInt64 :=
  (l.totalLoadCtr <<< (32 : UInt64)) +
    (l.totalLoadCtr <<< (28 : UInt64)) / UInt64.ofNat l.usedSlotCnt + 1

/-- The slots in the order in which the two loops look at them. -/
def candidates (l : WorkerLoad) : List Nat :=
  (List.range l.usedSlotCnt).drop (l.current + 1) ++ List.range (l.current + 1)

def isCandidate (l : WorkerLoad) (i : Nat) : Bool :=
  (l.workers[i]?).any fun w => decide (w.load <<< (32 : UInt64) < l.comparisonBase)

/-- `++( workers[current].load )` and `++totalLoadCtr`. -/
def incrementLoad (l : WorkerLoad) (i : Nat) : WorkerLoad :=
  { l with
    workers := l.workers.modify i fun w => { w with load := w.load + 1 }
    totalLoadCtr := l.totalLoadCtr + 1
    current := i }

def getCandidateAndIncrementLoad (l : WorkerLoad) : Except Failure (ThreadID × WorkerLoad) :=
  if l.usedSlotCnt = 0 then .error .assertion
  else
    match l.candidates.find? l.isCandidate with
    | none => .error .assertion
    | some i =>
        match l.workers[i]? with
        | none => .error .assertion
        | some w => .ok (w.id, l.incrementLoad i)

end WorkerLoad

/-! ## Listeners and workers -/

/-- Where a socket of a worker comes from. -/
inductive SocketOrigin
  | accepted
  | outbound
  deriving DecidableEq, Repr

/-- A worker's thread: the connections sent to it that wait there, and its open sockets. -/
structure WorkerThread where
  id : ThreadID
  workerIdxInLoadCollector : Nat
  arriving : Nat := 0
  sockets : List SocketOrigin := []
  deriving DecidableEq, Repr

namespace WorkerThread

/-- The connections that have been dispatched to the worker and have not been closed. -/
def connections (t : WorkerThread) : Nat := t.arriving + t.sockets.count .accepted

/-- `addAcceptedSocket`. -/
def receive (t : WorkerThread) : WorkerThread := { t with arriving := t.arriving + 1 }

/-- `consumeAcceptedSocket`, of the first connection that waits. -/
def accept (t : WorkerThread) : WorkerThread :=
  { t with arriving := t.arriving - 1, sockets := t.sockets ++ [SocketOrigin.accepted] }

def connect (t : WorkerThread) : WorkerThread :=
  { t with sockets := t.sockets ++ [SocketOrigin.outbound] }

def close (t : WorkerThread) (socket : Nat) : WorkerThread :=
  { t with sockets := t.sockets.eraseIdx socket }

end WorkerThread

structure LoadWorld where
  workerLoad : WorkerLoad := {}
  threads : List WorkerThread := []
  deriving DecidableEq, Repr

inductive LoadAct
  /-- `workerThreadMain`. -/
  | start (id : ThreadID)
  /-- `onConnection` of a listener's agent. -/
  | dispatch
  /-- `consumeAcceptedSocket` in a worker. -/
  | accept (worker : Nat)
  /-- A worker connects a socket of its own. -/
  | connect (worker : Nat)
  /-- `infraGetCloseEvent` of a worker, for one of its sockets. -/
  | close (worker socket : Nat)
  deriving DecidableEq, Repr

namespace LoadWorld

/-- The connections that have been dispatched and have not been closed. -/
def connections (w : LoadWorld) : Nat := (w.threads.map WorkerThread.connections).sum

/-- Thread IDs are not given out twice. A listener has accepted the connection it dispatches, and
descriptors are nonnegative numbers of type `int`. -/
def step (w : LoadWorld) : LoadAct → Option LoadWorld
  | .start id =>
      if id ∈ w.threads.map WorkerThread.id then none
      else
        match w.workerLoad.addWorker id with
        | .error _ => none
        | .ok (idx, workerLoad) => some ⟨workerLoad, w.threads ++ [⟨id, idx, 0, []⟩]⟩
  | .dispatch =>
      if w.connections < 2 ^ 31 then
        match w.workerLoad.getCandidateAndIncrementLoad with
        | .error _ => none
        | .ok (id, workerLoad) =>
            let target := w.threads.findIdx fun t => decide (t.id = id)
            some ⟨workerLoad, w.threads.modify target .receive⟩
      else none
  | .accept worker =>
      match w.threads[worker]? with
      | none => none
      | some t =>
          if t.arriving = 0 then none else some { w with threads := w.threads.set worker t.accept }
  | .connect worker =>
      match w.threads[worker]? with
      | none => none
      | some t => some { w with threads := w.threads.set worker t.connect }
  | .close worker socket =>
      match w.threads[worker]? with
      | none => none
      | some t =>
          if socket < t.sockets.length then
            -- `setSocketClosed` ends with `decrementThisWorkerLoadCtr`
            match w.workerLoad.decrementLoadCtr t.workerIdxInLoadCollector with
            | .error _ => none
            | .ok workerLoad => some ⟨workerLoad, w.threads.set worker (t.close socket)⟩
          else none

end LoadWorld

def loadWorld : Machine LoadWorld LoadAct := ⟨LoadWorld.step⟩

end NodeCpp
