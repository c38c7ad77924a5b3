import NodeCpp.Cluster.MsgQueue
import NodeCpp.Lib.Trace

/-!
# Threads at a queue

Any number of writers and one reader at a `MWSRFixedSizeQueueWithFlowControl`. A section under the
mutex is one step. A thread that waits is in the wait set of a condition variable (`sleeping`)
until it is notified or wakes for no reason; it then runs its section again. The notification
behind a section is a step of its own, outside the mutex.

`kill()` is never called here.
-/

namespace NodeCpp

open Lib

/-- A writer in `push_back`. -/
inductive WriterState (α : Type)
  | idle
  /-- About to lock `mx`. -/
  | entering (it : α)
  /-- In the wait set of `waitwr`. -/
  | sleeping (it : α)
  /-- About to call `waitrd.notify_one()`. -/
  | notifying
  deriving DecidableEq, Repr

def WriterState.isSleeping {α : Type} : WriterState α → Bool
  | .sleeping _ => true
  | _ => false

/-- The reader in one of the `pop_front`. -/
inductive ReaderState
  | idle
  | entering (call : PopCall) (expired : Bool)
  /-- In the wait set of `waitrd`. -/
  | sleeping (call : PopCall)
  /-- About to call `waitwr.notify_one()`. -/
  | notifying
  deriving DecidableEq, Repr

structure QueueWorld (α : Type) (maxszBits : Nat) where
  queue : MWSRQueue α maxszBits := {}
  writers : List (WriterState α) := []
  reader : ReaderState := .idle
  deriving DecidableEq, Repr

inductive QueueEvent (α : Type)
  | pushed (it : α)
  | popped (it : α)
  deriving DecidableEq, Repr

inductive QueueAct (α : Type)
  -- a writer
  | push (writer : Nat) (it : α)
  | lockPush (writer : Nat)
  | notifyReader (writer : Nat)
  | wakeWriter (writer : Nat)
  -- the reader
  | pop (call : PopCall)
  | lockPop
  /-- `woken` is the writer that is notified, if any is waiting. -/
  | notifyWriter (woken : Option Nat)
  | wakeReader
  /-- `wait_for` returns `timeout`. -/
  | timeOut
  deriving DecidableEq, Repr

namespace QueueWorld

variable {α : Type} {maxszBits : Nat}

def setWriter (w : QueueWorld α maxszBits) (i : Nat) (s : WriterState α) : QueueWorld α maxszBits :=
  { w with writers := w.writers.set i s }

/-- A thread in the wait set of `waitwr` leaves it. -/
def wakeWriter (w : QueueWorld α maxszBits) (i : Nat) : Option (QueueWorld α maxszBits) :=
  match w.writers[i]? with
  | some (.sleeping it) => some (w.setWriter i (.entering it))
  | _ => none

def lockPush (w : QueueWorld α maxszBits) (i : Nat) :
    Option (QueueWorld α maxszBits × List (QueueEvent α)) :=
  match w.writers[i]? with
  | some (.entering it) =>
      match w.queue.lockedPush it with
      | .error _ => none
      | .ok .waits => some (w.setWriter i (.sleeping it), [])
      | .ok .killed => some (w.setWriter i .idle, [])
      | .ok (.done queue) =>
          some (QueueWorld.setWriter { w with queue := queue } i .notifying, [.pushed it])
  | _ => none

def lockPop (w : QueueWorld α maxszBits) :
    Option (QueueWorld α maxszBits × List (QueueEvent α)) :=
  match w.reader with
  | .entering call expired =>
      match w.queue.lockedPop call expired with
      | .error _ => none
      | .ok .waits => some ({ w with reader := .sleeping call }, [])
      | .ok .killed => some ({ w with reader := .idle }, [])
      | .ok (.done (queue, items)) =>
          some ({ w with queue := queue, reader := .notifying }, items.map .popped)
  | _ => none

/-- `waitrd.notify_one()`. -/
def notifyReader (w : QueueWorld α maxszBits) : QueueWorld α maxszBits :=
  match w.reader with
  | .sleeping call => { w with reader := .entering call false }
  | _ => w

def exec (w : QueueWorld α maxszBits) :
    QueueAct α → Option (QueueWorld α maxszBits × List (QueueEvent α))
  | .push i it =>
      if w.writers[i]? matches some .idle then some (w.setWriter i (.entering it), []) else none
  | .lockPush i => w.lockPush i
  | .notifyReader i =>
      if w.writers[i]? matches some .notifying then some ((w.setWriter i .idle).notifyReader, [])
      else none
  | .wakeWriter i => (w.wakeWriter i).map (·, [])
  | .pop call =>
      if w.reader = .idle then some ({ w with reader := .entering call false }, []) else none
  | .lockPop => w.lockPop
  | .notifyWriter woken =>
      if w.reader = .notifying then
        let w := { w with reader := .idle }
        match woken with
        | some i => (w.wakeWriter i).map (·, [])
        | none => if w.writers.any WriterState.isSleeping then none else some (w, [])
      else none
  | .wakeReader =>
      match w.reader with
      | .sleeping call => some ({ w with reader := .entering call false }, [])
      | _ => none
  | .timeOut =>
      match w.reader with
      | .sleeping (.timed count) => some ({ w with reader := .entering (.timed count) true }, [])
      | _ => none

def initial (α : Type) (maxszBits n : Nat) : QueueWorld α maxszBits :=
  { writers := List.replicate n .idle }

end QueueWorld

def queueThreads (α : Type) (maxszBits : Nat) : Machine (QueueWorld α maxszBits) (QueueAct α) where
  step w a := (w.exec a).map Prod.fst

def QueueAct.events {α : Type} {maxszBits : Nat} (w : QueueWorld α maxszBits) (a : QueueAct α) :
    List (QueueEvent α) := (w.exec a).elim [] Prod.snd

end NodeCpp
