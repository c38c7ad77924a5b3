import NodeCpp.Cluster.Awaker

/-!
# Event loops that post to each other

Every thread takes messages from its own `MsgQueue` and, while it handles them, posts messages to
the queues of any threads with `push_back`. A thread whose push finds a full queue is blocked until
it gets its message in. Threads start out in their own code, before they have taken any message.
-/

namespace NodeCpp

open Lib

inductive LoopThread (μ : Type)
  | idle
  | handling
  /-- In `push_back` on the queue of `target`. -/
  | blocked (target : Nat) (msg : μ)
  deriving DecidableEq, Repr

structure LoopsWorld (μ : Type) where
  /-- The queue of every thread. -/
  queues : List (MsgQueue μ) := []
  threads : List (LoopThread μ) := []
  deriving DecidableEq, Repr

inductive LoopsAct (μ : Type)
  /-- The thread takes up to `count` messages. -/
  | take (thread count : Nat)
  | post (thread target : Nat) (msg : μ)
  /-- A blocked thread has been woken and tries again. -/
  | retry (thread : Nat)
  | finish (thread : Nat)
  deriving DecidableEq, Repr

namespace LoopsWorld

variable {μ : Type}

def setThread (w : LoopsWorld μ) (t : Nat) (s : LoopThread μ) : LoopsWorld μ :=
  { w with threads := w.threads.set t s }

/-- `push_back` by the thread `t`. -/
def push (w : LoopsWorld μ) (t u : Nat) (msg : μ) : Option (LoopsWorld μ) :=
  match w.queues[u]? with
  | none => none
  | some q =>
      match q.lockedPush msg with
      | .error _ => none
      | .ok .waits => some (w.setThread t (.blocked u msg))
      | .ok .killed => some (w.setThread t .handling)
      | .ok (.done q) => some (setThread { w with queues := w.queues.set u q } t .handling)

def step (w : LoopsWorld μ) : LoopsAct μ → Option (LoopsWorld μ)
  | .take t count =>
      match w.threads[t]?, w.queues[t]? with
      | some .idle, some q =>
          match q.lockedPop (.many count) false with
          | .ok (.done (q, _)) => some (setThread { w with queues := w.queues.set t q } t .handling)
          | _ => none
      | _, _ => none
  | .post t u msg =>
      match w.threads[t]? with
      | some .handling => w.push t u msg
      | _ => none
  | .retry t =>
      match w.threads[t]? with
      | some (.blocked u msg) => w.push t u msg
      | _ => none
  | .finish t =>
      match w.threads[t]? with
      | some .handling => some (w.setThread t .idle)
      | _ => none

def isFull (w : LoopsWorld μ) (u : Nat) : Bool := (w.queues[u]?).any fun q => q.coll.isFull

def initial (μ : Type) (n : Nat) : LoopsWorld μ where
  queues := List.replicate n {}
  threads := List.replicate n .handling

end LoopsWorld

def eventLoops (μ : Type) : Machine (LoopsWorld μ) (LoopsAct μ) where
  step := LoopsWorld.step

end NodeCpp
