import NodeCpp.Cluster.MsgQueue
import NodeCpp.Lib.Trace

/-!
# The awaker

`postInterThreadMsg` pushes a message into the queue of the target thread and then sends one byte
over a connection to it, so that its `poll` returns. The target receives up to eight bytes and then
pops as many messages. Posting is two steps, and so is reading; a push into a full queue is not
taken until there is room, and so is a pop from an empty one.

Messages carry the thread that has posted them.
-/

namespace NodeCpp

open Lib

abbrev MsgQueue (μ : Type) := MWSRQueue μ 4

def maxMsgCnt : Nat := 8

structure AwakerWorld (μ : Type) where
  queue : MsgQueue (Nat × μ) := {}
  /-- The bytes in the connection that have not been received. -/
  bytes : Nat := 0
  /-- For every thread, whether it has pushed a message and not sent the byte yet. -/
  posting : List Bool := []
  /-- The number of bytes received, when the messages have not been popped yet. -/
  received : Option Nat := none
  deriving DecidableEq, Repr

inductive PostEvent (μ : Type)
  | posted (msg : Nat × μ)
  | delivered (msg : Nat × μ)
  deriving DecidableEq, Repr

inductive AwakerAct (μ : Type)
  | push (sender : Nat) (msg : μ)
  | sendByte (sender : Nat)
  | receive (count : Nat)
  | pop
  deriving DecidableEq, Repr

namespace AwakerWorld

variable {μ : Type}

def exec (w : AwakerWorld μ) : AwakerAct μ → Option (AwakerWorld μ × List (PostEvent μ))
  | .push sender msg =>
      if w.posting[sender]? = some false then
        match w.queue.lockedPush (sender, msg) with
        | .ok (.done queue) =>
            some ({ w with queue := queue, posting := w.posting.set sender true },
              [.posted (sender, msg)])
        | _ => none
      else none
  | .sendByte sender =>
      if w.posting[sender]? = some true then
        some ({ w with bytes := w.bytes + 1, posting := w.posting.set sender false }, [])
      else none
  | .receive count =>
      if w.received = none ∧ 1 ≤ count ∧ count ≤ maxMsgCnt ∧ count ≤ w.bytes then
        some ({ w with bytes := w.bytes - count, received := some count }, [])
      else none
  | .pop =>
      match w.received with
      | none => none
      | some count =>
          match w.queue.lockedPop (.many count) false with
          | .ok (.done (queue, msgs)) =>
              -- actualFromQueue == actaulFromSock
              if msgs.length = count then
                some ({ w with queue := queue, received := none }, msgs.map .delivered)
              else none
          | _ => none

def initial (μ : Type) (n : Nat) : AwakerWorld μ := { posting := List.replicate n false }

end AwakerWorld

def awaker (μ : Type) : Machine (AwakerWorld μ) (AwakerAct μ) where
  step w a := (w.exec a).map Prod.fst

def AwakerAct.events {μ : Type} (w : AwakerWorld μ) (a : AwakerAct μ) : List (PostEvent μ) :=
  (w.exec a).elim [] Prod.snd

end NodeCpp
