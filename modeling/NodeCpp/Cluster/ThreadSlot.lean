import NodeCpp.Cluster.Awaker

/-!
# InterThreadCommData

The slots of threads are reused, and every use has a `reincarnation` of its own. A message is posted
to a slot and a reincarnation; `postInterThreadMsg` compares the reincarnation with that of the slot
and then pushes the message. The comparison is made under the mutex of the slot and the push under
that of the queue, so they are two steps, with anything in between; the queue belongs to the slot
and not to the thread.

`running` is a status nothing ever sets, so that the assertion of `setTerminating` always fails.
-/

namespace NodeCpp

open Lib

inductive SlotStatus
  | unused
  | acquired
  | running
  | terminating
  deriving DecidableEq, Repr

/-- A message with the reincarnation of the address it is posted to. -/
structure AddressedMsg (μ : Type) where
  reincarnation : UInt64
  msg : μ
  deriving DecidableEq, Repr

structure InterThreadCommData (μ : Type) where
  writeHandle : Option Nat := none
  reincarnation : UInt64 := 0
  postman : Option Nat := none
  status : SlotStatus := .unused
  queue : MsgQueue (AddressedMsg μ) := {}
  deriving DecidableEq, Repr

namespace InterThreadCommData

variable {μ : Type}

def getWriteHandleAndReincarnation (d : InterThreadCommData μ) : Bool × UInt64 × Option Nat :=
  (d.status ≠ .terminating && d.status ≠ .unused, d.reincarnation, d.writeHandle)

def setTerminating (d : InterThreadCommData μ) : Except Failure (InterThreadCommData μ) :=
  if d.status = .running then .ok { d with status := .terminating } else .error .assertion

def setUnused (d : InterThreadCommData μ) : InterThreadCommData μ :=
  { d with status := .unused, writeHandle := none, postman := none }

/-- `acquireForReuse( writeHandle )`; the reincarnation, if the slot was unused. -/
def acquireForReuse (d : InterThreadCommData μ) (writeHandle : Nat) :
    Except Failure (InterThreadCommData μ × Option UInt64) :=
  if d.status = .unused then
    if d.postman.isSome then .error .assertion
    else
      .ok ({ d with
        reincarnation := d.reincarnation + 1
        writeHandle := some writeHandle
        status := .acquired }, some (d.reincarnation + 1))
  else .ok (d, none)

/-- `acquireForReuse( postman )`. -/
def acquireForReuseWithPostman (d : InterThreadCommData μ) (postman : Nat) :
    InterThreadCommData μ × Option UInt64 :=
  if d.status = .unused then
    ({ d with
      reincarnation := d.reincarnation + 1
      writeHandle := none
      postman := some postman
      status := .acquired }, some (d.reincarnation + 1))
  else (d, none)

/-- The assertions of both functions for the first use of a slot. -/
def isFresh (d : InterThreadCommData μ) : Bool :=
  d.reincarnation == 0 && d.postman.isNone && d.writeHandle.isNone && d.status == .unused

def setWriteHandleForFirstUse (d : InterThreadCommData μ) (writeHandle : Nat) :
    Except Failure (InterThreadCommData μ) :=
  if d.isFresh then .ok { d with status := .acquired, writeHandle := some writeHandle }
  else .error .assertion

def setPostmanForFirstUse (d : InterThreadCommData μ) (postman : Nat) :
    Except Failure (InterThreadCommData μ) :=
  if d.isFresh then .ok { d with status := .acquired, postman := some postman }
  else .error .assertion

/-- `postInterThreadMsg` up to the push: its assertions on the slot. -/
def accepts (d : InterThreadCommData μ) (reincarnation : UInt64) : Bool :=
  d.getWriteHandleAndReincarnation.1 && d.getWriteHandleAndReincarnation.2.1 == reincarnation

end InterThreadCommData

/-- A slot, the thread that has acquired it, and the threads that post to it. -/
structure SlotWorld (μ : Type) where
  slot : InterThreadCommData μ := {}
  /-- The reincarnation the thread has acquired the slot with, until it gives it up. -/
  thread : Option UInt64 := none
  /-- For every thread, the message it is about to push, behind the assertions. -/
  posting : List (Option (AddressedMsg μ)) := []
  deriving DecidableEq, Repr

/-- A thread pops a message. -/
structure SlotPop (μ : Type) where
  thread : UInt64
  msg : AddressedMsg μ
  deriving DecidableEq, Repr

inductive SlotAct (μ : Type)
  | check (poster : Nat) (msg : AddressedMsg μ)
  | push (poster : Nat)
  | pop (count : Nat)
  | setTerminating
  | setUnused
  | acquireForReuse (writeHandle : Nat)
  | acquireForReuseWithPostman (postman : Nat)
  | setWriteHandleForFirstUse (writeHandle : Nat)
  | setPostmanForFirstUse (postman : Nat)
  deriving DecidableEq, Repr

namespace SlotWorld

variable {μ : Type}

def exec (w : SlotWorld μ) : SlotAct μ → Option (SlotWorld μ × List (SlotPop μ))
  | .check poster msg =>
      if w.posting[poster]? matches some none then
        if w.slot.accepts msg.reincarnation then
          some ({ w with posting := w.posting.set poster (some msg) }, [])
        else none
      else none
  | .push poster =>
      match w.posting[poster]? with
      | some (some msg) =>
          match w.slot.queue.lockedPush msg with
          | .ok (.done queue) =>
              some ({ w with
                slot := { w.slot with queue := queue }
                posting := w.posting.set poster none }, [])
          | _ => none
      | _ => none
  | .pop count =>
      match w.thread with
      | none => none
      | some r =>
          match w.slot.queue.lockedPop (.many count) false with
          | .ok (.done (queue, msgs)) =>
              some ({ w with slot := { w.slot with queue := queue } }, msgs.map fun m => ⟨r, m⟩)
          | _ => none
  | .setTerminating =>
      match w.slot.setTerminating with
      | .error _ => none
      | .ok slot => some ({ w with slot := slot }, [])
  | .setUnused => some ({ w with slot := w.slot.setUnused, thread := none }, [])
  | .acquireForReuse writeHandle =>
      match w.slot.acquireForReuse writeHandle with
      | .ok (slot, some r) => some ({ w with slot := slot, thread := some r }, [])
      | _ => none
  | .acquireForReuseWithPostman postman =>
      match w.slot.acquireForReuseWithPostman postman with
      | (slot, some r) => some ({ w with slot := slot, thread := some r }, [])
      | _ => none
  | .setWriteHandleForFirstUse writeHandle =>
      match w.slot.setWriteHandleForFirstUse writeHandle with
      | .error _ => none
      | .ok slot => some ({ w with slot := slot, thread := some slot.reincarnation }, [])
  | .setPostmanForFirstUse postman =>
      match w.slot.setPostmanForFirstUse postman with
      | .error _ => none
      | .ok slot => some ({ w with slot := slot, thread := some slot.reincarnation }, [])

def initial (μ : Type) (n : Nat) : SlotWorld μ := { posting := List.replicate n none }

end SlotWorld

def threadSlot (μ : Type) : Machine (SlotWorld μ) (SlotAct μ) where
  step w a := (w.exec a).map Prod.fst

def SlotAct.popped {μ : Type} (w : SlotWorld μ) (a : SlotAct μ) : List (SlotPop μ) :=
  (w.exec a).elim [] Prod.snd

end NodeCpp
