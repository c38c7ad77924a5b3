import Mathlib.Logic.Function.Basic
import NodeCpp.Lib.Machine
import NodeCpp.Net.Os

/-!
# TimeoutManager

The timer store: `timers`, a map from ids to entries, and `nextTimeouts`, a
multimap from due times to ids, kept here as the list of its pairs in order. The
callback of a timer is named by the id of the timer, which is the key of its
entry. Clock readings are arguments.

* `TimeoutManager.Scheduled` -- an active timer has its due time in `nextTimeouts`.
* `TimeoutManager.Paired` -- a pair is that of an active timer, one for each.
-/

namespace NodeCpp

open Lib

structure TimeoutEntry where
  lastSchedule : UInt64 := 0
  delay : UInt64
  nextTimeout : UInt64 := 0
  handleDestroyed : Bool := false
  active : Bool := false
  deriving DecidableEq, Repr

structure TimeoutManager where
  lastId : UInt64 := 0
  timers : UInt64 → Option TimeoutEntry := fun _ => none
  nextTimeouts : List (UInt64 × UInt64) := []

namespace TimeoutManager

/-- `entry.delay`: the product is taken in 32 bits. -/
def delayOf (ms : Int32) : UInt64 :=
  let ms := if ms = 0 then 1 else if ms < 0 then Int32.maxValue else ms
  (ms * 1000).toInt64.toUInt64

/-- `nextTimeouts.insert`: behind the pairs that are due no later. -/
def insertTimeout (p : UInt64 × UInt64) : List (UInt64 × UInt64) → List (UInt64 × UInt64)
  | [] => [p]
  | q :: qs => if q.1 ≤ p.1 then q :: insertTimeout p qs else p :: q :: qs

def setEntry (m : TimeoutManager) (id : UInt64) (e : Option TimeoutEntry) : TimeoutManager :=
  { m with timers := Function.update m.timers id e }

/-- `appSetTimeout( entry, now )`. -/
def appSetTimeoutEntry (m : TimeoutManager) (id : UInt64) (e : TimeoutEntry) (now : UInt64) :
    Except Failure TimeoutManager :=
  if e.active then .error .assertion
  else
    let e := { e with lastSchedule := now, nextTimeout := now + e.delay, active := true }
    .ok { m.setEntry id (some e) with
          nextTimeouts := insertTimeout (e.nextTimeout, id) m.nextTimeouts }

/-- `appClearTimeout( entry )`. -/
def appClearTimeoutEntry (m : TimeoutManager) (id : UInt64) (e : TimeoutEntry) :
    Except Failure (TimeoutManager × TimeoutEntry) :=
  if !e.active then .ok (m, e)
  else if (e.nextTimeout, id) ∈ m.nextTimeouts then
    let e' := { e with active := false }
    .ok ({ m.setEntry id (some e') with
           nextTimeouts := m.nextTimeouts.erase (e.nextTimeout, id) }, e')
  else .error .assertion

/-- `appSetTimeoutImpl`, with the id of the new timer; `0` if the id is taken. -/
def appSetTimeout (m : TimeoutManager) (ms : Int32) (now : UInt64) :
    Except Failure (TimeoutManager × UInt64) := do
  let id := m.lastId + 1
  let m := { m with lastId := id }
  match m.timers id with
  | some _ => .ok (m, 0)
  | none =>
      let m ← m.appSetTimeoutEntry id { delay := delayOf ms } now
      .ok (m, id)

def appClearTimeout (m : TimeoutManager) (id : UInt64) : Except Failure TimeoutManager :=
  match m.timers id with
  | none => .ok m
  | some e => do
      let (m, _) ← m.appClearTimeoutEntry id e
      .ok m

def appRefresh (m : TimeoutManager) (id now : UInt64) : Except Failure TimeoutManager :=
  match m.timers id with
  | none => .ok m
  | some e => do
      let (m, e) ← m.appClearTimeoutEntry id e
      m.appSetTimeoutEntry id e now

def appTimeoutDestructor (m : TimeoutManager) (id : UInt64) : TimeoutManager :=
  match m.timers id with
  | none => m
  | some e => m.setEntry id (if e.active then some { e with handleDestroyed := true } else none)

/-- The loop of `infraTimeoutEvents` over the pairs that are due; it collects the handlers. -/
def detach : List (UInt64 × UInt64) → TimeoutManager →
    Except Failure (TimeoutManager × List UInt64)
  | [], m => .ok (m, [])
  | (_, id) :: due, m =>
      match m.timers id with
      | none => .error .assertion
      | some e =>
          if !e.active then .error .assertion
          else do
            let e' := if e.handleDestroyed then none else some { e with active := false }
            let (m, handlers) ← detach due (m.setEntry id e')
            .ok (m, id :: handlers)

/-- `infraTimeoutEvents` up to the calls of the handlers, which run in this order. -/
def infraTimeoutEvents (m : TimeoutManager) (now : UInt64) :
    Except Failure (TimeoutManager × List UInt64) := do
  let (m, handlers) ← detach (m.nextTimeouts.takeWhile (·.1 ≤ now)) m
  .ok ({ m with nextTimeouts := m.nextTimeouts.dropWhile (·.1 ≤ now) }, handlers)

def infraRefedTimeout (m : TimeoutManager) : Bool := !m.nextTimeouts.isEmpty

end TimeoutManager

inductive TimeoutOp
  | appSetTimeout (ms : Int32) (now : UInt64)
  | appClearTimeout (id : UInt64)
  | appRefresh (id now : UInt64)
  | appTimeoutDestructor (id : UInt64)
  | infraTimeoutEvents (now : UInt64)
  deriving DecidableEq, Repr

def TimeoutOp.run (m : TimeoutManager) : TimeoutOp → Except Failure TimeoutManager
  | .appSetTimeout ms now => (m.appSetTimeout ms now).map Prod.fst
  | .appClearTimeout id => m.appClearTimeout id
  | .appRefresh id now => m.appRefresh id now
  | .appTimeoutDestructor id => .ok (m.appTimeoutDestructor id)
  | .infraTimeoutEvents now => (m.infraTimeoutEvents now).map Prod.fst

def timeoutManager : Lib.Machine TimeoutManager TimeoutOp where
  step m op := (op.run m).toOption

namespace TimeoutManager

/-! ## Active timers and their pairs -/

/-- Every active timer is in `nextTimeouts` under its due time. -/
def Scheduled (m : TimeoutManager) : Prop :=
  ∀ id e, m.timers id = some e → e.active → (e.nextTimeout, id) ∈ m.nextTimeouts

/-- Every pair is that of an active timer, and no timer has two. -/
structure Paired (m : TimeoutManager) : Prop where
  active : ∀ p ∈ m.nextTimeouts, ∃ e, m.timers p.2 = some e ∧ e.active ∧ e.nextTimeout = p.1
  nodup : (m.nextTimeouts.map Prod.snd).Nodup

theorem Scheduled.inactive {m : TimeoutManager} (h : m.Scheduled)
    (href : m.infraRefedTimeout = false)
    {id : UInt64} {e : TimeoutEntry} (he : m.timers id = some e) : e.active = false := by
  have hnil : m.nextTimeouts = [] := by simpa [infraRefedTimeout] using href
  cases hactive : e.active with
  | false => rfl
  | true =>
    have hmem := h id e he hactive
    rw [hnil] at hmem
    cases hmem

end TimeoutManager

end NodeCpp
