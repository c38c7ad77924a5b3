import Mathlib.Data.List.Nodup
import NodeCpp.Http.Server

/-!
# Every request reaches the coroutine once

A request that is passed to `onNewRequest` is to be returned by one call of `a_request`, in the
order in which requests are passed. `onNewRequest` drops a request if no coroutine waits, and an
`a_request` whose period has expired returns whatever request was returned before.

* `Inv.exec` -- what a step keeps, if requests find the coroutine waiting and no period expires.
* `requests_delivered` -- every such run.
* `request_dropped` -- a request while the coroutine is busy, and a period that expires.
-/

namespace NodeCpp

open Lib

namespace DeliveryEvent

def passed? : DeliveryEvent → Option Nat
  | passed request => some request
  | _ => none

def returned? : DeliveryEvent → Option Nat
  | returned _ request => some request
  | _ => none

/-- The call that comes back with the event. -/
def ended? : DeliveryEvent → Option Nat
  | returned call _ | threw call => some call
  | _ => none

end DeliveryEvent

/-- The requests passed to `onNewRequest`, in order. -/
def passedRequests (l : List DeliveryEvent) : List Nat := l.filterMap DeliveryEvent.passed?

def returnedRequests (l : List DeliveryEvent) : List Nat := l.filterMap DeliveryEvent.returned?

/-- The calls of `a_request` that are over. -/
def endedCalls (l : List DeliveryEvent) : List Nat := l.filterMap DeliveryEvent.ended?

@[simp] theorem passedRequests_append (l l' : List DeliveryEvent) :
    passedRequests (l ++ l') = passedRequests l ++ passedRequests l' := List.filterMap_append

@[simp] theorem returnedRequests_append (l l' : List DeliveryEvent) :
    returnedRequests (l ++ l') = returnedRequests l ++ returnedRequests l' :=
  List.filterMap_append

@[simp] theorem endedCalls_append (l l' : List DeliveryEvent) :
    endedCalls (l ++ l') = endedCalls l ++ endedCalls l' := List.filterMap_append

/-- Requests are passed while the coroutine waits in `a_request` and none of its awaits has been
failed, and no period expires. -/
def HttpServer.inTime (w : HttpServer) : ServerAct → Bool
  | .onNewRequest =>
      match w.consumer with
      | .requesting _ _ => !w.isException
      | _ => false
  | .expires => false
  | _ => true

/-- What is to hold of a run that has shown `l`. -/
structure Delivered (w : HttpServer) (l : List DeliveryEvent) : Prop where
  /-- The requests are returned in the order in which they are passed, and each once. -/
  requests : returnedRequests l = passedRequests l
  distinct : (passedRequests l).Nodup
  /-- A call returns one request at most. -/
  calls : (endedCalls l).Nodup
  /-- A call whose period expires returns no request. -/
  expired : ∀ call request, .expired call ∈ l → .returned call request ∉ l
  /-- A request is passed without a failure. -/
  accepted : w.inTime .onNewRequest = true → (httpServer.step w .onNewRequest).isSome

namespace HttpServer

variable {w w' : HttpServer} {l ev : List DeliveryEvent} {a : ServerAct}

structure Inv (w : HttpServer) (l : List DeliveryEvent) : Prop where
  /-- The handle is registered as long as the coroutine waits for a request. -/
  waiting : w.h = true ↔ ∃ call timed, w.consumer = .requesting call timed
  passed : passedRequests l = List.range w.passed
  returned : returnedRequests l = List.range w.passed
  nodup : (endedCalls l).Nodup
  /-- The calls that are over have been made, and are not the one that waits. -/
  made : ∀ call ∈ endedCalls l, call < w.calls
  own : ∀ call timed, w.consumer = .requesting call timed → call < w.calls ∧ call ∉ endedCalls l
  unexpired : ∀ call, .expired call ∉ l

namespace Inv

theorem initial : Inv ({} : HttpServer) [] where
  waiting := ⟨nofun, nofun⟩
  passed := rfl
  returned := rfl
  nodup := List.nodup_nil
  made := nofun
  own := nofun
  unexpired := nofun

theorem quiet (h : w.Inv l)
    (hwait : w'.h = true ↔ ∃ call timed, w'.consumer = .requesting call timed)
    (hpassed : w'.passed = w.passed) (hcalls : w.calls ≤ w'.calls)
    (hown : ∀ call timed, w'.consumer = .requesting call timed →
      call < w'.calls ∧ call ∉ endedCalls l) : w'.Inv (l ++ []) := by
  rw [List.append_nil]
  refine ⟨hwait, hpassed ▸ h.passed, hpassed ▸ h.returned, h.nodup, ?_, hown, h.unexpired⟩
  intro call hmem
  exact Nat.lt_of_lt_of_le (h.made call hmem) hcalls

theorem ends (h : w.Inv l) {call : Nat} {timed : Bool}
    (hconsumer : w.consumer = .requesting call timed) (hended : endedCalls ev = [call])
    (hpassed : passedRequests ev = returnedRequests ev)
    (hnext : List.range w.passed ++ passedRequests ev = List.range w'.passed)
    (hexpired : ∀ call, .expired call ∉ ev) (hh : w'.h = false)
    (hrun : w'.consumer = .running) (hcalls : w'.calls = w.calls) : w'.Inv (l ++ ev) := by
  obtain ⟨hlt, hnew⟩ := h.own call timed hconsumer
  refine ⟨?_, ?_, ?_, ?_, ?_, ?_, ?_⟩
  · simp [hh, hrun]
  · rw [passedRequests_append, h.passed, hnext]
  · rw [returnedRequests_append, h.returned, ← hpassed, hnext]
  · rw [endedCalls_append, hended]
    apply List.nodup_append.mpr ⟨h.nodup, List.nodup_singleton _, ?_⟩
    intro c hc d hd heq
    rw [List.mem_singleton.mp hd] at heq
    exact hnew (heq ▸ hc)
  · intro c hc
    rw [endedCalls_append, hended] at hc
    rw [hcalls]
    rcases List.mem_append.mp hc with hc | hc
    · exact h.made c hc
    · rw [List.mem_singleton.mp hc]
      exact hlt
  · intro c t hc
    rw [hrun] at hc
    cases hc
  · intro c hc
    exact (List.mem_append.mp hc).elim (h.unexpired c) (hexpired c)

theorem onNewRequest (h : w.Inv l) (ha : w.inTime .onNewRequest = true) :
    ∃ w' ev, w.onNewRequest = some (w', ev) ∧ w'.Inv (l ++ ev) := by
  cases hconsumer : w.consumer with
  | running | elsewhere => simp [inTime, hconsumer] at ha
  | requesting call timed =>
    have hno : w.isException = false := by simpa [inTime, hconsumer] using ha
    have hh : w.h = true := h.waiting.mpr ⟨call, timed, hconsumer⟩
    refine ⟨_, _, by simp [HttpServer.onNewRequest, resume, hh, hconsumer, hno]; exact ⟨rfl, rfl⟩,
      ?_⟩
    refine h.ends hconsumer rfl rfl ?_ (by simp) rfl rfl rfl
    exact List.range_succ.symm

theorem forceReleasingAllCoroHandles (h : w.Inv l)
    (hs : w.forceReleasingAllCoroHandles = some (w', ev)) : w'.Inv (l ++ ev) := by
  rw [HttpServer.forceReleasingAllCoroHandles] at hs
  split at hs
  · rename_i hh
    obtain ⟨call, timed, hconsumer⟩ := h.waiting.mp hh
    simp only [resume, hconsumer, if_true] at hs
    cases hs
    exact h.ends hconsumer rfl rfl (List.append_nil _) (by simp) rfl rfl rfl
  · cases hs
    rw [List.append_nil]
    exact h

/-- The step lemma. -/
theorem exec (h : w.Inv l) (ha : w.inTime a = true) (hs : w.exec a = some (w', ev)) :
    w'.Inv (l ++ ev) := by
  cases a with
  | aRequest timed =>
    obtain ⟨hrun, hs⟩ := Option.ite_none_right_eq_some.mp hs
    cases hs
    refine h.quiet (by simp) rfl (Nat.le_succ _) ?_
    intro call t hc
    cases hc
    refine ⟨Nat.lt_succ_self _, ?_⟩
    intro hmem
    exact Nat.lt_irrefl _ (h.made _ hmem)
  | awaitsOther =>
    obtain ⟨hrun, hs⟩ := Option.ite_none_right_eq_some.mp hs
    cases hs
    have hh : w.h = false := by simpa [hrun] using h.waiting
    exact h.quiet (by simp [hh]) rfl (Nat.le_refl _) nofun
  | otherDone failed =>
    obtain ⟨hrun, hs⟩ := Option.ite_none_right_eq_some.mp hs
    cases hs
    have hh : w.h = false := by simpa [hrun] using h.waiting
    exact h.quiet (by simp [hh]) rfl (Nat.le_refl _) nofun
  | onNewRequest =>
    obtain ⟨w₁, ev₁, hpass, hinv⟩ := h.onNewRequest ha
    cases hs.symm.trans hpass
    exact hinv
  | expires => cases ha
  | forceReleasingAllCoroHandles => exact h.forceReleasingAllCoroHandles hs

/-- The run lemma. -/
theorem run {as : List ServerAct}
    (hobeys : httpServer.obeys (fun w a => w.inTime a = true) {} as)
    (hrun : httpServer.run {} as = some w) :
    w.Inv (httpServer.trace (fun w a => a.events w) {} as) := by
  apply httpServer.run_exec (J := Inv) (fun _ _ => rfl) (fun _ _ => rfl) ?_ Inv.initial hobeys hrun
  intro w a w' l ev h ha hs
  exact h.exec ha hs

end Inv

end HttpServer

/-- A server without handlers and listeners: in every run in which requests are passed while the
coroutine waits in `a_request`, none of its awaits having been failed, and in which no period
expires, each request is returned by one call, in order. -/
theorem requests_delivered (as : List ServerAct) (w : HttpServer)
    (hobeys : httpServer.obeys (fun w a => w.inTime a = true) {} as)
    (hrun : httpServer.run {} as = some w) :
    Delivered w (httpServer.trace (fun w a => a.events w) {} as) := by
  have h := HttpServer.Inv.run hobeys hrun
  refine ⟨h.returned.trans h.passed.symm, ?_, h.nodup, ?_, ?_⟩
  · rw [h.passed]
    exact List.nodup_range
  · intro call request hexpired
    exact absurd hexpired (h.unexpired call)
  · intro ha
    obtain ⟨w', ev, hpass, -⟩ := h.onNewRequest ha
    simp [httpServer, HttpServer.exec, hpass]

/-- Two requests, with the coroutine busy in between. -/
def servedInTime : List ServerAct :=
  [.aRequest false, .onNewRequest, .awaitsOther, .otherDone false, .aRequest true, .onNewRequest]

theorem requests_delivered_busy :
    httpServer.obeys (fun w a => w.inTime a = true) {} servedInTime ∧
      ∃ w, httpServer.run {} servedInTime = some w ∧
        Delivered w (httpServer.trace (fun w a => a.events w) {} servedInTime) := by
  have hobeys : httpServer.obeys (fun w a => w.inTime a = true) {} servedInTime := by
    decide +kernel
  obtain ⟨w, hrun⟩ : ∃ w, httpServer.run {} servedInTime = some w :=
    Option.isSome_iff_exists.mp (by decide +kernel)
  exact ⟨hobeys, w, hrun, requests_delivered servedInTime w hobeys hrun⟩

/-- A request is passed while the coroutine awaits something else, and is lost: the next call of
`a_request` returns the request behind it. Its period then expires in another call, which returns
that request again. -/
theorem request_dropped :
    httpServer.trace (fun w a => a.events w) {}
        [.aRequest false, .onNewRequest, .awaitsOther, .onNewRequest, .otherDone false,
          .aRequest false, .onNewRequest, .aRequest true, .expires] =
      [.passed 0, .returned 0 0, .passed 1, .passed 2, .returned 1 2, .expired 2,
        .returned 2 2] := by
  decide +kernel

end NodeCpp
