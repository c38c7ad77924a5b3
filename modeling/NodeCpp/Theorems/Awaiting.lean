import NodeCpp.Coro.Awaitable

/-!
# What a co_await delivers

`await_ready` looks at `is_value` only, which a throw does not set, and the frame
is gone when the body has ended. So an exception thrown before the `co_await`
starts is lost, and the coroutine that awaits is never resumed.

* `awaitedInTime` -- the condition.
* `delivered_iff` -- exactly then the outcome is delivered, once.
* `co_await_hangs` -- a body that throws before its first suspension.
-/

namespace NodeCpp

namespace Awaited

variable {α ε : Type} [Inhabited α]

/-- The condition: the body returns a value, or the `co_await` starts before the body has ended,
that is, behind fewer resumptions than the body has suspensions. -/
def awaitedInTime (body : Body α ε) (acts : List Act) : Prop :=
  (∃ v, body.outcome = .ok v) ∨ (acts.takeWhile (· ≠ .coAwait)).length < body.suspensions

/-! ## The states of a run -/

/-- The body is suspended, with `body` to go; `awaited` says whether the other one waits. -/
def suspendedAt (body : Body α ε) (awaited : Bool) : Awaited α ε where
  body := body
  promise := some { hr := awaited }
  awaiter := if awaited then .suspended else .before

/-- The awaitable behind the end of the body. -/
def settled : Except ε α → Awaitable α ε
  | .ok v => { value := v, isValue := true }
  | .error e => { ePending := some e }

/-- The body has ended with nobody waiting. -/
def endedAlone (body : Body α ε) (o : Except ε α) : Awaited α ε where
  body := body
  promise := none
  ret := settled o

theorem resume_suspend (rest : Body α ε) (awaited : Bool) :
    awaiting.step (suspendedAt (.suspend rest) awaited) .resume =
      some (suspendedAt rest awaited) := rfl

theorem resume_alone {body : Body α ε} (h : body.suspensions = 0) :
    awaiting.step (suspendedAt body false) .resume = some (endedAlone body body.outcome) := by
  cases body with
  | suspend rest => cases h
  | coReturn v => rfl
  | throw e => rfl

theorem resume_awaited {body : Body α ε} (h : body.suspensions = 0) :
    ∃ s, awaiting.step (suspendedAt body true) .resume = some s ∧ s.promise = none ∧
      s.awaiter = .behind ∧ s.delivered = [body.outcome] := by
  cases body with
  | suspend rest => cases h
  | coReturn v => exact ⟨_, rfl, rfl, rfl, rfl⟩
  | throw e => exact ⟨_, rfl, rfl, rfl, rfl⟩

theorem run_ended {s t : Awaited α ε} {acts : List Act} (hended : s.promise = none)
    (hstarted : s.awaiter ≠ .before) (hrun : awaiting.run s acts = some t) : t = s := by
  cases acts with
  | nil =>
    cases hrun
    rfl
  | cons a acts =>
    obtain ⟨s', hs, -⟩ := awaiting.run_cons hrun
    cases a with
    | resume =>
      rw [show awaiting.step s .resume = s.promise.map s.runBody from rfl, hended] at hs
      cases hs
    | coAwait =>
      rw [show awaiting.step s .coAwait = none from if_neg hstarted] at hs
      cases hs

/-! ## Whole runs -/

theorem delivered_of_awaited {body : Body α ε} {acts : List Act} {t : Awaited α ε}
    (hrun : awaiting.run (suspendedAt body true) acts = some t) (hended : t.promise = none) :
    t.delivered = [body.outcome] := by
  induction acts generalizing body with
  | nil =>
    cases hrun
    cases hended
  | cons a acts ih =>
    obtain ⟨s, hs, hrest⟩ := awaiting.run_cons hrun
    cases a with
    | coAwait => cases hs
    | resume =>
      by_cases hbody : body.suspensions = 0
      · obtain ⟨s', hs', hnone, hbehind, hdelivered⟩ := resume_awaited hbody
        rw [hs'] at hs
        cases hs
        rw [run_ended hnone (by rw [hbehind]; decide) hrest]
        exact hdelivered
      · cases body with
        | coReturn v | throw e => exact absurd rfl hbody
        | suspend rest =>
          rw [resume_suspend] at hs
          cases hs
          rw [Body.outcome]
          exact ih hrest

/-- The body has ended alone: a value is found, an exception is not. -/
theorem delivered_of_alone {body : Body α ε} {o : Except ε α} {acts : List Act} {t : Awaited α ε}
    (hrun : awaiting.run (endedAlone body o) acts = some t) (hawaited : .coAwait ∈ acts) :
    t.delivered = [o] ↔ ∃ v, o = .ok v := by
  cases acts with
  | nil => cases hawaited
  | cons a acts =>
    obtain ⟨s, hs, hrest⟩ := awaiting.run_cons hrun
    cases a with
    | resume => cases hs
    | coAwait =>
      cases o with
      | ok v =>
        cases hs
        rw [run_ended rfl Awaiter.noConfusion hrest]
        exact iff_of_true rfl ⟨v, rfl⟩
      | error e =>
        cases hs
        rw [run_ended rfl Awaiter.noConfusion hrest]
        exact iff_of_false (by simp [endedAlone]) (by simp)

/-- From a suspension on; one more resumption is needed than there are suspensions to go. -/
theorem delivered_of_suspended {body : Body α ε} {acts : List Act} {t : Awaited α ε}
    (hrun : awaiting.run (suspendedAt body false) acts = some t) (hended : t.promise = none)
    (hawaited : .coAwait ∈ acts) :
    t.delivered = [body.outcome] ↔ awaitedInTime (.suspend body) acts := by
  induction acts generalizing body with
  | nil => cases hawaited
  | cons a acts ih =>
    obtain ⟨s, hs, hrest⟩ := awaiting.run_cons hrun
    cases a with
    | coAwait =>
      cases hs
      refine iff_of_true (delivered_of_awaited hrest hended) (.inr ?_)
      exact Nat.succ_pos _
    | resume =>
      have hrest' : .coAwait ∈ acts := by simpa using hawaited
      have hlen : ((Act.resume :: acts).takeWhile (· ≠ .coAwait)).length =
          (acts.takeWhile (· ≠ .coAwait)).length + 1 := by simp
      unfold awaitedInTime
      rw [hlen]
      by_cases hbody : body.suspensions = 0
      · rw [resume_alone hbody] at hs
        cases hs
        rw [delivered_of_alone hrest hrest']
        simp [Body.suspensions, Body.outcome, hbody]
      · cases body with
        | coReturn v | throw e => exact absurd rfl hbody
        | suspend rest =>
          rw [resume_suspend] at hs
          cases hs
          rw [Body.outcome, ih hrest hrest']
          simp [awaitedInTime, Body.outcome, Body.suspensions]

/-- Once a body has ended and the `co_await` on it has started, the coroutine that awaits has gone
on once, with the outcome of the body, exactly if the `co_await` was in time. -/
theorem delivered_iff {body : Body α ε} {acts : List Act} {t : Awaited α ε}
    (hrun : awaiting.run (call body) acts = some t) (hended : t.promise = none)
    (hawaited : .coAwait ∈ acts) :
    t.delivered = [body.outcome] ↔ awaitedInTime body acts := by
  cases body with
  | suspend rest => exact delivered_of_suspended hrun hended hawaited
  | coReturn v | throw e =>
    rw [delivered_of_alone hrun hawaited]
    simp [awaitedInTime, Body.suspensions]

/-- A body that throws behind a suspension, awaited before it is resumed. -/
theorem delivered_throw :
    ∃ t : Awaited Nat Nat, awaiting.run (call (.suspend (.throw 7))) [.coAwait, .resume] = some t ∧
      t.promise = none ∧ t.delivered = [.error 7] := by
  obtain ⟨t, hrun, hended⟩ : ∃ t : Awaited Nat Nat,
      awaiting.run (call (.suspend (.throw 7))) [.coAwait, .resume] = some t ∧ t.promise = none :=
    ⟨_, rfl, rfl⟩
  exact ⟨t, hrun, hended, (delivered_iff hrun hended (by decide)).mpr (.inr (by decide))⟩

/-- A body that throws before its first suspension: the coroutine that awaits it is suspended, and
there is nobody left to resume it. -/
theorem co_await_hangs :
    ∃ t : Awaited Nat Nat, awaiting.run (call (.throw 7)) [.coAwait] = some t ∧
      t.promise = none ∧ t.awaiter = .suspended ∧ t.delivered ≠ [.error 7] ∧
      ∀ a, awaiting.step t a = none := by
  refine ⟨_, rfl, rfl, rfl, by decide, fun a => ?_⟩
  cases a <;> rfl

end Awaited

end NodeCpp
