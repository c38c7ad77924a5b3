import NodeCpp.Coro.Joint

/-!
# Failures of awaits

`setCoroException` sets `isException` in the promise of the coroutine, and nothing
ever resets it: `initCoroData` resets the status only. A coroutine that has caught
one failure gets it again from every later await that suspends it.

* `FailsAtMostOnce` -- the condition.
* `failure_is_own` -- under it an await throws exactly if it was failed itself.
* `failure_again` -- a read that fails, and one that succeeds and throws.
-/

namespace NodeCpp

open Function

namespace CoroWorld

/-- The await throws exactly if it was failed, and one that was not failed gets no exception in
any other way. -/
def AwaitEnd.Own (e : AwaitEnd) : Prop :=
  (e.threw = true ↔ e.failed = true) ∧ (e.failed = false → e.delivered = false)

/-- The guard. No timer resumes a handle that is still registered. A coroutine that is failed is not
in a timed await, and one that is resumed otherwise has not been failed before. -/
def FailsAtMostOnce (w : CoroWorld) (a : CoroAct) : Prop :=
  w.LeavesNoHandle a ∧ ∀ r ∈ w.resumption a,
    if r.2 = .failed then ∀ x ∈ (w.coros r.1.coro).waits, x.timer = none
    else ∀ e ∈ w.ended, e.coro = r.1.coro → e.failed = false

instance (w : CoroWorld) (a : CoroAct) : Decidable (w.FailsAtMostOnce a) :=
  inferInstanceAs (Decidable (_ ∧ ∀ r ∈ w.resumption a, _))

/-- The exceptions in the promises are those of awaits that were failed, and every await that is
over got its own. -/
structure Honest (w : CoroWorld) : Prop where
  joint : w.Joint
  exceptions : ∀ c, (w.coros c).edata.isException → ∃ e ∈ w.ended, e.coro = c ∧ e.failed
  own : ∀ e ∈ w.ended, AwaitEnd.Own e

variable {w w' : CoroWorld}

/-! ## What comes before a resumption -/

theorem await_keeps {c s : Nat} {call : AwaitCall} {now : UInt64}
    (ha : w.await c s call now = some w') :
    w'.ended = w.ended ∧
      ∀ c', (w'.coros c').edata.isException = (w.coros c').edata.isException := by
  have hregister : ∀ (w₁ : CoroWorld) (data : SocketData) (op : AwaitOp) (timer : Option UInt64),
      w₁.coros = w.coros → ∀ c', ((w₁.register c s data op timer).coros c').edata.isException =
        (w.coros c').edata.isException := by
    intro w₁ data op timer hsame c'
    show (update w₁.coros c _ c').edata.isException = _
    rw [hsame]
    by_cases hc : c' = c
    · subst hc
      rw [update_self]
    · rw [update_of_ne hc]
  unfold CoroWorld.await at ha
  split at ha
  · cases ha
  split at ha
  · cases ha
  · cases ha
    exact ⟨rfl, fun _ => rfl⟩
  · split at ha
    · cases ha
      exact ⟨rfl, hregister w _ _ _ rfl⟩
    · obtain ⟨⟨w₁, id⟩, hset, rfl⟩ := Option.map_eq_some_iff.mp ha
      unfold setTimeoutForAction at hset
      split at hset
      · cases hset
      · cases hset
        exact ⟨rfl, hregister _ _ _ _ rfl⟩

theorem timer_keeps {op : TimeoutOp} (ht : w.timer op = some w') :
    w'.ended = w.ended ∧ w'.coros = w.coros := by
  unfold CoroWorld.timer at ht
  split at ht
  · cases ht
  · split at ht
    · cases ht
    · cases ht
      exact ⟨rfl, rfl⟩
  all_goals
    split at ht
    · cases ht
    · obtain ⟨timeout, -, rfl⟩ := Option.map_eq_some_iff.mp ht
      exact ⟨rfl, rfl⟩

/-- An action sets no exception before it resumes somebody, and one that does leaves the coroutines
alone. -/
theorem event_keeps {a : CoroAct} {r : Option (Handle × Cause)} (he : w.event a = some (w', r)) :
    w'.ended = w.ended ∧
      (∀ c, (w'.coros c).edata.isException = (w.coros c).edata.isException) ∧
      (r.isSome → w'.coros = w.coros) := by
  cases a with
  | await c s call now =>
    obtain ⟨w₁, ha, heq⟩ := Option.map_eq_some_iff.mp he
    cases heq
    obtain ⟨hended, hsame⟩ := await_keeps ha
    exact ⟨hended, hsame, fun h => by cases h⟩
  | timer op =>
    obtain ⟨w₁, ht, heq⟩ := Option.map_eq_some_iff.mp he
    cases heq
    obtain ⟨hended, hsame⟩ := timer_keeps ht
    exact ⟨hended, fun c => by rw [hsame], fun h => by cases h⟩
  | _ =>
    simp only [CoroWorld.event] at he
    repeat' split at he
    all_goals first
      | cases he; done
      | cases he; exact ⟨rfl, fun _ => rfl, fun _ => rfl⟩

/-! ## Steps and runs -/

theorem AwaitEnd.own_of_untimed {e : AwaitEnd} (hdelivered : e.delivered = e.failed)
    (huntimed : e.failed = true → e.timed = false) : AwaitEnd.Own e := by
  obtain ⟨c, n, failed, delivered, timed⟩ := e
  cases hdelivered
  cases failed with
  | false => exact ⟨by simp [AwaitEnd.threw], fun _ => rfl⟩
  | true =>
    exact ⟨by simp [AwaitEnd.threw, show timed = false from huntimed rfl], fun h => by cases h⟩

theorem Honest.mark_isException (hw : w.Honest) {h : Handle} {cause : Cause}
    (hguard : if cause = .failed then ∀ x ∈ (w.coros h.coro).waits, x.timer = none
      else ∀ e ∈ w.ended, e.coro = h.coro → e.failed = false) :
    (cause.mark (w.coros h.coro).edata).isException = (cause == .failed) := by
  have hnone : (∀ e ∈ w.ended, e.coro = h.coro → e.failed = false) →
      (w.coros h.coro).edata.isException = false := by
    intro hnever
    by_contra hexc
    obtain ⟨e, hmem, hc, hfailed⟩ := hw.exceptions h.coro (by simpa using hexc)
    rw [hnever e hmem hc] at hfailed
    cases hfailed
  cases cause with
  | failed => rfl
  | event | timeout => exact hnone hguard

theorem Honest.step (hw : w.Honest) {a : CoroAct} (hguard : w.FailsAtMostOnce a)
    (hs : coroutines.step w a = some w') : w'.Honest := by
  have hjoint := hw.joint.step hguard.1 hs
  obtain ⟨w₁, r, he, hcases⟩ := step_cases hs
  obtain ⟨hended, hsame, hcoros⟩ := event_keeps he
  obtain ⟨rfl, rfl⟩ | ⟨h, cause, rfl, hr⟩ := hcases
  · refine ⟨hjoint, fun c hc => ?_, ?_⟩
    · rw [hended]
      exact hw.exceptions c (by rw [← hsame]; exact hc)
    · rw [hended]
      exact hw.own
  · have hcoros := hcoros rfl
    obtain ⟨-, htaken⟩ := hw.joint.event hguard.1 he
    obtain ⟨x, hwaits, hcount⟩ := (htaken _ rfl).current
    have hguard := hguard.2 (h, cause) (by rw [resumption, he]; rfl)
    dsimp only at hwaits hcount hguard
    obtain ⟨timeout, data, -, -, rfl⟩ := resume_suspended hwaits hr
    rw [hcoros] at hwaits hcount
    have hdelivered := hw.mark_isException hguard
    refine ⟨hjoint, fun c hc => ?_, fun e hmem => ?_⟩
    · change (update w₁.coros h.coro _ c).edata.isException at hc
      show ∃ e ∈ w₁.ended ++ [_], _
      by_cases hself : c = h.coro
      · subst hself
        rw [update_self, hcoros, hdelivered] at hc
        refine ⟨_, List.mem_append_right _ (List.mem_singleton_self _), rfl, ?_⟩
        rw [hcoros, hcount, beq_self_eq_true, Bool.and_true]
        exact hc
      · rw [update_of_ne hself, hcoros] at hc
        obtain ⟨e, hmem, he⟩ := hw.exceptions c hc
        exact ⟨e, List.mem_append_left _ (by rw [hended]; exact hmem), he⟩
    · rcases List.mem_append.mp hmem with hmem | hmem
      · exact hw.own e (by rw [← hended]; exact hmem)
      · cases List.mem_singleton.mp hmem
        rw [hcoros, hcount, beq_self_eq_true, Bool.and_true, hdelivered]
        refine AwaitEnd.own_of_untimed rfl fun hfailed => ?_
        rw [if_pos (eq_of_beq hfailed)] at hguard
        rw [hguard x hwaits]
        rfl

theorem Honest.start (data : Nat → SocketData) : (start data).Honest where
  joint := .start data
  exceptions _ hc := by cases hc
  own _ hmem := by cases hmem

end CoroWorld

open CoroWorld

/-- An await throws exactly if it was failed by `setCoroException` itself, and no failure is
delivered twice. -/
theorem failure_is_own {data : Nat → SocketData} {acts : List CoroAct} {w : CoroWorld}
    (hobeys : coroutines.obeys FailsAtMostOnce (start data) acts)
    (hrun : coroutines.run (start data) acts = some w) :
    ∀ e ∈ w.ended, (e.threw = true ↔ e.failed = true) ∧ (e.failed = false → e.delivered = false) :=
  (coroutines.run_invariant (fun _ _ _ hw hguard hs => hw.step hguard hs) (.start data) hobeys
    hrun : w.Honest).own

/-- One read succeeds and the next one is failed. -/
theorem failure_is_own_last :
    ∃ w, coroutines.run (start fun _ => { state := .Connected })
        [.await 0 1 (.read none { capacity := 1024 } 1 16) 0, .readEvent 1 { first := .data [1] },
          .await 0 1 (.read none { capacity := 1024 } 1 16) 0, .readEvent 1 { first := .error }] =
          some w ∧
      w.ended.map AwaitEnd.threw = [false, true] ∧
      ∀ e ∈ w.ended, (e.threw = true ↔ e.failed = true) ∧
        (e.failed = false → e.delivered = false) := by
  obtain ⟨w, hrun, hended⟩ : ∃ w, coroutines.run (start fun _ => { state := .Connected })
      [.await 0 1 (.read none { capacity := 1024 } 1 16) 0, .readEvent 1 { first := .data [1] },
        .await 0 1 (.read none { capacity := 1024 } 1 16) 0, .readEvent 1 { first := .error }] =
        some w ∧ w.ended.map AwaitEnd.threw = [false, true] := ⟨_, rfl, rfl⟩
  exact ⟨w, hrun, hended, failure_is_own (by decide) hrun⟩

/-- The read on the first socket is failed. The one on the second socket gets its data, and throws
as well. -/
theorem failure_again :
    ∃ w e, coroutines.run (start fun _ => { state := .Connected })
        [.await 0 1 (.read none { capacity := 1024 } 1 16) 0, .readEvent 1 { first := .error },
          .await 0 2 (.read none { capacity := 1024 } 1 16) 0,
          .readEvent 2 { first := .data [1, 2] }] = some w ∧
      e ∈ w.ended ∧ e.susp = 1 ∧ e.threw = true ∧ e.failed = false :=
  ⟨_, ⟨0, 1, false, true, false⟩, rfl, by decide, rfl, rfl, rfl⟩

end NodeCpp
