import NodeCpp.Loop.EvQueue
import NodeCpp.Loop.Runs

/-!
# Immediates

The loop keeps its immediates in an `EvQueue`: `setInmediate` adds to it, and each
iteration emits it once. `Loop.evActs` reads the operations of the queue off a run of
the loop, and `Tracks` says how the queue and the loop go together.
-/

namespace NodeCpp

variable {ph : Phase} {w w' : Ctl × Registry}

def Phase.emits : Phase → Bool
  | .emitInmediates _ => true
  | _ => false

theorem Phase.emits_eq_true (h : ph.emits = true) : ∃ left, ph = .emitInmediates left := by
  cases ph with
  | emitInmediates left => exact ⟨left, rfl⟩
  | _ => cases h

/-- What a step of the loop outside of `emitInmediates` leaves as it was: the immediates; it goes
to `emitInmediates` with all of them, and it only returns if there are none. -/
structure Ctl.KeepsInmediates (k k' : Ctl) : Prop where
  queue : k'.inmediateQueue = k.inmediateQueue
  emit : ∀ left, k'.phase = .emitInmediates left → left = k.inmediateQueue
  returned : k'.phase = .returned → k.inmediateQueue = 0 ∧ k'.handler = k.handler

def Action.addsInmediate : Action → Bool
  | .timer .setInmediate => true
  | _ => false

namespace Loop

variable {k : Ctl} {r r' : Registry} {env : Env} {p : Plan}

theorem keeps_same {k' : Ctl} (hemit : ∀ left, k.phase ≠ .emitInmediates left)
    (hret : k.phase ≠ .returned) (hphase : k'.phase = k.phase)
    (hqueue : k'.inmediateQueue = k.inmediateQueue) : k.KeepsInmediates k' :=
  ⟨hqueue, fun left h => absurd (hphase ▸ h) (hemit left), fun h => absurd (hphase ▸ h) hret⟩

theorem keeps_moves {k' : Ctl} {next : Phase → Prop}
    (hemit : ∀ left, k.phase ≠ .emitInmediates left)
    (hret : k.phase ≠ .returned) (h : k.Moves next k') (hnext : ∀ ph, next ph →
      ph ≠ .returned ∧ ∀ left, ph = .emitInmediates left → left = k.inmediateQueue) :
    k.KeepsInmediates k' := by
  obtain ⟨-, hqueue, hphase | hphase⟩ := h
  · exact keeps_same hemit hret hphase hqueue
  · obtain ⟨hnot, hleft⟩ := hnext _ hphase
    exact ⟨hqueue, hleft, fun heq => absurd heq hnot⟩

theorem wait_inmediates (hemit : ∀ left, k.phase ≠ .emitInmediates left)
    (hret : k.phase ≠ .returned) : k.KeepsInmediates ((wait k r env).2 r') := by
  unfold wait
  split
  · dsimp only
    split
    · exact ⟨rfl, by rintro left ⟨⟩; rfl, nofun⟩
    · rename_i hrefed
      refine ⟨rfl, nofun, fun _ => ⟨?_, rfl⟩⟩
      simp only [Ctl.refedTimeout, Bool.or_eq_true, Bool.not_eq_true', decide_eq_false_iff_not,
        not_or, not_not] at hrefed
      exact hrefed.1
  · split
    · exact keeps_same hemit hret rfl rfl
    · dsimp only
      split
      · exact ⟨rfl, by rintro left ⟨⟩; rfl, nofun⟩
      · exact ⟨rfl, nofun, nofun⟩

theorem step_inmediates (hp : step k r env = some p)
    (hemit : ∀ left, k.phase ≠ .emitInmediates left) : k.KeepsInmediates (p.2 r') := by
  have hret := step_phase hp
  by_cases hpolls : k.phase.polls
  · refine keeps_moves hemit hret (step_polls hp hpolls r') ?_
    rintro ph (h | rfl)
    · cases ph <;> simp [Phase.polls] at h ⊢
    · exact ⟨nofun, by rintro left ⟨⟩; rfl⟩
  by_cases hdrains : k.phase.drains
  · refine keeps_moves hemit hret (step_drains hp hdrains r') ?_
    rintro ph (h | rfl)
    · cases ph <;> simp [Phase.drains] at h ⊢
    · exact ⟨nofun, nofun⟩
  unfold step at hp
  generalize hphase : k.phase = ph at hp
  cases ph with
  | emitInmediates left => exact absurd hphase (hemit left)
  | returned => exact absurd hphase hret
  | wait =>
    cases hp
    exact wait_inmediates hemit hret
  | timers handlers =>
    cases handlers <;> cases hp <;> exact ⟨rfl, nofun, nofun⟩
  | infraTimeoutEvents =>
    cases hp
    unfold infraTimeoutEvents
    split
    · exact ⟨rfl, nofun, nofun⟩
    · exact keeps_same hemit hret rfl rfl
  | _ =>
    rw [hphase] at hpolls hdrains
    first | exact absurd rfl hpolls | exact absurd rfl hdrains

def evActs (w : Ctl × Registry) (a : Action) : List EvAct :=
  match runStandardLoop.machine.step w a with
  | none => []
  | some w' =>
      if w'.1.aborted then []
      else
        match a with
        | .timer .setInmediate => [.add]
        | .infra _ =>
            if w.1.phase.emits then [.next] else if w'.1.phase.emits then [.emit] else []
        | _ => []

def AddsOutside (w : Ctl × Registry) : Action → Prop
  | .timer .setInmediate => w.1.phase.emits = false
  | _ => True

instance (w : Ctl × Registry) : DecidablePred (AddsOutside w)
  | .timer .setInmediate => inferInstanceAs (Decidable (_ = _))
  | .call _ | .ret | .infra _ | .timer (.setTimeout _ _) | .timer (.clearTimeout _)
  | .timer (.refreshTimeout _ _) | .timer (.destructTimeout _) => isTrue trivial

/-- The queue holds the immediates of the loop, and is emitted while the loop is at it. -/
structure Tracks (k : Ctl) (q : EvQueue) : Prop where
  queue : q.evQueue.length = k.inmediateQueue
  emitting : ∀ left, k.phase = .emitInmediates left →
    ∃ t, q.emitting = some t ∧ t.stop = t.current + left ∧ t.dangling = false
  idle : k.phase.emits = false → q.emitting = none
  returned : k.phase = .returned → k.inmediateQueue = 0 ∧ k.handler = false

variable {q : EvQueue} {k' : Ctl}

theorem Tracks.init : Tracks {} {} := ⟨rfl, nofun, fun _ => rfl, nofun⟩

theorem Tracks.same (h : Tracks k q) (hphase : k'.phase = k.phase)
    (hqueue : k'.inmediateQueue = k.inmediateQueue)
    (hhandler : k.phase = .returned → k'.handler = false) : Tracks k' q where
  queue := h.queue.trans hqueue.symm
  emitting := by
    rw [hphase]
    exact h.emitting
  idle := by
    rw [hphase]
    exact h.idle
  returned := by
    rw [hphase, hqueue]
    exact fun hret => ⟨(h.returned hret).1, hhandler hret⟩

theorem Tracks.not_returned (h : Tracks k q) (hhandler : k.handler = true) :
    k.phase ≠ .returned := by
  intro hret
  rw [(h.returned hret).2] at hhandler
  cases hhandler

theorem Tracks.add (h : Tracks k q) (hhandler : k.handler = true)
    (hemits : k.phase.emits = false) : Tracks (k.timerCall .setInmediate) q.add where
  queue := by simp [EvQueue.add, Ctl.timerCall, h.queue]
  emitting left hphase := by
    change k.phase = _ at hphase
    rw [hphase] at hemits
    cases hemits
  idle _ := by simp [EvQueue.add, h.idle hemits]
  returned hret := absurd hret (h.not_returned hhandler)

theorem Tracks.timer {c : TimerCall} (h : Tracks k q) (hhandler : k.handler = true)
    (hc : c ≠ .setInmediate) : Tracks (k.timerCall c) q := by
  have hon : ∀ x, Tracks (k.onTimeout x) q := by
    intro x
    cases x <;> exact h.same rfl rfl fun hret => absurd hret (h.not_returned hhandler)
  cases c with
  | setInmediate => exact absurd rfl hc
  | destructTimeout id => exact hon (.ok _)
  | _ => exact hon _

theorem Tracks.next {left : Nat} (h : Tracks k q) (hphase : k.phase = .emitInmediates left)
    (hp : step k r env = some p) :
    ∃ q', inmediateQueue.step q .next = some q' ∧ Tracks (p.2 r') q' := by
  obtain ⟨t, ht, hstop, hvalid⟩ := h.emitting left hphase
  unfold step at hp
  rw [hphase] at hp
  cases left with
  | zero =>
    cases hp
    refine ⟨{ q with evQueue := [], emitting := none }, ?_, rfl, by rintro _ ⟨⟩, fun _ => rfl,
      by rintro ⟨⟩⟩
    simp [inmediateQueue, EvQueue.next, ht, hvalid, hstop]
  | succ left =>
    cases hp
    refine ⟨{ q with emitting := some { t with current := t.current + 1 } }, ?_, h.queue, ?_,
      by rintro ⟨⟩, by rintro ⟨⟩⟩
    · simp [inmediateQueue, EvQueue.next, ht, hvalid, hstop]
    · rintro left' ⟨⟩
      refine ⟨_, rfl, ?_, hvalid⟩
      show t.stop = t.current + 1 + left
      omega

theorem Tracks.keeps (h : Tracks k q) (hemits : k.phase.emits = false)
    (hhandler : k.handler = false)
    (hkeeps : k.KeepsInmediates k') :
    ∃ q', inmediateQueue.run q (if k'.phase.emits then [.emit] else []) = some q' ∧
      Tracks k' q' := by
  have hnone := h.idle hemits
  have hret : k'.phase = .returned → k'.inmediateQueue = 0 ∧ k'.handler = false := by
    intro hret
    obtain ⟨hzero, hsame⟩ := hkeeps.returned hret
    exact ⟨hkeeps.queue.trans hzero, hsame.trans hhandler⟩
  cases hemits' : k'.phase.emits with
  | false =>
    refine ⟨q, rfl, h.queue.trans hkeeps.queue.symm, ?_, fun _ => hnone, hret⟩
    intro left hphase
    rw [hphase] at hemits'
    cases hemits'
  | true =>
    refine ⟨{ q with emitting := some { current := 0, stop := q.evQueue.length } }, ?_,
      h.queue.trans hkeeps.queue.symm, ?_, ?_, hret⟩
    · simp [inmediateQueue, EvQueue.emit, hnone]
    · intro left hphase
      refine ⟨_, rfl, ?_, rfl⟩
      rw [hkeeps.emit left hphase, h.queue, Nat.zero_add]
    · rw [hemits']
      rintro ⟨⟩

/-- The step lemma: the queue follows the loop. -/
theorem Tracks.step {a : Action} (h : Tracks w.1 q) (hadds : AddsOutside w a)
    (hstep : runStandardLoop.machine.step w a = some w') :
    ∃ q', inmediateQueue.run q (evActs w a) = some q' ∧
      inmediateQueue.obeys EvQueue.AddsOutside q (evActs w a) ∧
      (w'.1.aborted = false → Tracks w'.1 q') := by
  have hobeys : ∀ e : EvAct, e ≠ .add → inmediateQueue.obeys EvQueue.AddsOutside q [e] :=
    fun e he => ⟨fun heq => absurd heq he, fun _ _ => trivial⟩
  obtain ⟨hrunning, hacts⟩ := step_acts hstep
  simp only [evActs, hstep]
  split
  · rename_i haborted
    refine ⟨q, rfl, trivial, fun hfalse => ?_⟩
    rw [haborted] at hfalse
    cases hfalse
  · rename_i haborted
    cases hacts with
    | call hhandler hops hplan hrun => exact ⟨q, rfl, trivial, fun _ => h⟩
    | timer hhandler =>
      rename_i c
      by_cases hc : c = .setInmediate
      · subst hc
        exact ⟨q.add, rfl, ⟨fun _ => h.idle hadds, fun _ _ => trivial⟩,
          fun _ => h.add hhandler hadds⟩
      · refine ⟨q, ?_, ?_, fun _ => h.timer hhandler hc⟩
        · cases c <;> first | rfl | exact absurd rfl hc
        · cases c <;> trivial
    | ret hhandler => exact ⟨q, rfl, trivial, fun _ => h.same rfl rfl fun _ => rfl⟩
    | infra hhandler hp hplan hrun =>
      cases hemits : w.1.phase.emits with
      | true =>
        -- the next callback of the queue
        obtain ⟨left, hleft⟩ := Phase.emits_eq_true hemits
        obtain ⟨q', hq', htracks⟩ := h.next hleft hp
        refine ⟨q', ?_, hobeys _ (by simp), fun _ => htracks⟩
        simp only [if_true, Lib.Machine.run, hq', Option.bind_some]
      | false =>
        have hnot : ∀ left, w.1.phase ≠ .emitInmediates left := by
          intro left hleft
          rw [hleft] at hemits
          cases hemits
        obtain ⟨q', hq', htracks⟩ := h.keeps hemits hhandler (step_inmediates hp hnot)
        refine ⟨q', hq', ?_, fun _ => htracks⟩
        simp only [Bool.false_eq_true, if_false]
        split
        · exact hobeys _ (by simp)
        · trivial
    | stuck hrunning => exact absurd rfl haborted

/-- The run lemma. -/
theorem tracks_run {acts : List Action}
    (hadds : runStandardLoop.machine.obeys AddsOutside init acts) (hrun : run init acts = some w) :
    ∃ q, inmediateQueue.run {} (runStandardLoop.machine.trace evActs init acts) = some q ∧
      inmediateQueue.obeys EvQueue.AddsOutside {} (runStandardLoop.machine.trace evActs init acts) ∧
      (w.1.aborted = false → Tracks w.1 q) := by
  refine runStandardLoop.machine.run_trace (l := []) (J := fun w l => ∃ q,
    inmediateQueue.run {} l = some q ∧ inmediateQueue.obeys EvQueue.AddsOutside {} l ∧
      (w.1.aborted = false → Tracks w.1 q)) ?_ ⟨{}, rfl, trivial, fun _ => .init⟩ hadds hrun
  rintro w a w' l ⟨q, hq, hobeys, htracks⟩ ha hstep
  obtain ⟨q', hq', hobeys', htracks'⟩ := (htracks (step_acts hstep).1).step ha hstep
  refine ⟨q', ?_, (inmediateQueue.obeys_append hq).mpr ⟨hobeys, hobeys'⟩, htracks'⟩
  rw [inmediateQueue.run_append, hq]
  exact hq'

theorem setInmediate_step (h : runStandardLoop.machine.step w (.timer .setInmediate) = some w') :
    w'.1.aborted = false := by
  obtain ⟨hrunning, -⟩ := step_acts h
  obtain ⟨p, hp, hcases⟩ := runStandardLoop.step_cases h
  simp only [runStandardLoop, plan, hrunning, Bool.false_eq_true, if_false] at hp
  split at hp
  · cases hp
    obtain ⟨r, hr, rfl⟩ | ⟨hr, -⟩ := hcases
    · exact hrunning
    · cases hr
  · cases hp

/-- The queue is asked to add a callback exactly when `setInmediate` is called. -/
theorem evActs_count {acts : List Action} (hrun : run w acts = some w') :
    (runStandardLoop.machine.trace evActs w acts).count .add =
      acts.countP Action.addsInmediate := by
  induction acts generalizing w with
  | nil => rfl
  | cons a acts ih =>
    obtain ⟨w₁, hstep, hrest⟩ := runStandardLoop.machine.run_cons hrun
    rw [runStandardLoop.machine.trace_cons _ hstep, List.count_append, ih hrest,
      List.countP_cons, Nat.add_comm]
    congr 1
    simp only [evActs, hstep]
    cases a with
    | timer c =>
      cases c with
      | setInmediate => simp [setInmediate_step hstep, Action.addsInmediate]
      | _ => simp [Action.addsInmediate]
    | infra env =>
      simp only [Action.addsInmediate]
      split
      · rfl
      · split
        · rfl
        · split <;> rfl
    | _ => simp [Action.addsInmediate]

end Loop

/-- Every immediate runs exactly once, in every run in which no immediate is added by another one:
those invoked so far and those outstanding are all that were added, in the order in which they
were added, and nothing is outstanding at the end of `emitInmediates` or when the loop returns. -/
theorem inmediates_run_once {acts : List Action} {w : Ctl × Registry}
    (hadds : runStandardLoop.machine.obeys Loop.AddsOutside Loop.init acts)
    (hrun : Loop.run Loop.init acts = some w) :
    ∃ q, inmediateQueue.run {} (runStandardLoop.machine.trace Loop.evActs Loop.init acts) = some q ∧
      q.added = acts.countP Action.addsInmediate ∧
      inmediateQueue.trace EvAct.invoked {}
        (runStandardLoop.machine.trace Loop.evActs Loop.init acts) ++ q.outstanding =
          List.range q.added ∧
      (w.1.aborted = false → w.1.phase = .emitInmediates 0 ∨ w.1.phase = .returned →
        q.outstanding = []) := by
  obtain ⟨q, hq, hobeys, htracks⟩ := Loop.tracks_run hadds hrun
  have hsettled := EvQueue.settled_run hobeys hq
  refine ⟨q, hq, ?_, hsettled.all, ?_⟩
  · rw [EvQueue.added_run hq, Loop.evActs_count hrun]
    exact Nat.zero_add _
  · intro haborted hphase
    have htracks := htracks haborted
    rcases hphase with hphase | hphase
    · obtain ⟨t, ht, hstop, -⟩ := htracks.emitting 0 hphase
      simp only [EvQueue.outstanding, ht]
      apply List.drop_eq_nil_of_le
      have hlen := (hsettled.covers t ht).1
      omega
    · have hnone : q.emitting = none := htracks.idle (by rw [hphase]; rfl)
      have hlen := htracks.queue.trans (htracks.returned hphase).1
      simpa [EvQueue.outstanding, hnone] using hlen

/-- Two immediates from `main()` and one from a handler of the next iteration. -/
def inmediatesLater : List Action :=
  [Action.timer .setInmediate, .timer .setInmediate, .timer (.setTimeout 1 0), .ret] ++
    List.replicate 5 (Action.infra {}) ++ [Action.ret, .infra {}, .ret] ++
    List.replicate 6 (Action.infra {}) ++
    [Action.infra { now := 1000 }, .infra {}, .timer .setInmediate, .ret, .infra {}, .infra {},
      .infra {}, .ret]

theorem inmediates_run_once_later : ∃ w q, Loop.run Loop.init inmediatesLater = some w ∧
    inmediateQueue.run {}
      (runStandardLoop.machine.trace Loop.evActs Loop.init inmediatesLater) = some q ∧
    w.1.phase = .emitInmediates 0 ∧ q.added = 3 ∧ q.outstanding = [] := by
  obtain ⟨w, hw, hphase, haborted, hadds⟩ : ∃ w, Loop.run Loop.init inmediatesLater = some w ∧
      w.1.phase = .emitInmediates 0 ∧ w.1.aborted = false ∧
      runStandardLoop.machine.obeys Loop.AddsOutside Loop.init inmediatesLater := by
    decide +kernel
  obtain ⟨q, hq, hadded, -, hdone⟩ := inmediates_run_once hadds hw
  exact ⟨w, q, hw, hq, hphase, hadded, hdone haborted (.inl hphase)⟩

/-- Three immediates from `main()`, the first of which adds a fourth one. -/
def inmediateAdds : List Action :=
  [Action.timer .setInmediate, .timer .setInmediate, .timer .setInmediate, .ret] ++
    List.replicate 5 (Action.infra {}) ++ [Action.timer .setInmediate, .ret, .infra {}, .ret,
    .infra {}, .ret] ++
    List.replicate 9 (Action.infra {})

/-- The fourth immediate is never invoked: it is cleared with the others, and the loop returns. -/
theorem inmediate_dropped : ∃ w, Loop.run Loop.init inmediateAdds = some w ∧
    w.1.phase = .returned ∧ w.1.aborted = false ∧
    ∃ q, inmediateQueue.run {}
      (runStandardLoop.machine.trace Loop.evActs Loop.init inmediateAdds) = some q ∧
    q.added = 4 ∧ q.evQueue = [] ∧
    inmediateQueue.trace EvAct.invoked {}
      (runStandardLoop.machine.trace Loop.evActs Loop.init inmediateAdds) = [0, 1, 2] := by
  decide +kernel

end NodeCpp
