import NodeCpp.Loop.Servers

/-!
# The stages of an iteration

An iteration of the loop empties the four vectors of pending events one after the
other. `Phase.stage` counts how many it has emptied since `poll`; a vector is *late*
in the stages from `QueueId.stage` on, where what is pushed onto it waits for the
next iteration. `Loop.step_stage` says what a step of the infrastructure does to the
stage, `Loop.step_accepted` that only the poll pass pushes accepted sockets.
-/

namespace NodeCpp

open Lib

/-- How many of the vectors the iteration has emptied since `poll`; the loop has returned in
stage 5. -/
def Phase.stage : Phase → Nat
  | .infraProcessSockAcceptedEvents => 1
  | .infraGetCloseEvents | .resetServer _ => 2
  | .reworkIfNecessary | .infraEmitListeningEvents => 3
  | .infraTimeoutEvents | .timers _ | .wait => 4
  | .returned => 5
  | _ => 0

theorem Phase.stage_of_polls {ph : Phase} (h : ph.polls) : ph.stage = 0 := by
  cases ph <;> first | rfl | cases h

/-- The stage in which the vector has been emptied. -/
def QueueId.stage : QueueId → Nat
  | .close => 1
  | .accepted => 2
  | .serverClose => 3
  | .listen => 4

inductive StageStep (k : Ctl) (r : Registry) (k' : Ctl) (r' : Registry) : Prop
  | same (h : k'.phase.stage = k.phase.stage)
  | poll (h : k'.phase.stage = 0)
  | close (h : k.phase.stage = 0) (h' : k'.phase.stage = 1)
      (hempty : (r'.queue .close).events = []) (hwaiting : (r'.queue .accepted).waiting = [])
  | accepted (h : k.phase.stage = 1) (h' : k'.phase.stage = 2)
      (hrest : (r'.queue .accepted).events = (r.queue .accepted).waiting)
  | serverClose (h : k.phase.stage = 2) (h' : k'.phase.stage = 3)
      (hempty : (r'.queue .serverClose).events = [])
  | listen (h : k.phase.stage = 3) (h' : k'.phase.stage = 4)
      (hempty : (r'.queue .listen).events = [])
  | returned (h : k.phase.stage = 4) (hphase : k'.phase = .returned)
      (hhandler : k'.handler = k.handler) (hr : r' = r)
      (hcount : r.ioSockets.associatedCount = 0) (hrefed : k'.refedTimeout = false)

theorem StageStep.of_phase {k k' : Ctl} {r r' : Registry} {ph : Phase} (hphase : k.phase = ph)
    (h : k'.phase.stage = ph.stage) : StageStep k r k' r' :=
  .same (by rw [hphase, h])

namespace Loop

variable {k : Ctl} {r r' : Registry} {env : Env} {p : Plan}

theorem infraEmitListeningEvents_stage (hphase : k.phase = .infraEmitListeningEvents)
    (hrun : registry.run r (infraEmitListeningEvents k r).1 = some r') :
    StageStep k r ((infraEmitListeningEvents k r).2 r') r' := by
  unfold infraEmitListeningEvents at hrun ⊢
  cases hbatch : (r.queue .listen).batch with
  | cons ev rest =>
    dsimp only
    split
    · exact .of_phase hphase rfl
    · exact .same rfl
  | nil =>
    rw [hbatch] at hrun
    dsimp only at hrun ⊢
    split
    · rename_i hempty
      rw [if_pos hempty] at hrun
      obtain ⟨-, -, rfl⟩ := Registry.endPass_eq_ok (run_singleton hrun)
      refine .listen (by rw [hphase]; rfl) rfl ?_
      simpa [EventQueue.finish, EventQueue.events] using hempty
    · exact .same rfl

theorem infraGetCloseEvent_stage (hphase : k.phase = .infraGetCloseEvent)
    (hrun : registry.run r (infraGetCloseEvent k r).1 = some r') :
    StageStep k r ((infraGetCloseEvent k r).2 r') r' := by
  unfold infraGetCloseEvent at hrun ⊢
  cases hbatch : (r.queue .close).batch with
  | cons ev rest =>
    dsimp only
    refine .of_phase hphase ?_
    repeat' split
    all_goals first | rfl | exact congrArg Phase.stage hphase
  | nil =>
    rw [hbatch] at hrun
    obtain ⟨r₁, hclear, hrun⟩ := registry.run_cons hrun
    obtain ⟨-, -, -, rfl⟩ := Registry.clear_eq_ok (toOption_eq_some hclear)
    cases run_singleton hrun
    refine .close (by rw [hphase]; rfl) rfl ?_ ?_
    · simp
    · simp [EventQueue.start]

theorem infraProcessSockAcceptedEvents_stage (hphase : k.phase = .infraProcessSockAcceptedEvents)
    (hrun : registry.run r (infraProcessSockAcceptedEvents k r).1 = some r') :
    StageStep k r ((infraProcessSockAcceptedEvents k r).2 r') r' := by
  unfold infraProcessSockAcceptedEvents at hrun ⊢
  cases hbatch : (r.queue .accepted).batch with
  | cons ev rest =>
    dsimp only
    split
    · exact .of_phase hphase rfl
    · exact .same rfl
  | nil =>
    rw [hbatch] at hrun
    obtain ⟨r₁, hfinish, hrun⟩ := registry.run_cons hrun
    obtain ⟨-, -, rfl⟩ := Registry.endPass_eq_ok (toOption_eq_some hfinish)
    cases run_singleton hrun
    refine .accepted (by rw [hphase]; rfl) rfl ?_
    simp [EventQueue.finish, EventQueue.events]

theorem infraGetCloseEvents_stage (hphase : k.phase = .infraGetCloseEvents)
    (hrun : registry.run r (infraGetCloseEvents k r).1 = some r') :
    StageStep k r ((infraGetCloseEvents k r).2 r') r' := by
  unfold infraGetCloseEvents at hrun ⊢
  cases hbatch : (r.queue .serverClose).batch with
  | cons ev rest =>
    dsimp only
    refine .of_phase hphase ?_
    repeat' split
    all_goals first | rfl | exact congrArg Phase.stage hphase
  | nil =>
    rw [hbatch] at hrun
    obtain ⟨-, -, -, rfl⟩ := Registry.clear_eq_ok (run_singleton hrun)
    refine .serverClose (by rw [hphase]; rfl) rfl ?_
    simp

theorem wait_stage (hphase : k.phase = .wait) (hrun : registry.run r (wait k r env).1 = some r') :
    StageStep k r ((wait k r env).2 r') r' := by
  unfold wait at hrun ⊢
  split
  · rename_i hcount
    rw [if_pos hcount] at hrun
    cases hrun
    dsimp only
    cases hrefed : k.refedTimeout with
    | true => exact .poll rfl
    | false => exact .returned (by rw [hphase]; rfl) rfl rfl rfl hcount hrefed
  · split
    · exact .of_phase hphase (congrArg Phase.stage hphase)
    · dsimp only
      split <;> exact .poll rfl

/-- A step of the infrastructure keeps the stage, empties the next vector, polls or returns. -/
theorem step_stage (hp : step k r env = some p) (hrun : registry.run r p.1 = some r') :
    StageStep k r (p.2 r') r' := by
  by_cases hpolls : k.phase.polls
  · -- the whole poll phase is one stage
    refine .poll ?_
    obtain h | h | h := (step_polls hp hpolls r').phase
    · exact h ▸ Phase.stage_of_polls hpolls
    · exact Phase.stage_of_polls h
    · rw [h]
      rfl
  unfold step at hp
  generalize hphase : k.phase = ph at hp
  cases ph with
  | infraEmitListeningEvents =>
    cases hp
    exact infraEmitListeningEvents_stage hphase hrun
  | infraTimeoutEvents =>
    cases hp
    refine .of_phase hphase ?_
    unfold infraTimeoutEvents
    split
    · rfl
    · exact congrArg Phase.stage hphase
  | timers handlers =>
    cases handlers <;> cases hp <;> exact .of_phase hphase rfl
  | wait =>
    cases hp
    exact wait_stage hphase hrun
  | emitInmediates left =>
    cases left <;> cases hp <;> exact .of_phase hphase rfl
  | infraGetCloseEvent =>
    cases hp
    exact infraGetCloseEvent_stage hphase hrun
  | emitClose | closed | onFinalCleanup =>
    cases hp
    refine .of_phase hphase ?_
    simp only [emitClose, closed, onFinalCleanup]
    repeat' split
    all_goals first | rfl | exact congrArg Phase.stage hphase
  | infraProcessSockAcceptedEvents =>
    cases hp
    exact infraProcessSockAcceptedEvents_stage hphase hrun
  | infraGetCloseEvents =>
    cases hp
    exact infraGetCloseEvents_stage hphase hrun
  | handleErrorEvent | handleCloseEvent | resetServer | reworkIfNecessary =>
    cases hp
    exact .of_phase hphase rfl
  | returned =>
    cases hp
  | _ => exact absurd (by rw [hphase]; rfl) hpolls

/-- The table is reworked right behind the last pass, whose vector is empty then. -/
theorem step_rework (hhandler : k.handler = false) (hp : step k r env = some p)
    (hrun : registry.run r p.1 = some r') (hphase : (p.2 r').phase = .reworkIfNecessary) :
    (p.2 r').handler = false ∧ (r'.queue .serverClose).events = [] := by
  have hstage : k.phase.stage = 3 ∨ k.phase.stage = 2 ∧ (r'.queue .serverClose).events = [] := by
    have hrework : (p.2 r').phase.stage = 3 := by
      rw [hphase]
      rfl
    cases step_stage hp hrun with
    | same h => exact .inl (h.symm.trans hrework)
    | serverClose h h' hempty => exact .inr ⟨h, hempty⟩
    | returned h hreturned =>
      rw [hphase] at hreturned
      cases hreturned
    | poll h' | close h h' | accepted h h' | listen h h' =>
      rw [hrework] at h'
      cases h'
  unfold step at hp
  generalize hk : k.phase = ph at hp
  cases ph with
  | infraEmitListeningEvents =>
    cases hp
    unfold infraEmitListeningEvents at hphase
    repeat' split at hphase
    all_goals first | cases hphase | cases hk.symm.trans hphase
  | reworkIfNecessary | resetServer idx =>
    cases hp
    cases hphase
  | infraGetCloseEvents =>
    cases hp
    refine ⟨?_, (hstage.resolve_left (by rw [hk]; decide)).2⟩
    unfold infraGetCloseEvents at hphase ⊢
    repeat' split
    all_goals first | exact hhandler | simp_all [Ctl.user]
  | _ =>
    rw [hk] at hstage
    exact absurd hstage (by simp [Phase.stage])

/-- A step of the infrastructure leaves the timers alone, or detaches those that are due. -/
theorem step_timeout (hp : step k r env = some p) (r' : Registry) :
    (p.2 r').timeout = k.timeout ∨
      ∃ handlers, k.timeout.infraTimeoutEvents env.now = .ok ((p.2 r').timeout, handlers) := by
  by_cases hpolls : k.phase.polls
  · exact .inl (step_polls hp hpolls r').timeout
  by_cases hdrains : k.phase.drains
  · exact .inl (step_drains hp hdrains r').timeout
  unfold step at hp
  generalize hphase : k.phase = ph at hp
  cases ph with
  | infraTimeoutEvents =>
    cases hp
    unfold infraTimeoutEvents
    split
    · rename_i m handlers h
      exact .inr ⟨handlers, h⟩
    · exact .inl rfl
  | timers handlers =>
    cases handlers <;> cases hp <;> exact .inl rfl
  | emitInmediates left =>
    cases left <;> cases hp <;> exact .inl rfl
  | wait =>
    cases hp
    unfold wait
    repeat' split
    all_goals exact .inl rfl
  | returned =>
    cases hp
  | _ =>
    rw [hphase] at hpolls hdrains
    first | exact absurd rfl hpolls | exact absurd rfl hdrains

end Loop

/-! ## Who announces accepted sockets -/

def Op.announces : Op → Bool
  | .queue q _ _ => decide (q = .accepted)
  | _ => false

namespace Loop

variable {k : Ctl} {r : Registry} {env : Env} {p : Plan}

theorem step_accepted (hp : step k r env = some p) (hstage : k.phase.stage ≠ 0) :
    ∀ op ∈ p.1, op.announces = false := by
  intro op hop
  cases op with
  | queue q h e =>
    obtain ⟨-, -, pos, hphase⟩ | ⟨rfl, -⟩ := step_ops hp _ hop
    · exact absurd (by rw [hphase]; rfl) hstage
    · rfl
  | _ => rfl

end Loop

theorem Op.announces_of_ofUser {op : Op} (h : op.ofUser) : op.announces = false := by
  cases op with
  | queue q hq e =>
    simp only [ofUser, decide_eq_true_eq] at h
    simp [announces, h]
  | _ => rfl

theorem Op.pushed_accepted {op : Op} (h : op.announces = false) (r : Registry) :
    (op.abs r).pushed .accepted = [] := by
  cases op with
  | queue q hq e =>
    have hne : QueueId.accepted ≠ q := by
      rintro rfl
      cases h
    exact if_neg hne
  | _ =>
    simp only [abs, Registry.absSock]
    (try split) <;> (try split) <;> rfl

/-- Once the poll stage is over no accepted socket waits to be looked at later, and once
`infraProcessSockAcceptedEvents` is over none waits at all. -/
structure Loop.AcceptedTaken (k : Ctl) (r : Registry) : Prop where
  sound : r.Sound
  waiting : k.phase.stage ≠ 0 → (r.queue .accepted).waiting = []
  events : 2 ≤ k.phase.stage → (r.queue .accepted).events = []

namespace Loop.AcceptedTaken

variable {k : Ctl} {r r' : Registry}

theorem op {op : Op} (h : AcceptedTaken k r)
    (hannounces : k.phase.stage ≠ 0 → op.announces = false) (hrun : op.run r = .ok r') :
    AcceptedTaken k r' := by
  have hstep := op.run_step h.sound hrun
  refine ⟨h.sound.op hrun, fun hstage => ?_, fun hstage => ?_⟩
  · exact hstep.waiting_nil (Op.pushed_accepted (hannounces hstage) r) (h.waiting hstage)
  · have hsub := hstep.events_sublist .accepted
    rw [Op.pushed_accepted (hannounces (by omega)) r,
      show (r.view.queue .accepted).events = [] from h.events hstage] at hsub
    exact List.sublist_nil.mp hsub

theorem ops {ops : List Op} (h : AcceptedTaken k r)
    (hannounces : k.phase.stage ≠ 0 → ∀ op ∈ ops, op.announces = false)
    (hrun : registry.run r ops = some r') : AcceptedTaken k r' := by
  refine registry.run_kept_of_mem (P := fun op => k.phase.stage ≠ 0 → op.announces = false)
    (J := AcceptedTaken k) ?_ h (fun op hop hstage => hannounces hstage op hop) hrun
  intro r₁ op r₂ hJ ha hstep
  exact hJ.op ha (toOption_eq_some hstep)

theorem infra {env : Env} {p : Plan} (h : AcceptedTaken k r) (hp : Loop.step k r env = some p)
    (hrun : registry.run r p.1 = some r') : AcceptedTaken (p.2 r') r' := by
  have hafter := h.ops (Loop.step_accepted hp) hrun
  have hlater : 2 ≤ k.phase.stage → AcceptedTaken (p.2 r') r' := fun hstage =>
    ⟨hafter.sound, fun _ => hafter.waiting (by omega), fun _ => hafter.events hstage⟩
  cases Loop.step_stage hp hrun with
  | same hsame =>
    exact ⟨hafter.sound, by rw [hsame]; exact hafter.waiting, by rw [hsame]; exact hafter.events⟩
  | poll hzero => exact ⟨hafter.sound, fun hne => absurd hzero hne, by omega⟩
  | close hstage hstage' hempty hwaiting =>
    exact ⟨hafter.sound, fun _ => hwaiting, by omega⟩
  | accepted hstage hstage' hrest =>
    exact ⟨hafter.sound, fun _ => hafter.waiting (by omega),
      fun _ => hrest.trans (h.waiting (by omega))⟩
  | serverClose hstage hstage' hempty => exact hlater (by omega)
  | listen hstage hstage' hempty => exact hlater (by omega)
  | returned hstage hphase hhandler hr hcount hrefed => exact hlater (by omega)

theorem step {w w' : Ctl × Registry} {a : Action} (h : AcceptedTaken w.1 w.2)
    (hstep : runStandardLoop.machine.step w a = some w') : AcceptedTaken w'.1 w'.2 := by
  obtain ⟨-, hacts⟩ := Loop.step_acts hstep
  cases hacts with
  | call hhandler hops hplan hrun =>
    exact h.ops (fun _ op hop => Op.announces_of_ofUser (Call.program_ofUser hops op hop)) hrun
  | @timer c hhandler =>
    have hphase := (w.1.timerCall_phase c).1
    exact ⟨h.sound, by rw [hphase]; exact h.waiting, by rw [hphase]; exact h.events⟩
  | ret hhandler => exact ⟨h.sound, h.waiting, h.events⟩
  | infra hhandler hp hplan hrun => exact h.infra hp hrun
  | stuck hrunning => exact ⟨h.sound, h.waiting, h.events⟩

theorem init : AcceptedTaken Loop.init.1 Loop.init.2 := ⟨.init, fun _ => rfl, fun _ => rfl⟩

end Loop.AcceptedTaken

end NodeCpp
