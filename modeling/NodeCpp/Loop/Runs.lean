import NodeCpp.Lib.Tally
import NodeCpp.Loop.Control
import NodeCpp.Loop.Events
import NodeCpp.Loop.Refinement

/-!
# Runs of the loop, seen by the ownership model

An operation of the registry is a step of the ownership model, so what the guarded
steps there keep, every guarded run of `runStandardLoop` keeps. A guard is a
condition on the registry and the operation about to be performed.
-/

namespace NodeCpp

open Lib

theorem Ctl.timerCall_phase (k : Ctl) (c : TimerCall) :
    (k.timerCall c).phase = k.phase ∧ (k.timerCall c).dispatched = k.dispatched := by
  have hon : ∀ x, (k.onTimeout x).phase = k.phase ∧ (k.onTimeout x).dispatched = k.dispatched := by
    intro x
    cases x <;> exact ⟨rfl, rfl⟩
  cases c <;> first | exact hon _ | exact ⟨rfl, rfl⟩

namespace Registry

variable {r r' : Registry}

theorem run_cons_ok {r₁ : Registry} {op : Op} {ops : List Op} (h : op.run r = .ok r₁)
    (hrest : registry.run r₁ ops = some r') : registry.run r (op :: ops) = some r' := by
  have hstep : registry.step r op = some r₁ := congrArg Except.toOption h
  simp only [Machine.run, hstep, Option.bind_some, hrest]

theorem run_singleton_ok {op : Op} (h : op.run r = .ok r') : registry.run r [op] = some r' :=
  run_cons_ok h rfl

end Registry

namespace Loop

def Obeys (G : Registry → Op → Prop) (w : Ctl × Registry) (acts : List Action) : Prop :=
  runStandardLoop.machine.obeys (runStandardLoop.Meets fun _ => G) w acts

instance (G : Registry → Op → Prop) [∀ r op, Decidable (G r op)] (w : Ctl × Registry)
    (acts : List Action) : Decidable (Obeys G w acts) :=
  inferInstanceAs (Decidable (runStandardLoop.machine.obeys _ w acts))

def run (w : Ctl × Registry) (acts : List Action) : Option (Ctl × Registry) :=
  runStandardLoop.machine.run w acts

/-- How often the loop has performed an operation of some kind since the start. -/
def count (p : Registry → Op → Bool) (acts : List Action) : Nat :=
  runStandardLoop.tally (fun r op => (p r op).toNat) Loop.init acts

/-- What an action does: user code acts while a handler runs, the infrastructure otherwise, and a
failed assertion leaves the registry alone. -/
inductive StepCase (w : Ctl × Registry) : Action → Ctl × Registry → Prop
  | call {c : Call} {ops : List Op} {r : Registry} (hhandler : w.1.handler = true)
      (hops : c.program w.2 = some ops) (hplan : plan w.1 w.2 (.call c) = some (ops, fun _ => w.1))
      (hrun : registry.run w.2 ops = some r) : StepCase w (.call c) (w.1, r)
  | timer {c : TimerCall} (hhandler : w.1.handler = true) :
      StepCase w (.timer c) (w.1.timerCall c, w.2)
  | ret (hhandler : w.1.handler = true) : StepCase w .ret ({ w.1 with handler := false }, w.2)
  | infra {env : Env} {p : Plan} {r : Registry} (hhandler : w.1.handler = false)
      (hp : step w.1 w.2 env = some p) (hplan : plan w.1 w.2 (.infra env) = some p)
      (hrun : registry.run w.2 p.1 = some r) : StepCase w (.infra env) (p.2 r, r)
  | stuck {a : Action} (hrunning : w.1.handler = true ∨ w.1.phase ≠ .returned) :
      StepCase w a (w.1.abort, w.2)

theorem run_singleton {r r' : Registry} {op : Op} (h : registry.run r [op] = some r') :
    op.run r = .ok r' := by
  obtain ⟨r₁, hstep, hrest⟩ := registry.run_cons h
  cases hrest
  exact toOption_eq_some hstep

theorem step_phase {k : Ctl} {r : Registry} {env : Env} {p : Plan} (hp : step k r env = some p) :
    k.phase ≠ .returned := by
  intro hphase
  unfold step at hp
  rw [hphase] at hp
  cases hp

/-- A reference dangles in the midst of a pass only. -/
theorem step_of_dangling {k : Ctl} {r : Registry} (h : dangling r k.phase) (env : Env) :
    ∃ p, step k r env = some p := by
  unfold step
  generalize k.phase = ph at h
  cases ph with
  | infraGetCloseEvent | handleErrorEvent | emitClose | handleCloseEvent | closed | onFinalCleanup
  | infraGetCloseEvents | resetServer => exact ⟨_, rfl⟩
  | _ => cases h

/-! ## Where the infrastructure goes -/

end Loop

def Phase.polls : Phase → Bool
  | .pollPhase2 _ | .afterReadHandler .. | .infraProcessRemoteEnded .. | .afterRemoteEnded ..
  | .infraProcessWriteEvent .. | .handleConnectionEvent .. | .handleServerError ..
  | .closeServer .. => true
  | _ => false

/-- The phases in which the vectors of pending events are emptied and the table is reworked. -/
def Phase.drains : Phase → Bool
  | .infraGetCloseEvent | .handleErrorEvent _ | .emitClose _ | .handleCloseEvent _ | .closed _
  | .onFinalCleanup .. | .infraProcessSockAcceptedEvents | .infraGetCloseEvents | .resetServer _
  | .reworkIfNecessary | .infraEmitListeningEvents => true
  | _ => false

/-- The timers and the immediates are left alone, and the loop stays where it is or moves to one of
the phases. -/
structure Ctl.Moves (k : Ctl) (next : Phase → Prop) (k' : Ctl) : Prop where
  timeout : k'.timeout = k.timeout
  inmediateQueue : k'.inmediateQueue = k.inmediateQueue
  phase : k'.phase = k.phase ∨ next k'.phase

namespace Loop

section

variable {k : Ctl} {r r' : Registry} {env : Env} {p : Plan}

abbrev Polls (k k' : Ctl) : Prop :=
  k.Moves (fun ph => ph.polls ∨ ph = .emitInmediates k.inmediateQueue) k'

theorem infraCheckPollFdSet_polls (cur : Nat) (revents : Revents) (pos : PollPos) :
    Polls k ((infraCheckPollFdSet k r cur revents pos env).2 r') := by
  unfold infraCheckPollFdSet infraProcessReadEvent
  repeat' split
  all_goals first | exact ⟨rfl, rfl, .inl rfl⟩ | exact ⟨rfl, rfl, .inr (.inl rfl)⟩

theorem infraCheckServer_polls (cur : Nat) (revents : Revents) (pos : PollPos) :
    Polls k ((infraCheckServer k r cur revents pos env).2 r') := by
  unfold infraCheckServer
  repeat' split
  all_goals first | exact ⟨rfl, rfl, .inl rfl⟩ | exact ⟨rfl, rfl, .inr (.inl rfl)⟩

theorem pollPhase2_polls (pos : PollPos) : Polls k ((pollPhase2 k r pos env).2 r') := by
  unfold pollPhase2
  split
  · exact ⟨rfl, rfl, .inr (.inr rfl)⟩
  · dsimp only
    repeat' split
    -- what is noted in `dispatched` does not matter here
    all_goals first
      | exact ⟨rfl, rfl, .inl rfl⟩
      | exact ⟨rfl, rfl, .inr (.inl rfl)⟩
      | exact { infraCheckPollFdSet_polls (k := { k with dispatched := _ }) _ _ _ with }
      | exact { infraCheckServer_polls (k := { k with dispatched := _ }) _ _ _ with }

theorem step_polls (hp : step k r env = some p) (hk : k.phase.polls) (r' : Registry) :
    Polls k (p.2 r') := by
  unfold step at hp
  generalize hphase : k.phase = ph at hp
  cases ph with
  | pollPhase2 pos =>
    cases hp
    exact pollPhase2_polls pos
  | infraProcessRemoteEnded | infraProcessWriteEvent =>
    cases hp
    simp only [infraProcessRemoteEnded, infraProcessWriteEvent]
    repeat' split
    all_goals first | exact ⟨rfl, rfl, .inl rfl⟩ | exact ⟨rfl, rfl, .inr (.inl rfl)⟩
  | afterReadHandler | afterRemoteEnded | handleConnectionEvent | handleServerError | closeServer =>
    cases hp
    exact ⟨rfl, rfl, .inr (.inl rfl)⟩
  | _ =>
    rw [hphase] at hk
    cases hk

theorem step_drains (hp : step k r env = some p) (hk : k.phase.drains) (r' : Registry) :
    k.Moves (fun ph => ph.drains ∨ ph = .infraTimeoutEvents) (p.2 r') := by
  unfold step at hp
  generalize hphase : k.phase = ph at hp
  cases ph with
  | infraEmitListeningEvents | infraGetCloseEvent | emitClose | closed | onFinalCleanup
  | infraProcessSockAcceptedEvents | infraGetCloseEvents =>
    cases hp
    simp only [infraEmitListeningEvents, infraGetCloseEvent, emitClose, closed, onFinalCleanup,
      infraProcessSockAcceptedEvents, infraGetCloseEvents]
    repeat' split
    all_goals first
      | exact ⟨rfl, rfl, .inl rfl⟩
      | exact ⟨rfl, rfl, .inr (.inl rfl)⟩
      | exact ⟨rfl, rfl, .inr (.inr rfl)⟩
  | handleErrorEvent | handleCloseEvent | resetServer | reworkIfNecessary =>
    cases hp
    exact ⟨rfl, rfl, .inr (.inl rfl)⟩
  | _ =>
    rw [hphase] at hk
    cases hk

end

theorem step_acts {w w' : Ctl × Registry} {a : Action}
    (h : runStandardLoop.machine.step w a = some w') : w.1.aborted = false ∧ StepCase w a w' := by
  obtain ⟨p, hplan, hcases⟩ := runStandardLoop.step_cases h
  have hp := hplan
  simp only [runStandardLoop, plan] at hp
  split at hp
  · cases hp
  rename_i haborted
  refine ⟨by simpa using haborted, ?_⟩
  cases a with
  | call c =>
    dsimp only at hp
    split at hp
    · rename_i hhandler
      obtain ⟨ops, hops, rfl⟩ := Option.map_eq_some_iff.mp hp
      obtain ⟨r, hrun, rfl⟩ | ⟨-, rfl⟩ := hcases
      · exact .call hhandler hops hplan hrun
      · exact .stuck (.inl hhandler)
    · cases hp
  | timer c =>
    dsimp only at hp
    split at hp
    · rename_i hhandler
      cases hp
      obtain ⟨r, hrun, rfl⟩ | ⟨-, rfl⟩ := hcases
      · cases hrun
        exact .timer hhandler
      · exact .stuck (.inl hhandler)
    · cases hp
  | ret =>
    dsimp only at hp
    split at hp
    · rename_i hhandler
      cases hp
      obtain ⟨r, hrun, rfl⟩ | ⟨-, rfl⟩ := hcases
      · cases hrun
        exact .ret hhandler
      · exact .stuck (.inl hhandler)
    · cases hp
  | infra env =>
    dsimp only at hp
    split at hp
    · cases hp
    rename_i hhandler
    split at hp
    · rename_i hdangling
      -- a reference into a vector that has been moved
      obtain ⟨p', hp'⟩ := step_of_dangling hdangling env
      cases hp
      obtain ⟨r, hrun, rfl⟩ | ⟨-, rfl⟩ := hcases
      · cases hrun
        exact .stuck (.inr (step_phase hp'))
      · exact .stuck (.inr (step_phase hp'))
    · obtain ⟨r, hrun, rfl⟩ | ⟨-, rfl⟩ := hcases
      · exact .infra (by simpa using hhandler) hp hplan hrun
      · exact .stuck (.inr (step_phase hp))

/-- A step of the infrastructure runs its plan, or a failed assertion or a dangling reference leaves
the registry alone. -/
theorem infra_cases {w w' : Ctl × Registry} {env : Env}
    (h : runStandardLoop.machine.step w (.infra env) = some w') :
    w.1.aborted = false ∧ w.1.handler = false ∧ ∃ p, step w.1 w.2 env = some p ∧
      ((∃ r, registry.run w.2 p.1 = some r ∧ w' = (p.2 r, r)) ∨
        ((dangling w.2 w.1.phase ∨ registry.run w.2 p.1 = none) ∧ w' = (w.1.abort, w.2))) := by
  obtain ⟨p, hp, hcases⟩ := runStandardLoop.step_cases h
  simp only [runStandardLoop, plan] at hp
  split at hp
  · cases hp
  split at hp
  · cases hp
  rename_i haborted hhandler
  refine ⟨by simpa using haborted, by simpa using hhandler, ?_⟩
  split at hp
  · rename_i hdangling
    obtain ⟨p', hp'⟩ := step_of_dangling hdangling env
    cases hp
    refine ⟨p', hp', .inr ⟨.inl hdangling, ?_⟩⟩
    obtain ⟨r, hrun, rfl⟩ | ⟨-, rfl⟩ := hcases
    · cases hrun
      rfl
    · rfl
  · obtain hran | ⟨hnone, hw'⟩ := hcases
    · exact ⟨p, hp, .inl hran⟩
    · exact ⟨p, hp, .inr ⟨.inr hnone, hw'⟩⟩

theorem valid_of_running {w w' : Ctl × Registry} {env : Env}
    (h : runStandardLoop.machine.step w (.infra env) = some w') (hrunning : w'.1.aborted = false) :
    dangling w.2 w.1.phase = false := by
  by_contra hdangling
  obtain ⟨haborted, hhandler, -⟩ := infra_cases h
  simp only [Controller.machine, runStandardLoop, plan, haborted, hhandler, Bool.false_eq_true,
    if_false, Bool.not_eq_false] at h hdangling
  rw [if_pos hdangling] at h
  cases h
  cases hrunning

theorem plan_infra {k : Ctl} {r : Registry} (haborted : k.aborted = false)
    (hhandler : k.handler = false) (hvalid : dangling r k.phase = false) (env : Env) :
    runStandardLoop.plan k r (.infra env) = step k r env := by
  simp [runStandardLoop, plan, haborted, hhandler, hvalid]

theorem infra_ok {w : Ctl × Registry} {env : Env} {p : Plan} {r' : Registry}
    (hhandler : w.1.handler = false) (haborted : w.1.aborted = false)
    (hvalid : dangling w.2 w.1.phase = false) (hp : step w.1 w.2 env = some p)
    (hrun : registry.run w.2 p.1 = some r') :
    runStandardLoop.machine.step w (.infra env) = some (p.2 r', r') := by
  have hplan := (plan_infra haborted hhandler hvalid env).trans hp
  have hbase : runStandardLoop.base.run w.2 p.1 = some r' := hrun
  simp only [Controller.machine, hplan, Option.map_some, hbase]

theorem run_aborted {w w' : Ctl × Registry} {acts : List Action} (h : w.1.aborted = true)
    (hrun : run w acts = some w') : w' = w := by
  cases acts with
  | nil =>
    cases hrun
    rfl
  | cons a acts =>
    obtain ⟨w₁, hstep, -⟩ := runStandardLoop.machine.run_cons hrun
    rw [(step_acts hstep).1] at h
    cases h

variable {G : Registry → Op → Prop} {J : View → Prop} {w w' : Ctl × Registry} {acts : List Action}

/-- The step rule in terms of the registry, from the one in terms of the view. -/
theorem sound_step (hstep : ∀ r op v', r.Sound → J r.view → G r op →
      r.view.Step (op.abs r) v' → J v') (_ : Ctl) (r : Registry) (op : Op) (r' : Registry)
    (hJ : r.Sound ∧ J r.view) (hG : G r op) (h : registry.step r op = some r') :
    r'.Sound ∧ J r'.view :=
  ⟨hJ.1.step h, hstep r op r'.view hJ.1 hJ.2 hG (op.run_step hJ.1 (toOption_eq_some h))⟩

/-- The run rule for invariants of the ownership model. -/
theorem view_invariant (hstep : ∀ r op v', r.Sound → J r.view → G r op →
      r.view.Step (op.abs r) v' → J v') (hsound : w.2.Sound) (hJ : J w.2.view)
    (hobeys : Obeys G w acts) (hrun : run w acts = some w') : w'.2.Sound ∧ J w'.2.view :=
  runStandardLoop.base_invariant (J := fun r => r.Sound ∧ J r.view) (sound_step hstep)
    ⟨hsound, hJ⟩ hobeys hrun

/-- The run rule for relations between the views before and after. -/
theorem view_relation {R : View → View → Prop} (hrefl : ∀ v, R v v)
    (htrans : ∀ v₁ v₂ v₃, R v₁ v₂ → R v₂ v₃ → R v₁ v₃)
    (hstep : ∀ r op v', r.Sound → G r op → r.view.Step (op.abs r) v' → R r.view v')
    (hsound : w.2.Sound) (hobeys : Obeys G w acts) (hrun : run w acts = some w') :
    R w.2.view w'.2.view :=
  runStandardLoop.base_relation (J := Registry.Sound) (R := fun r r' => R r.view r'.view)
    (fun _ => hrefl _) (fun _ _ _ => htrans _ _ _) (fun _ _ _ _ hJ _ h => hJ.step h)
    (fun _ r op r' hJ hG h => hstep r op r'.view hJ hG (op.run_step hJ (toOption_eq_some h)))
    hsound hobeys hrun

/-- What all plans have in common joins the guard. -/
theorem obeys_plan {P : Op → Prop} (hP : ∀ k r a p, plan k r a = some p → ∀ op ∈ p.1, P op)
    (h : Obeys G w acts) : Obeys (fun r op => G r op ∧ P op) w acts :=
  runStandardLoop.machine.obeys_mono
    (fun w a hmeets p hp => registry.obeys_and_mem (hmeets p hp) (hP w.1 w.2 a p hp)) h

theorem sound_run (hsound : w.2.Sound) (hrun : run w acts = some w') : w'.2.Sound :=
  runStandardLoop.base_kept (J := Registry.Sound) (fun _ _ _ hJ h => hJ.step h) hsound hrun

theorem sound (hrun : run init acts = some w) : w.2.Sound := sound_run .init hrun

end Loop

end NodeCpp
