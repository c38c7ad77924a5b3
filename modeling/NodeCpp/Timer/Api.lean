import NodeCpp.Timer.Entry

/-!
# The timers as the user sees them

`nodecpp::setTimeout`, `clearTimeout`, `refreshTimeout` and the `Timeout` handles,
together with the loop over the handlers in `infraTimeoutEvents`. A handle stands for
the id it holds; moving a handle moves its id, so the ids that are held tell all.
`clearTimeout` passes an id where a handle is expected: the handle made from it is
destructed when the call is over.

User code runs outside `infraTimeoutEvents` or inside one of the callbacks, and may
call anything of the above there.
-/

namespace NodeCpp

open Lib

/-- Where `infraTimeoutEvents` is in the loop over its handlers. -/
inductive Firing
  | idle
  | calling (handlers : List UInt64)
  | callback (id : UInt64) (handlers : List UInt64)
  deriving DecidableEq, Repr

structure TimerWorld where
  manager : TimeoutManager := {}
  /-- The ids of the handles the user has. -/
  handles : List UInt64 := []
  /-- The handle made by a `clearTimeout` that is not over. -/
  temporary : Option UInt64 := none
  firing : Firing := .idle

inductive TimerAct
  | setTimeout (ms : Int32) (now : UInt64)
  | clearTimeout (id : UInt64)
  | destructTemporary
  | refreshTimeout (id now : UInt64)
  | destructTimeout (id : UInt64)
  | infraTimeoutEvents (now : UInt64)
  /-- The next handler is called, or there is none left. -/
  | next
  | ret
  /-- The callback ends with an exception, and so does `infraTimeoutEvents`. -/
  | throws
  deriving DecidableEq, Repr

/-- `~Timeout`. -/
def TimeoutManager.destructTimeout (m : TimeoutManager) (id : UInt64) : TimeoutManager :=
  if id = 0 then m else m.appTimeoutDestructor id

namespace TimerWorld

def user (s : TimerWorld) : Bool :=
  s.temporary.isNone && match s.firing with
    | .calling _ => false
    | _ => true

def enabled (s : TimerWorld) : TimerAct → Bool
  | .setTimeout _ _ => s.user
  | .clearTimeout id | .refreshTimeout id _ | .destructTimeout id =>
      s.user && decide (id ∈ s.handles)
  | .destructTemporary => s.temporary.isSome
  | .infraTimeoutEvents _ => s.user && decide (s.firing = .idle)
  | .next => s.temporary.isNone && !s.user
  | .ret | .throws => s.user && !decide (s.firing = .idle)

/-- The loop over the handlers goes on. -/
def next : Firing → Firing
  | .calling (id :: handlers) => .callback id handlers
  | .calling [] => .idle
  | f => f

def ret : Firing → Firing
  | .callback _ handlers => .calling handlers
  | f => f

def exec (s : TimerWorld) : TimerAct → Except Failure TimerWorld
  | .setTimeout ms now => do
      let (m, id) ← s.manager.appSetTimeout ms now
      .ok { s with manager := m, handles := id :: s.handles }
  | .clearTimeout id => do
      let m ← s.manager.appClearTimeout id
      .ok { s with manager := m, temporary := some id }
  | .destructTemporary =>
      .ok { s with manager := s.temporary.elim s.manager s.manager.destructTimeout
                   temporary := none }
  | .refreshTimeout id now => do
      let m ← s.manager.appRefresh id now
      .ok { s with manager := m }
  | .destructTimeout id =>
      .ok { s with manager := s.manager.destructTimeout id, handles := s.handles.erase id }
  | .infraTimeoutEvents now => do
      let (m, handlers) ← s.manager.infraTimeoutEvents now
      .ok { s with manager := m, firing := .calling handlers }
  | .next => .ok { s with firing := next s.firing }
  | .ret => .ok { s with firing := ret s.firing }
  | .throws => .ok { s with firing := .idle }

end TimerWorld

/-- The timers under what the user and the loop do. -/
def timerWorld : Lib.Machine TimerWorld TimerAct where
  step s a := if s.enabled a then (s.exec a).toOption else none

/-! ## What a step does -/

namespace TimerAct

/-- The operation of the store the step makes. -/
def op (s : TimerWorld) : TimerAct → Option TimeoutOp
  | .setTimeout ms now => some (.appSetTimeout ms now)
  | .clearTimeout id => some (.appClearTimeout id)
  | .destructTemporary =>
      s.temporary.bind fun id => if id = 0 then none else some (.appTimeoutDestructor id)
  | .refreshTimeout id now => some (.appRefresh id now)
  | .destructTimeout id => if id = 0 then none else some (.appTimeoutDestructor id)
  | .infraTimeoutEvents now => some (.infraTimeoutEvents now)
  | .next | .ret | .throws => none

theorem op_eq_some {s : TimerWorld} {a : TimerAct} {op : TimeoutOp} (h : a.op s = some op) :
    match op with
    | .appSetTimeout ms now => a = .setTimeout ms now
    | .appClearTimeout id => a = .clearTimeout id
    | .appRefresh id now => a = .refreshTimeout id now
    | .appTimeoutDestructor id =>
        a = .destructTimeout id ∨ (a = .destructTemporary ∧ s.temporary = some id)
    | .infraTimeoutEvents now => a = .infraTimeoutEvents now := by
  cases a with
  | destructTimeout id =>
    cases (Option.ite_none_left_eq_some.mp h).2
    exact .inl rfl
  | destructTemporary =>
    obtain ⟨id, hid, hop⟩ := Option.bind_eq_some_iff.mp h
    cases (Option.ite_none_left_eq_some.mp hop).2
    exact .inr ⟨rfl, hid⟩
  | setTimeout ms now | clearTimeout id | refreshTimeout id now | infraTimeoutEvents now =>
    cases h
    rfl
  | next | ret | throws => cases h

def handles (s : TimerWorld) : TimerAct → List UInt64
  | .setTimeout _ _ =>
      (if (s.manager.timers (s.manager.lastId + 1)).isNone then s.manager.lastId + 1 else 0) ::
        s.handles
  | .destructTimeout id => s.handles.erase id
  | _ => s.handles

def temporary : TimerAct → Option UInt64
  | .clearTimeout id => some id
  | _ => none

def firing (s : TimerWorld) : TimerAct → Firing
  | .infraTimeoutEvents now =>
      .calling ((s.manager.nextTimeouts.takeWhile (·.1 ≤ now)).map Prod.snd)
  | .next => TimerWorld.next s.firing
  | .ret => TimerWorld.ret s.firing
  | .throws => .idle
  | _ => s.firing

@[simp] theorem firing_setTimeout (s : TimerWorld) (ms : Int32) (now : UInt64) :
    firing s (.setTimeout ms now) = s.firing := rfl

@[simp] theorem firing_infraTimeoutEvents (s : TimerWorld) (now : UInt64) :
    firing s (.infraTimeoutEvents now) =
      .calling ((s.manager.nextTimeouts.takeWhile (·.1 ≤ now)).map Prod.snd) := rfl

@[simp] theorem firing_next (s : TimerWorld) : firing s .next = TimerWorld.next s.firing := rfl

@[simp] theorem firing_ret (s : TimerWorld) : firing s .ret = TimerWorld.ret s.firing := rfl

end TimerAct

namespace TimerWorld

variable {s s' : TimerWorld} {a : TimerAct}

/-- The effect of a step, with the operation of the store in terms of single timers. -/
structure Steps (s : TimerWorld) (a : TimerAct) (s' : TimerWorld) : Prop where
  exact : s'.manager.Exact
  lastId : s'.manager.lastId = (a.op s).elim s.manager.lastId (·.lastId s.manager.lastId)
  entry : ∀ id, s'.manager.timers id = (a.op s).elim (s.manager.timers id)
    fun op => op.entry s.manager.lastId id (s.manager.timers id)
  pairs : s'.manager.nextTimeouts = (a.op s).elim s.manager.nextTimeouts (·.pairs s.manager)
  handles : s'.handles = a.handles s
  temporary : s'.temporary = a.temporary
  firing : s'.firing = a.firing s

theorem Steps.of_op {op : TimeoutOp} {m : TimeoutManager} (h : s.manager.Exact)
    (hop : a.op s = some op) (hrun : op.run s.manager = .ok m) :
    Steps s a { manager := m, handles := a.handles s, temporary := a.temporary,
                firing := a.firing s } := by
  obtain ⟨hexact, hlast, hentry, hpairs⟩ := h.step hrun
  refine ⟨hexact, ?_, ?_, ?_, rfl, rfl, rfl⟩
  · rw [hop]
    exact hlast
  · intro id
    rw [hop]
    exact hentry id
  · rw [hop]
    exact hpairs

theorem Steps.of_none (h : s.manager.Exact) (hop : a.op s = none) :
    Steps s a { manager := s.manager, handles := a.handles s, temporary := a.temporary,
                firing := a.firing s } := by
  refine ⟨h, ?_, ?_, ?_, rfl, rfl, rfl⟩
  · rw [hop]
    rfl
  · intro id
    rw [hop]
    rfl
  · rw [hop]
    rfl

theorem Steps.destructTimeout (id : UInt64) (h : s.manager.Exact)
    (hop : a.op s = if id = 0 then none else some (.appTimeoutDestructor id)) :
    Steps s a { manager := s.manager.destructTimeout id, handles := a.handles s,
                temporary := a.temporary, firing := a.firing s } := by
  unfold TimeoutManager.destructTimeout
  split
  · rename_i hid
    rw [if_pos hid] at hop
    exact .of_none h hop
  · rename_i hid
    rw [if_neg hid] at hop
    exact .of_op h hop rfl

theorem temporary_of_user (h : s.user) : s.temporary = none := by
  simp only [user, Bool.and_eq_true, Option.isNone_iff_eq_none] at h
  exact h.1

theorem exec_ok (h : s.manager.Exact) (ha : s.enabled a) :
    ∃ s', s.exec a = .ok s' ∧ Steps s a s' := by
  cases a with
  | setTimeout ms now =>
    -- the handle returned has the new identifier
    obtain ⟨r, hr, -, hid, -⟩ := TimeoutManager.appSetTimeout_eq (m := s.manager) ms now
    have hrun : (TimeoutOp.appSetTimeout ms now).run s.manager = .ok r.1 := by
      simp only [TimeoutOp.run, hr]
      rfl
    refine ⟨_, ?_, .of_op h rfl hrun⟩
    simp only [exec, hr, TimerAct.handles, TimerAct.temporary, TimerAct.firing_setTimeout, ← hid,
      ← temporary_of_user ha]
    rfl
  | clearTimeout id =>
    obtain ⟨m, hm, -⟩ := h.run (.appClearTimeout id)
    refine ⟨_, ?_, .of_op h rfl hm⟩
    have hclear : s.manager.appClearTimeout id = .ok m := hm
    simp only [exec, hclear]
    rfl
  | destructTemporary =>
    obtain ⟨id, hid⟩ := Option.isSome_iff_exists.mp ha
    refine ⟨_, ?_, .destructTimeout id h ?_⟩
    · simp only [exec, hid]
      rfl
    · simp only [TimerAct.op, hid, Option.bind_some]
  | refreshTimeout id now =>
    simp only [enabled, Bool.and_eq_true] at ha
    obtain ⟨m, hm, -⟩ := h.run (.appRefresh id now)
    refine ⟨_, ?_, .of_op h rfl hm⟩
    have hrefresh : s.manager.appRefresh id now = .ok m := hm
    simp only [exec, hrefresh, TimerAct.temporary, ← temporary_of_user ha.1]
    rfl
  | destructTimeout id =>
    simp only [enabled, Bool.and_eq_true] at ha
    refine ⟨_, ?_, .destructTimeout id h rfl⟩
    simp only [exec, TimerAct.temporary, ← temporary_of_user ha.1]
    rfl
  | infraTimeoutEvents now =>
    simp only [enabled, Bool.and_eq_true] at ha
    obtain ⟨m, hm, -⟩ := h.infraTimeoutEvents_eq now
    have hrun : (TimeoutOp.infraTimeoutEvents now).run s.manager = .ok m := by
      simp only [TimeoutOp.run, hm]
      rfl
    refine ⟨_, ?_, .of_op h rfl hrun⟩
    simp only [exec, hm, TimerAct.temporary, ← temporary_of_user ha.1]
    rfl
  | next =>
    simp only [enabled, Bool.and_eq_true, Option.isNone_iff_eq_none] at ha
    refine ⟨_, ?_, .of_none h rfl⟩
    simp only [exec, TimerAct.temporary, ← ha.1]
    rfl
  | ret | throws =>
    simp only [enabled, Bool.and_eq_true] at ha
    refine ⟨_, ?_, .of_none h rfl⟩
    simp only [exec, TimerAct.temporary, ← temporary_of_user ha.1]
    rfl

theorem step_eq_some (h : s.manager.Exact) (hstep : timerWorld.step s a = some s') :
    s.enabled a ∧ Steps s a s' := by
  simp only [timerWorld] at hstep
  split at hstep
  · rename_i ha
    obtain ⟨s₁, hs₁, hsteps⟩ := exec_ok h ha
    cases hs₁.symm.trans (toOption_eq_some hstep)
    exact ⟨ha, hsteps⟩
  · cases hstep

/-- The run lemma for the store. -/
theorem exact_run {acts : List TimerAct} (hrun : timerWorld.run {} acts = some s) :
    s.manager.Exact :=
  timerWorld.run_kept (J := fun s => s.manager.Exact)
    (fun _ _ _ hJ hstep => (step_eq_some hJ hstep).2.exact) .init hrun

end TimerWorld

end NodeCpp
