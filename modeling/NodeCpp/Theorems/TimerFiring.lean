import NodeCpp.Lib.Trace
import NodeCpp.Timer.Api

/-!
# Which timers fire, and in which order

`infraTimeoutEvents` takes the pairs that are due out of `nextTimeouts` before it
calls the first handler, so what the callbacks do to the timers cannot add to the
handlers of the call. The pairs are in order of their due times, and pairs with the
same due time in the order in which their timers were scheduled.
-/

namespace NodeCpp

namespace TimerAct

def scheduled (s : TimerWorld) : TimerAct → List UInt64
  | .setTimeout _ _ =>
      if (s.manager.timers (s.manager.lastId + 1)).isNone then [s.manager.lastId + 1] else []
  | .refreshTimeout id _ => if (s.manager.timers id).isSome then [id] else []
  | _ => []

def invoked (s : TimerWorld) : TimerAct → List UInt64
  | .next =>
      match s.firing with
      | .calling (id :: _) => [id]
      | _ => []
  | _ => []

theorem scheduled_eq (s : TimerWorld) (a : TimerAct) :
    a.scheduled s = ((a.op s).bind (·.scheduled s.manager)).toList := by
  have hdestruct : ∀ id : UInt64, ((if id = 0 then none else
      some (TimeoutOp.appTimeoutDestructor id)).bind (·.scheduled s.manager)) = none := by
    intro id
    split <;> rfl
  cases a with
  | setTimeout ms now | refreshTimeout id now =>
    simp only [scheduled, op, Option.bind_some, TimeoutOp.scheduled]
    split <;> rfl
  | destructTimeout id => rw [op, hdestruct]; rfl
  | destructTemporary =>
    rw [op]
    cases s.temporary with
    | none => rfl
    | some id => rw [Option.bind_some, hdestruct]; rfl
  | _ => rfl

end TimerAct

/-- In the log, `i` was scheduled for the last time before `j` was. -/
def LastBefore (log : List UInt64) (i j : UInt64) : Prop :=
  ∃ l₁ l₂, log = l₁ ++ j :: l₂ ∧ i ∈ l₁ ∧ i ∉ l₂

theorem LastBefore.append {log l : List UInt64} {i j : UInt64} (h : LastBefore log i j)
    (hi : i ∉ l) : LastBefore (log ++ l) i j := by
  obtain ⟨l₁, l₂, rfl, hi₁, hi₂⟩ := h
  refine ⟨l₁, l₂ ++ l, by simp, hi₁, ?_⟩
  rw [List.mem_append]
  exact not_or.mpr ⟨hi₂, hi⟩

namespace TimerWorld

variable {s s' : TimerWorld} {a : TimerAct} {id : UInt64} {log : List UInt64}

/-! ## Pairs with the same due time -/

/-- The order of the pairs: by due time, then by when the timer was scheduled. -/
def Before (log : List UInt64) (p q : UInt64 × UInt64) : Prop :=
  p.1 < q.1 ∨ (p.1 = q.1 ∧ LastBefore log p.2 q.2)

structure InOrder (s : TimerWorld) (log : List UInt64) : Prop where
  exact : s.manager.Exact
  logged : ∀ p ∈ s.manager.nextTimeouts, p.2 ∈ log
  before : s.manager.nextTimeouts.Pairwise (Before log)

theorem InOrder.sublist (h : s.InOrder log) (hexact : s'.manager.Exact)
    (hsub : s'.manager.nextTimeouts.Sublist s.manager.nextTimeouts) : s'.InOrder log where
  exact := hexact
  logged p hp := h.logged p (hsub.subset hp)
  before := h.before.sublist hsub

/-- A timer is scheduled: its pair goes behind those that are due no later. -/
theorem InOrder.insert {t : UInt64} {l : List (UInt64 × UInt64)} (h : s.InOrder log)
    (hexact : s'.manager.Exact) (hsub : l.Sublist s.manager.nextTimeouts)
    (hnot : ∀ p ∈ l, p.2 ≠ id)
    (hpairs : s'.manager.nextTimeouts = TimeoutManager.insertTimeout (t, id) l) :
    s'.InOrder (log ++ [id]) where
  exact := hexact
  logged p hp := by
    rw [hpairs] at hp
    rcases TimeoutManager.mem_insertTimeout.mp hp with rfl | hp
    · simp
    · exact List.mem_append_left _ (h.logged p (hsub.subset hp))
  before := by
    rw [hpairs]
    have hkept : l.Pairwise (Before (log ++ [id])) := by
      refine (h.before.sublist hsub).imp_of_mem ?_
      intro p q hp _ hpq
      refine hpq.imp_right fun ⟨heq, hlast⟩ => ⟨heq, hlast.append ?_⟩
      simpa using hnot p hp
    refine TimeoutManager.insertTimeout_pairwise hkept (h.exact.sorted.sublist hsub) ?_ ?_
    · intro q hq hle
      by_cases heq : q.1 = t
      · exact .inr ⟨heq, log, [], rfl, h.logged q (hsub.subset hq), by simp⟩
      · exact .inl (UInt64.lt_of_le_of_ne hle heq)
    · intro q _ hlt
      exact .inl hlt

/-- The step lemma for the order. -/
theorem InOrder.step (h : s.InOrder log) (hstep : timerWorld.step s a = some s') :
    s'.InOrder (log ++ a.scheduled s) := by
  obtain ⟨-, hsteps⟩ := step_eq_some h.exact hstep
  have hpairs := hsteps.pairs
  rw [TimerAct.scheduled_eq]
  cases hop : a.op s with
  | none =>
    rw [hop] at hpairs
    simpa using h.sublist hsteps.exact (hpairs ▸ .refl _)
  | some op =>
    rw [hop] at hpairs
    rcases h.exact.pairs_cases op with ⟨hnone, hsub⟩ | ⟨t, i, l, hsome, hsub, hnot, heq⟩
    · simpa [hnone] using h.sublist hsteps.exact (hpairs ▸ hsub)
    · simpa [hsome] using h.insert hsteps.exact hsub hnot (hpairs.trans heq)

/-- The run lemma for the order. -/
theorem inOrder_run {acts : List TimerAct} (hrun : timerWorld.run {} acts = some s) :
    s.InOrder (timerWorld.trace TimerAct.scheduled {} acts) := by
  have hinit : InOrder {} [] := ⟨.init, by simp, .nil⟩
  exact timerWorld.run_trace (G := fun _ _ => True) (J := InOrder)
    (fun _ _ _ _ hJ _ hstep => hJ.step hstep) hinit
    (timerWorld.obeys_of_forall (fun _ _ => trivial) _ _) hrun

/-! ## During the call -/

def pending : Firing → List UInt64
  | .idle => []
  | .calling handlers | .callback _ handlers => handlers

/-- Within a call of `infraTimeoutEvents`, with no callback that throws. -/
def Within (s : TimerWorld) (a : TimerAct) : Prop := s.firing ≠ .idle ∧ a ≠ .throws

instance (s : TimerWorld) (a : TimerAct) : Decidable (s.Within a) :=
  inferInstanceAs (Decidable (_ ∧ _))

theorem Steps.pending (hsteps : Steps s a s') (ha : s.enabled a) (hwithin : s.Within a) :
    a.invoked s ++ TimerWorld.pending s'.firing = TimerWorld.pending s.firing := by
  have hfiring := hsteps.firing
  cases a with
  | infraTimeoutEvents now =>
    simp only [enabled, Bool.and_eq_true, decide_eq_true_eq] at ha
    exact absurd ha.2 hwithin.1
  | throws => exact absurd rfl hwithin.2
  | next =>
    rw [hfiring]
    simp only [TimerAct.invoked, TimerAct.firing_next]
    cases s.firing with
    | idle => rfl
    | callback i handlers => rfl
    | calling handlers =>
      cases handlers with
      | nil => rfl
      | cons i handlers => rfl
  | ret =>
    rw [hfiring]
    simp only [TimerAct.firing_ret]
    cases s.firing <;> rfl
  | _ =>
    rw [hfiring]
    rfl

/-- The run lemma: the handlers of the call are called one after the other. -/
theorem invoked_run {t : TimerWorld} {acts : List TimerAct} (h : s.manager.Exact)
    (hwithin : timerWorld.obeys Within s acts) (hrun : timerWorld.run s acts = some t) :
    timerWorld.trace TimerAct.invoked s acts ++ pending t.firing = pending s.firing := by
  have hinv := timerWorld.run_trace (G := Within) (o := TimerAct.invoked)
    (J := fun t l => t.manager.Exact ∧ l ++ pending t.firing = pending s.firing) ?_
    ⟨h, List.nil_append _⟩ hwithin hrun
  · exact hinv.2
  · rintro t a t' l ⟨hexact, hpending⟩ hw hstep
    obtain ⟨ha, hsteps⟩ := step_eq_some hexact hstep
    refine ⟨hsteps.exact, ?_⟩
    rw [List.append_assoc, hsteps.pending ha hw]
    exact hpending

def Active (s : TimerWorld) (id : UInt64) : Prop :=
  ∃ e, s.manager.timers id = some e ∧ e.active

theorem active_iff (h : s.manager.Exact) : s.Active id ↔ ∃ t, (t, id) ∈ s.manager.nextTimeouts := by
  constructor
  · rintro ⟨e, he, hactive⟩
    exact ⟨_, h.scheduled id e he hactive⟩
  · rintro ⟨t, ht⟩
    obtain ⟨e, he, hactive, -⟩ := h.paired.active _ ht
    exact ⟨e, he, hactive⟩

theorem entry_active {op : TimeoutOp} {lastId : UInt64} {e : TimeoutEntry} (hactive : e.active)
    (hclear : op ≠ .appClearTimeout id) (hfire : ∀ now, op ≠ .infraTimeoutEvents now) :
    ∃ e', op.entry lastId id (some e) = some e' ∧ e'.active := by
  cases op with
  | appSetTimeout ms now => exact ⟨e, rfl, hactive⟩
  | appClearTimeout i =>
    have hne : id ≠ i := fun heq => hclear (heq ▸ rfl)
    exact ⟨e, if_neg hne, hactive⟩
  | appRefresh i now =>
    by_cases hi : id = i
    · exact ⟨e.schedule now, if_pos hi, rfl⟩
    · exact ⟨e, if_neg hi, hactive⟩
  | appTimeoutDestructor i =>
    by_cases hi : id = i
    · refine ⟨{ e with handleDestroyed := true }, (if_pos hi).trans ?_, hactive⟩
      simp only [Option.bind_some, TimeoutEntry.release, hactive, if_true]
    · exact ⟨e, if_neg hi, hactive⟩
  | infraTimeoutEvents now => exact absurd rfl (hfire now)

/-- An active timer stays active until it is cleared or fires. -/
theorem Active.step (h : s.Active id) (hsteps : Steps s a s') (hclear : a ≠ .clearTimeout id)
    (hfire : ∀ now, a ≠ .infraTimeoutEvents now) : s'.Active id := by
  unfold Active
  rw [hsteps.entry]
  obtain ⟨e, he, hactive⟩ := h
  cases hop : a.op s with
  | none => exact ⟨e, he, hactive⟩
  | some op =>
    have hmade := TimerAct.op_eq_some hop
    rw [he]
    refine entry_active hactive ?_ fun now => ?_
    · rintro rfl
      exact hclear hmade
    · rintro rfl
      exact hfire now hmade

theorem Steps.active (h : s.manager.Exact) (hsteps : Steps s a s') (hid : id ∈ a.scheduled s) :
    s'.Active id := by
  rw [TimerAct.scheduled_eq, Option.mem_toList, Option.bind_eq_some_iff] at hid
  obtain ⟨op, hop, hsched⟩ := hid
  rw [active_iff hsteps.exact, hsteps.pairs, hop]
  rcases h.pairs_cases op with ⟨hnone, -⟩ | ⟨t, i, l, hsome, -, -, hpairs⟩
  · cases hnone.symm.trans hsched
  · cases hsome.symm.trans hsched
    rw [Option.elim_some, hpairs]
    exact ⟨t, TimeoutManager.mem_insertTimeout.mpr (.inl rfl)⟩

theorem active_run {t : TimerWorld} {post : List TimerAct} (h : s.manager.Exact)
    (hactive : s.Active id) (hwithin : timerWorld.obeys Within s post)
    (hclear : .clearTimeout id ∉ post) (hrun : timerWorld.run s post = some t) : t.Active id := by
  have hguard := timerWorld.obeys_and_mem (P := fun a => a ≠ .clearTimeout id) hwithin
    fun a ha heq => hclear (heq ▸ ha)
  refine (timerWorld.run_invariant (J := fun s => s.manager.Exact ∧ s.Active id) ?_ ⟨h, hactive⟩
    hguard hrun).2
  rintro s a s' ⟨hexact, hact⟩ ⟨hw, hne⟩ hstep
  obtain ⟨ha, hsteps⟩ := step_eq_some hexact hstep
  refine ⟨hsteps.exact, hact.step hsteps hne ?_⟩
  rintro now rfl
  simp only [enabled, Bool.and_eq_true, decide_eq_true_eq] at ha
  exact hw.1 ha.2

/-- The handlers of a call are in the order of the due times of their timers, and of when these
were scheduled. -/
theorem InOrder.due (h : s.InOrder log) (now : UInt64) :
    ((s.manager.nextTimeouts.takeWhile (·.1 ≤ now)).map Prod.snd).Pairwise fun i j =>
      ∀ e f, s.manager.timers i = some e → s.manager.timers j = some f →
        e.nextTimeout < f.nextTimeout ∨ (e.nextTimeout = f.nextTimeout ∧ LastBefore log i j) := by
  have hsub := List.takeWhile_sublist (fun p : UInt64 × UInt64 => p.1 ≤ now)
    (l := s.manager.nextTimeouts)
  rw [List.pairwise_map]
  refine (h.before.sublist hsub).imp_of_mem ?_
  intro p q hp hq hpq e f he hf
  obtain ⟨e', he', -, hp'⟩ := h.exact.paired.active p (hsub.subset hp)
  obtain ⟨f', hf', -, hq'⟩ := h.exact.paired.active q (hsub.subset hq)
  cases he.symm.trans he'
  cases hf.symm.trans hf'
  rw [hp', hq']
  exact hpq

end TimerWorld

/-- The firing law. Whatever has happened before and whatever the callbacks do, a call of
`infraTimeoutEvents` invokes the timers that were active and due when it began, each once and in
order; what a callback schedules and nobody clears is active when the call returns. -/
theorem firing_law {before acts : List TimerAct} {s s₁ s₂ : TimerWorld} {now : UInt64}
    (hreach : timerWorld.run {} before = some s)
    (hfire : timerWorld.step s (.infraTimeoutEvents now) = some s₁)
    (hwithin : timerWorld.obeys TimerWorld.Within s₁ acts)
    (hcall : timerWorld.run s₁ acts = some s₂) (hreturn : s₂.firing = .idle) :
    (∀ id, id ∈ timerWorld.trace TimerAct.invoked s₁ acts ↔
      ∃ e, s.manager.timers id = some e ∧ e.active ∧ e.nextTimeout ≤ now) ∧
    (timerWorld.trace TimerAct.invoked s₁ acts).Nodup ∧
    (timerWorld.trace TimerAct.invoked s₁ acts).Pairwise (fun i j =>
      ∀ e f, s.manager.timers i = some e → s.manager.timers j = some f →
        e.nextTimeout < f.nextTimeout ∨ (e.nextTimeout = f.nextTimeout ∧
          LastBefore (timerWorld.trace TimerAct.scheduled {} before) i j)) ∧
    ∀ pre a post t id, acts = pre ++ a :: post → timerWorld.run s₁ pre = some t →
      id ∈ a.scheduled t → .clearTimeout id ∉ post → s₂.Active id := by
  have horder := TimerWorld.inOrder_run hreach
  obtain ⟨-, hsteps⟩ := TimerWorld.step_eq_some horder.exact hfire
  have hfired : timerWorld.trace TimerAct.invoked s₁ acts =
      (s.manager.nextTimeouts.takeWhile (·.1 ≤ now)).map Prod.snd := by
    have hpending := TimerWorld.invoked_run hsteps.exact hwithin hcall
    rw [hreturn, hsteps.firing] at hpending
    simpa [TimerWorld.pending] using hpending
  rw [hfired]
  refine ⟨fun id => ?_, ?_, horder.due now, ?_⟩
  · rw [horder.exact.mem_due now]
    simp only [TimeoutEntry.due, Bool.and_eq_true, decide_eq_true_eq]
  · exact horder.exact.paired.nodup.sublist ((List.takeWhile_sublist _).map Prod.snd)
  · intro pre a post t id hacts hpre hid hclear
    subst hacts
    have hexact : t.manager.Exact :=
      timerWorld.run_kept (J := fun s => s.manager.Exact)
        (fun _ _ _ hJ hstep => (TimerWorld.step_eq_some hJ hstep).2.exact) hsteps.exact hpre
    have hrest := (timerWorld.obeys_append hpre).mp hwithin
    rw [timerWorld.run_append, hpre] at hcall
    obtain ⟨t', hstep, hpost⟩ := timerWorld.run_cons hcall
    obtain ⟨-, hsteps'⟩ := TimerWorld.step_eq_some hexact hstep
    exact TimerWorld.active_run hsteps'.exact (hsteps'.active hexact hid)
      ((timerWorld.obeys_cons hstep).mp hrest.2).2 hclear hpost

/-- Three timers are due, two of them at the same time; the first one is refreshed on the way. -/
def firingBefore : List TimerAct :=
  [.setTimeout 5 0, .setTimeout 4 1000, .setTimeout 2 0, .setTimeout 9 0, .refreshTimeout 1 0]

def firingCall : List TimerAct :=
  [.next, .ret, .next, .setTimeout 1 5000, .ret, .next, .refreshTimeout 1 6000, .ret, .next]

theorem firing_law_example : ∃ s s₁ s₂, timerWorld.run {} firingBefore = some s ∧
    timerWorld.step s (.infraTimeoutEvents 6000) = some s₁ ∧
    timerWorld.run s₁ firingCall = some s₂ ∧
    timerWorld.trace TimerAct.invoked s₁ firingCall = [3, 2, 1] ∧
    (timerWorld.trace TimerAct.invoked s₁ firingCall).Nodup ∧ s₂.Active 1 := by
  obtain ⟨s, hs, s₁, hs₁, s₂, hs₂, hwithin, hidle, htrace, t, ht, hone⟩ :
      ∃ s, timerWorld.run {} firingBefore = some s ∧
      ∃ s₁, timerWorld.step s (.infraTimeoutEvents 6000) = some s₁ ∧
      ∃ s₂, timerWorld.run s₁ firingCall = some s₂ ∧
      timerWorld.obeys TimerWorld.Within s₁ firingCall ∧ s₂.firing = .idle ∧
      timerWorld.trace TimerAct.invoked s₁ firingCall = [3, 2, 1] ∧
      ∃ t, timerWorld.run s₁ (firingCall.take 6) = some t ∧
        1 ∈ TimerAct.scheduled t (.refreshTimeout 1 6000) := by decide +kernel
  obtain ⟨-, hnodup, -, hactive⟩ := firing_law hs hs₁ hwithin hs₂ hidle
  exact ⟨s, s₁, s₂, hs, hs₁, hs₂, htrace, hnodup,
    hactive (firingCall.take 6) _ [.ret, .next] t 1 rfl ht hone (by decide)⟩

/-- A callback refreshes its own timer and clears it again: the timer is not active when the call
returns, although no callback has thrown or cleared another timer. -/
theorem refreshed_and_cleared : ∃ s, timerWorld.run {} [.setTimeout 1 0] = some s ∧
    ∃ s₁, timerWorld.step s (.infraTimeoutEvents 1000) = some s₁ ∧
    ∃ s₂, timerWorld.run s₁ [.next, .refreshTimeout 1 1000, .clearTimeout 1, .destructTemporary,
      .ret, .next] = some s₂ ∧ s₂.firing = .idle ∧
    timerWorld.obeys TimerWorld.Within s₁ [.next, .refreshTimeout 1 1000, .clearTimeout 1,
      .destructTemporary, .ret, .next] ∧
    ∃ t, timerWorld.run s₁ [.next] = some t ∧ t.firing = .callback 1 [] ∧
      1 ∈ TimerAct.scheduled t (.refreshTimeout 1 1000) ∧ s₂.manager.timers 1 = none := by
  decide +kernel

end NodeCpp
