import NodeCpp.Theorems.TimerFiring
import NodeCpp.Theorems.TimerStore

/-!
# What a handle is good for

`clearTimeout` takes the pair of the timer out of `nextTimeouts`, but not its handler
out of those that `infraTimeoutEvents` has already collected; and the handle it makes
for the call takes the entry of the timer with it.
-/

namespace NodeCpp

namespace TimerWorld

variable {s s' : TimerWorld} {a : TimerAct} {id : UInt64} {acts : List TimerAct}

/-! ## Clearing a timer -/

/-- The timer is not among the handlers that `infraTimeoutEvents` is about to call. -/
def ClearsInTime (s : TimerWorld) : TimerAct → Prop
  | .clearTimeout id => id ∉ pending s.firing
  | _ => True

instance (s : TimerWorld) : DecidablePred s.ClearsInTime
  | .clearTimeout id => inferInstanceAs (Decidable (id ∉ pending s.firing))
  | .setTimeout _ _ | .destructTemporary | .refreshTimeout _ _ | .destructTimeout _
  | .infraTimeoutEvents _ | .next | .ret | .throws => isTrue trivial

theorem Active.of_step (hexact : s.manager.Exact) (h : s'.Active id) (hsteps : Steps s a s')
    (hnot : id ∉ a.scheduled s) : s.Active id := by
  rw [active_iff hsteps.exact, hsteps.pairs] at h
  rw [active_iff hexact]
  rw [TimerAct.scheduled_eq] at hnot
  cases hop : a.op s with
  | none => rwa [hop] at h
  | some op =>
    rw [hop] at h hnot
    obtain ⟨t, ht⟩ := h
    rcases hexact.mem_pairs_cases ht with hnew | ⟨hold, -⟩
    · simp [hnew] at hnot
    · exact ⟨t, hold⟩

theorem pending_ret (f : Firing) : pending (ret f) = pending f := by
  cases f <;> rfl

/-- The timer neither is nor will be called: it is not active, and its handler has not been
collected. -/
structure Off (s : TimerWorld) (id : UInt64) : Prop where
  exact : s.manager.Exact
  inactive : ¬s.Active id
  pending : id ∉ TimerWorld.pending s.firing

/-- The step lemma: only scheduling it turns a timer on again. -/
theorem Off.step (h : s.Off id) (hnot : id ∉ a.scheduled s)
    (hstep : timerWorld.step s a = some s') : s'.Off id ∧ id ∉ a.invoked s := by
  obtain ⟨-, hsteps⟩ := step_eq_some h.exact hstep
  have hinactive : ¬s'.Active id := fun hactive => h.inactive (hactive.of_step h.exact hsteps hnot)
  have hfiring := hsteps.firing
  have hsame : a.firing s = s.firing → s'.Off id := by
    intro hsame
    refine ⟨hsteps.exact, hinactive, ?_⟩
    rw [hfiring, hsame]
    exact h.pending
  have hpending := h.pending
  cases a with
  | infraTimeoutEvents now =>
    refine ⟨⟨hsteps.exact, hinactive, ?_⟩, List.not_mem_nil⟩
    rw [hfiring]
    intro hmem
    -- only active timers are due
    obtain ⟨e, he, hdue⟩ := (h.exact.mem_due now).mp hmem
    simp only [TimeoutEntry.due, Bool.and_eq_true] at hdue
    exact h.inactive ⟨e, he, hdue.1⟩
  | next =>
    simp only [TimerAct.invoked]
    cases hf : s.firing with
    | idle => exact ⟨hsame (by simp [next, hf]), List.not_mem_nil⟩
    | callback i handlers =>
      exact ⟨hsame (by simp [next, hf]), List.not_mem_nil⟩
    | calling handlers =>
      rw [hf] at hpending
      cases handlers with
      | nil =>
        refine ⟨⟨hsteps.exact, hinactive, ?_⟩, List.not_mem_nil⟩
        rw [hfiring]
        simp [next, hf, TimerWorld.pending]
      | cons i handlers =>
        -- the handler called is that of another timer
        obtain ⟨hne, hrest⟩ : id ≠ i ∧ id ∉ handlers := by
          simpa [TimerWorld.pending] using hpending
        refine ⟨⟨hsteps.exact, hinactive, ?_⟩, by simpa using hne⟩
        rw [hfiring]
        simpa [next, hf, TimerWorld.pending] using hrest
  | ret =>
    refine ⟨⟨hsteps.exact, hinactive, ?_⟩, List.not_mem_nil⟩
    rw [hfiring]
    show id ∉ TimerWorld.pending (TimerWorld.ret s.firing)
    rw [pending_ret]
    exact hpending
  | throws =>
    refine ⟨⟨hsteps.exact, hinactive, ?_⟩, List.not_mem_nil⟩
    rw [hfiring]
    exact List.not_mem_nil
  | _ => exact ⟨hsame rfl, List.not_mem_nil⟩

/-- The run lemma. -/
theorem Off.run {t : TimerWorld} (h : s.Off id)
    (hnot : timerWorld.obeys (fun s a => id ∉ a.scheduled s) s acts)
    (hrun : timerWorld.run s acts = some t) : id ∉ timerWorld.trace TimerAct.invoked s acts := by
  have hinv := timerWorld.run_trace (o := TimerAct.invoked) (l := [])
    (J := fun s l => s.Off id ∧ id ∉ l) ?_ ⟨h, List.not_mem_nil⟩ hnot hrun
  · simpa using hinv.2
  · rintro s a s' l ⟨hoff, hl⟩ hsched hstep
    obtain ⟨hoff', hinv⟩ := hoff.step hsched hstep
    refine ⟨hoff', fun hmem => ?_⟩
    rcases List.mem_append.mp hmem with hmem | hmem
    · exact hl hmem
    · exact hinv hmem

end TimerWorld

/-- Cancellation is final in every run whose calls of `clearTimeout` are for timers that the call
of `infraTimeoutEvents` in progress has not collected. -/
theorem cancellation_final {acts pre post : List TimerAct} {id : UInt64} {s s₁ t : TimerWorld}
    (hobeys : timerWorld.obeys TimerWorld.ClearsInTime {} acts)
    (hrun : timerWorld.run {} acts = some t) (hacts : acts = pre ++ .clearTimeout id :: post)
    (hpre : timerWorld.run {} pre = some s)
    (hclear : timerWorld.step s (.clearTimeout id) = some s₁)
    (hnot : timerWorld.obeys (fun s a => id ∉ a.scheduled s) s₁ post) :
    id ∉ timerWorld.trace TimerAct.invoked s₁ post := by
  subst hacts
  have hintime := ((timerWorld.obeys_append hpre).mp hobeys).2.1
  have hexact := TimerWorld.exact_run hpre
  obtain ⟨-, hsteps⟩ := TimerWorld.step_eq_some hexact hclear
  have hoff : s₁.Off id := by
    refine ⟨hsteps.exact, ?_, ?_⟩
    · rintro ⟨e, he, hactive⟩
      rw [hsteps.entry] at he
      obtain ⟨e₀, -, rfl⟩ := Option.map_eq_some_iff.mp ((if_pos rfl).symm.trans he)
      cases hactive
    · rw [hsteps.firing]
      exact hintime
  rw [timerWorld.run_append, hpre] at hrun
  obtain ⟨s₂, hs₂, hpost⟩ := timerWorld.run_cons hrun
  cases hclear.symm.trans hs₂
  exact hoff.run hnot hpost

/-- Up to the callback of the first timer, and from where that one has cleared the second one,
which is not due yet. -/
def clearsLater : List TimerAct :=
  [.setTimeout 1 0, .setTimeout 9 0, .infraTimeoutEvents 1000, .next]

def clearedLater : List TimerAct :=
  [.destructTemporary, .ret, .next, .infraTimeoutEvents 9000, .next]

theorem cancellation_final_later : ∃ s s₁, timerWorld.run {} clearsLater = some s ∧
    timerWorld.step s (.clearTimeout 2) = some s₁ ∧
    2 ∉ timerWorld.trace TimerAct.invoked s₁ clearedLater := by
  obtain ⟨s, hs, s₁, hs₁, hnot, hobeys, hrun⟩ :
      ∃ s, timerWorld.run {} clearsLater = some s ∧
      ∃ s₁, timerWorld.step s (.clearTimeout 2) = some s₁ ∧
      timerWorld.obeys (fun s a => 2 ∉ a.scheduled s) s₁ clearedLater ∧
      timerWorld.obeys TimerWorld.ClearsInTime {}
        (clearsLater ++ .clearTimeout 2 :: clearedLater) ∧
      (timerWorld.run {} (clearsLater ++ .clearTimeout 2 :: clearedLater)).isSome := by
    decide +kernel
  obtain ⟨t, ht⟩ := Option.isSome_iff_exists.mp hrun
  exact ⟨s, s₁, hs, hs₁, cancellation_final hobeys ht rfl hs hs₁ hnot⟩

/-- Two timers are due; the callback of the first one clears the second one, which is invoked all
the same. -/
theorem cleared_in_batch : ∃ s, timerWorld.run {} [.setTimeout 1 0, .setTimeout 1 0,
      .infraTimeoutEvents 1000, .next] = some s ∧
    timerWorld.trace TimerAct.invoked {} [.setTimeout 1 0, .setTimeout 1 0,
      .infraTimeoutEvents 1000, .next] = [1] ∧
    ∃ s₁, timerWorld.step s (.clearTimeout 2) = some s₁ ∧
    ∃ t, timerWorld.run s₁ [.destructTemporary, .ret, .next] = some t ∧
    timerWorld.obeys (fun s a => 2 ∉ a.scheduled s) s₁ [.destructTemporary, .ret, .next] ∧
    timerWorld.trace TimerAct.invoked s₁ [.destructTemporary, .ret, .next] = [2] := by
  decide +kernel

namespace TimerWorld

variable {s s' : TimerWorld} {a : TimerAct} {id : UInt64} {acts : List TimerAct}

/-! ## Timers with a handle -/

/-- A handle has an entry, and no `clearTimeout` of its timer is under way. -/
structure Keeps (s : TimerWorld) (id : UInt64) : Prop where
  exact : s.manager.Exact
  owned : s.Owned
  entry : id ∈ s.handles → ∃ e, s.manager.timers id = some e
  temporary : s.temporary ≠ some id

theorem entry_release_other {lastId i : UInt64} {x : Option TimeoutEntry} (hne : id ≠ i) :
    ((if i = 0 then none else some (TimeoutOp.appTimeoutDestructor i)).elim x
      fun op => op.entry lastId id x) = x := by
  split
  · rfl
  · exact if_neg hne

/-- The step lemma: nothing but `clearTimeout` parts a handle and its entry. -/
theorem Keeps.step (h : s.Keeps id) (hids : s.HasIds a) (hclear : a ≠ .clearTimeout id)
    (hstep : timerWorld.step s a = some s') : s'.Keeps id := by
  obtain ⟨ha, hsteps⟩ := step_eq_some h.exact hstep
  refine ⟨hsteps.exact, h.owned.step hids ha hsteps, fun hid => ?_, ?_⟩
  · rw [hsteps.entry]
    rw [hsteps.handles] at hid
    cases a with
    | setTimeout ms now =>
      simp only [TimerAct.handles, h.owned.free (hids rfl), Option.isNone_none, if_true] at hid
      -- the identifier is the new one, or an old one whose entry stays
      rcases List.mem_cons.mp hid with rfl | hid
      · rw [h.owned.free (hids rfl)]
        exact ⟨_, if_pos rfl⟩
      · obtain ⟨e, he⟩ := h.entry hid
        rw [he]
        exact ⟨e, rfl⟩
    | clearTimeout i =>
      have hne : id ≠ i := fun heq => hclear (heq ▸ rfl)
      obtain ⟨e, he⟩ := h.entry hid
      exact ⟨e, (if_neg hne).trans he⟩
    | refreshTimeout i now =>
      obtain ⟨e, he⟩ := h.entry hid
      rw [he]
      by_cases hi : id = i
      · exact ⟨_, if_pos hi⟩
      · exact ⟨e, if_neg hi⟩
    | destructTimeout i =>
      by_cases hi : id = i
      · -- this was the only handle with the id
        subst hi
        exact absurd hid h.owned.nodup.not_mem_erase
      · obtain ⟨e, he⟩ := h.entry (List.mem_of_mem_erase hid)
        exact ⟨e, (entry_release_other hi).trans he⟩
    | destructTemporary =>
      obtain ⟨e, he⟩ := h.entry hid
      simp only [TimerAct.op]
      cases hi : s.temporary with
      | none => exact ⟨e, he⟩
      | some i =>
        have hne : id ≠ i := fun heq => h.temporary (heq ▸ hi)
        exact ⟨e, (entry_release_other hne).trans he⟩
    | infraTimeoutEvents now =>
      obtain ⟨e, he⟩ := h.entry hid
      -- a timer that fires keeps its entry while a handle holds it
      have hheld := h.owned.held id e he hid
      show ∃ e', ((s.manager.timers id).bind _) = some e'
      rw [he, Option.bind_some]
      split
      · exact ⟨e.deactivate, by simp [TimeoutEntry.fire, hheld]⟩
      · exact ⟨e, rfl⟩
    | next | ret | throws => exact h.entry hid
  · rw [hsteps.temporary]
    cases a with
    | clearTimeout i =>
      intro heq
      cases heq
      exact hclear rfl
    | _ => rintro ⟨⟩

/-- The run lemma. -/
theorem Keeps.run (hcount : acts.countP TimerAct.sets < 2 ^ 64) (hclear : .clearTimeout id ∉ acts)
    (hrun : timerWorld.run {} acts = some s) : s.Keeps id := by
  have hguard := timerWorld.obeys_and_mem (P := fun a => a ≠ .clearTimeout id)
    (obeys_hasIds (s := {}) .init (by simpa using hcount)) fun a ha heq => hclear (heq ▸ ha)
  have hinit : Keeps {} id := ⟨.init, .init, nofun, nofun⟩
  exact timerWorld.run_invariant (J := fun s => s.Keeps id)
    (fun _ _ _ hJ hG hstep => hJ.step hG.1 hG.2 hstep) hinit hguard hrun

end TimerWorld

/-- A timer that is not cleared stays in the store as long as there is a handle, and can be
refreshed: it is active then and due a delay from now. -/
theorem handle_keeps_timer {acts : List TimerAct} {id : UInt64} {s : TimerWorld}
    (hcount : acts.countP TimerAct.sets < 2 ^ 64) (hclear : .clearTimeout id ∉ acts)
    (hrun : timerWorld.run {} acts = some s) (hid : id ∈ s.handles) :
    ∃ e, s.manager.timers id = some e ∧ (s.user → ∀ now, ∃ s' e',
      timerWorld.step s (.refreshTimeout id now) = some s' ∧ s'.manager.timers id = some e' ∧
      e'.active ∧ e'.delay = e.delay ∧ e'.nextTimeout = now + e.delay) := by
  have hkeeps := TimerWorld.Keeps.run hcount hclear hrun
  obtain ⟨e, he⟩ := hkeeps.entry hid
  refine ⟨e, he, fun huser now => ?_⟩
  have ha : s.enabled (.refreshTimeout id now) := by
    simp [TimerWorld.enabled, huser, hid]
  obtain ⟨s', hs', hsteps⟩ := TimerWorld.exec_ok hkeeps.exact ha
  refine ⟨s', e.schedule now, ?_, ?_, rfl, rfl, rfl⟩
  · simp only [timerWorld, ha, if_true, hs']
    rfl
  · rw [hsteps.entry, he]
    exact if_pos rfl

/-- A timer has fired, and its handler refreshes it. -/
theorem handle_keeps_fired : ∃ s e,
    timerWorld.run {} [.setTimeout 1 0, .infraTimeoutEvents 1000, .next] = some s ∧
    s.manager.timers 1 = some e ∧ e.active = false ∧
    ∃ s' e', timerWorld.step s (.refreshTimeout 1 5000) = some s' ∧
      s'.manager.timers 1 = some e' ∧ e'.active ∧ e'.nextTimeout = 6000 := by
  obtain ⟨s, hs, hid, huser, hfired⟩ : ∃ s,
      timerWorld.run {} [.setTimeout 1 0, .infraTimeoutEvents 1000, .next] = some s ∧
      1 ∈ s.handles ∧ s.user ∧
        (s.manager.timers 1).all fun e => decide (e.active = false ∧ e.delay = 1000) := by
    decide +kernel
  obtain ⟨e, he, hrefresh⟩ := handle_keeps_timer (by decide) (by decide) hs hid
  rw [he] at hfired
  obtain ⟨hinactive, hdelay⟩ := of_decide_eq_true hfired
  obtain ⟨s', e', hstep, he', hactive, -, hnext⟩ := hrefresh huser 5000
  rw [hdelay] at hnext
  exact ⟨s, e, hs, he, hinactive, s', e', hstep, he', hactive, hnext⟩

/-- The user has a handle, but `clearTimeout` has taken the entry: refreshing does nothing. -/
theorem cleared_is_gone : ∃ s,
    timerWorld.run {} [.setTimeout 1 0, .clearTimeout 1, .destructTemporary] = some s ∧
    1 ∈ s.handles ∧ s.manager.timers 1 = none ∧
    ∃ s', timerWorld.step s (.refreshTimeout 1 5000) = some s' ∧ s'.manager.timers 1 = none := by
  decide +kernel

end NodeCpp
