import NodeCpp.Loop.Stages
import NodeCpp.Theorems.AssociatedCount
import NodeCpp.Timer.Entry

/-!
# The exit of the loop

`runStandardLoop` returns from `wait` when no entry is associated and no timer or
immediate is left. The vectors of pending events are not consulted. What is pushed
onto a vector after the iteration has emptied it is still there at the next `wait`,
and the loop stops with it unless some entry is associated.

* `keepsAwake` -- the condition: `associatedCount` stays exact, and while a late
  event waits, some entry is associated.
* `Awake` -- the invariant; `Awake.op` -- every operation keeps it.
* `loop_exit_idle` -- when the loop returns, nothing is pending.
* `loop_exit_pending` -- a server closed in `main()` is forgotten.
-/

namespace NodeCpp

open Lib

variable {k : Ctl} {r r' : Registry}

/-! ## The number of associated entries -/

namespace NetSockets

variable {t t' : NetSockets}

theorem Exact.congr (h : t.Exact)
    (hslots : t'.slots.map (fun s => (s.associated, s.pfd.fd)) =
      t.slots.map fun s => (s.associated, s.pfd.fd))
    (hclus : t'.clustering = t.clustering) (haw : t'.awaker = t.awaker)
    (hcount : t'.associatedCount = t.associatedCount) :
    t'.Exact ∧ t'.associatedEntries = t.associatedEntries := by
  have hentries : t'.associatedEntries = t.associatedEntries := by
    have heq := congrArg (List.countP Prod.fst) hslots
    rw [List.countP_map, List.countP_map] at heq
    exact heq
  have hcap : t'.reservedCapacity = t.reservedCapacity := by simp only [reservedCapacity, hclus]
  have hlen : t'.slots.length = t.slots.length := by simpa using congrArg List.length hslots
  have hmem : ∀ {l l' : List Slot}, l'.map (fun s => (s.associated, s.pfd.fd)) =
      l.map (fun s => (s.associated, s.pfd.fd)) → ∀ s' ∈ l', ∃ s ∈ l,
        s.associated = s'.associated ∧ s.pfd.fd = s'.pfd.fd := by
    intro l l' hl s' hs'
    have hin := List.mem_map_of_mem (f := fun s : Slot => (s.associated, s.pfd.fd)) hs'
    rw [hl] at hin
    obtain ⟨s, hs, heq⟩ := List.mem_map.mp hin
    exact ⟨s, hs, congrArg Prod.fst heq, congrArg Prod.snd heq⟩
  refine ⟨⟨?_, ?_, ?_, ?_, ?_⟩, hentries⟩
  · rw [hcount, h.count, hentries]
    simp only [awakers, hclus, haw]
  · intro s' hs' hassoc
    obtain ⟨s, hs, ha, hfd⟩ := hmem hslots s' hs'
    rw [← hfd]
    exact h.fd s hs (ha.trans hassoc)
  · rw [hcap, hlen]
    exact h.reserved
  · intro s' hs'
    rw [hcap] at hs'
    obtain ⟨s, hs, ha, -⟩ := hmem (l := t.slots.take t.reservedCapacity)
      (by rw [List.map_take, List.map_take, hslots]) s' hs'
    rw [← ha]
    exact h.front s hs
  · rw [hlen]
    exact h.bound

theorem Exact.quiet (h : t.Exact) (hq : t.Quiet t') :
    t'.Exact ∧ t'.associatedEntries = t.associatedEntries := by
  refine h.congr ?_ (by rw [hq.rest]) (by rw [hq.rest]) (by rw [hq.rest])
  have heq := congrArg (List.map fun s : Slot => (s.associated, s.pfd.fd)) hq.slots
  rw [List.map_map, List.map_map] at heq
  exact heq

theorem Exact.poll (h : t.Exact) (ready : Nat → Revents) :
    (t.poll ready).Exact ∧ (t.poll ready).associatedEntries = t.associatedEntries := by
  refine h.congr ?_ rfl rfl rfl
  refine List.ext_getElem? fun k => ?_
  simp only [NetSockets.poll, List.getElem?_map, List.getElem?_mapIdx, Option.map_map]
  congr 1
  funext s
  simp only [Function.comp_apply]
  split <;> rfl

end NetSockets

namespace TableAct

/-- The condition of the count, for everything that happens to the table. -/
def KeepsCount (t : NetSockets) : TableAct → Prop
  | .op top => t.KeepsCount top
  | _ => True

instance (t : NetSockets) : DecidablePred (KeepsCount t)
  | .op top => inferInstanceAs (Decidable (t.KeepsCount top))
  | .poll _ | .quiet => isTrue trivial

/-- How many associated entries are given up. -/
def drop (t : NetSockets) : TableAct → Nat
  | .op (.setSocketClosed i) | .op (.setUnused i) | .op (.resetEntry i) =>
      ((t.slots[i]?).any Slot.associated).toNat
  | _ => 0

end TableAct

namespace NetSockets

variable {t t' : NetSockets} {act : TableAct}

/-- Everything that happens to the table under the condition keeps the count. -/
theorem Exact.effect (h : t.Exact) (hkeeps : act.KeepsCount t) (heffect : TableEffect t act t') :
    t'.Exact := by
  cases heffect with
  | op hstep => exact associatedCount_step h hkeeps hstep
  | poll ready => exact (h.poll ready).1
  | quiet hq => exact (h.quiet hq).1

theorem associatedEntries_set {i : Nat} {s s' : Slot} (hs : t.slots[i]? = some s)
    (hslots : t'.slots = t.slots.set i s') :
    t.associatedEntries ≤ t'.associatedEntries + ((t.slots[i]?).any Slot.associated).toNat := by
  have hcount := Lib.countP_set_add (p := Slot.associated) (b := s') hs
  rw [hs, Option.any_some]
  simp only [associatedEntries, hslots]
  omega

theorem Exact.drop_le (h : t.Exact) (hkeeps : act.KeepsCount t) (heffect : TableEffect t act t') :
    t.associatedEntries ≤ t'.associatedEntries + act.drop t := by
  cases heffect with
  | poll ready => exact (h.poll ready).2.ge
  | quiet hq => exact (h.quiet hq).2.ge
  | op hstep =>
    cases tableOps_cases hstep with
    | @writes _ i s s' count hres hs hwrites =>
      have hle := associatedEntries_set hs (setSlot_slots t i s')
      cases hwrites with
      | closed | freed | reset => exact hle
      | issued e osSocket hunused =>
        rwa [hs, Option.any_some, Slot.associated_of_unused hunused] at hle
      | associated hissued hfd =>
        have hnot : s.associated = false := by simp [Slot.associated, hissued]
        rwa [hs, Option.any_some, hnot] at hle
    | grows e osSocket hbase hroom =>
      show t.associatedEntries ≤ (t.slots ++ [_]).countP Slot.associated
      rw [List.countP_append]
      exact Nat.le_add_right _ _
    | awaker sock => exact Nat.le_refl _
    | reworks hrework =>
      -- the count is exact on both sides, and it does not change
      have hnat := h.toNat
      have hnat' := (h.effect hkeeps (.op hstep)).toNat
      have hsame : t'.associatedCount = t.associatedCount ∧ t'.awakers = t.awakers := by
        obtain ⟨t₁, hmerge, hcompact⟩ := bind_eq_ok hrework
        obtain ⟨b, c, rfl, -⟩ := mergeAccum_eq_ok hmerge
        obtain ⟨-, rfl⟩ | ⟨-, c', rfl⟩ := makeCompactIfNecessary_eq_ok hcompact <;>
          exact ⟨rfl, rfl⟩
      rw [hsame.1, hsame.2] at hnat'
      omega

end NetSockets

/-! ## Late events -/

instance {P : QueueId → Prop} [DecidablePred P] : Decidable (∀ q, P q) :=
  decidable_of_iff (P .close ∧ P .accepted ∧ P .serverClose ∧ P .listen)
    ⟨fun h q => by cases q <;> simp_all, fun h => ⟨h _, h _, h _, h _⟩⟩

/-- The condition. The operation keeps `associatedCount` exact; and if a late event waits, or one
is pushed, then some entry is associated, and remains so. -/
def keepsAwake (k : Ctl) (r : Registry) (op : Op) : Prop :=
  (op.tableAct r).KeepsCount r.ioSockets ∧
    ∀ q : QueueId, q.stage ≤ k.phase.stage →
      ((r.queue q).events ≠ [] ∨ (op.abs r).pushed q ≠ []) →
      (op.tableAct r).drop r.ioSockets < r.ioSockets.associatedEntries

instance (k : Ctl) (r : Registry) (op : Op) : Decidable (keepsAwake k r op) :=
  inferInstanceAs (Decidable (_ ∧ _))

structure Idle (w : Ctl × Registry) : Prop where
  events : ∀ q, (w.2.queue q).events = []
  inmediates : w.1.inmediateQueue = 0
  timers : ∀ id e, w.1.timeout.timers id = some e → e.active = false

structure Awake (k : Ctl) (r : Registry) : Prop where
  sound : r.Sound
  exact : r.ioSockets.Exact
  timers : k.timeout.Exact
  running : k.phase ≠ .returned
  late : ∀ q : QueueId, q.stage ≤ k.phase.stage → (r.queue q).events ≠ [] →
    0 < r.ioSockets.associatedEntries
  waiting : k.phase.stage ≠ 0 → (r.queue .accepted).waiting = []

/-- The step lemma: an operation keeps the invariant. -/
theorem Awake.op {op : Op} (h : Awake k r) (hkeeps : keepsAwake k r op)
    (hannounces : k.phase.stage ≠ 0 → op.announces = false) (hrun : op.run r = .ok r') :
    Awake k r' := by
  have hstep := op.run_step h.sound hrun
  have heffect := op.run_table hrun
  refine ⟨h.sound.op hrun, h.exact.effect hkeeps.1 heffect,
    h.timers, h.running, fun q hq hne => ?_, fun hstage => ?_⟩
  · -- an event that waits now waited before, or has been pushed
    have hwas : (r.queue q).events ≠ [] ∨ (op.abs r).pushed q ≠ [] := by
      by_contra hnone
      simp only [not_or, not_not] at hnone
      have hsub := hstep.events_sublist q
      rw [show (r.view.queue q).events = [] from hnone.1, hnone.2] at hsub
      exact hne (List.sublist_nil.mp hsub)
    have hdrop := hkeeps.2 q hq hwas
    have hle := h.exact.drop_le hkeeps.1 heffect
    omega
  · exact hstep.waiting_nil (Op.pushed_accepted (hannounces hstage) r) (h.waiting hstage)

/-- The run lemma of the operations of one plan. -/
theorem Awake.ops {ops : List Op} (h : Awake k r) (hobeys : registry.obeys (keepsAwake k) r ops)
    (hannounces : k.phase.stage ≠ 0 → ∀ op ∈ ops, op.announces = false)
    (hrun : registry.run r ops = some r') : Awake k r' := by
  refine registry.run_invariant (J := Awake k) ?_ h (registry.obeys_and_mem
    (P := fun op => k.phase.stage ≠ 0 → op.announces = false) hobeys fun op hop hstage =>
      hannounces hstage op hop) hrun
  rintro r₁ op r₂ hJ ⟨hkeeps, ha⟩ hstep
  exact hJ.op hkeeps ha (toOption_eq_some hstep)

theorem Awake.congr {k' : Ctl} (h : Awake k r) (hphase : k'.phase = k.phase)
    (htimers : k'.timeout.Exact) : Awake k' r :=
  ⟨h.sound, h.exact, htimers, by rw [hphase]; exact h.running, by rw [hphase]; exact h.late,
    by rw [hphase]; exact h.waiting⟩

/-- With no entry associated no late event waits. -/
theorem Awake.idle (h : Awake k r) (hstage : k.phase.stage = 4)
    (hcount : r.ioSockets.associatedCount = 0) (q : QueueId) : (r.queue q).events = [] := by
  by_contra hne
  have hle : q.stage ≤ k.phase.stage := by
    rw [hstage]
    cases q <;> decide
  have hpos := h.late q hle hne
  have hnat := h.exact.toNat
  rw [hcount] at hnat
  simp only [UInt64.toNat_zero] at hnat
  omega

/-- A later stage asks no more of the registry than that the vector emptied is empty. -/
theorem Awake.advance {k' : Ctl} (h : Awake k r) (htimers : k'.timeout.Exact)
    (hstage : k'.phase.stage = k.phase.stage + 1) (hlt : k'.phase.stage ≤ 4)
    (hempty : ∀ q : QueueId, q.stage = k'.phase.stage → (r.queue q).events = [])
    (hwaiting : (r.queue .accepted).waiting = []) : Awake k' r := by
  refine ⟨h.sound, h.exact, htimers, ?_, fun q hq hne => ?_, fun _ => hwaiting⟩
  · intro hret
    rw [hret] at hlt
    exact absurd hlt (by decide)
  · rcases Nat.lt_or_eq_of_le hq with hq | hq
    · exact h.late q (by omega) hne
    · exact absurd (hempty q hq) hne

/-- The step lemma of the infrastructure. -/
theorem Awake.infra {w : Ctl × Registry} {env : Env} {p : Plan} (h : Awake w.1 w.2)
    (hp : Loop.step w.1 w.2 env = some p) (hobeys : registry.obeys (keepsAwake w.1) w.2 p.1)
    (hrun : registry.run w.2 p.1 = some r') :
    Awake (p.2 r') r' ∨
      ((p.2 r').phase = .returned ∧ (p.2 r').handler = w.1.handler ∧ Idle (p.2 r', r')) := by
  have hstep := Loop.step_stage hp hrun
  have htimers : (p.2 r').timeout.Exact := by
    -- only the timer phase changes the timers
    rcases Loop.step_timeout hp r' with heq | ⟨handlers, hdetach⟩
    · rw [heq]
      exact h.timers
    · have hrun : (TimeoutOp.infraTimeoutEvents env.now).run w.1.timeout = .ok (p.2 r').timeout :=
        congrArg (Except.map Prod.fst) hdetach
      exact (h.timers.step hrun).1
  have hafter := h.ops hobeys (Loop.step_accepted hp) hrun
  have hqueue : ∀ {q₀ : QueueId}, (r'.queue q₀).events = [] →
      ∀ q : QueueId, q.stage = q₀.stage → (r'.queue q).events = [] := by
    intro q₀ hempty q hq
    cases q <;> cases q₀ <;> first | exact hempty | cases hq
  cases hstep with
  | same hsame =>
    have hphase : (p.2 r').phase ≠ .returned := by
      intro hret
      have hne := h.running
      rw [hret] at hsame
      cases hk : w.1.phase <;> rw [hk] at hsame hne <;> first | exact hne rfl | cases hsame
    exact .inl ⟨hafter.sound, hafter.exact, htimers, hphase, by rw [hsame]; exact hafter.late,
      by rw [hsame]; exact hafter.waiting⟩
  | poll hzero =>
    refine .inl ⟨hafter.sound, hafter.exact, htimers, ?_, fun q hq => ?_,
      fun hne => absurd hzero hne⟩
    · intro hret
      rw [hret] at hzero
      cases hzero
    · rw [hzero] at hq
      cases q <;> cases hq
  | close hstage hstage' hempty hwaiting =>
    -- each phase leaves the vector of its own stage empty
    refine .inl (hafter.advance htimers (by omega) (by omega) ?_ hwaiting)
    rw [hstage']
    exact hqueue hempty
  | accepted hstage hstage' hrest =>
    have hbefore := h.waiting (by omega)
    have hafterw := hafter.waiting (by omega)
    refine .inl (hafter.advance htimers (by omega) (by omega) ?_ hafterw)
    rw [hstage']
    have hempty : (r'.queue .accepted).events = [] := hrest.trans hbefore
    exact hqueue hempty
  | serverClose hstage hstage' hempty =>
    refine .inl (hafter.advance htimers (by omega) (by omega) ?_ (hafter.waiting (by omega)))
    rw [hstage']
    exact hqueue hempty
  | listen hstage hstage' hempty =>
    refine .inl (hafter.advance htimers (by omega) (by omega) ?_ (hafter.waiting (by omega)))
    rw [hstage']
    exact hqueue hempty
  | returned hstage hphase hhandler hr hcount hrefed =>
    -- the loop returns only with nothing left that is refed
    subst hr
    simp only [Ctl.refedTimeout, Bool.or_eq_false_iff, Bool.not_eq_false',
      decide_eq_true_eq] at hrefed
    exact .inr ⟨hphase, hhandler, h.idle hstage hcount, hrefed.1,
      fun id e he => htimers.scheduled.inactive hrefed.2 he⟩

theorem Ctl.timerCall_exact (h : k.timeout.Exact) (c : TimerCall) :
    (k.timerCall c).timeout.Exact := by
  have hop : ∀ op : TimeoutOp, (k.onTimeout (op.run k.timeout)).timeout.Exact := by
    intro op
    obtain ⟨m, hm, hexact, -⟩ := h.run op
    rw [hm]
    exact hexact
  cases c with
  | setTimeout ms now => exact hop (.appSetTimeout ms now)
  | clearTimeout id => exact hop (.appClearTimeout id)
  | refreshTimeout id now => exact hop (.appRefresh id now)
  | destructTimeout id => exact hop (.appTimeoutDestructor id)
  | setInmediate => exact h

/-- What holds in every state of a guarded run. -/
def AwakeOrIdle (w : Ctl × Registry) : Prop :=
  Awake w.1 w.2 ∨ (w.1.phase = .returned ∧ w.1.handler = false ∧ Idle w)

theorem AwakeOrIdle.init : AwakeOrIdle Loop.init := by
  refine .inl ⟨.init, .init false, .init, by decide, fun q _ hne => ?_, fun _ => rfl⟩
  exact absurd (by cases q <;> rfl) hne

/-- The step lemma of the loop. -/
theorem AwakeOrIdle.step {w w' : Ctl × Registry} {a : Action} (h : AwakeOrIdle w)
    (hmeets : runStandardLoop.Meets keepsAwake w a)
    (hstep : runStandardLoop.machine.step w a = some w') : AwakeOrIdle w' := by
  obtain ⟨-, hacts⟩ := Loop.step_acts hstep
  rcases h with h | ⟨hphase, hnot, hidle⟩
  · cases hacts with
    | call _ hops hplan hrun =>
      exact .inl (h.ops (hmeets _ hplan) (fun _ op hop =>
        Op.announces_of_ofUser (Call.program_ofUser hops op hop)) hrun)
    | timer _ =>
      exact .inl (h.congr (w.1.timerCall_phase _).1 (Ctl.timerCall_exact h.timers _))
    | ret _ => exact .inl (h.congr rfl h.timers)
    | infra hhandler hp hplan hrun =>
      refine (h.infra hp (hmeets _ hplan) hrun).imp_right fun ⟨hphase, heq, hidle⟩ => ?_
      exact ⟨hphase, heq.trans hhandler, hidle⟩
    | stuck _ => exact .inl (h.congr rfl h.timers)
  · -- a loop that has returned does nothing
    cases hacts with
    | call hhandler | timer hhandler | ret hhandler =>
      rw [hnot] at hhandler
      cases hhandler
    | infra _ hp => exact absurd hphase (Loop.step_phase hp)
    | stuck hrunning =>
      rcases hrunning with hhandler | hne
      · rw [hnot] at hhandler
        cases hhandler
      · exact absurd hphase hne

/-- When the loop returns nothing is pending: no event, no immediate and no active timer. -/
theorem loop_exit_idle {acts : List Action} {w : Ctl × Registry}
    (hobeys : runStandardLoop.machine.obeys (runStandardLoop.Meets keepsAwake) Loop.init acts)
    (hrun : Loop.run Loop.init acts = some w) (hreturned : w.1.phase = .returned) : Idle w := by
  have hinv : AwakeOrIdle w := runStandardLoop.machine.run_invariant (J := AwakeOrIdle)
    (fun _ _ _ hJ hG h => hJ.step hG h) .init hobeys hrun
  rcases hinv with h | ⟨-, -, hidle⟩
  · exact absurd hreturned h.running
  · exact hidle

/-- A server is closed by an immediate of the second iteration, and the loop returns behind its
close event. -/
def closedServer : List Action :=
  [Action.call (.createServer 5 0), .call (.listen 0), .call (.createSocket 6),
    .timer (.setTimeout 1 0), .ret, .infra {}, .infra {}, .ret] ++
    List.replicate 10 (Action.infra {}) ++
  [Action.infra { now := 1000 }, .infra {}, .timer .setInmediate, .ret, .infra {},
  .infra {}, .infra {},
    .call (.close 0), .ret] ++ List.replicate 4 (Action.infra {}) ++ [Action.ret] ++
  List.replicate 7 (Action.infra {})

theorem loop_exit_idle_closed :
    ∃ w, Loop.run Loop.init closedServer = some w ∧ w.1.phase = .returned ∧ Idle w := by
  obtain ⟨w, hrun, hphase⟩ : ∃ w, Loop.run Loop.init closedServer = some w ∧
      w.1.phase = .returned := by decide +kernel
  exact ⟨w, hrun, hphase, loop_exit_idle (by decide +kernel) hrun hphase⟩

/-- A server closed in `main()`: nothing is associated at the first `wait`, and the loop returns
with the close event pending. -/
theorem loop_exit_pending :
    ∃ w, Loop.run Loop.init [.call (.createServer 5 0), .call (.listen 0), .call (.close 0), .ret,
        .infra {}, .infra {}, .ret, .infra {}, .infra {}, .infra {}, .infra {}] = some w ∧
      w.1.phase = .returned ∧
      (w.2.queue .serverClose).events = [{ idx := 1, owner := .server 0 }] ∧ ¬ Idle w :=
  ⟨_, rfl, rfl, rfl, fun h => List.cons_ne_nil _ _ (h.events .serverClose)⟩

/-- In every run of the loop, whatever user code does with timers, the store is exact, no operation
on it fails an assertion, and exactly the timers that are due fire. -/
theorem loop_timers_exact {acts : List Action} {w : Ctl × Registry}
    (hrun : Loop.run Loop.init acts = some w) :
    w.1.timeout.Exact ∧ (∀ op : TimeoutOp, ∃ m, op.run w.1.timeout = .ok m) ∧
      ∀ now, ∃ m ids, w.1.timeout.infraTimeoutEvents now = .ok (m, ids) ∧
        ∀ id, id ∈ ids ↔ ∃ e, w.1.timeout.timers id = some e ∧ e.due now := by
  have hexact : w.1.timeout.Exact := by
    refine runStandardLoop.machine.run_kept (J := fun w => w.1.timeout.Exact) ?_ .init hrun
    intro w a w' h hstep
    cases (Loop.step_acts hstep).2 with
    | call | ret | stuck => exact h
    | timer => exact Ctl.timerCall_exact h _
    | @infra env p r _ hp =>
      rcases Loop.step_timeout hp r with heq | ⟨_, hdetach⟩
      · exact heq ▸ h
      · have hop : (TimeoutOp.infraTimeoutEvents env.now).run w.1.timeout = .ok (p.2 r).timeout :=
          congrArg (Except.map Prod.fst) hdetach
        exact (h.step hop).1
  refine ⟨hexact, fun op => ?_, fun now => ?_⟩
  · obtain ⟨m, hm, -⟩ := hexact.run op
    exact ⟨m, hm⟩
  · obtain ⟨m, hm, -⟩ := hexact.infraTimeoutEvents_eq now
    exact ⟨m, _, hm, fun _ => hexact.mem_due now⟩

/-- Of two timers the first one fires, and its handler sets a third one. -/
def oneFired : List Action :=
  [.timer (.setTimeout 1 0), .timer (.setTimeout 60 0), .call (.createSocket 5), .call (.connect 0),
    .ret, .infra {}, .infra { now := 2000 }, .infra {}, .timer (.setTimeout 100 2000), .ret]

/-- At 60 ms the second timer fires, and neither the first one again nor the third one. -/
theorem loop_timers_exact_fired : ∃ w, Loop.run Loop.init oneFired = some w ∧ w.1.timeout.Exact ∧
    ∃ m ids, w.1.timeout.infraTimeoutEvents 60000 = .ok (m, ids) ∧ 2 ∈ ids ∧ 1 ∉ ids ∧ 3 ∉ ids := by
  obtain ⟨w, hrun, htimers⟩ : ∃ w, Loop.run Loop.init oneFired = some w ∧
      [1, 2, 3].map (fun id => (w.1.timeout.timers id).any (·.due 60000)) =
        [false, true, false] := by
    decide +kernel
  obtain ⟨hexact, -, hfires⟩ := loop_timers_exact hrun
  obtain ⟨m, ids, heq, hids⟩ := hfires 60000
  have hany : ∀ id, id ∈ ids ↔ (w.1.timeout.timers id).any (·.due 60000) := by
    intro id
    simp [hids, Option.any_eq_true]
  simp only [List.map_cons, List.map_nil, List.cons.injEq, and_true] at htimers
  obtain ⟨h₁, h₂, h₃⟩ := htimers
  refine ⟨w, hrun, hexact, m, ids, heq, (hany 2).mpr h₂, ?_, ?_⟩
  · rw [hany, h₁]
    nofun
  · rw [hany, h₃]
    nofun

end NodeCpp
