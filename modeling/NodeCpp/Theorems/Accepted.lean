import NodeCpp.Loop.PollPass
import NodeCpp.Loop.Servers
import NodeCpp.Loop.Stages

/-!
# Accepted sockets are announced

`infraAddAccepted` queues the index of an accepted socket, and later in the iteration
`infraProcessSockAcceptedEvents` takes the event and calls `rrOnAccepted` on the
socket of the entry. Its range test is `idx < ioSockets.size()`, where `size()` is one
less than that of `ourSide`: the last entry of `ourSide` and all of `ourSideAccum`
fail it. Behind the test `at( idx )` asserts that the entry is used, although the
socket may have been closed since.

* `Op.keepsAccepted` -- the condition: the index of an event that is taken passes the
  test exactly when the socket still has its entry.
* `accepted_announced_once` -- every accepted socket is announced exactly once, in
  the iteration it was accepted in, unless it has no entry any more.
* `accepted_forgotten` -- the first socket a server accepts is not announced.
-/

namespace NodeCpp

open Lib

/-! ## What is counted -/

namespace Accepted

/-- `infraAddAccepted` for the socket `o`. -/
def registered (o : Nat) : Op → Bool
  | .queue .accepted _ e => decide (e = .client o)
  | _ => false

/-- `rrOnAccepted` on the socket `o`. -/
def announced (o : Nat) (r : Registry) : Op → Bool
  | .take .accepted =>
      (r.queue .accepted).batch.head?.any fun ev =>
        decide (ev.idx < r.ioSockets.size) && decide ((r.entry ev.idx).emitter = some (.client o))
  | _ => false

/-- The event of the socket `o` is taken without a call, and `o` has no entry. -/
def skipped (o : Nat) (r : Registry) : Op → Bool
  | .take .accepted =>
      (r.queue .accepted).batch.head?.any fun ev =>
        decide (ev.owner = .client o) && !decide (ev.idx < r.ioSockets.size) &&
          (r.indexOf (.client o)).all fun i => decide (r.view.holder i ≠ some (.client o))
  | _ => false

/-- The events of the socket `o` that wait. -/
def pending (o : Nat) (r : Registry) : Nat :=
  (r.queue .accepted).events.countP fun ev => decide (ev.owner = .client o)

end Accepted

def Op.keepsAccepted (r : Registry) : Op → Bool
  | .take .accepted =>
      (r.queue .accepted).batch.head?.all fun ev =>
        decide (ev.idx < r.ioSockets.size) == decide (r.view.holder ev.idx = some ev.owner)
  | _ => true

/-! ## The events of accepted sockets -/

structure Registry.AcceptedQueue (r : Registry) : Prop where
  sound : r.Sound
  index : r.view.IndexKept .accepted
  client : ∀ ev ∈ (r.queue .accepted).events, ∃ o, ev.owner = .client o

/-- What a step of the loop adds to the condition. -/
def Op.FollowsAccepted (r : Registry) (op : Op) : Prop :=
  op.keepsAccepted r ∧ op ≠ .clear .accepted ∧
    (∀ hq e, op = .queue .accepted hq e → ∃ o, e = .client o) ∧
    (op = .reworkIfNecessary → (r.queue .accepted).events = [])

namespace Registry.AcceptedQueue

variable {r r' : Registry} {op : Op}

/-- The step lemma. -/
theorem step (h : r.AcceptedQueue) (hfollows : op.FollowsAccepted r) (hrun : op.run r = .ok r') :
    r'.AcceptedQueue := by
  obtain ⟨-, -, hclient, hrework⟩ := hfollows
  have hstep := op.run_step h.sound hrun
  have hpushed : ∀ ev ∈ (op.abs r).pushed .accepted,
      (∃ o, ev.owner = .client o) ∧ r.indexOf ev.owner = some ev.idx := by
    intro ev hev
    obtain ⟨hq, hop, hindex⟩ | ⟨i, -, hq⟩ := Op.mem_pushed (by decide) hrun hev
    · exact ⟨hclient hq _ hop, hindex⟩
    · cases hq
  refine ⟨h.sound.op hrun,
    h.index.step h.sound.consistent hstep (fun ev hev => (hpushed ev hev).2) fun hop => ?_,
    fun ev hev => ?_⟩
  · have hfrom := op.abs_comesFrom r
    rw [hop] at hfrom
    exact hrework hfrom
  · rcases List.mem_append.mp ((hstep.events_sublist .accepted).subset hev) with hev | hev
    · exact h.client ev hev
    · exact (hpushed ev hev).1

/-- The event that is taken is announced, or its socket has no entry. -/
theorem takes_eq (h : r.AcceptedQueue) (hkeeps : op.keepsAccepted r) (hrun : op.run r = .ok r')
    (o : Nat) : (op.takes r .accepted (.client o)).toNat =
      (Accepted.announced o r op).toNat + (Accepted.skipped o r op).toNat := by
  by_cases hop : op = .take .accepted
  · subst hop
    obtain ⟨ev, rest, hbatch, -⟩ := take_eq_ok hrun
    have hmem : ev ∈ (r.queue .accepted).events := by
      rw [EventQueue.events_of_batch hbatch]
      exact List.mem_cons_self ..
    simp only [Op.keepsAccepted, hbatch, List.head?_cons, Option.all_some, beq_iff_eq,
      decide_eq_decide] at hkeeps
    simp only [Op.takes, Accepted.announced, Accepted.skipped, hbatch, List.head?_cons,
      Option.any_some]
    by_cases hsize : ev.idx < r.ioSockets.size
    · obtain ⟨s, hs, -, he⟩ := View.holder_eq_some.mp (hkeeps.mp hsize)
      obtain ⟨slot, hslot, rfl⟩ := view_slot_eq_some hs
      have hemitter : (r.entry ev.idx).emitter = some ev.owner := by
        rw [entry_of_slot hslot]
        exact he
      by_cases howner : ev.owner = .client o <;> simp [hsize, hemitter, howner]
    · have hnot : ∀ i, r.indexOf ev.owner = some i → r.view.holder i ≠ some ev.owner := by
        intro i hi hholder
        cases (h.index ev hmem).2 i hi
        exact hsize (hkeeps.mpr hholder)
      by_cases howner : ev.owner = .client o
      · rw [howner] at hnot
        cases hindex : r.indexOf (.client o) with
        | none => simp [hsize, howner]
        | some i => simp [hsize, howner, hnot i hindex]
      · simp [hsize, howner]
  · cases op
    case take q =>
      have hq : q ≠ .accepted := fun hq => hop (by rw [hq])
      cases q <;> first | rfl | exact absurd rfl hq
    all_goals rfl

theorem queues_eq (o : Nat) : op.queues .accepted (.client o) = Accepted.registered o op := by
  cases op
  case queue q hq e => cases q <;> rfl
  all_goals rfl

theorem balance (h : r.AcceptedQueue) (hfollows : op.FollowsAccepted r) (hrun : op.run r = .ok r')
    (o : Nat) : Accepted.pending o r' +
        ((Accepted.announced o r op).toNat + (Accepted.skipped o r op).toNat) =
      Accepted.pending o r + (Accepted.registered o op).toNat := by
  have hbalance := Op.run_pendingOf h.sound (by decide) hfollows.2.1 (fun hq => nomatch hq) hrun
    (.client o)
  rwa [h.takes_eq hfollows.1 hrun o, queues_eq] at hbalance

end Registry.AcceptedQueue

/-! ## Along the loop -/

theorem Loop.plan_accepted {k : Ctl} {r : Registry} {a : Action} {p : Plan}
    (hp : plan k r a = some p) : ∀ op ∈ p.1, op ≠ .clear .accepted ∧
      (∀ hq e, op = .queue .accepted hq e → ∃ o, e = .client o) ∧
      (op = .reworkIfNecessary → k.phase = .reworkIfNecessary ∧ p.1 = [.reworkIfNecessary]) := by
  intro op hop
  cases plan_ops hp with
  | call c hcall =>
    generalize p.1 = ops at hcall hop
    cases hcall with
    | plain h =>
      refine ⟨?_, ?_, ?_⟩
      · rintro rfl
        cases h _ hop
      · rintro hq e rfl
        cases h _ hop
      · rintro rfl
        cases h _ hop
    | close hc hlive =>
      have hmem := Program.closingProcedure_ops hop
      rcases hmem with ⟨i, rfl⟩ | ⟨i, rfl⟩ | rfl | ⟨hq, rfl⟩ <;> simp
    | destructServer hlive =>
      have hmem := Program.destructServer_ops r _ _ hop
      refine ⟨?_, ?_, ?_⟩
      · rintro rfl
        exact hmem.elim
      · rintro hq e rfl
        exact hmem.elim
      · rintro rfl
        exact hmem.elim
  | none h =>
    rw [h] at hop
    cases hop
  | infra env hstep =>
    have hmem := step_ops hstep op hop
    refine ⟨?_, ?_, ?_⟩
    · rintro rfl
      simp [Op.Belongs] at hmem
    · rintro hq e rfl
      simp only [Op.Belongs, true_and, reduceCtorEq, false_and, or_false] at hmem
      exact hmem.1
    · rintro rfl
      -- compaction is a phase of its own
      have hphase : k.phase = .reworkIfNecessary := hmem
      refine ⟨hphase, ?_⟩
      unfold step at hstep
      rw [hphase] at hstep
      cases hstep
      rfl

structure AcceptedKept (w : Ctl × Registry) : Prop where
  taken : Loop.AcceptedTaken w.1 w.2
  queue : w.2.AcceptedQueue

namespace AcceptedKept

variable {w w' : Ctl × Registry} {a : Action}

theorem init : AcceptedKept Loop.init :=
  ⟨.init, .init, fun _ hev => (nomatch hev), fun _ hev => (nomatch hev)⟩

theorem follows {p : Plan} (h : AcceptedKept w)
    (hmeets : runStandardLoop.Meets (fun _ r op => op.keepsAccepted r) w a)
    (hp : Loop.plan w.1 w.2 a = some p) : registry.obeys Op.FollowsAccepted w.2 p.1 := by
  have hobeys := hmeets p hp
  have hops := Loop.plan_accepted hp
  by_cases hrework : Op.reworkIfNecessary ∈ p.1
  · obtain ⟨hphase, hone⟩ := (hops _ hrework).2.2 rfl
    rw [hone]
    exact ⟨⟨rfl, by simp, by simp, fun _ => h.taken.events (by rw [hphase]; decide)⟩,
      fun _ _ => trivial⟩
  · refine registry.obeys_mono ?_ (registry.obeys_and_mem hobeys
      (P := fun op => op ≠ .clear .accepted ∧
        (∀ hq e, op = .queue .accepted hq e → ∃ o, e = .client o) ∧ op ≠ .reworkIfNecessary)
      fun op hop => ⟨(hops op hop).1, (hops op hop).2.1, fun heq => hrework (heq ▸ hop)⟩)
    rintro r op ⟨hkeeps, hclear, hclient, hne⟩
    exact ⟨hkeeps, hclear, hclient, fun heq => absurd heq hne⟩

theorem step (h : AcceptedKept w)
    (hmeets : runStandardLoop.Meets (fun _ r op => op.keepsAccepted r) w a)
    (hstep : runStandardLoop.machine.step w a = some w') : AcceptedKept w' := by
  refine ⟨h.taken.step hstep, ?_⟩
  obtain ⟨p, hp, ⟨r, hrun, rfl⟩ | ⟨-, rfl⟩⟩ := runStandardLoop.step_cases hstep
  · exact registry.run_invariant (fun _ _ _ hJ hG hs => hJ.step hG (toOption_eq_some hs)) h.queue
      (h.follows hmeets hp) hrun
  · exact h.queue

end AcceptedKept

/-! ## Every accepted socket is registered once -/

def Registry.accepted (r : Registry) (o : Nat) : Bool := r.origins[o]?.any Option.isSome

theorem Op.OfCall.silent {r : Registry} {op : Op} (h : op.OfCall r) :
    (∀ x ∈ op.origin, x = none) ∧ op.announces = false := by
  cases op with
  | construct osSocket owner =>
    obtain rfl : owner = none := h
    exact ⟨by simp [origin], rfl⟩
  | queue q hq e =>
    obtain rfl : q = .listen := h
    exact ⟨List.forall_mem_nil _, rfl⟩
  | _ => exact ⟨List.forall_mem_nil _, rfl⟩

theorem Op.Belongs.silent {ph : Phase} {op : Op} (h : op.Belongs ph)
    (hpoll : ∀ pos, ph ≠ .pollPhase2 pos) :
    (∀ x ∈ op.origin, x = none) ∧ op.announces = false := by
  cases op with
  | construct osSocket owner =>
    obtain ⟨pos, hpos⟩ := h
    exact absurd hpos (hpoll pos)
  | queue q hq e =>
    rcases h with ⟨-, -, pos, hpos⟩ | ⟨rfl, -, -⟩
    · exact absurd hpos (hpoll pos)
    · exact ⟨nofun, rfl⟩
  | _ => exact ⟨nofun, rfl⟩

theorem Loop.plan_accepts {k : Ctl} {r : Registry} {a : Action} {p : Plan}
    (hp : plan k r a = some p) :
    (∀ op ∈ p.1, (∀ x ∈ op.origin, x = none) ∧ op.announces = false) ∨
      ∃ i s osSocket, p.1 = Program.consumeAcceptedSocket r i s osSocket := by
  cases plan_ops hp with
  | call c hcall =>
    refine .inl fun op hop => ?_
    generalize p.1 = ops at hcall hop
    cases hcall with
    | plain h => exact (h op hop).silent
    | close hc hlive =>
      rcases Program.closingProcedure_ops hop with ⟨i, rfl⟩ | ⟨i, rfl⟩ | rfl | ⟨hq, rfl⟩ <;>
        simp [Op.origin, Op.announces]
    | destructServer hlive =>
      rcases (Program.destructServer_ops r _ _ hop).cases with ⟨o, rfl⟩ | ⟨idx, rfl⟩ | ⟨e, rfl⟩ <;>
        simp [Op.origin, Op.announces]
  | none h => exact .inl (by simp [h])
  | infra env hstep =>
    by_cases hpoll : ∃ pos, k.phase = .pollPhase2 pos
    · obtain ⟨pos, hphase⟩ := hpoll
      unfold step at hstep
      rw [hphase] at hstep
      cases hstep
      have hops : PollOps r pos.i (pollPhase2 k r pos env).1 := pollPhase2_ops pos
      generalize (pollPhase2 k r pos env).1 = ops at hops
      cases hops with
      | entry h =>
        refine .inl fun op hop => ?_
        obtain ⟨c, rfl⟩ := h op hop
        simp [Op.origin, Op.announces]
      | accept osSocket hslot hassociated hserver => exact .inr ⟨_, _, osSocket, rfl⟩
    · exact .inl fun op hop =>
        (step_ops hstep op hop).silent fun pos hpos => hpoll ⟨pos, hpos⟩

theorem Registry.accepted_append {r r' : Registry} {l : List (Option Nat)}
    (h : r'.origins = r.origins ++ l) (hl : ∀ x ∈ l, x = none) (o : Nat) :
    r'.accepted o = r.accepted o := by
  rw [accepted, accepted, h, List.getElem?_append]
  split
  · rfl
  · rename_i hge
    rw [List.getElem?_eq_none (Nat.not_lt.mp hge)]
    cases hx : l[o - r.origins.length]? with
    | none => rfl
    | some x =>
      rw [hl x (List.mem_of_getElem? hx)]
      rfl

/-- The balance of a plan: it registers the socket it accepts. -/
theorem Loop.plan_registers {k : Ctl} {r r' : Registry} {a : Action} {p : Plan}
    (hp : plan k r a = some p) (hrun : registry.run r p.1 = some r') (o : Nat) :
    (r'.accepted o).toNat = (r.accepted o).toNat +
      registry.tally (fun _ op => (Accepted.registered o op).toNat) r p.1 := by
  have horigins := Registry.run_origins hrun
  rw [registry.tally_eq_sum _ hrun]
  rcases plan_accepts hp with hplain | ⟨i, s, osSocket, hops⟩
  · have hnone : ∀ x ∈ p.1.flatMap Op.origin, x = none := by
      intro x hx
      obtain ⟨op, hop, hx⟩ := List.mem_flatMap.mp hx
      exact (hplain op hop).1 x hx
    have hzero : (p.1.map fun op => (Accepted.registered o op).toNat).sum = 0 := by
      refine List.sum_eq_zero_iff_forall_eq_nat.mpr fun n hn => ?_
      obtain ⟨op, hop, rfl⟩ := List.mem_map.mp hn
      have hannounces := (hplain op hop).2
      unfold Accepted.registered
      split
      · cases hannounces
      · rfl
    rw [Registry.accepted_append horigins hnone, hzero, Nat.add_zero]
  · have hlen : r.origins.length = r.sockets.length := by simp [Registry.origins]
    have horigin : p.1.flatMap Op.origin = [some s] := by
      rw [hops]
      rfl
    have hsum : (p.1.map fun op => (Accepted.registered o op).toNat).sum =
        (decide (o = r.sockets.length)).toNat := by
      rw [hops]
      by_cases ho : o = r.sockets.length
      · subst ho
        simp [Program.consumeAcceptedSocket, Program.infraAddAccepted, Accepted.registered]
      · simp [Program.consumeAcceptedSocket, Program.infraAddAccepted, Accepted.registered, ho,
          Ne.symm ho]
    rw [hsum]
    rw [horigin] at horigins
    unfold Registry.accepted
    rw [horigins, ← hlen]
    by_cases ho : o = r.origins.length
    · subst ho
      simp
    · rw [List.getElem?_append]
      split
      · simp [ho]
      · rename_i hge
        rw [List.getElem?_eq_none (by simp; omega), List.getElem?_eq_none (Nat.not_lt.mp hge)]
        simp [ho]

theorem Loop.registered_le_one {acts : List Action} {w : Ctl × Registry}
    (hrun : Loop.run Loop.init acts = some w) (o : Nat) :
    Loop.count (fun _ => Accepted.registered o) acts ≤ 1 := by
  have hcount := runStandardLoop.run_count (G := fun _ _ => True) (J := fun _ => True)
    (μ := fun r => (r.accepted o).toNat)
    (f := fun _ op => (Accepted.registered o op).toNat) (fun _ _ _ _ _ _ => trivial)
    (fun _ _ _ _ _ _ hp hr => plan_registers hp hr o) trivial
    (runStandardLoop.machine.obeys_of_forall (fun _ _ => trivial) _ _) hrun
  have hzero : (Loop.init.2.accepted o).toNat = 0 := rfl
  have hone := Bool.toNat_le (w.2.accepted o)
  simp only [Loop.count]
  omega

/-! ## The result -/

theorem AcceptedKept.not_aborted {w w' : Ctl × Registry} {env : Env} (h : AcceptedKept w)
    (hphase : w.1.phase = .infraProcessSockAcceptedEvents)
    (hbatch : (w.2.queue .accepted).batch ≠ [])
    (hobeys : Loop.Obeys (fun r op => op.keepsAccepted r) w [.infra env])
    (hrun : Loop.run w [.infra env] = some w') : w'.1.aborted = false := by
  obtain ⟨ev, rest, hev⟩ := List.exists_cons_of_ne_nil hbatch
  obtain ⟨w₁, hstep, hrest⟩ := runStandardLoop.machine.run_cons hrun
  cases hrest
  obtain ⟨haborted, hhandler, p, hp, hcases⟩ := Loop.infra_cases hstep
  have hplan : Loop.infraProcessSockAcceptedEvents w.1 w.2 = p := by
    unfold Loop.step at hp
    rw [hphase] at hp
    exact Option.some.inj hp
  have hvalid : Loop.dangling w.2 w.1.phase = false := by
    rw [hphase]
    rfl
  have hmeets := hobeys.1 p ((Loop.plan_infra haborted hhandler hvalid env).trans hp)
  rcases hcases with ⟨r, -, rfl⟩ | ⟨hdangling | hnone, rfl⟩
  · rw [← hplan, Loop.infraProcessSockAcceptedEvents, hev]
    dsimp only
    split <;> exact haborted
  · cases hdangling.symm.trans hvalid
  · exfalso
    rw [← hplan, Loop.infraProcessSockAcceptedEvents, hev] at hmeets hnone
    dsimp only at hmeets hnone
    let r : Registry :=
      { w.2 with queue := Function.update w.2.queue .accepted (w.2.queue .accepted).take }
    have htake : w.2.take .accepted = .ok r := by simp [Registry.take, hev, r]
    split at hnone
    · rename_i hsize
      rw [if_pos hsize] at hmeets
      -- the condition gives the entry back to the socket the event was queued for
      have hkeeps : (Op.take .accepted).keepsAccepted w.2 := hmeets.1
      simp only [Op.keepsAccepted, hev, List.head?_cons, Option.all_some, beq_iff_eq,
        decide_eq_decide] at hkeeps
      have hmem : ev ∈ (w.2.queue .accepted).events := by
        rw [EventQueue.events_of_batch hev]
        exact List.mem_cons_self ..
      obtain ⟨o, ho⟩ := h.queue.client ev hmem
      have hholder := ho ▸ hkeeps.mp hsize
      obtain ⟨s, hs⟩ := Registry.at_of_holder h.queue.sound hholder
      obtain ⟨obj, hobj, -⟩ := Registry.client_of_holder h.queue.sound hholder
      have hat : r.ioSockets.at' ev.idx = .ok s := hs
      have hclient : r.client ev.idx = .ok (o, obj) := hobj
      simp [Machine.run, registry, Op.run, htake, hat, hclient, Except.toOption,
        Except.map] at hnone
    · simp [Machine.run, registry, Op.run, htake, Except.toOption] at hnone

/-- Every accepted socket is announced exactly once, by the end of
`infraProcessSockAcceptedEvents` of the iteration it was accepted in, unless it has no entry any
more; then its event is skipped. No event fails an assertion. -/
theorem accepted_announced_once {acts : List Action} {w : Ctl × Registry}
    (hobeys : Loop.Obeys (fun r op => op.keepsAccepted r) Loop.init acts)
    (hrun : Loop.run Loop.init acts = some w) :
    (∀ o, Loop.count (Accepted.announced o) acts + Loop.count (Accepted.skipped o) acts +
          Accepted.pending o w.2 = Loop.count (fun _ => Accepted.registered o) acts ∧
        Loop.count (fun _ => Accepted.registered o) acts ≤ 1 ∧
        (2 ≤ w.1.phase.stage → Accepted.pending o w.2 = 0)) ∧
      ∀ env w', w.1.phase = .infraProcessSockAcceptedEvents →
        (w.2.queue .accepted).batch ≠ [] →
        Loop.Obeys (fun r op => op.keepsAccepted r) w [.infra env] →
        Loop.run w [.infra env] = some w' → w'.1.aborted = false := by
  have hkept : AcceptedKept w := runStandardLoop.machine.run_invariant
    (fun _ _ _ hJ hG hs => hJ.step hG hs) .init hobeys hrun
  refine ⟨fun o => ⟨?_, Loop.registered_le_one hrun o, fun hstage => ?_⟩,
    fun env w' => hkept.not_aborted⟩
  · have hbalance := runStandardLoop.run_tally (J := AcceptedKept) (μ := Accepted.pending o)
      (e := fun r op => (Accepted.announced o r op).toNat + (Accepted.skipped o r op).toNat)
      (f := fun _ op => (Accepted.registered o op).toNat)
      (fun _ _ _ hJ hG hs => hJ.step hG hs)
      (fun s a p r hJ hG hp hr => registry.run_tally
        (fun _ _ _ hQ hF hs => hQ.step hF (toOption_eq_some hs))
        (fun _ _ _ hQ hF hs => hQ.balance hF (toOption_eq_some hs) o) hJ.queue
        (hJ.follows hG hp) hr) .init hobeys hrun
    rw [runStandardLoop.tally_add] at hbalance
    have hzero : Accepted.pending o Loop.init.2 = 0 := rfl
    simp only [Loop.count]
    omega
  · rw [Accepted.pending, hkept.taken.events hstage]
    rfl

/-- A connection is accepted into a table with room, and the connection handler creates another
socket behind it. -/
def acceptedWithRoom : List Action :=
  [Action.call (.createServer 5 0), .call (.listen 0), .call (.createSocket 6),
  .call (.createSocket 7),
    .call (.createSocket 8), .ret, .infra {}, .infra {}, .ret] ++
    List.replicate 12 (Action.infra {}) ++
  [Action.infra { ready := fun i => if i = 1 then { pollin := true } else {} },
    .infra { accepted := some 9 }, .call (.createSocket 10), .ret, .infra {}, .ret] ++
  List.replicate 4 (Action.infra {}) ++ [Action.ret, .infra {}]

theorem accepted_announced_once_with_room :
    ∃ w, Loop.run Loop.init acceptedWithRoom = some w ∧ w.1.phase = .infraGetCloseEvents ∧
      Loop.count (fun _ => Accepted.registered 3) acceptedWithRoom = 1 ∧
      Loop.count (Accepted.announced 3) acceptedWithRoom = 1 := by
  obtain ⟨w, hw, hphase, hregistered, hskipped⟩ :
      ∃ w, Loop.run Loop.init acceptedWithRoom = some w ∧ w.1.phase = .infraGetCloseEvents ∧
        Loop.count (fun _ => Accepted.registered 3) acceptedWithRoom = 1 ∧
        Loop.count (Accepted.skipped 3) acceptedWithRoom = 0 := by decide +kernel
  obtain ⟨hcount, -, hpending⟩ := (accepted_announced_once (by decide +kernel) hw).1 3
  rw [hpending (by rw [hphase]; decide), hregistered, hskipped] at hcount
  exact ⟨w, hw, hphase, hregistered, hcount⟩

/-- The first connection of a server, up to the end of `infraProcessSockAcceptedEvents`. -/
def acceptedFirst : List Action :=
  [Action.call (.createServer 5 0), .call (.listen 0), .ret, .infra {}, .infra {}, .ret, .infra {},
    .infra {}, .infra {}, .infra { ready := fun i => if i = 1 then { pollin := true } else {} },
    .infra { accepted := some 7 }, .ret, .infra {}, .ret] ++ List.replicate 5 (Action.infra {})

/-- The first connection of a server goes to `ourSideAccum`: `infraProcessSockAcceptedEvents` drops
its event, and the socket, with its entry in use, is never announced. -/
theorem accepted_forgotten :
    ∃ acts w obj, Loop.run Loop.init acts = some w ∧ w.1.aborted = false ∧
      w.1.phase = .infraGetCloseEvents ∧ w.2.used 2 ∧ w.2.client 2 = .ok (0, obj) ∧
      obj.data.state = .Connected ∧ Loop.count (fun _ => Accepted.registered 0) acts = 1 ∧
      Loop.count (Accepted.announced 0) acts = 0 := by
  obtain ⟨w, hw, haborted, hphase, hused, ⟨o, obj⟩, hclient, ho, hstate⟩ :
      ∃ w, Loop.run Loop.init acceptedFirst = some w ∧ w.1.aborted = false ∧
        w.1.phase = .infraGetCloseEvents ∧ w.2.used 2 ∧
        ∃ x, (w.2.client 2).toOption = some x ∧ x.1 = 0 ∧ x.2.data.state = .Connected := by
    decide +kernel
  cases ho
  exact ⟨acceptedFirst, w, obj, hw, haborted, hphase, hused, toOption_eq_some hclient, hstate,
    by decide +kernel, by decide +kernel⟩

end NodeCpp
