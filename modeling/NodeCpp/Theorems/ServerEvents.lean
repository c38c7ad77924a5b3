import NodeCpp.Theorems.CloseHandlers
import NodeCpp.Theorems.ServerClose

/-!
# Events of servers that are gone or have failed

`infraEmitListeningEvents` and `infraGetCloseEvents` ask `isUsed()` of an entry that
`NetSockets::at` has handed out, and `at` asserts that very thing: an index whose server
has been destructed fails before it is asked. `infraMakeErrorEventAndClose` posts the
close event of a failed server without closing it, so `infraGetCloseEvents` finds a
descriptor, and a server that is not `BeingClosed`.

* `Loop.Served` -- the turn of an event: it is taken, and a handler runs exactly if its
  entry is used.
* `server_events_served_iff` -- the condition for that, in both passes.
* `server_events_fail` -- a server is destructed before the event it is waiting for.
* `server_error_closed_iff` -- when the close event of a failed server closes it.
* `server_error_fails` -- it does not, whether or not the error handler calls `close()`.
-/

namespace NodeCpp

open Lib

variable {acts : List Action} {ops : List Op}

namespace Registry

variable {r r' : Registry} {idx s : Nat}

/-- The server in a slot is closed, its counter of accepted sockets is 0, and it passes the range
test: `rrOnClose` can be run for it. -/
def Reports (r : Registry) (idx s : Nat) : Prop :=
  idx < r.ioSockets.size ∧ r.view.holder idx = some (.server s) ∧
    (r.ioSockets.slots[idx]?).any (fun slot => decide (slot.pfd.fd = invalidSocket)) ∧
    r.stateOf s = some .BeingClosed ∧ r.getSockCount s = 0

instance (r : Registry) (idx s : Nat) : Decidable (r.Reports idx s) :=
  inferInstanceAs (Decidable (_ ∧ _))

theorem used_of_holder (hsound : r.Sound) {e : Emitter} (h : r.view.holder idx = some e) :
    r.used idx := by
  obtain ⟨slot, hs, hused, -⟩ := slot_of_holder hsound h
  rw [used, entry_of_slot hs]
  exact hused

theorem take_ok {q : QueueId} (hq : q ≠ .close) {ev : Pending} {rest : List Pending}
    (hbatch : (r.queue q).batch = ev :: rest) :
    ∃ r₁, (Op.take q).run r = .ok r₁ ∧ (r₁.queue q).batch = rest ∧
      r₁.ioSockets = r.ioSockets ∧ r₁.servers = r.servers := by
  have htake : r.take q = .ok { r with queue := Function.update r.queue q (r.queue q).take } := by
    simp [take, hbatch, hq]
  exact ⟨_, htake, by simp [EventQueue.take, hbatch], rfl, rfl⟩

theorem reports_of_run {srv : ServerObj} {slot : Slot} (hsize : idx < r.ioSockets.size)
    (hserver : r.server idx = .ok (s, srv)) (hslot : r.ioSockets.slots[idx]? = some slot)
    (hrun : registry.run r (Loop.rrOnClose r idx s srv slot) = some r') : r.Reports idx s := by
  obtain ⟨hused, hfd, hstate, hzero, -⟩ := Loop.rrOnClose_run hslot hrun
  obtain ⟨slot', hslot', hem, -, hlive⟩ := server_eq_ok hserver
  cases hslot.symm.trans hslot'
  refine ⟨hsize, View.holder_eq_some.mpr ⟨_, view_slot hslot, hused, hem⟩, ?_, ?_, hzero⟩
  · simp [hslot, hfd]
  · rw [stateOf_live hlive, hstate]

theorem Reports.run {ev : Pending} {rest : List Pending} (h : r.Reports ev.idx s)
    (hsound : r.Sound) (hbatch : (r.queue .serverClose).batch = ev :: rest) :
    ∃ srv slot r', r.server ev.idx = .ok (s, srv) ∧ r.ioSockets.slots[ev.idx]? = some slot ∧
      registry.run r (Loop.rrOnClose r ev.idx s srv slot) = some r' ∧
      (r'.queue .serverClose).batch = rest := by
  obtain ⟨-, hheld, hfd, hstate, hzero⟩ := h
  obtain ⟨slot, hat⟩ := at_of_holder hsound hheld
  obtain ⟨srv, hserver⟩ := server_of_holder hsound hheld
  obtain ⟨-, hslot, -⟩ := NetSockets.at'_eq_ok hat
  obtain ⟨-, -, -, -, hlive⟩ := server_eq_ok hserver
  rw [hslot, Option.any_some, decide_eq_true_eq] at hfd
  have hclosing : srv.state = .BeingClosed :=
    Option.some.inj ((stateOf_live hlive).symm.trans hstate)
  obtain ⟨r', hrun, hrest⟩ := Loop.rrOnClose_ok hbatch hat hfd hclosing hzero hlive
  exact ⟨srv, slot, r', hserver, hslot, hrun, hrest⟩

end Registry

/-! ## The turn of an event -/

namespace Loop

variable {w w' : Ctl × Registry} {q : QueueId} {ev : Pending} {rest : List Pending} {env : Env}

/-- The event is taken, and a handler runs exactly if its entry is used. -/
structure Served (q : QueueId) (w : Ctl × Registry) (ev : Pending) (rest : List Pending)
    (w' : Ctl × Registry) : Prop where
  running : w'.1.aborted = false
  taken : (w'.2.queue q).batch = rest
  handler : w'.1.handler = w.2.used ev.idx

theorem Served.run {p : Plan} (h : Served q w ev rest w')
    (hstep : runStandardLoop.machine.step w (.infra env) = some w')
    (hp : Loop.step w.1 w.2 env = some p) :
    ∃ r', registry.run w.2 p.1 = some r' ∧ w' = (p.2 r', r') := by
  obtain ⟨-, -, p', hp', ⟨r', hrun, hw'⟩ | ⟨-, rfl⟩⟩ := infra_cases hstep
  · cases hp.symm.trans hp'
    exact ⟨r', hrun, hw'⟩
  · cases h.running

theorem skip_served (hq : q ≠ .close) (hhandler : w.1.handler = false)
    (haborted : w.1.aborted = false) (hvalid : dangling w.2 w.1.phase = false)
    (hbatch : (w.2.queue q).batch = ev :: rest)
    (hp : step w.1 w.2 env = some ([.take q], fun _ => w.1)) (hunused : w.2.used ev.idx = false) :
    ∃ w', runStandardLoop.machine.step w (.infra env) = some w' ∧ Served q w ev rest w' := by
  obtain ⟨r₁, htake, hrest, -⟩ := Registry.take_ok hq hbatch
  refine ⟨_, infra_ok hhandler haborted hvalid hp (Registry.run_singleton_ok htake), haborted,
    hrest, ?_⟩
  rw [hunused]
  exact hhandler

theorem close_served (hsound : w.2.Sound) (hhandler : w.1.handler = false)
    (haborted : w.1.aborted = false) (hphase : w.1.phase = .infraGetCloseEvents)
    (hbatch : (w.2.queue .serverClose).batch = ev :: rest)
    (hvalid : dangling w.2 w.1.phase = false) :
    (∃ w', runStandardLoop.machine.step w (.infra env) = some w' ∧
        Served .serverClose w ev rest w') ↔
      (∃ s, w.2.Reports ev.idx s) ∨
        (¬ev.idx < w.2.ioSockets.size ∧ w.2.used ev.idx = false) := by
  have hp : step w.1 w.2 env = some (infraGetCloseEvents w.1 w.2) := by simp only [step, hphase]
  by_cases hsize : ev.idx < w.2.ioSockets.size
  · have hcases := infraGetCloseEvents_cases w.1 w.2
    generalize infraGetCloseEvents w.1 w.2 = p at hp hcases
    cases hcases with
    | done hnil => cases hbatch.symm.trans hnil
    | skipped hbatch' hsize' =>
      cases hbatch.symm.trans hbatch'
      exact absurd hsize hsize'
    | lost hbatch' hlost =>
      -- no server or no slot under the index: an assertion fails
      cases hbatch.symm.trans hbatch'
      constructor
      · rintro ⟨w', hstep, hserved⟩
        obtain ⟨r', -, rfl⟩ := hserved.run hstep hp
        cases hserved.running
      · rintro (⟨s, hreports⟩ | ⟨hsize', -⟩)
        · obtain ⟨srv, slot, -, hserver, hslot, -⟩ := hreports.run hsound hbatch
          exact absurd hslot (hlost s srv slot hserver)
        · exact absurd hsize hsize'
    | @event _ _ s srv slot hbatch' _ hserver hslot =>
      cases hbatch.symm.trans hbatch'
      constructor
      · rintro ⟨w', hstep, hserved⟩
        obtain ⟨r', hrun, -⟩ := hserved.run hstep hp
        exact .inl ⟨s, Registry.reports_of_run hsize hserver hslot hrun⟩
      · rintro (⟨s', hreports⟩ | ⟨hsize', -⟩)
        · obtain ⟨srv', slot', r', hserver', hslot', hrun, hrest⟩ := hreports.run hsound hbatch
          cases hserver.symm.trans hserver'
          cases hslot.symm.trans hslot'
          refine ⟨_, infra_ok hhandler haborted hvalid hp hrun, haborted, hrest, ?_⟩
          rw [Registry.used_of_holder hsound hreports.2.1]
          rfl
        · exact absurd hsize hsize'
  · -- an index past the table is skipped
    have hskip : infraGetCloseEvents w.1 w.2 = ([.take .serverClose], fun _ => w.1) := by
      simp only [infraGetCloseEvents, hbatch, hsize, if_false]
    rw [hskip] at hp
    constructor
    · rintro ⟨w', hstep, hserved⟩
      obtain ⟨r', -, rfl⟩ := hserved.run hstep hp
      exact .inr ⟨hsize, hserved.handler.symm.trans hhandler⟩
    · rintro (⟨s, hreports⟩ | ⟨-, hunused⟩)
      · exact absurd hreports.1 hsize
      · exact skip_served (by decide) hhandler haborted hvalid hbatch hp hunused

/-- A vector that has moved lets no turn be served. -/
theorem close_served_iff (hsound : w.2.Sound) (hhandler : w.1.handler = false)
    (haborted : w.1.aborted = false) (hphase : w.1.phase = .infraGetCloseEvents)
    (hbatch : (w.2.queue .serverClose).batch = ev :: rest) :
    (∃ w', runStandardLoop.machine.step w (.infra env) = some w' ∧
        Served .serverClose w ev rest w') ↔
      (w.2.queue .serverClose).storage.moved = false ∧
        ((∃ s, w.2.Reports ev.idx s) ∨
          (¬ev.idx < w.2.ioSockets.size ∧ w.2.used ev.idx = false)) := by
  have hdangling : dangling w.2 w.1.phase = (w.2.queue .serverClose).storage.moved := by
    rw [hphase]
    rfl
  constructor
  · rintro ⟨w', hstep, hserved⟩
    have hvalid := valid_of_running hstep hserved.running
    exact ⟨hdangling ▸ hvalid,
      (close_served hsound hhandler haborted hphase hbatch hvalid).mp ⟨w', hstep, hserved⟩⟩
  · rintro ⟨hmoved, hcond⟩
    exact (close_served hsound hhandler haborted hphase hbatch (hdangling.trans hmoved)).mpr hcond

end Loop

/-! ## The entry of a server is reset -/

theorem TableEffect.isValidId {t t' : NetSockets} {act : TableAct} (h : TableEffect t act t')
    (hact : act ≠ .op .reworkIfNecessary) {i : Nat} (hi : t.isValidId i) : t'.isValidId i := by
  simp only [NetSockets.isValidId, Bool.and_eq_true, decide_eq_true_eq] at hi ⊢
  cases h with
  | poll ready => exact ⟨hi.1, by rw [NetSockets.poll, List.length_mapIdx]; exact hi.2⟩
  | quiet hq =>
    have hlen : t'.slots.length = t.slots.length := by
      simpa using congrArg List.length hq.slots
    have hcap : t'.reservedCapacity = t.reservedCapacity := by rw [hq.rest]; rfl
    rwa [hlen, hcap]
  | op hstep =>
    cases tableOps_cases hstep with
    | writes => exact ⟨hi.1, List.length_set.symm ▸ hi.2⟩
    | grows => exact ⟨hi.1, by simpa using Nat.lt_succ_of_lt hi.2⟩
    | awaker => exact hi
    | reworks => exact absurd rfl hact

namespace Loop

end Loop

namespace Registry

/-- One for a server that is `BeingClosed`. -/
def beingClosed (r : Registry) (n : Nat) : Nat := (decide (r.stateOf n = some .BeingClosed)).toNat

theorem beingClosed_step {r r' : Registry} {op : Op} (hrun : op.run r = .ok r') (n : Nat) :
    r'.beingClosed n ≤ r.beingClosed n + (ServerClose.closed n op).toNat := by
  unfold beingClosed
  cases stateStep hrun n with
  | same hop heq =>
    rw [heq]
    exact Nat.le_add_right _ _
  | new osSocket cnt hop hnone hnew => simp [hnew]
  | set state hop hnew =>
    subst hop
    rw [hnew]
    cases state <;> simp [ServerClose.closed]
  | listening i srv hop hserver hnew => simp [hnew]

end Registry

namespace Loop

variable {k : Ctl} {r r' : Registry}

theorem ServerPlan.reported_cases (hplan : ServerPlan k r ops) :
    (∀ op ∈ ops, ∀ s, op ≠ .serverState s .Closed) ∨
      ∃ ev rest s srv slot, (r.queue .serverClose).batch = ev :: rest ∧
        r.server ev.idx = .ok (s, srv) ∧ r.ioSockets.slots[ev.idx]? = some slot ∧
        ops = rrOnClose r ev.idx s srv slot := by
  cases hplan with
  | plain hops =>
    refine .inl ?_
    rintro op hop s rfl
    exact hops _ hop
  | accept osSocket hslot hassociated hserver =>
    exact .inl (by simp [Program.consumeAcceptedSocket, Program.infraAddAccepted])
  | close hlive =>
    refine .inl ?_
    rintro op hop s rfl
    rcases Program.closingProcedure_ops hop with ⟨i, h⟩ | ⟨i, h⟩ | h | ⟨hq, h⟩ <;> cases h
  | destructServer hlive =>
    refine .inl ?_
    rintro op hop s rfl
    exact Program.destructServer_ops r _ _ hop
  | @cleanup o obj idx hlive =>
    refine .inl ?_
    rintro op hop s rfl
    rcases List.mem_append.mp hop with hop | hop
    · rcases Program.onFinalCleanup_ops r o obj _ hop with h | ⟨i, h⟩ | ⟨hq, s', h⟩
      · exact h
      · cases h
      · cases h
    · cases List.mem_singleton.mp hop
  | skipped hphase hbatch hsize => exact .inl (by simp)
  | event hphase hbatch hserver hslot =>
    exact .inr ⟨_, _, _, _, _, hbatch, hserver, hslot, rfl⟩
  | rework hphase => exact .inl (by simp)

theorem tally_rrOnClose {idx s : Nat} {srv : ServerObj} {slot : Slot}
    (hrun : registry.run r (rrOnClose r idx s srv slot) = some r') (n : Nat) :
    registry.tally (fun _ op => (ServerClose.reported n op).toNat) r (rrOnClose r idx s srv slot) =
      (decide (s = n)).toNat := by
  rw [registry.tally_eq_sum _ hrun]
  simp [rrOnClose, ServerClose.reported]

theorem ServerPlan.reported_tally (hplan : ServerPlan k r ops)
    (hrun : registry.run r ops = some r') (n : Nat) :
    r'.beingClosed n + registry.tally (fun _ op => (ServerClose.reported n op).toNat) r ops ≤
      r.beingClosed n + registry.tally (fun _ op => (ServerClose.closed n op).toNat) r ops := by
  obtain hnone | ⟨ev, rest, s, srv, slot, hbatch, hserver, hslot, rfl⟩ := hplan.reported_cases
  · have hzero : registry.tally (fun _ op => (ServerClose.reported n op).toNat) r ops = 0 := by
      refine registry.tally_eq_zero (fun op hop _ => ?_) r
      have hne := hnone op hop
      unfold ServerClose.reported
      split
      · exact absurd rfl (hne _)
      · rfl
    rw [hzero]
    have hle := registry.run_tally_le (G := fun _ _ => True) (J := fun _ => True)
      (μ := fun r => r.beingClosed n) (c := fun _ _ => 0)
      (d := fun _ op => (ServerClose.closed n op).toNat) (fun _ _ _ _ _ _ => trivial)
      (fun _ _ _ _ _ hs => Registry.beingClosed_step (toOption_eq_some hs) n) trivial
      (registry.obeys_of_forall (fun _ _ => trivial) r ops) hrun
    rwa [registry.tally_zero] at hle
  · obtain ⟨-, -, hstate, -, r₁, htake, hclosed⟩ := rrOnClose_run hslot hrun
    rw [tally_rrOnClose hrun n]
    refine Nat.le_trans ?_ (Nat.le_add_right _ _)
    obtain ⟨-, -, -, -, rfl⟩ := Registry.take_eq_ok htake
    have hbefore : r.stateOf s = some .BeingClosed := by
      rw [Registry.stateOf_server hserver, hstate]
    cases Registry.stateStep hclosed n with
    | same hop heq =>
      have hs : s ≠ n := by
        rintro rfl
        exact hop .Closed rfl
      have hsame : r'.stateOf n = r.stateOf n := heq
      simp [Registry.beingClosed, hsame, hs]
    | set state hop hnew =>
      cases hop
      simp [Registry.beingClosed, hnew, hbefore]
    | new _ _ hop | listening _ _ hop => cases hop

/-- The run lemma: `rrOnClose` is run for a server at most as often as it has been closed, and once
less while it is `BeingClosed`. -/
theorem count_reported_le {w : Ctl × Registry} (hrun : run init acts = some w) (n : Nat) :
    w.2.beingClosed n + count (fun _ => ServerClose.reported n) acts ≤
      count (fun _ => ServerClose.closed n) acts := by
  have hle := runStandardLoop.run_tally_le (G := fun _ _ => True) (J := fun _ => True)
    (μ := fun r => r.beingClosed n) (e := fun _ op => (ServerClose.reported n op).toNat)
    (f := fun _ op => (ServerClose.closed n op).toNat) (fun _ _ _ _ _ _ => trivial)
    (fun _ _ _ _ _ _ hp hr => (plan_server hp).reported_tally hr n) trivial
    (runStandardLoop.machine.obeys_of_forall (fun _ _ => trivial) _ _) hrun
  have hinit : init.2.beingClosed n = 0 := by simp [init, Registry.beingClosed, Registry.stateOf,
    Registry.init]
  rw [hinit, Nat.zero_add] at hle
  exact hle

theorem count_concat {w : Ctl × Registry} (hrun : run init acts = some w)
    (p : Registry → Op → Bool) (a : Action) :
    count p (acts ++ [a]) =
      count p acts + runStandardLoop.weigh (fun r op => (p r op).toNat) w a := by
  have happend := runStandardLoop.machine.tally_append
    (runStandardLoop.weigh fun r op => (p r op).toNat) hrun [a]
  refine happend.trans (congrArg _ ?_)
  simp only [Machine.tally]
  cases runStandardLoop.machine.step w a <;> rfl

theorem weigh_reported {w w' : Ctl × Registry} {ev : Pending} {rest : List Pending} {env : Env}
    (hphase : w.1.phase = .infraGetCloseEvents)
    (hbatch : (w.2.queue .serverClose).batch = ev :: rest)
    (hstep : runStandardLoop.machine.step w (.infra env) = some w')
    (hserved : Served .serverClose w ev rest w') (n : Nat) :
    runStandardLoop.weigh (fun _ op => (ServerClose.reported n op).toNat) w (.infra env) =
      (decide (w.2.Reports ev.idx n)).toNat := by
  obtain ⟨haborted, hhandler, -⟩ := infra_cases hstep
  have hp : step w.1 w.2 env = some (infraGetCloseEvents w.1 w.2) := by simp only [step, hphase]
  have hcases := infraGetCloseEvents_cases w.1 w.2
  generalize infraGetCloseEvents w.1 w.2 = p at hp hcases
  obtain ⟨r', hrun, hw'⟩ := hserved.run hstep hp
  have hplan := (plan_infra haborted hhandler (valid_of_running hstep hserved.running) env).trans hp
  have hweigh : runStandardLoop.weigh (fun _ op => (ServerClose.reported n op).toNat) w
      (.infra env) = registry.tally (fun _ op => (ServerClose.reported n op).toNat) w.2 p.1 := by
    have hbase : runStandardLoop.base.run w.2 p.1 = some r' := hrun
    simp only [Controller.weigh, hplan, hbase]
    rfl
  rw [hweigh]
  cases hcases with
  | done hnil => cases hbatch.symm.trans hnil
  | skipped hbatch' hsize =>
    cases hbatch.symm.trans hbatch'
    have hno : ¬w.2.Reports ev.idx n := fun h => hsize h.1
    rw [decide_eq_false hno]
    exact registry.tally_eq_zero (by simp [ServerClose.reported]) w.2
  | lost hbatch' hlost =>
    rw [hw'] at hserved
    cases hserved.running
  | @event _ _ s srv slot hbatch' hsize hserver hslot =>
    cases hbatch.symm.trans hbatch'
    rw [tally_rrOnClose hrun n]
    have hreports := Registry.reports_of_run hsize hserver hslot hrun
    have hiff : s = n ↔ w.2.Reports ev.idx n := by
      refine ⟨fun heq => heq ▸ hreports, fun h => ?_⟩
      cases hreports.2.1.symm.trans h.2.1
      rfl
    rw [decide_eq_decide.mpr hiff]

end Loop

/-- The error event of a server gets its turn in `infraGetCloseEvents`. No assertion fails, its OS
socket has been passed to `internal_close` once, `rrOnClose` is run for it now and was not before,
and no other event of the entry is left, if and only if the vector has not moved during the pass,
user code has called `close()` on it, once, and the entry meets what `rrOnClose` asks for. -/
theorem server_error_closed_iff {acts : List Action} {w : Ctl × Registry}
    (hrun : Loop.run Loop.init acts = some w) (hhandler : w.1.handler = false)
    (haborted : w.1.aborted = false) (hphase : w.1.phase = .infraGetCloseEvents) {idx s : Nat}
    {rest : List Pending} (hbatch : (w.2.queue .serverClose).batch =
      { idx := idx, err := true, owner := .server s } :: rest) (env : Env) :
    ((∃ w', runStandardLoop.machine.step w (.infra env) = some w' ∧
          Loop.Served .serverClose w { idx := idx, err := true, owner := .server s } rest w') ∧
        Loop.count (fun _ => ServerClose.closed s) (acts ++ [.infra env]) = 1 ∧
        Loop.count (fun _ => ServerClose.reported s) acts = 0 ∧
        Loop.count (fun _ => ServerClose.reported s) (acts ++ [.infra env]) = 1 ∧
        ∀ ev ∈ rest, ev.idx ≠ idx) ↔
      (w.2.queue .serverClose).storage.moved = false ∧ w.2.Reports idx s ∧
        acts.countP (Action.closes s) = 1 ∧ ∀ ev ∈ rest, ev.idx ≠ idx := by
  have hsound := Loop.sound hrun
  -- the turn itself closes no server
  have hclosed : ∀ w', runStandardLoop.machine.step w (.infra env) = some w' →
      w'.1.aborted = false → Loop.count (fun _ => ServerClose.closed s) (acts ++ [.infra env]) =
        acts.countP (Action.closes s) := by
    intro w' hstep hrunning
    have hrun' : Loop.run Loop.init (acts ++ [.infra env]) = some w' := by
      rw [Loop.run, runStandardLoop.machine.run_append]
      rw [Loop.run] at hrun
      simp only [hrun, Option.bind_some, Machine.run, hstep]
    rw [ServerClose.count_closed hrun' hrunning, List.countP_append]
    simp [Action.closes]
  constructor
  · rintro ⟨⟨w', hstep, hserved⟩, hone, hbefore, hafter, hrest⟩
    rw [Loop.count_concat hrun, hbefore, Nat.zero_add,
      Loop.weigh_reported hphase hbatch hstep hserved s] at hafter
    have hreports : w.2.Reports idx s := by
      by_contra hno
      rw [decide_eq_false hno] at hafter
      cases hafter
    obtain ⟨hmoved, -⟩ :=
      (Loop.close_served_iff hsound hhandler haborted hphase hbatch).mp ⟨w', hstep, hserved⟩
    exact ⟨hmoved, hreports, (hclosed w' hstep hserved.running).symm.trans hone, hrest⟩
  · rintro ⟨hmoved, hreports, hone, hrest⟩
    obtain ⟨w', hstep, hserved⟩ :=
      (Loop.close_served_iff hsound hhandler haborted hphase hbatch).mpr
        ⟨hmoved, .inl ⟨s, hreports⟩⟩
    have hbefore : Loop.count (fun _ => ServerClose.reported s) acts = 0 := by
      have hle := Loop.count_reported_le hrun s
      have hbeing : w.2.beingClosed s = 1 := by simp [Registry.beingClosed, hreports.2.2.2.1]
      rw [ServerClose.count_closed hrun haborted, hone, hbeing] at hle
      omega
    refine ⟨⟨w', hstep, hserved⟩, (hclosed w' hstep hserved.running).trans hone, hbefore, ?_, hrest⟩
    rw [Loop.count_concat hrun, hbefore, Loop.weigh_reported hphase hbatch hstep hserved s,
      decide_eq_true hreports]
    rfl

/-- The second of three listening servers fails, and its error handler makes some calls; the loop
runs up to `infraGetCloseEvents`. -/
def secondFails (calls : List Call) : List Action :=
  [Action.call (.createServer 5 0), .call (.listen 0), .call (.createServer 6 0), .call (.listen 1),
    .call (.createServer 7 0), .call (.listen 2), .call (.createSocket 8), .ret,
    .infra {}, .infra {},
    .ret, .infra {}, .ret, .infra {}, .ret] ++
  List.replicate 12 (Action.infra {}) ++
  [Action.infra { ready := fun i => { err := decide (i = 2) } }, .infra {}, .infra {}] ++
  calls.map Action.call ++ [Action.ret, .infra {}, .ret] ++ List.replicate 5 (Action.infra {})

/-- The error handler closes the two other servers, and the close handler of the first closes the
second before its error event gets its turn. The vector has room for a fourth event. -/
def secondClosed : List Action :=
  secondFails [.close 0, .close 2] ++ [Action.infra {}, .call (.close 1), .ret,
  .infra {}, .infra {},
    .ret, .infra {}]

theorem server_error_closed_by_other :
    Loop.count (fun _ => ServerClose.closed 1) (secondClosed ++ [.infra {}]) = 1 ∧
      Loop.count (fun _ => ServerClose.reported 1) (secondClosed ++ [.infra {}]) = 1 := by
  obtain ⟨w, hrun, hhandler, haborted, hphase, hbatch, hmoved, hreports⟩ :
      ∃ w, Loop.run Loop.init secondClosed = some w ∧ w.1.handler = false ∧
        w.1.aborted = false ∧ w.1.phase = .infraGetCloseEvents ∧
        (w.2.queue .serverClose).batch = [{ idx := 2, err := true, owner := .server 1 }] ∧
        (w.2.queue .serverClose).storage.moved = false ∧ w.2.Reports 2 1 := by
    decide +kernel
  obtain ⟨-, hclosed, -, hreported, -⟩ :=
    (server_error_closed_iff hrun hhandler haborted hphase hbatch {}).mpr
      ⟨hmoved, hreports, by decide +kernel, by simp⟩
  exact ⟨hclosed, hreported⟩

/-- A failed server is not closed by its error event: the descriptor is found open, and if the error
handler calls `close()`, the event finds the entry reset. -/
theorem server_error_fails :
    (∃ w, Loop.run Loop.init (secondFails [] ++ [Action.infra {}]) = some w ∧
      w.1.phase = .infraGetCloseEvents ∧ w.1.aborted = true) ∧
    ∃ w, Loop.run Loop.init (secondFails [.close 1] ++
        [Action.infra {}, .ret, .infra {}, .infra {}]) = some w ∧
      w.1.phase = .infraGetCloseEvents ∧ w.1.aborted = true := by
  decide +kernel

end NodeCpp
