import NodeCpp.Loop.Servers

/-!
# Server states

`close()` moves a server to `BeingClosed`, `rrOnClose` moves it on to `Closed` and
asserts `BeingClosed` before that. `rrOnListening` sets `Listening` whatever the
state is, and the event it comes from may have been queued before `close()`.

* `Op.keepsStates` -- the condition: a listening event finds a server that has not
  been closed, `close()` is called on a server that has its entry, and no server has
  the descriptor 1, which negated is `INVALID_SOCKET`.
* `Registry.StatesAgree` -- the invariant: the server of a closed entry is
  `BeingClosed`, or it is the one whose entry is about to be reset.
* `server_states_forward` -- no server returns to `Listening`, and `rrOnClose` finds
  `BeingClosed`.
* `server_reopened` -- `close()` before the listening event.
-/

namespace NodeCpp

open Lib

def Op.keepsStates (r : Registry) : Op → Bool
  | .listening i =>
      match r.server i with
      | .ok (_, srv) => !srv.state.closed
      | .error _ => true
  | .serverState s .BeingClosed =>
      decide (r.view.holder ((r.indexOf (.server s)).getD 0) = some (.server s))
  | .constructServer osSocket _ => decide (osSocket ≠ 1)
  | _ => true

/-! ## No server returns to `Listening` -/

theorem Loop.plan_serverState {k : Ctl} {r : Registry} {a : Action} {p : Plan}
    (hp : plan k r a = some p) : ∀ op ∈ p.1, ∀ s state, op = .serverState s state →
    state.closed := by
  rintro op hop s state rfl
  cases plan_ops hp with
  | call c hcall =>
    generalize p.1 = ops at hcall hop
    cases hcall with
    | plain h => exact absurd (h _ hop) (by simp [Op.OfCall])
    | close hc hlive =>
      rcases Program.closingProcedure_ops hop with ⟨i, h⟩ | ⟨i, h⟩ | h | ⟨hq, h⟩ <;> cases h
      rfl
    | destructServer hlive =>
      exact absurd (Program.destructServer_ops r _ _ hop) (by simp [Op.OfDestructor])
  | none h =>
    rw [h] at hop
    cases hop
  | infra env hstep =>
    obtain ⟨-, rfl⟩ := Loop.step_ops hstep _ hop
    rfl

theorem Registry.closedServer_listening {r : Registry} {i s : Nat} {srv : ServerObj}
    (hkeeps : (Op.listening i).keepsStates r) (hserver : r.server i = .ok (s, srv)) :
    r.closedServer s = false := by
  simp only [Op.keepsStates, hserver] at hkeeps
  rw [closedServer, stateOf_server hserver]
  simpa using hkeeps

/-- The step lemma. -/
theorem Registry.closedServer_step {r r' : Registry} {op : Op} (hrun : op.run r = .ok r')
    (hkeeps : op.keepsStates r) (hstate : ∀ s state, op = .serverState s state → state.closed)
    {s : Nat} (h : r.closedServer s) : r'.closedServer s := by
  cases stateStep hrun s with
  | same hop heq => rwa [closedServer, heq]
  | new osSocket cnt hop hnone hnew =>
    rw [closedServer, hnone] at h
    cases h
  | set state hop hnew =>
    rw [closedServer, hnew]
    exact hstate s state hop
  | listening i srv hop hserver hnew =>
    subst hop
    rw [closedServer_listening hkeeps hserver] at h
    cases h

/-! ## The server of a closed entry -/

/-- An entry of a server without a descriptor is closed, and the server of a closed entry is
`BeingClosed`. Excepted are the server of the entry `reset`, which is `Closed`, and the server
`entering`, whose entry has just been closed. -/
structure Registry.StatesAgree (reset entering : Option Nat) (r : Registry) : Prop where
  sound : r.Sound
  fd : ∀ (i : Nat) slot n, r.ioSockets.slots[i]? = some slot → slot.used →
    slot.entry.emitter = some (.server n) → slot.pfd.fd = invalidSocket →
    slot.entry.state = .SockClosed
  state : ∀ i s n, r.view.slot i = some s → s.state = .SockClosed → s.emitter = some (.server n) →
    entering = some n ∨ r.stateOf n = some .BeingClosed ∨
      (r.stateOf n = some .Closed ∧ reset = some i)

theorem Op.tableAct_addEntry_server {r : Registry} {op : Op} {n osSocket : Nat}
    (h : op.tableAct r = .op (.addEntry (.server n) osSocket)) :
    ∃ cnt, op = .constructServer osSocket cnt := by
  cases op
  case constructServer =>
    cases h
    exact ⟨_, rfl⟩
  case beginClose =>
    simp only [tableAct] at h
    split at h <;> cases h
  all_goals cases h

namespace Registry.StatesAgree

variable {r r' : Registry} {op : Op} {reset entering : Option Nat}

theorem fd_step (h : r.StatesAgree reset entering) (hrun : op.run r = .ok r')
    (hkeeps : op.keepsStates r) (i : Nat) (slot' : Slot) (n : Nat)
    (hslot' : r'.ioSockets.slots[i]? = some slot') (hused : slot'.used)
    (hemitter : slot'.entry.emitter = some (.server n)) (hfd : slot'.pfd.fd = invalidSocket) :
    slot'.entry.state = .SockClosed := by
  generalize hact : op.tableAct r = act
  have hslot := TableEffect.slot (hact ▸ op.run_table hrun) hslot'
  cases hslot with
  | same hs hstate he hfd' =>
    rw [hstate]
    refine h.fd _ _ n hs ?_ (he ▸ hemitter) (hfd' ▸ hfd)
    unfold Slot.used at hused ⊢
    rwa [← hstate]
  | unused hunused =>
    rw [hunused] at hused
    cases hused
  | @issued e osSocket hnew =>
    subst hnew
    cases hemitter
    obtain ⟨cnt, rfl⟩ := Op.tableAct_addEntry_server hact
    simp only [Op.keepsStates, decide_eq_true_eq] at hkeeps
    simp only [Slot.issued, invalidSocket] at hfd
    omega
  | associated hassociated hpos =>
    rw [hfd] at hpos
    exact absurd hpos (by decide)
  | closed hclosed hinvalid => exact hclosed

/-- The step lemma for all operations but those of `closingProcedure` and `rrOnClose`. -/
theorem step (h : r.StatesAgree reset entering) (hrun : op.run r = .ok r')
    (hkeeps : op.keepsStates r) (hclose : ∀ idx, op ≠ .setSocketClosed idx)
    (hstate : ∀ s state, op ≠ .serverState s state)
    (hrework : op = .reworkIfNecessary → reset = none) : r'.StatesAgree reset entering := by
  refine ⟨h.sound.op hrun, h.fd_step hrun hkeeps, ?_⟩
  intro i s n hs hclosed he
  obtain ⟨j, s₀, hs₀, hclosed₀, he₀, hj⟩ | ⟨hop, -⟩ := op.closed_slot h.sound hrun hs hclosed he
  · -- the state of the server is what it was
    have hold : entering = some n ∨ r.stateOf n = some .BeingClosed ∨
        (r.stateOf n = some .Closed ∧ reset = some i) := by
      refine (h.state j s₀ n hs₀ hclosed₀ he₀).imp_right (Or.imp_right fun ⟨hst, hreset⟩ => ?_)
      rcases hj with rfl | hop
      · exact ⟨hst, hreset⟩
      · rw [hrework hop] at hreset
        cases hreset
    cases stateStep hrun n with
    | same hop heq => rwa [heq]
    | new osSocket cnt hop hnone hnew =>
      rw [hnone] at hold
      exact hold.imp_right (by simp)
    | set state hop hnew => exact absurd hop (hstate n state)
    | listening k srv hop hserver hnew =>
      subst hop
      have hopen := closedServer_listening hkeeps hserver
      refine hold.imp_right fun hst => ?_
      rcases hst with hst | ⟨hst, -⟩ <;>
      · rw [closedServer, hst] at hopen
        cases hopen
  · exact absurd hop (hclose i)

/-- `closingProcedure` closes the entry of its server, -/
theorem setSocketClosed (h : r.StatesAgree reset none) {idx s : Nat}
    (hrun : (Op.setSocketClosed idx).run r = .ok r')
    (hholder : r.view.holder idx = some (.server s)) :
    r'.StatesAgree reset (some s) := by
  refine ⟨h.sound.op hrun, h.fd_step hrun rfl, ?_⟩
  intro i t n ht hclosed he
  have hstates : r'.stateOf n = r.stateOf n := by
    rw [stateOf, (Op.setSocketClosed idx).run_roster hrun]
    rfl
  obtain ⟨j, s₀, hs₀, hclosed₀, he₀, rfl | hop⟩ | ⟨hop, hn⟩ :=
    (Op.setSocketClosed idx).closed_slot h.sound hrun ht hclosed he
  · rw [hstates]
    exact .inr ((h.state j s₀ n hs₀ hclosed₀ he₀).resolve_left (by simp))
  · cases hop
  · cases hop
    cases hholder.symm.trans hn
    exact .inl rfl

/-- and a new state of the server is one the closed entry admits. -/
theorem serverState (h : r.StatesAgree reset entering) {s : Nat} {state : ServerState}
    (hrun : (Op.serverState s state).run r = .ok r')
    (hkeeps : (Op.serverState s state).keepsStates r) (hentering : ∀ n, entering = some n → n = s)
    {reset' : Option Nat} (hreset : ∀ i, reset = some i → reset' = some i)
    (hnew : ∀ i t, r.view.slot i = some t → t.state = .SockClosed → t.emitter = some (.server s) →
      state = .BeingClosed ∨ (state = .Closed ∧ reset' = some i)) : r'.StatesAgree reset' none := by
  refine ⟨h.sound.op hrun, h.fd_step hrun hkeeps, ?_⟩
  intro i t n ht hclosed he
  obtain ⟨j, s₀, hs₀, hclosed₀, he₀, rfl | hop⟩ | ⟨hop, -⟩ :=
    (Op.serverState s state).closed_slot h.sound hrun ht hclosed he
  · refine .inr ?_
    cases stateStep hrun n with
    | same hop heq =>
      rw [heq]
      rcases h.state j s₀ n hs₀ hclosed₀ he₀ with hent | hst | ⟨hst, hj⟩
      · cases hentering n hent
        exact absurd rfl (hop state)
      · exact .inl hst
      · exact .inr ⟨hst, hreset j hj⟩
    | new osSocket cnt hop => cases hop
    | set state' hop hst =>
      cases hop
      rw [hst]
      simpa using hnew j s₀ hs₀ hclosed₀ he₀
    | listening k srv hop => cases hop
  · cases hop
  · cases hop

theorem mono (h : r.StatesAgree none entering) (reset : Option Nat) :
    r.StatesAgree reset entering := by
  refine ⟨h.sound, h.fd, fun i s n hs hclosed he => ?_⟩
  refine (h.state i s n hs hclosed he).imp_right (Or.imp_right fun hst => ?_)
  cases hst.2

/-- The run lemma of the operations that close no server. -/
theorem ops {ops : List Op} (h : r.StatesAgree reset entering)
    (hobeys : registry.obeys (fun r op => op.keepsStates r) r ops)
    (hplain : ∀ op ∈ ops, (∀ idx, op ≠ .setSocketClosed idx) ∧
      (∀ s state, op ≠ .serverState s state) ∧ (op = .reworkIfNecessary → reset = none))
    (hrun : registry.run r ops = some r') : r'.StatesAgree reset entering := by
  refine registry.run_invariant (J := StatesAgree reset entering) ?_ h
    (registry.obeys_and_mem hobeys hplain) hrun
  rintro r₁ op r₂ hJ ⟨hkeeps, hclose, hstate, hrework⟩ hstep
  exact hJ.step (toOption_eq_some hstep) hkeeps hclose hstate hrework

end Registry.StatesAgree

/-! ## Along the loop -/

def Phase.reset : Phase → Option Nat
  | .resetServer idx => some idx
  | _ => none

namespace Registry.StatesAgree

variable {r r' : Registry} {reset : Option Nat}

theorem closingProcedure (h : r.StatesAgree reset none) {s : Nat} {srv : ServerObj}
    (hlive : r.liveServer s = some srv)
    (hobeys : registry.obeys (fun r op => op.keepsStates r) r
      (Program.closingProcedure r s srv.index))
    (hrun : registry.run r (Program.closingProcedure r s srv.index) = some r') :
    r'.StatesAgree reset none := by
  obtain ⟨r₁, hat, hrun⟩ := registry.run_cons hrun
  obtain ⟨hkeeps₁, hobeys⟩ := (registry.obeys_cons hat).mp hobeys
  obtain ⟨slot, hslot⟩ := map_const_isOk (toOption_eq_some hat)
  cases map_const_eq_ok (toOption_eq_some hat)
  obtain ⟨-, hslot, hused⟩ := NetSockets.at'_eq_ok hslot
  have hidx : (r.entry srv.index).index = srv.index := by
    rw [entry_of_slot hslot]
    exact (h.sound.consistent.used _ _ (view_slot hslot) hused).1
  rw [hidx] at hrun hobeys
  obtain ⟨r₂, hclose, hrun⟩ := registry.run_cons hrun
  obtain ⟨-, hobeys⟩ := (registry.obeys_cons hclose).mp hobeys
  obtain ⟨r₃, hstate, hrun⟩ := registry.run_cons hrun
  obtain ⟨hkeeps, hobeys⟩ := (registry.obeys_cons hstate).mp hobeys
  -- the condition is about the registry in which the entry is closed already
  have hholder : r.view.holder srv.index = some (.server s) := by
    have hstep := (Op.setSocketClosed srv.index).run_step h.sound (toOption_eq_some hclose)
    refine hstep.holder_of_holder h.sound.consistent (by simp [Op.abs]) (by simp [Op.abs]) ?_
    obtain ⟨t, -, rfl⟩ := onTable_eq_ok (toOption_eq_some hclose)
    have hindex : Registry.indexOf { r with ioSockets := t } (.server s) = some srv.index :=
      view_index_server hlive
    simpa [Op.keepsStates, hindex] using hkeeps
  have h₃ : r₃.StatesAgree reset none :=
    (h.setSocketClosed (toOption_eq_some hclose) hholder).serverState (toOption_eq_some hstate)
      hkeeps (by simp) (fun _ hi => hi) fun _ _ _ _ _ => .inl rfl
  refine h₃.ops hobeys ?_ hrun
  unfold Program.appReportAllAceptedConnectionsEnded
  split <;> simp

theorem infraGetCloseEvents {k : Ctl} (h : r.StatesAgree none none)
    (hobeys : registry.obeys (fun r op => op.keepsStates r) r (Loop.infraGetCloseEvents k r).1)
    (hrun : registry.run r (Loop.infraGetCloseEvents k r).1 = some r') :
    r'.StatesAgree ((Loop.infraGetCloseEvents k r).2 r').phase.reset none := by
  have hcases := Loop.infraGetCloseEvents_cases k r
  generalize Loop.infraGetCloseEvents k r = p at hcases hobeys hrun
  cases hcases with
  | done hbatch => exact h.ops hobeys (by simp) hrun
  | skipped hbatch hsize => exact (h.ops hobeys (by simp) hrun).mono _
  | lost hbatch hserver =>
    cases hrun
    exact h.mono _
  | @event ev rest s srv slot hbatch hsize hserver hslot =>
    obtain ⟨hused, -, -, -, r₁, htake, hclosed⟩ := Loop.rrOnClose_run hslot hrun
    have h₁ : r₁.StatesAgree none none := h.step htake rfl (by simp) (by simp) (by simp)
    refine h₁.serverState hclosed rfl (by simp) (by simp) fun i t ht hcl he => .inr ⟨rfl, ?_⟩
    -- the server has one entry only
    obtain ⟨slot', hslot', hem, -, -⟩ := server_eq_ok hserver
    cases hslot.symm.trans hslot'
    obtain ⟨-, -, -, -, rfl⟩ := take_eq_ok htake
    have hheld : r.view.holder ev.idx = some (.server s) :=
      View.holder_eq_some.mpr ⟨_, view_slot hslot, hused, hem⟩
    have hheld' : r.view.holder i = some (.server s) :=
      View.holder_eq_some.mpr ⟨t, ht, by simp [SlotView.used, hcl], he⟩
    exact congrArg some (h.sound.consistent.holder_inj hheld hheld')

theorem resetEntry {idx : Nat} (h : r.StatesAgree (some idx) none)
    (hrun : (Op.resetEntry idx).run r = .ok r') : r'.StatesAgree none none := by
  have h' : r'.StatesAgree (some idx) none := h.step hrun rfl (by simp) (by simp) (by simp)
  refine ⟨h'.sound, h'.fd, fun i s n hs hclosed he => ?_⟩
  refine (h'.state i s n hs hclosed he).imp_right (Or.imp_right fun ⟨hst, hi⟩ => ?_)
  cases hi
  obtain ⟨t, ht, rfl⟩ := onTable_eq_ok hrun
  obtain ⟨slot, -, hslot, rfl⟩ := NetSockets.resetEntry_eq_ok ht
  obtain ⟨hlt, -⟩ := List.getElem?_eq_some_iff.mp hslot
  rw [view_slot (List.getElem?_set_self hlt)] at hs
  cases hs
  cases hclosed

end Registry.StatesAgree

def StatesKept (w : Ctl × Registry) : Prop := w.2.StatesAgree w.1.phase.reset none

theorem StatesKept.init : StatesKept Loop.init := by
  have hblank : ∀ {i : Nat} {slot : Slot}, Loop.init.2.ioSockets.slots[i]? = some slot →
      slot = {} := fun h => List.eq_of_mem_replicate (List.mem_of_getElem? h)
  refine ⟨.init, fun i slot n hslot hused => ?_, fun i s n hs hclosed => ?_⟩
  · rw [hblank hslot] at hused
    cases hused
  · obtain ⟨slot, hslot, rfl⟩ := Registry.view_slot_eq_some hs
    rw [hblank hslot] at hclosed
    cases hclosed

theorem StatesKept.infra {w : Ctl × Registry} {env : Env} {p : Plan} {r' : Registry}
    (h : StatesKept w) (hp : Loop.step w.1 w.2 env = some p)
    (hobeys : registry.obeys (fun r op => op.keepsStates r) w.2 p.1)
    (hrun : registry.run w.2 p.1 = some r') : StatesKept (p.2 r', r') := by
  have hops := Loop.step_ops hp
  by_cases hevents : w.1.phase = .infraGetCloseEvents
  · rw [StatesKept, hevents] at h
    unfold Loop.step at hp
    rw [hevents] at hp
    cases hp
    exact h.infraGetCloseEvents hobeys hrun
  · by_cases hreset : ∃ idx, w.1.phase = .resetServer idx
    · obtain ⟨idx, hphase⟩ := hreset
      rw [StatesKept, hphase] at h
      unfold Loop.step at hp
      rw [hphase] at hp
      cases hp
      exact h.resetEntry (Loop.run_singleton hrun)
    · have hnone : w.1.phase.reset = none := by
        cases hphase : w.1.phase with
        | resetServer idx => exact absurd ⟨idx, hphase⟩ hreset
        | _ => rfl
      rw [StatesKept, hnone] at h
      refine (h.ops hobeys (fun op hop => ⟨?_, ?_, fun _ => rfl⟩) hrun).mono _
      · rintro idx rfl
        exact hops _ hop
      · rintro s state rfl
        exact hevents (hops _ hop).1

/-- The step lemma of the loop. -/
theorem StatesKept.step {w w' : Ctl × Registry} {a : Action} (h : StatesKept w)
    (hmeets : runStandardLoop.Meets (fun _ r op => op.keepsStates r) w a)
    (hstep : runStandardLoop.machine.step w a = some w') : StatesKept w' := by
  obtain ⟨-, hacts⟩ := Loop.step_acts hstep
  cases hacts with
  | call hhandler hops hplan hrun =>
    have hobeys := hmeets _ hplan
    show Registry.StatesAgree _ none _
    cases Call.program_ops hops with
    | plain hcall =>
      refine h.ops hobeys (fun op hop => ⟨?_, ?_, ?_⟩) hrun
      · rintro idx rfl
        exact hcall _ hop
      · rintro s state rfl
        exact hcall _ hop
      · rintro rfl
        cases hcall _ hop
    | close hc hlive => exact h.closingProcedure hlive hobeys hrun
    | destructServer hlive =>
      have hdes := Program.destructServer_ops w.2
      refine h.ops hobeys (fun op hop => ⟨?_, ?_, ?_⟩) hrun
      · rintro idx rfl
        exact hdes _ _ hop
      · rintro s state rfl
        exact hdes _ _ hop
      · rintro rfl
        exact (hdes _ _ hop).elim
  | timer hhandler =>
    rw [StatesKept, (w.1.timerCall_phase _).1]
    exact h
  | ret hhandler => exact h
  | infra hhandler hp hplan hrun => exact h.infra hp (hmeets _ hplan) hrun
  | stuck hrunning => exact h

/-- No server goes from `BeingClosed` or `Closed` back to `Listening`, and the server for which
`rrOnClose` is run is `BeingClosed`. -/
theorem server_states_forward {acts₁ acts₂ : List Action} {w₁ w₂ : Ctl × Registry}
    (hobeys : Loop.Obeys (fun r op => op.keepsStates r) Loop.init (acts₁ ++ acts₂))
    (hrun₁ : Loop.run Loop.init acts₁ = some w₁) (hrun₂ : Loop.run w₁ acts₂ = some w₂) :
    (∀ s, w₁.2.closedServer s → w₂.2.closedServer s ∧ w₂.2.stateOf s ≠ some .Listening) ∧
      ∀ ev rest s srv slot, w₂.1.phase = .infraGetCloseEvents →
        (w₂.2.queue .serverClose).batch = ev :: rest → ev.idx < w₂.2.ioSockets.size →
        w₂.2.server ev.idx = .ok (s, srv) → w₂.2.ioSockets.slots[ev.idx]? = some slot →
        slot.used → slot.pfd.fd = invalidSocket → srv.state = .BeingClosed := by
  obtain ⟨hobeys₁, hobeys₂⟩ := (runStandardLoop.machine.obeys_append hrun₁).mp hobeys
  refine ⟨fun s hclosed => ?_, fun ev rest s srv slot hphase _ _ hserver hslot hused hfd => ?_⟩
  · have hkept : w₂.2.closedServer s :=
      runStandardLoop.base_relation (J := fun _ => True)
        (R := fun r r' => r.closedServer s → r'.closedServer s)
        (fun _ => id) (fun _ _ _ h h' => h' ∘ h) (fun _ _ _ _ _ _ _ => trivial)
        (fun _ _ _ _ _ hG hstep => Registry.closedServer_step (toOption_eq_some hstep) hG.1 hG.2)
        trivial (Loop.obeys_plan (fun _ _ _ _ hp => Loop.plan_serverState hp) hobeys₂) hrun₂
        hclosed
    refine ⟨hkept, fun hlistening => ?_⟩
    rw [Registry.closedServer, hlistening] at hkept
    cases hkept
  · have hrun : Loop.run Loop.init (acts₁ ++ acts₂) = some w₂ := by
      rw [Loop.run, Lib.Machine.run_append]
      exact (congrArg (Option.bind · _) hrun₁).trans hrun₂
    have hinv : StatesKept w₂ := runStandardLoop.machine.run_invariant (J := StatesKept)
      (fun _ _ _ hJ hG h => hJ.step hG h) .init hobeys hrun
    rw [StatesKept, hphase] at hinv
    obtain ⟨slot', hslot', hem, -, -⟩ := Registry.server_eq_ok hserver
    cases hslot.symm.trans hslot'
    have hclosed := hinv.fd ev.idx slot s hslot hused hem hfd
    rcases hinv.state ev.idx slot.view s (Registry.view_slot hslot) hclosed hem with
      hent | hst | ⟨-, hreset⟩
    · cases hent
    · exact Option.some.inj ((Registry.stateOf_server hserver).symm.trans hst)
    · cases hreset

/-- A server is closed by an immediate of the second iteration. -/
def closedByInmediate : List Action :=
  [Action.call (.createServer 5 0), .call (.listen 0), .call (.createSocket 6),
    .timer (.setTimeout 1 0), .ret, .infra {}, .infra {}, .ret] ++
    List.replicate 10 (Action.infra {}) ++
  [Action.infra { now := 1000 }, .infra {}, .timer .setInmediate, .ret, .infra {},
  .infra {}, .infra {},
    .call (.close 0)]

theorem server_states_forward_closed :
    ∃ w₁ w₂ srv, Loop.run Loop.init closedByInmediate = some w₁ ∧
      Loop.run w₁ [.ret, .infra {}, .infra {}, .infra {}] = some w₂ ∧
      w₁.2.closedServer 0 ∧ w₂.2.closedServer 0 ∧
      w₂.1.phase = .infraGetCloseEvents ∧ w₂.2.server 1 = .ok (0, srv) ∧
      srv.state = .BeingClosed := by
  obtain ⟨w₁, hrun₁, hclosed, w₂, hrun₂, hphase, hbatch, hsize, ⟨n, srv⟩, hserver, hn, slot, hslot,
      hused, hfd⟩ : ∃ w₁, Loop.run Loop.init closedByInmediate = some w₁ ∧ w₁.2.closedServer 0 ∧
        ∃ w₂, Loop.run w₁ [.ret, .infra {}, .infra {}, .infra {}] = some w₂ ∧
          w₂.1.phase = .infraGetCloseEvents ∧
          (w₂.2.queue .serverClose).batch = [{ idx := 1, owner := .server 0 }] ∧
          1 < w₂.2.ioSockets.size ∧ ∃ x, (w₂.2.server 1).toOption = some x ∧ x.1 = 0 ∧
            ∃ slot, w₂.2.ioSockets.slots[1]? = some slot ∧ slot.used ∧
              slot.pfd.fd = invalidSocket := by decide +kernel
  cases hn
  have hserver := toOption_eq_some hserver
  obtain ⟨hforward, hbeing⟩ := server_states_forward (by decide +kernel) hrun₁ hrun₂
  exact ⟨w₁, w₂, srv, hrun₁, hrun₂, hclosed, (hforward 0 hclosed).1, hphase, hserver,
    hbeing _ _ 0 srv slot hphase hbatch hsize hserver hslot hused hfd⟩

/-- `listen()` and `close()` in `main()`: the listening event makes the server `Listening` again. -/
theorem server_reopened :
    ∃ w₁ w₂, Loop.run Loop.init [.call (.createServer 5 0), .call (.listen 0), .call (.close 0)] =
        some w₁ ∧ w₁.2.stateOf 0 = some .BeingClosed ∧
      Loop.run w₁ [.ret, .infra {}, .infra {}] = some w₂ ∧ w₂.1.aborted = false ∧
      w₂.2.stateOf 0 = some .Listening := by
  simp only [exists_and_left]
  decide +kernel

end NodeCpp
