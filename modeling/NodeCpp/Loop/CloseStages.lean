import NodeCpp.Loop.PollPass
import NodeCpp.Loop.Servers

/-!
# The stages of a close event

`infraGetCloseEvent` runs user code four times while it processes an event: the error
handlers, the two kinds of close handlers, and the coroutines that `onFinalCleanup`
releases. What it relies on in between is that the slot of the event is still held by a
client socket.

* `Loop.CloseStep` -- what a step of the infrastructure does, seen from the slots.
* `Registry.AcceptedHeld` -- a server keeps its slot as long as it has accepted sockets.
* `Registry.ClosingHeld` -- the slot of the event that is being processed is held by a
  client socket; `ClosingHeld.infra` and `ClosingHeld.call` keep it.
-/

namespace NodeCpp

open Lib

def Phase.closing : Phase → Option Nat
  | .handleErrorEvent idx | .emitClose idx | .handleCloseEvent idx | .closed idx
  | .onFinalCleanup idx _ => some idx
  | _ => none

/-- The loop is neither in a stage of a close event nor about to reset the entry of a server. -/
def Phase.between : Phase → Bool
  | .handleErrorEvent _ | .emitClose _ | .handleCloseEvent _ | .closed _ | .onFinalCleanup ..
  | .resetServer _ => false
  | _ => true

theorem Phase.closing_of_between {ph : Phase} (h : ph.between) : ph.closing = none := by
  cases ph <;> first | rfl | cases h

theorem Phase.between_of_polls {ph : Phase} (h : ph.polls) : ph.between := by
  cases ph <;> first | rfl | cases h

/-- The operations that take no slot from its object, give no server a socket, and go on with the
same close event. -/
def Op.keepsSlots : Op → Bool
  | .construct _ owner => owner.isNone
  | .destruct _ | .resetEntry _ | .reworkIfNecessary | .beginClose | .endClose _ => false
  | _ => true

theorem Op.keepsSlots_abs {op : Op} (h : op.keepsSlots) (r : Registry) :
    (∀ i, ¬(op.abs r).Frees i) ∧ op.abs r ≠ .renumber ∧ (∀ e i, op.abs r ≠ .beginClose e i) ∧
      ∀ i, op.abs r ≠ .endClose i := by
  cases op with
  | destruct | resetEntry | reworkIfNecessary | beginClose | endClose => cases h
  | sock o c | entrySock i c | listening i | queueServerError i =>
    simp only [abs, Registry.absSock]
    split <;> simp [ViewOp.Frees]
  | _ => simp [abs, ViewOp.Frees]

/-! ## Accepted sockets -/

/-- A server keeps its slot as long as it has accepted sockets, and one that is still to come has
none. -/
structure Registry.AcceptedHeld (r : Registry) : Prop where
  held : ∀ s, 0 < r.acceptedCount s → r.indexOf (.server s) ≠ none →
    ∃ i, r.view.holder i = some (.server s)
  unborn : ∀ s, r.view.known (.server s) = false → r.acceptedCount s = 0

/-- The step lemma: a server that gives up its slot is gone, or has no accepted sockets; one that
accepts a socket holds its slot. -/
theorem Registry.AcceptedHeld.step {r r' : Registry} {op : Op} (h : r.AcceptedHeld)
    (hsound : r.Sound) (hrun : op.run r = .ok r')
    (hfrees : ∀ i s, (op.abs r).Frees i → r.view.holder i = some (.server s) →
      r'.indexOf (.server s) = none ∨ r'.acceptedCount s = 0)
    (haccept : ∀ osSocket s, op = .construct osSocket (some s) →
      ∃ i, r.view.holder i = some (.server s)) : r'.AcceptedHeld := by
  have hstep := op.run_step hsound hrun
  refine ⟨fun s hcount hlive => ?_, fun s hnew => ?_⟩
  · obtain hlive₀ | hheld := hstep.live_cases (e := .server s) hlive
    · -- the server held a slot before, because it had sockets or gets one
      obtain ⟨i, hi⟩ : ∃ i, r.view.holder i = some (.server s) := by
        by_cases hop : ∃ osSocket, op = .construct osSocket (some s)
        · obtain ⟨osSocket, hop⟩ := hop
          exact haccept osSocket s hop
        · refine h.held s (Nat.lt_of_lt_of_le hcount ?_) hlive₀
          exact op.run_acceptedCount_le hrun fun osSocket heq => hop ⟨osSocket, heq⟩
      refine hstep.held_kept hsound.consistent hi fun hfree => ?_
      rcases hfrees i s hfree hi with hgone | hzero
      · exact hlive hgone
      · omega
    · exact hheld
  · -- a server that is not known now was not known before
    have hunknown : r.view.known (.server s) = false := by
      cases hknown : r.view.known (.server s) with
      | false => rfl
      | true => exact hnew.symm.trans (hstep.known_mono hknown) |>.symm
    have hzero := h.unborn s hunknown
    have hle := op.run_acceptedCount_le (n := s) hrun fun osSocket hop => by
      obtain ⟨i, hi⟩ := haccept osSocket s hop
      obtain ⟨sv, hsv, -, he⟩ := View.holder_eq_some.mp hi
      rw [hsound.consistent.slots_known i sv _ hsv he] at hunknown
      cases hunknown
    omega

/-! ## What a step of the infrastructure does -/

namespace Loop

variable {k : Ctl} {r : Registry} {env : Env} {p : Plan}

/-- The loop does not move into the last stage of a close event or of a server. -/
structure Stays (k : Ctl) (r : Registry) (k' : Ctl) : Prop where
  closing : k'.phase.closing = k.phase.closing
  reset : ∀ idx, k'.phase ≠ .resetServer idx
  cleanup : ∀ idx o, k'.phase = .onFinalCleanup idx o →
    k.phase = .onFinalCleanup idx o ∨ ∃ obj, r.client idx = .ok (o, obj)

inductive CloseStep (k : Ctl) (r : Registry) (p : Plan) : Prop
  | quiet (hops : ∀ op ∈ p.1, op.keepsSlots) (hnext : ∀ r', Stays k r (p.2 r'))
  | accept {i : Nat} {slot : Slot} {s : Nat} {srv : ServerObj} {osSocket : Nat}
      (hslot : r.ioSockets.slots[i]? = some slot) (hassociated : slot.associated)
      (hserver : r.server i = .ok (s, srv))
      (hops : p.1 = Program.consumeAcceptedSocket r i s osSocket)
      (hbetween : k.phase.between) (hnext : ∀ r', Stays k r (p.2 r'))
  | begins {ev : Pending} {rest : List Pending} (hphase : k.phase = .infraGetCloseEvent)
      (hbatch : (r.queue .close).batch = ev :: rest) (hops : p.1 = [.beginClose])
      (hnext : ∀ o obj r', r.client ev.idx = .ok (o, obj) →
        (p.2 r').phase = if obj.data.state = .ErrorClosing then .handleErrorEvent ev.idx
          else .emitClose ev.idx)
  | cleanup {idx o : Nat} {obj : SocketObj} (hphase : k.phase = .onFinalCleanup idx o)
      (hlive : r.liveSocket o = some obj)
      (hops : p.1 = Program.onFinalCleanup r o obj ++ [Op.endClose idx])
      (hnext : ∀ r', (p.2 r').phase = .infraGetCloseEvent)
  | reports {idx s : Nat} {srv : ServerObj} {slot : Slot} (hphase : k.phase = .infraGetCloseEvents)
      (hserver : r.server idx = .ok (s, srv)) (hslot : r.ioSockets.slots[idx]? = some slot)
      (hops : p.1 = rrOnClose r idx s srv slot) (hnext : ∀ r', (p.2 r').phase = .resetServer idx)
  | reset {idx : Nat} (hphase : k.phase = .resetServer idx) (hops : p.1 = [.resetEntry idx])
      (hnext : ∀ r', (p.2 r').phase = .infraGetCloseEvents)
  | rework (hphase : k.phase = .reworkIfNecessary) (hops : p.1 = [.reworkIfNecessary])
      (hnext : ∀ r', (p.2 r').phase = .infraEmitListeningEvents)

theorem CloseStep.failed (hphase : ∀ idx, k.phase ≠ .resetServer idx) :
    CloseStep k r (failed k) :=
  .quiet (by simp [Loop.failed]) fun _ => ⟨rfl, hphase, fun _ _ h => .inl h⟩

theorem Stays.of_between {k' : Ctl} (hk : k.phase.between) (hk' : k'.phase.between) :
    Stays k r k' := by
  refine ⟨(Phase.closing_of_between hk').trans (Phase.closing_of_between hk).symm, ?_, ?_⟩
  · intro idx h
    rw [h] at hk'
    cases hk'
  · intro idx o h
    rw [h] at hk'
    cases hk'

theorem Stays.of_polls {k' : Ctl} (hk : k.phase.polls) (h : Polls k k') : Stays k r k' := by
  refine .of_between (Phase.between_of_polls hk) ?_
  obtain h | h | h := h.phase
  · exact h ▸ Phase.between_of_polls hk
  · exact Phase.between_of_polls h
  · rw [h]
    rfl

/-- What a step of the infrastructure does to the slots is decided by its phase. -/
theorem step_closes (hp : step k r env = some p) : CloseStep k r p := by
  have hout : ∀ {ops : List Op} {f : Registry → Ctl}, k.phase.between →
      (∀ op ∈ ops, op.keepsSlots) → (∀ r', (f r').phase.between) → CloseStep k r (ops, f) :=
    fun hk hops hf => .quiet hops fun r' => .of_between hk (hf r')
  unfold step at hp
  generalize hphase : k.phase = ph at hp
  cases ph with
  | pollPhase2 pos =>
    cases hp
    have hpoll : PollOps r pos.i (pollPhase2 k r pos env).1 := pollPhase2_ops pos
    have hstays : ∀ r', Stays k r ((pollPhase2 k r pos env).2 r') := fun r' =>
      .of_polls (by rw [hphase]; rfl) (pollPhase2_polls pos)
    generalize pollPhase2 k r pos env = p at hpoll hstays
    generalize hops : p.1 = ops at hpoll
    cases hpoll with
    | entry h =>
      refine .quiet (fun op hop => ?_) hstays
      obtain ⟨c, rfl⟩ := h op (hops ▸ hop)
      rfl
    | accept osSocket hslot hassociated hserver =>
      exact .accept hslot hassociated hserver hops (by rw [hphase]; rfl) hstays
  -- the stages of a close event
  | infraGetCloseEvent =>
    cases hp
    unfold infraGetCloseEvent
    split
    · exact hout (by rw [hphase]; rfl) (by simp [Op.keepsSlots]) fun _ => rfl
    · rename_i ev rest hbatch
      split
      · refine .begins hphase hbatch rfl fun o obj r' hclient => ?_
        dsimp only
        rw [hclient]
        dsimp only
        split <;> rfl
      · exact hout (by rw [hphase]; rfl) (by simp [Op.keepsSlots]) fun _ => by rw [hphase]; rfl
  | handleErrorEvent idx | handleCloseEvent idx =>
    cases hp
    exact .quiet (by simp [Op.keepsSlots]) fun _ =>
      ⟨by rw [hphase]; rfl, by simp [Ctl.user], by simp [Ctl.user]⟩
  | emitClose idx =>
    cases hp
    unfold emitClose
    repeat' split
    · exact .failed (by simp [hphase])
    · exact .quiet (by simp [Op.keepsSlots]) fun _ =>
        ⟨by rw [hphase]; rfl, by simp [Ctl.user], by simp [Ctl.user]⟩
    · exact .quiet (by simp) fun _ =>
        ⟨by rw [hphase]; rfl, by simp [Ctl.go], by simp [Ctl.go]⟩
  | closed idx =>
    cases hp
    unfold closed
    split
    · exact .failed (by simp [hphase])
    · rename_i o obj hclient
      refine .quiet ?_ fun _ => ⟨by rw [hphase]; rfl, by simp [Ctl.user], ?_⟩
      · split <;> simp [Op.keepsSlots]
      · rintro idx' o' heq
        cases heq
        exact .inr ⟨obj, hclient⟩
  | onFinalCleanup idx o =>
    cases hp
    unfold onFinalCleanup
    split
    · exact .failed (by simp [hphase])
    · rename_i obj hlive
      exact .cleanup hphase hlive rfl fun _ => rfl
  -- the pass over the close events of servers
  | infraGetCloseEvents =>
    cases hp
    have hcases := infraGetCloseEvents_cases k r
    generalize infraGetCloseEvents k r = p at hcases
    cases hcases with
    | done hbatch =>
      exact hout (by rw [hphase]; rfl) (by simp [Op.keepsSlots]) fun _ => rfl
    | skipped hbatch hsize =>
      exact hout (by rw [hphase]; rfl) (by simp [Op.keepsSlots]) fun _ => by rw [hphase]; rfl
    | lost hbatch hserver => exact .failed (by simp [hphase])
    | event hbatch hsize hserver hslot => exact .reports hphase hserver hslot rfl fun _ => rfl
  | resetServer idx =>
    cases hp
    exact .reset hphase rfl fun _ => rfl
  | reworkIfNecessary =>
    cases hp
    exact .rework hphase rfl fun _ => rfl
  | returned =>
    cases hp
  -- between the close events
  | timers handlers =>
    cases handlers <;> cases hp <;> exact hout (by rw [hphase]; rfl) (by simp) fun _ => rfl
  | emitInmediates left =>
    cases left <;> cases hp <;>
      exact hout (by rw [hphase]; rfl) (by simp [Op.keepsSlots]) fun _ => rfl
  | wait =>
    cases hp
    unfold wait
    split
    · refine hout (by rw [hphase]; rfl) (by simp) fun _ => ?_
      dsimp only [Ctl.go]
      split <;> rfl
    · split
      · exact .failed (by simp [hphase])
      · refine hout (by rw [hphase]; rfl) (by simp [Op.keepsSlots]) fun _ => ?_
        dsimp only
        split <;> rfl
  | infraEmitListeningEvents | infraTimeoutEvents | infraProcessRemoteEnded
  | infraProcessWriteEvent | infraProcessSockAcceptedEvents =>
    have hk : k.phase.between := by rw [hphase]; rfl
    cases hp
    simp only [infraEmitListeningEvents, infraTimeoutEvents, infraProcessRemoteEnded,
      infraProcessWriteEvent, infraProcessSockAcceptedEvents, failed]
    repeat' split
    all_goals refine hout hk (by simp [Op.keepsSlots]) fun _ => ?_
    all_goals first | rfl | exact hk
  | afterReadHandler | afterRemoteEnded | handleConnectionEvent | handleServerError | closeServer =>
    cases hp
    exact hout (by rw [hphase]; rfl) (by simp [Op.keepsSlots]) fun _ => rfl

end Loop

/-! ## The slot of a close event -/

/-- User code destructs no object that remembers the slot of the close event that is being
processed, or a slot that another object holds. -/
def Op.sparesSlots (k : Ctl) (r : Registry) : Op → Bool
  | .destruct e =>
      !k.handler || (r.indexOf e).all fun i =>
        decide (r.view.closing ≠ some i) && (r.view.holder i).all fun e' => decide (e' = e)
  | _ => true

/-- The references of `infraGetCloseEvent` are valid: into `pendingCloseEvents` as long as there are
events to take or one is being processed, and to the entry of that one. -/
def Registry.closeRefs (r : Registry) : Bool :=
  (decide ((r.queue .close).batch = [] ∧ r.current = none) || !(r.queue .close).storage.moved) &&
    r.current.all fun ev => r.entryValid ev.idx

/-- The condition on an operation: it spares the slots, keeps the counters of the servers exact and
leaves the references of `infraGetCloseEvent` valid. -/
def Op.sparesClosing (k : Ctl) (r : Registry) (op : Op) : Bool :=
  op.sparesSlots k r && op.countsExactly r &&
    match op.run r with
    | .ok r' => r'.closeRefs
    | .error _ => true

/-- What the condition keeps of the counters and the references. -/
theorem Op.sparesClosing_kept {k : Ctl} {r r' : Registry} {op : Op} (h : op.sparesClosing k r)
    (hrun : op.run r = .ok r') (hcounts : r.CountsExactly) : r'.CountsExactly ∧ r'.closeRefs := by
  simp only [sparesClosing, Bool.and_eq_true, hrun] at h
  exact ⟨hcounts.step h.1.2 hrun, h.2⟩

/-- The run lemma. -/
theorem Registry.sparesClosing_run {k : Ctl} {r r' : Registry} {ops : List Op}
    (hcounts : r.CountsExactly) (hrefs : r.closeRefs)
    (hobeys : registry.obeys (fun r op => op.sparesClosing k r) r ops)
    (hrun : registry.run r ops = some r') : r'.CountsExactly ∧ r'.closeRefs :=
  registry.run_invariant (J := fun r => r.CountsExactly ∧ r.closeRefs)
    (fun _ _ _ hJ hG hs => Op.sparesClosing_kept hG (toOption_eq_some hs) hJ.1)
    ⟨hcounts, hrefs⟩ hobeys hrun

theorem Op.sparesSlots_of_sparesClosing {k : Ctl} {r : Registry} {op : Op}
    (h : op.sparesClosing k r) : op.sparesSlots k r := by
  simp only [sparesClosing, Bool.and_eq_true] at h
  exact h.1.1

/-- An operation under which the loop stays in its phase. -/
structure Op.Spares (ph : Phase) (r : Registry) (op : Op) : Prop where
  frees : ∀ i, (op.abs r).Frees i → r.view.closing ≠ some i ∧
    ∃ e, op = .destruct e ∧ ∀ e', r.view.holder i = some e' → e' = e
  current : (∀ e i, op.abs r ≠ .beginClose e i) ∧ ∀ i, op.abs r ≠ .endClose i
  renumber : op.abs r ≠ .renumber
  accept : ∀ osSocket s, op = .construct osSocket (some s) →
    ph.between ∧ ∃ i, r.view.holder i = some (.server s)

theorem Op.spares_of_keepsSlots {op : Op} (h : op.keepsSlots) (ph : Phase) (r : Registry) :
    op.Spares ph r := by
  obtain ⟨hfrees, hrenum, hbegin, hend⟩ := Op.keepsSlots_abs h r
  refine ⟨fun i hf => absurd hf (hfrees i), ⟨hbegin, hend⟩, hrenum, ?_⟩
  rintro osSocket s rfl
  cases h

theorem Call.program_accept {r : Registry} {c : Call} {ops : List Op} (h : c.program r = some ops) :
    ∀ op ∈ ops, ∀ osSocket s, op ≠ .construct osSocket (some s) := by
  rintro op hop osSocket s rfl
  cases Call.program_ops h with
  | plain hops => exact absurd (hops _ hop) (by simp [Op.OfCall])
  | close hc hlive => exact absurd (Program.closingProcedure_ops hop) (by simp)
  | destructServer hlive => exact Program.destructServer_ops r _ _ hop

theorem Registry.held_run {r r' : Registry} {ops : List Op} (hops : ∀ op ∈ ops, op.keepsSlots)
    (hrun : registry.run r ops = some r') (hsound : r.Sound) {i : Nat} {e : Emitter}
    (h : r.view.holder i = some e) : r'.view.holder i = some e := by
  refine (registry.run_kept_of_mem (J := fun r => r.Sound ∧ r.view.holder i = some e) ?_
    ⟨hsound, h⟩ hops hrun).2
  rintro r₁ op r₂ ⟨hsound₁, h₁⟩ hop hstep
  obtain ⟨hfrees, hrenum, -⟩ := Op.keepsSlots_abs hop r₁
  exact ⟨hsound₁.step hstep,
    Op.holder_kept hsound₁ (toOption_eq_some hstep) (hfrees i) hrenum h₁⟩

def Op.OfCleanup (idx o : Nat) : Op → Prop
  | .destruct e => e = .client o
  | .endClose i => i = idx
  | .sock .. | .setRefed .. | .at' _ | .queue .. => True
  | _ => False

theorem Program.destructSocket_cleanup (idx o : Nat) (obj : SocketObj) :
    ∀ op ∈ destructSocket o obj, op.OfCleanup idx o := by
  unfold destructSocket
  split <;> simp [Op.OfCleanup]

theorem Program.onFinalCleanup_cleanup (r : Registry) (idx o : Nat) (obj : SocketObj) :
    ∀ op ∈ onFinalCleanup r o obj ++ [Op.endClose idx], op.OfCleanup idx o := by
  unfold onFinalCleanup destructSocket appReportAllAceptedConnectionsEnded
  repeat' split
  all_goals simp [Op.OfCleanup]

/-- They give up one slot, if the socket remembers no other. -/
theorem Op.OfCleanup.abs {r r' : Registry} {op : Op} {idx o : Nat} (h : op.OfCleanup idx o)
    (hrun : op.run r = .ok r') (hindex : ∀ j, r.view.index (.client o) = some j → j = idx) :
    (∀ e i, op.abs r ≠ .issue e i) ∧ op.abs r ≠ .renumber ∧
      ∀ i, (op.abs r).Frees i → i = idx := by
  cases op with
  | destruct e =>
    obtain rfl : e = .client o := h
    refine ⟨by simp [Op.abs], by simp [Op.abs], fun i hf => ?_⟩
    obtain ⟨j, hj, -⟩ := Registry.destruct_indexOf (e := .client o) hrun
    have hf' : (r.indexOf (.client o)).getD 0 = i := hf
    rw [hj, Option.getD_some] at hf'
    exact hf' ▸ hindex j hj
  | endClose i =>
    obtain rfl : i = idx := h
    exact ⟨by simp [Op.abs], by simp [Op.abs], fun j hf => Eq.symm hf⟩
  | sock o' c =>
    simp only [Op.abs, Registry.absSock]
    split <;> simp [ViewOp.Frees]
  | setRefed | at' | queue => simp [Op.abs, ViewOp.Frees]
  | _ => exact h.elim

/-- The slot of the close event that is being processed is held by a client socket: the one that is
cleaned up, in the last stage. No event is processed between the stages, and the server whose entry
is about to be reset has no accepted sockets. -/
structure Registry.ClosingHeld (ph : Phase) (r : Registry) : Prop where
  sound : r.Sound
  accepted : r.AcceptedHeld
  slot : ∀ idx, ph.closing = some idx →
    r.view.closing = some idx ∧ ∃ o, r.view.holder idx = some (.client o)
  cleanup : ∀ idx o, ph = .onFinalCleanup idx o → r.view.holder idx = some (.client o)
  idle : ph.closing = none → r.current = none
  reset : ∀ idx s, ph = .resetServer idx → r.view.holder idx = some (.server s) →
    r.acceptedCount s = 0

theorem Registry.ClosingHeld.between {r : Registry} {ph : Phase} (hph : ph.closing = none)
    (hsound : r.Sound) (haccepted : r.AcceptedHeld) (hcurrent : r.current = none)
    (hreset : ∀ idx s, ph = .resetServer idx → r.view.holder idx = some (.server s) →
      r.acceptedCount s = 0) : r.ClosingHeld ph where
  sound := hsound
  accepted := haccepted
  slot idx h := absurd (hph.symm.trans h) (by simp)
  cleanup idx o h := absurd (h ▸ hph) (by simp [Phase.closing])
  idle _ := hcurrent
  reset := hreset

theorem Registry.endClose_current {r r' : Registry} {i : Nat} (h : r.endClose i = .ok r') :
    r'.current = none := by
  unfold endClose at h
  split at h
  · obtain ⟨t, -, h⟩ := bind_eq_ok h
    cases h
    rfl
  · cases h

namespace Registry.ClosingHeld

variable {ph : Phase} {k k' : Ctl} {r r' : Registry} {op : Op} {ops : List Op}

theorem init : Registry.init.ClosingHeld Loop.init.1.phase := by
  refine ⟨.init, ⟨?_, fun _ _ => rfl⟩, nofun, nofun, fun _ => rfl, nofun⟩
  intro s hcount
  exact absurd hcount (by simp [acceptedCount, Registry.init])

/-- The step lemma of a phase. -/
theorem step (h : r.ClosingHeld ph) (hspares : op.Spares ph r) (hrun : op.run r = .ok r') :
    r'.ClosingHeld ph := by
  have hstep := op.run_step h.sound hrun
  have hcurrent : r'.current = r.current := hstep.current_eq hspares.current.1 hspares.current.2
  have hkept : ∀ {idx e}, ph.closing = some idx → r.view.holder idx = some e →
      r'.view.holder idx = some e := fun hidx hi =>
    Op.holder_kept h.sound hrun (fun hf => (hspares.frees _ hf).1 (h.slot _ hidx).1)
      hspares.renumber hi
  refine ⟨h.sound.op hrun, ?_, ?_, ?_, ?_, ?_⟩
  · -- a slot is given up by the object that is destructed
    refine h.accepted.step h.sound hrun ?_ fun osSocket s hop => (hspares.accept osSocket s hop).2
    intro i s hfree hi
    obtain ⟨-, e, rfl, he⟩ := hspares.frees i hfree
    cases he _ hi
    exact .inl hstep.release_index
  · intro idx hidx
    obtain ⟨hclosing, o, ho⟩ := h.slot idx hidx
    refine ⟨?_, o, hkept hidx ho⟩
    show r'.current.map Pending.idx = some idx
    rw [hcurrent]
    exact hclosing
  · rintro idx o rfl
    exact hkept rfl (h.cleanup idx o rfl)
  · intro hnone
    rw [hcurrent]
    exact h.idle hnone
  · -- the server whose entry is about to be reset gets no socket
    rintro idx s rfl hi
    have hle : r'.acceptedCount s ≤ r.acceptedCount s :=
      op.run_acceptedCount_le hrun fun osSocket hop => nomatch (hspares.accept osSocket s hop).1
    have hzero : r.acceptedCount s = 0 := by
      obtain hsame | ⟨e, hop, -, he, -⟩ | ⟨-, hnone⟩ | hop :=
        hstep.holder_cases h.sound.consistent idx
      · exact h.reset idx s rfl (hsame ▸ hi)
      · -- a new server has no accepted sockets
        cases he.symm.trans hi
        rw [hop] at hstep
        exact h.accepted.unborn s hstep.issue_known
      · rw [hnone] at hi
        cases hi
      · exact absurd hop hspares.renumber
    omega

/-- The run lemma of a phase. -/
theorem run (h : r.ClosingHeld ph) (hspares : registry.obeys (Op.Spares ph) r ops)
    (hrun : registry.run r ops = some r') : r'.ClosingHeld ph :=
  registry.run_invariant (J := ClosingHeld ph)
    (fun _ _ _ hJ hG hs => hJ.step hG (toOption_eq_some hs)) h hspares hrun

theorem call (h : r.ClosingHeld ph) (hhandler : k.handler = true) {c : Call}
    (hprogram : c.program r = some ops)
    (hobeys : registry.obeys (fun r op => op.sparesClosing k r) r ops)
    (hrun : registry.run r ops = some r') : r'.ClosingHeld ph := by
  refine registry.run_invariant (J := ClosingHeld ph) ?_ h
    (registry.obeys_and_mem
      (P := fun op => op.ofUser ∧ ∀ osSocket s, op ≠ .construct osSocket (some s))
      hobeys fun op hop =>
        ⟨Call.program_ofUser hprogram op hop, Call.program_accept hprogram op hop⟩) hrun
  rintro r₁ op r₂ h₁ ⟨hguard, huser, haccept⟩ hstep
  have hrun₁ := toOption_eq_some hstep
  obtain ⟨hfrees, hrenum⟩ := Op.ofUser_abs huser r₁
  have habs : (∀ e i, op.abs r₁ ≠ .beginClose e i) ∧ ∀ i, op.abs r₁ ≠ .endClose i := by
    cases op <;> (try cases huser) <;> simp only [Op.abs, absSock] <;> (try split) <;> simp
  refine h₁.step ⟨?_, habs, hrenum, fun osSocket s hop => absurd hop (haccept osSocket s)⟩ hrun₁
  intro i hfree
  obtain ⟨e, rfl, hidx⟩ := hfrees i hfree
  obtain ⟨j, hj, -⟩ := destruct_indexOf hrun₁
  rw [hj, Option.getD_some] at hidx
  subst hidx
  have hguard := Op.sparesSlots_of_sparesClosing hguard
  simp only [Op.sparesSlots, hhandler, hj, Bool.not_true, Bool.false_or, Option.all_some,
    Bool.and_eq_true, decide_eq_true_eq] at hguard
  refine ⟨hguard.1, e, rfl, fun e' he' => ?_⟩
  rw [he'] at hguard
  exact of_decide_eq_true hguard.2

theorem stays (h : r'.ClosingHeld k.phase) (hstays : Loop.Stays k r k')
    (hclient : ∀ idx o obj, k.phase.closing = some idx → r.client idx = .ok (o, obj) →
      r'.view.holder idx = some (.client o)) : r'.ClosingHeld k'.phase := by
  refine ⟨h.sound, h.accepted, ?_, ?_, ?_, ?_⟩
  · intro idx hidx
    exact h.slot idx (hstays.closing ▸ hidx)
  · intro idx o hphase
    rcases hstays.cleanup idx o hphase with hsame | ⟨obj, hobj⟩
    · exact h.cleanup idx o hsame
    · refine hclient idx o obj ?_ hobj
      rw [← hstays.closing, hphase]
      rfl
  · rw [hstays.closing]
    exact h.idle
  · intro idx s hphase
    exact absurd hphase (hstays.reset idx)

theorem quiet (h : r.ClosingHeld k.phase) (hops : ∀ op ∈ ops, op.keepsSlots)
    (hrun : registry.run r ops = some r') (hstays : Loop.Stays k r k') :
    r'.ClosingHeld k'.phase := by
  have h' : r'.ClosingHeld k.phase := h.run (registry.obeys_mono
    (fun r op hop => Op.spares_of_keepsSlots hop k.phase r) (registry.obeys_of_mem hops)) hrun
  refine h'.stays hstays fun idx o obj hidx hobj => ?_
  obtain ⟨-, o', ho'⟩ := h.slot idx hidx
  obtain ⟨obj', hobj', -⟩ := client_of_holder h.sound ho'
  cases hobj.symm.trans hobj'
  exact held_run hops hrun h.sound ho'

theorem accept (h : r.ClosingHeld k.phase) {i s osSocket : Nat} {slot : Slot} {srv : ServerObj}
    (hslot : r.ioSockets.slots[i]? = some slot) (hassociated : slot.associated)
    (hserver : r.server i = .ok (s, srv)) (hbetween : k.phase.between)
    (hrun : registry.run r (Program.consumeAcceptedSocket r i s osSocket) = some r')
    (hstays : Loop.Stays k r k') : r'.ClosingHeld k'.phase := by
  have hholder : r.view.holder i = some (.server s) := by
    obtain ⟨slot', hslot', hem, -⟩ := server_eq_ok hserver
    cases hslot.symm.trans hslot'
    exact View.holder_eq_some.mpr ⟨_, view_slot hslot, Slot.used_of_associated hassociated, hem⟩
  have h' : r'.ClosingHeld k.phase := by
    refine h.run ?_ hrun
    refine ⟨?_, fun r₁ _ => registry.obeys_mono
      (fun r op hop => Op.spares_of_keepsSlots hop k.phase r) (registry.obeys_of_mem ?_)⟩
    · refine ⟨fun j hf => hf.elim, ⟨by simp [Op.abs], by simp [Op.abs]⟩, by simp [Op.abs], ?_⟩
      rintro osSocket' s' heq
      cases heq
      exact ⟨hbetween, i, hholder⟩
    · simp [Program.infraAddAccepted, Op.keepsSlots]
  refine h'.stays hstays fun idx o obj hidx => ?_
  rw [Phase.closing_of_between hbetween] at hidx
  cases hidx

theorem begins (h : r.ClosingHeld ph) {ev : Pending} {rest : List Pending}
    (hbatch : (r.queue .close).batch = ev :: rest) (hrun : Op.beginClose.run r = .ok r') :
    ∃ o obj, r.client ev.idx = .ok (o, obj) ∧
      ∀ ph', ph' = .handleErrorEvent ev.idx ∨ ph' = .emitClose ev.idx → r'.ClosingHeld ph' := by
  have hstep := Op.beginClose.run_step h.sound hrun
  obtain ⟨o, obj, hclient, hused, hcurrent⟩ : ∃ o obj, r.client ev.idx = .ok (o, obj) ∧
      (∃ s, r.view.slot ev.idx = some s ∧ s.used) ∧ r'.current = some ev := by
    obtain ⟨ev', rest', s, o, obj, t, hbatch', -, hs, hclient, -, rfl⟩ := beginClose_eq_ok hrun
    cases hbatch.symm.trans hbatch'
    obtain ⟨-, hs, hused⟩ := NetSockets.at'_eq_ok hs
    exact ⟨o, obj, hclient, ⟨s.view, view_slot hs, hused⟩, rfl⟩
  obtain ⟨s, hs, hused⟩ := hused
  have habs : Op.beginClose.abs r = .beginClose (.client o) ev.idx := by
    simp only [Op.abs, hbatch, hclient]
  have hholder : r'.view.holder ev.idx = some (.client o) := by
    obtain ⟨slot, hslot, hem, -⟩ := client_eq_ok hclient
    refine Op.holder_kept h.sound hrun (by rw [habs]; exact id) (by rw [habs]; simp) ?_
    cases hs.symm.trans (view_slot hslot)
    exact View.holder_eq_some.mpr ⟨_, hs, hused, hem⟩
  have haccepted : r'.AcceptedHeld := by
    refine h.accepted.step h.sound hrun (fun i s hf => ?_) (by simp)
    rw [habs] at hf
    exact hf.elim
  -- both stages a close event can start with are those of its slot
  refine ⟨o, obj, hclient, fun ph' hph' => ?_⟩
  have hclosing : ph'.closing = some ev.idx := by
    rcases hph' with rfl | rfl <;> rfl
  refine ⟨h.sound.op hrun, haccepted, ?_, ?_, ?_, ?_⟩
  · intro idx hidx
    cases hclosing.symm.trans hidx
    refine ⟨?_, o, hholder⟩
    show r'.current.map Pending.idx = some ev.idx
    rw [hcurrent]
    rfl
  · rintro idx o' rfl
    rcases hph' with h | h <;> cases h
  · intro hnone
    rw [hclosing] at hnone
    cases hnone
  · rintro idx s' rfl
    rcases hph' with h | h <;> cases h

/-- The run lemma of the end of a socket: its slot is given up, and no other object loses its
own. -/
theorem cleanup_run {idx o : Nat} (h : r.ClosingHeld (.onFinalCleanup idx o))
    (hops : ∀ op ∈ ops, op.OfCleanup idx o) (hrun : registry.run r ops = some r') :
    r'.Sound ∧ r'.AcceptedHeld ∧
      ∀ j e, j ≠ idx → r.view.holder j = some e → r'.view.holder j = some e := by
  have hheld := h.cleanup idx o rfl
  have hknown : r.view.known (.client o) := by
    obtain ⟨s, hs, -, he⟩ := View.holder_eq_some.mp hheld
    exact h.sound.consistent.slots_known idx s _ hs he
  -- until it is gone, the socket remembers the slot, which is no server's
  have hinv := registry.run_kept_of_mem (J := fun r₁ => (r₁.Sound ∧ r₁.AcceptedHeld ∧
      ∀ j e, j ≠ idx → r.view.holder j = some e → r₁.view.holder j = some e) ∧
      (∀ s, r₁.view.holder idx ≠ some (.server s)) ∧ r₁.view.known (.client o) ∧
      ∀ j, r₁.view.index (.client o) = some j → j = idx) ?_
    ⟨⟨h.sound, h.accepted, fun _ _ _ hj => hj⟩, by simp [hheld], hknown, fun j hj =>
      Option.some.inj (hj.symm.trans (h.sound.consistent.index_of_holder hheld))⟩ hops hrun
  · exact hinv.1
  · rintro r₁ op r₂ ⟨⟨hsound, haccepted, hothers⟩, hserver, hknown, hindex⟩ hop hs
    have hok := toOption_eq_some hs
    have hstep := op.run_step hsound hok
    obtain ⟨hissue, hrenum, hfrees⟩ := hop.abs hok hindex
    refine ⟨⟨hsound.step hs, ?_, ?_⟩, ?_, hstep.known_mono hknown, ?_⟩
    · refine haccepted.step hsound hok (fun i s hf hi => ?_) ?_
      · exact absurd (hfrees i hf ▸ hi) (hserver s)
      · rintro osSocket s rfl
        exact absurd rfl (hissue _ _)
    · intro j e hj hold
      exact Op.holder_kept hsound hok (fun hf => hj (hfrees j hf)) hrenum (hothers j e hj hold)
    · intro s hi
      exact hserver s (hstep.holder_of_holder hsound.consistent hissue hrenum hi)
    · intro j hj
      exact hindex j (hstep.index_of_index hsound.consistent hrenum hknown hj)

/-- The step lemma of the infrastructure. The counter of a server that reports is 0, and so is the
number of its accepted sockets. -/
theorem infra {p : Plan} (h : r.ClosingHeld k.phase) (hcounts : r.CountsExactly)
    (hclose : Loop.CloseStep k r p) (hrun : registry.run r p.1 = some r') :
    r'.ClosingHeld (p.2 r').phase := by
  cases hclose with
  | quiet hops hnext => exact h.quiet hops hrun (hnext r')
  | accept hslot hassociated hserver hops hbetween hnext =>
    rw [hops] at hrun
    exact h.accept hslot hassociated hserver hbetween hrun (hnext r')
  | begins hphase hbatch hops hnext =>
    rw [hops] at hrun
    obtain ⟨o, obj, hclient, hheld⟩ := h.begins hbatch (Loop.run_singleton hrun)
    refine hheld _ ?_
    rw [hnext o obj r' hclient]
    split
    · exact .inl rfl
    · exact .inr rfl
  | cleanup hphase hlive hops hnext =>
    rw [hops] at hrun
    rw [hphase] at h
    obtain ⟨hsound, haccepted, -⟩ :=
      h.cleanup_run (Program.onFinalCleanup_cleanup r _ _ _) hrun
    rw [registry.run_append] at hrun
    obtain ⟨r₁, -, hend⟩ := Option.bind_eq_some_iff.mp hrun
    rw [hnext]
    exact between rfl hsound haccepted (endClose_current (Loop.run_singleton hend)) (by simp)
  | @reports idx s srv slot hphase hserver hslot hops hnext =>
    rw [hops] at hrun
    -- the counter was 0, and none of these operations accepts a socket
    obtain ⟨hused, -, -, hzero, -⟩ := Loop.rrOnClose_run hslot hrun
    have hkeeps : ∀ op ∈ Loop.rrOnClose r idx s srv slot, op.keepsSlots := by
      simp [Loop.rrOnClose, Op.keepsSlots]
    have h' : r'.ClosingHeld k.phase := h.run (registry.obeys_mono
      (fun r op hop => Op.spares_of_keepsSlots hop k.phase r) (registry.obeys_of_mem hkeeps)) hrun
    have hholder : r.view.holder idx = some (.server s) := by
      obtain ⟨slot', hslot', hem, -⟩ := server_eq_ok hserver
      cases hslot.symm.trans hslot'
      exact View.holder_eq_some.mpr ⟨_, view_slot hslot, hused, hem⟩
    have hempty : r'.acceptedCount s = 0 := by
      refine registry.run_kept_of_mem (J := fun r => r.acceptedCount s = 0) ?_
        ((hcounts.getSockCount_eq_iff s).mp hzero) hkeeps hrun
      intro r₁ op r₂ hJ hop hs
      have hle := op.run_acceptedCount_le (n := s) (toOption_eq_some hs) <| by
        rintro osSocket rfl
        cases hop
      omega
    rw [hnext]
    refine between rfl h'.sound h'.accepted (h'.idle (by rw [hphase]; rfl)) ?_
    intro idx' s' heq hi
    cases heq
    cases (held_run hkeeps hrun h.sound hholder).symm.trans hi
    exact hempty
  | @reset idx hphase hops hnext =>
    rw [hops] at hrun
    have hok := Loop.run_singleton hrun
    have hstep := (Op.resetEntry idx).run_step h.sound hok
    rw [hnext]
    refine between rfl (h.sound.op hok) ?_ ?_ (by simp)
    · -- the slot is given up by a server without sockets
      refine h.accepted.step h.sound hok (fun i s hf hi => .inr ?_) (by simp)
      cases hf
      have hle := (Op.resetEntry idx).run_acceptedCount_le (n := s) hok (by simp)
      have hzero := h.reset idx s hphase hi
      omega
    · exact (hstep.current_eq (by simp [Op.abs]) (by simp [Op.abs])).trans
        (h.idle (by rw [hphase]; rfl))
  | rework hphase hops hnext =>
    rw [hops] at hrun
    have hok := Loop.run_singleton hrun
    have hstep := Op.reworkIfNecessary.run_step h.sound hok
    have habs : (∀ i, ¬(Op.reworkIfNecessary.abs r).Frees i) ∧
        (∀ e i, Op.reworkIfNecessary.abs r ≠ .beginClose e i) ∧
        ∀ i, Op.reworkIfNecessary.abs r ≠ .endClose i := by
      simp only [Op.abs]
      split <;> simp [ViewOp.Frees]
    rw [hnext]
    refine between rfl (h.sound.op hok) ?_ ?_ (by simp)
    · exact h.accepted.step h.sound hok (fun i s hf => absurd hf (habs.1 i)) (by simp)
    · exact (hstep.current_eq habs.2.1 habs.2.2).trans (h.idle (by rw [hphase]; rfl))

end Registry.ClosingHeld

end NodeCpp
