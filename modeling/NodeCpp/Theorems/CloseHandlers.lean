import NodeCpp.Loop.CloseStages
import NodeCpp.Theorems.DestructFrame

/-!
# Handlers of a close event

Between the stages of a close event `infraGetCloseEvent` asks the entry whether it is
still used, but not everywhere: the accesses right behind `emitError` and `emitClose`,
and the one to `onFinalCleanup`, take the socket for granted. A handler that destructs
the socket is followed by a failed assertion.

* `Op.sparesClosing` -- the condition: on what user code destructs, and that no vector
  moves under the references to the event and its entry.
* `close_event_goes_on` -- every stage is followed by the next, and the last by the next
  event.
* `close_event_stops` -- the socket is destructed by its error handler, and by its close
  handler.
-/

namespace NodeCpp

open Lib

/-! ## The stages meet their assertions -/

namespace NetSockets

variable {t : NetSockets} {idx : Nat} {s : Slot}

theorem resetEntry_ok (h : t.slotAt idx = .ok s) : ∃ t', t.resetEntry idx = .ok t' := by
  simp only [resetEntry, h, bind, Except.bind]
  exact ⟨_, rfl⟩

end NetSockets

/-- The operations that take no event of a vector. -/
def Op.ofStage : Op → Bool
  | .take _ | .start _ | .beginClose => false
  | _ => true

theorem Op.ofStage_abs {op : Op} (h : op.ofStage) (r : Registry) :
    (op.abs r).taken r.view .close = [] ∧ op.abs r ≠ .start .close ∧
      ∀ e i, op.abs r ≠ .beginClose e i := by
  cases op with
  | take | start | beginClose => cases h
  | sock o c | entrySock i c | listening i | queueServerError i | reworkIfNecessary =>
    simp only [Op.abs, Registry.absSock]
    split <;> simp [ViewOp.taken]
  | _ => simp [Op.abs, ViewOp.taken]

theorem Op.abs_ne_endClose {op : Op} (h : ∀ i, op ≠ .endClose i) (r : Registry) (i : Nat) :
    op.abs r ≠ .endClose i := by
  cases op with
  | endClose j => exact absurd rfl (h j)
  | beginClose =>
    simp only [Op.abs]
    (repeat' split) <;> simp
  | sock o c | entrySock i c | listening i | queueServerError i | reworkIfNecessary =>
    simp only [Op.abs, Registry.absSock]
    split <;> simp
  | _ => simp [Op.abs]

namespace Registry

variable {r r' : Registry} {idx o : Nat} {obj : SocketObj}

theorem slotAt_of_holder (hsound : r.Sound) {e : Emitter} (h : r.view.holder idx = some e) :
    ∃ s, r.ioSockets.slotAt idx = .ok s := by
  obtain ⟨s, hs, hused, -⟩ := slot_of_holder hsound h
  exact ⟨s, hsound.framed.slotAt_of_used hs hused⟩

theorem live_of_holder (hsound : r.Sound) (h : r.view.holder idx = some (.client o)) :
    ∃ obj, r.liveSocket o = some obj ∧ obj.data.index = idx := by
  obtain ⟨s, -, -, -, -, hlive⟩ := slot_of_holder hsound h
  exact Option.map_eq_some_iff.mp hlive

theorem setRefed_run (hsound : r.Sound) {e : Emitter} (h : r.view.holder idx = some e) :
    ∃ r', (Op.setRefed idx false).run r = .ok r' := by
  obtain ⟨s, hs⟩ := slotAt_of_holder hsound h
  simp only [Op.run, onTable, NetSockets.setRefed_ok hs false (by simp), bind, Except.bind]
  exact ⟨_, rfl⟩

theorem batch_run {ops : List Op} (hops : ∀ op ∈ ops, op.ofStage)
    (hrun : registry.run r ops = some r') (hsound : r.Sound) :
    (r'.queue .close).batch = (r.queue .close).batch := by
  refine (registry.run_kept_of_mem (J := fun r₁ => r₁.Sound ∧
    (r₁.queue .close).batch = (r.queue .close).batch) ?_ ⟨hsound, rfl⟩ hops hrun).2
  rintro r₁ op r₂ ⟨hsound₁, hbatch⟩ hop hs
  have hstep := op.run_step hsound₁ (toOption_eq_some hs)
  obtain ⟨htaken, hstart, -⟩ := Op.ofStage_abs hop r₁
  exact ⟨hsound₁.step hs, (hstep.batch_eq htaken hstart).trans hbatch⟩

theorem current_run {ops : List Op} (hops : ∀ op ∈ ops, op.ofStage ∧ ∀ i, op ≠ .endClose i)
    (hrun : registry.run r ops = some r') (hsound : r.Sound) : r'.current = r.current := by
  refine (registry.run_kept_of_mem (J := fun r₁ => r₁.Sound ∧ r₁.current = r.current) ?_
    ⟨hsound, rfl⟩ hops hrun).2
  rintro r₁ op r₂ ⟨hsound₁, hcurrent⟩ ⟨hop, hend⟩ hs
  have hstep := op.run_step hsound₁ (toOption_eq_some hs)
  obtain ⟨-, -, hbegin⟩ := Op.ofStage_abs hop r₁
  exact ⟨hsound₁.step hs,
    (hstep.current_eq hbegin (Op.abs_ne_endClose hend r₁)).trans hcurrent⟩

/-- While an event is processed, the references to it and to its entry are valid. -/
theorem refsValid_of_closing (h : r.closeRefs) (hclosing : r.view.closing = some idx) :
    r.refsValid idx := by
  obtain ⟨ev, hev, rfl⟩ := Option.map_eq_some_iff.mp (show r.current.map Pending.idx = _ from hclosing)
  simp only [closeRefs, hev, reduceCtorEq, and_false, decide_false, Bool.false_or,
    Option.all_some] at h
  exact h

theorem endClose_run (hrefs : r.closeRefs) (hcurrent : r.view.closing = some idx) {s : Slot}
    (hs : r.ioSockets.slotAt idx = .ok s) : ∃ r', registry.run r [.endClose idx] = some r' := by
  obtain ⟨t, ht⟩ := NetSockets.resetEntry_ok hs
  have hvalid := refsValid_of_closing hrefs hcurrent
  have hcurrent : r.current.map Pending.idx = some idx := hcurrent
  refine ⟨{ r with ioSockets := t, current := none }, run_singleton_ok ?_⟩
  simp only [Op.run, endClose, hcurrent, hvalid, and_self, if_true, ht, bind, Except.bind]

theorem report_ok (hsound : r.Sound) {s j : Nat} (hj : r.view.holder j = some (.server s)) :
    ∃ evs, registry.run r (Program.appReportAllAceptedConnectionsEnded s j) =
      some (r.pushAll .serverClose evs) := by
  obtain ⟨slot, hslot⟩ := at_of_holder hsound hj
  have hindex : r.indexOf (.server s) = some j := hsound.consistent.index_of_holder hj
  have hat : (Op.at' j).run r = .ok r := by simp only [Op.run, hslot, Except.map]
  refine ⟨[{ idx := j, owner := .server s }], run_cons_ok hat (run_singleton_ok ?_)⟩
  simp only [Op.run, queueEvent, hindex]

/-- `onFinalCleanup` on the socket of the event, and the end of the event. -/
theorem ClosingHeld.cleanup_ok {k : Ctl} (h : r.ClosingHeld (.onFinalCleanup idx o))
    (hcounts : r.CountsExactly) (hrefs : r.closeRefs) (hlive : r.liveSocket o = some obj)
    (hobeys : registry.obeys (fun r op => op.sparesClosing k r) r
      (Program.onFinalCleanup r o obj ++ [Op.endClose idx])) :
    ∃ r', registry.run r (Program.onFinalCleanup r o obj ++ [Op.endClose idx]) = some r' := by
  have hheld := h.cleanup idx o rfl
  obtain ⟨hclosing, -⟩ := h.slot idx rfl
  obtain hnil | ⟨n, srv, hserver, hsrv, hops⟩ := Program.onFinalCleanup_cases r o obj
  · rw [hnil]
    obtain ⟨s, hs⟩ := slotAt_of_holder h.sound hheld
    exact endClose_run hrefs hclosing hs
  have hindex : obj.data.index = idx := by
    obtain ⟨obj', hobj', hidx⟩ := live_of_holder h.sound hheld
    cases hlive.symm.trans hobj'
    exact hidx
  obtain ⟨s, hs⟩ := slotAt_of_holder h.sound hheld
  rw [← hindex] at hs
  obtain ⟨r₁, obj₁, s₁, hr₁, -, -, hs₁, -⟩ := destructSocket_run hlive hs
  rw [hindex] at hs₁
  obtain ⟨hsound₁, -, hothers⟩ := h.cleanup_run (Program.destructSocket_cleanup idx o obj) hr₁
  have hclosing₁ : r₁.view.closing = some idx := by
    have hstage : ∀ op ∈ Program.destructSocket o obj, op.ofStage ∧ ∀ i, op ≠ .endClose i := by
      unfold Program.destructSocket
      split <;> simp [Op.ofStage]
    show r₁.current.map Pending.idx = some idx
    rw [current_run hstage hr₁ h.sound]
    exact hclosing
  rw [hops, List.append_assoc] at hobeys ⊢
  obtain ⟨hobeys₁, hobeys₂⟩ := (registry.obeys_append hr₁).mp hobeys
  obtain ⟨hcounts₁, hrefs₁⟩ := sparesClosing_run hcounts hrefs hobeys₁ hr₁
  rw [registry.run_append, hr₁, Option.bind_some]
  split
  · rename_i hlast
    rw [if_pos hlast] at hobeys₂
    -- the server keeps its slot: it has an accepted socket
    obtain ⟨j, hj⟩ := h.accepted.held n (acceptedCount_pos hlive hserver)
      (by rw [indexOf, hsrv]; simp)
    have hsrvIndex : srv.index = j := by
      have hidx := h.sound.consistent.index_of_holder hj
      rw [view_index_server hsrv] at hidx
      exact Option.some.inj hidx
    have hne : j ≠ idx := by
      rintro rfl
      cases hheld.symm.trans hj
    obtain ⟨evs, hreport⟩ := report_ok hsound₁ (hothers j _ hne hj)
    rw [hsrvIndex] at hobeys₂ ⊢
    obtain ⟨hobeys₂, -⟩ := (registry.obeys_append hreport).mp hobeys₂
    obtain ⟨-, hrefs₂⟩ := sparesClosing_run hcounts₁ hrefs₁ hobeys₂ hreport
    rw [registry.run_append, hreport, Option.bind_some]
    exact endClose_run hrefs₂ hclosing₁ hs₁
  · exact endClose_run hrefs₁ hclosing₁ hs₁

theorem beginClose_run (hsound : r.Sound) (hcurrent : r.current = none) {ev : Pending}
    {rest : List Pending} (hbatch : (r.queue .close).batch = ev :: rest)
    (h : r.view.holder ev.idx = some (.client o)) :
    ∃ r', registry.run r [.beginClose] = some r' ∧ (r'.queue .close).batch = rest := by
  obtain ⟨obj, hclient, -, hentry⟩ := client_of_holder hsound h
  obtain ⟨s, hat⟩ := at_of_holder hsound h
  have hindex : s.entry.index = ev.idx := by
    obtain ⟨-, hs, -⟩ := NetSockets.at'_eq_ok hat
    rw [← hentry, entry_of_slot hs]
  obtain ⟨t, ht⟩ : ∃ t, r.ioSockets.setSocketClosed ev.idx = .ok t := by
    simp only [NetSockets.setSocketClosed, hat, bind, Except.bind]
    exact ⟨_, rfl⟩
  have hbegin : Op.beginClose.run r = .ok { r with
      ioSockets := t
      accum := r.accum.refer
      sockets := r.sockets.set o { obj with closes := obj.closes + 1 }
      queue := Function.update r.queue .close (r.queue .close).take
      current := some ev } := by
    simp only [Op.run, beginClose, hbatch, hcurrent, hat, hclient, hindex, ht, bind, Except.bind]
  exact ⟨_, run_singleton_ok hbegin, by simp [EventQueue.take, hbatch]⟩

end Registry

/-! ## Every stage is followed by the next -/

/-- The stages of the close event of a slot. -/
inductive Phase.CloseNext (idx : Nat) : Phase → Phase → Prop
  | emitError : CloseNext idx .infraGetCloseEvent (.handleErrorEvent idx)
  | noError : CloseNext idx .infraGetCloseEvent (.emitClose idx)
  | emitClose : CloseNext idx (.handleErrorEvent idx) (.emitClose idx)
  | handleCloseEvent : CloseNext idx (.emitClose idx) (.handleCloseEvent idx)
  | closed : CloseNext idx (.handleCloseEvent idx) (.closed idx)
  | onFinalCleanup (o : Nat) : CloseNext idx (.closed idx) (.onFinalCleanup idx o)
  | next (o : Nat) : CloseNext idx (.onFinalCleanup idx o) .infraGetCloseEvent

namespace Loop

variable {w w' : Ctl × Registry} {idx : Nat} {env : Env}

/-- The loop is in the midst of the close event of a slot, or about to process the event of a slot
that a client socket holds. -/
def Closes (w : Ctl × Registry) (idx : Nat) : Prop :=
  w.1.phase.closing = some idx ∨
    w.1.phase = .infraGetCloseEvent ∧ (w.2.queue .close).batch.head?.map Pending.idx = some idx ∧
      ∃ o, w.2.view.holder idx = some (.client o)

structure GoesOn (w : Ctl × Registry) (idx : Nat) (w' : Ctl × Registry) : Prop where
  running : w'.1.aborted = false
  next : w.1.phase.CloseNext idx w'.1.phase
  batch : (w'.2.queue .close).batch =
    if w.1.phase = .infraGetCloseEvent then (w.2.queue .close).batch.tail
    else (w.2.queue .close).batch

theorem valid_of_closing {r : Registry} {ph : Phase} (hrefs : r.closeRefs)
    (hidx : ph.closing = some idx) (hclosing : r.view.closing = some idx) :
    dangling r ph = false := by
  have hvalid := Registry.refsValid_of_closing hrefs hclosing
  have hentry : r.entryValid idx := by
    simp only [Registry.refsValid, Bool.and_eq_true] at hvalid
    exact hvalid.2
  cases ph with
  | handleErrorEvent idx' | onFinalCleanup idx' o =>
    cases hidx
    simp [dangling, hvalid]
  | emitClose idx' | handleCloseEvent idx' | closed idx' =>
    cases hidx
    simp [dangling, hentry]
  | _ => cases hidx

theorem stage_goes_on (h : w.2.ClosingHeld w.1.phase) (hcounts : w.2.CountsExactly)
    (hrefs : w.2.closeRefs) (hidx : w.1.phase.closing = some idx)
    (hhandler : w.1.handler = false) (haborted : w.1.aborted = false)
    (hmeets : runStandardLoop.Meets (fun k r op => op.sparesClosing k r) w (.infra env)) :
    ∃ w', runStandardLoop.machine.step w (.infra env) = some w' ∧ GoesOn w idx w' := by
  obtain ⟨hclosing, o, ho⟩ := h.slot idx hidx
  have hvalid := valid_of_closing hrefs hidx hclosing
  obtain ⟨obj, hclient, hindex, -⟩ := Registry.client_of_holder h.sound ho
  have hused : w.2.used idx = true := by
    obtain ⟨s, hs, hused, -⟩ := Registry.slot_of_holder h.sound ho
    rw [Registry.used, Registry.entry_of_slot hs]
    exact hused
  have hasks : registry.run w.2 [.client idx] = some w.2 :=
    Registry.run_singleton_ok (by simp only [Op.run, hclient, Except.map])
  have hne : w.1.phase ≠ .infraGetCloseEvent := by
    intro heq
    rw [heq] at hidx
    cases hidx
  -- what the plans have in common
  have hgo : ∀ {p : Plan} {r' : Registry}, step w.1 w.2 env = some p →
      registry.run w.2 p.1 = some r' → (p.2 r').aborted = false →
      w.1.phase.CloseNext idx (p.2 r').phase →
      (r'.queue .close).batch = (w.2.queue .close).batch →
      ∃ w', runStandardLoop.machine.step w (.infra env) = some w' ∧ GoesOn w idx w' :=
    fun hp hrun hrunning hnext hbatch =>
      ⟨_, infra_ok hhandler haborted hvalid hp hrun, hrunning, hnext, by rw [if_neg hne, hbatch]⟩
  cases hphase : w.1.phase with
  | handleErrorEvent idx' =>
    rw [hphase] at hidx
    cases hidx
    have hplan : step w.1 w.2 env = some ([.client idx], fun _ => w.1.user (.emitClose idx)) := by
      simp only [step, hphase]
    refine hgo hplan hasks haborted ?_ rfl
    rw [hphase]
    exact .emitClose
  | emitClose idx' =>
    rw [hphase] at hidx
    cases hidx
    obtain ⟨r', hr'⟩ := Registry.setRefed_run h.sound ho
    have hr' := Registry.run_singleton_ok hr'
    have hplan : step w.1 w.2 env = some ([.setRefed idx false],
        fun _ => w.1.user (.handleCloseEvent idx)) := by
      simp only [step, hphase, emitClose, hused, if_true, hclient, hindex]
    refine hgo hplan hr' haborted ?_ (Registry.batch_run (by simp [Op.ofStage]) hr' h.sound)
    rw [hphase]
    exact .handleCloseEvent
  | handleCloseEvent idx' =>
    rw [hphase] at hidx
    cases hidx
    have hplan : step w.1 w.2 env = some ([.client idx], fun _ => w.1.user (.closed idx)) := by
      simp only [step, hphase]
    refine hgo hplan hasks haborted ?_ rfl
    rw [hphase]
    exact .closed
  | closed idx' =>
    rw [hphase] at hidx
    cases hidx
    obtain ⟨r', hr'⟩ := Registry.entrySock_ok (c := .closed) h.sound ho hclient ⟨(), rfl⟩
    have hr' := Registry.run_singleton_ok hr'
    have hplan : step w.1 w.2 env = some ([.entrySock idx .closed],
        fun _ => w.1.user (.onFinalCleanup idx o)) := by
      simp only [step, hphase, closed, hused, if_true, hclient]
    refine hgo hplan hr' haborted ?_ (Registry.batch_run (by simp [Op.ofStage]) hr' h.sound)
    rw [hphase]
    exact .onFinalCleanup o
  | onFinalCleanup idx' o' =>
    rw [hphase] at hidx h
    cases hidx
    cases ho.symm.trans (h.cleanup idx o' rfl)
    obtain ⟨-, -, -, -, hlive⟩ := Registry.client_eq_ok hclient
    have hplan : step w.1 w.2 env = some (Program.onFinalCleanup w.2 o obj ++ [Op.endClose idx],
        fun _ => w.1.go .infraGetCloseEvent) := by
      simp only [step, hphase, onFinalCleanup, hlive]
    have hobeys := hmeets _ ((plan_infra haborted hhandler hvalid env).trans hplan)
    obtain ⟨r', hr'⟩ := h.cleanup_ok hcounts hrefs hlive hobeys
    refine hgo hplan hr' haborted ?_ ?_
    · rw [hphase]
      exact .next o
    · refine Registry.batch_run (fun op hop => ?_) hr' h.sound
      have hcleanup := Program.onFinalCleanup_cleanup w.2 idx o obj op hop
      cases op <;> first | rfl | exact hcleanup.elim
  | _ =>
    rw [hphase] at hidx
    cases hidx

theorem begin_goes_on (h : w.2.ClosingHeld w.1.phase) (hrefs : w.2.closeRefs)
    (hphase : w.1.phase = .infraGetCloseEvent) {ev : Pending} {rest : List Pending}
    (hbatch : (w.2.queue .close).batch = ev :: rest) {o : Nat}
    (ho : w.2.view.holder ev.idx = some (.client o)) (hhandler : w.1.handler = false)
    (haborted : w.1.aborted = false) :
    ∃ w', runStandardLoop.machine.step w (.infra env) = some w' ∧ GoesOn w ev.idx w' := by
  obtain ⟨obj, hclient, -⟩ := Registry.client_of_holder h.sound ho
  have hvalid : (w.2.ioSockets.isValidId ev.idx && w.2.used ev.idx) = true := by
    obtain ⟨s, hs, hused, -⟩ := Registry.slot_of_holder h.sound ho
    obtain ⟨hres, -⟩ := NetSockets.slotAt_eq_ok (h.sound.framed.slotAt_of_used hs hused)
    obtain ⟨hlt, -⟩ := List.getElem?_eq_some_iff.mp hs
    simp only [NetSockets.isValidId, Bool.and_eq_true, decide_eq_true_eq]
    refine ⟨⟨hres, hlt⟩, ?_⟩
    rw [Registry.used, Registry.entry_of_slot hs]
    exact hused
  have hrefs : dangling w.2 w.1.phase = false := by
    simp only [Registry.closeRefs, hbatch, reduceCtorEq, false_and, decide_false, Bool.false_or,
      Bool.and_eq_true, Bool.not_eq_true'] at hrefs
    rw [hphase]
    exact hrefs.1
  obtain ⟨r', hr', hbatch'⟩ :=
    Registry.beginClose_run h.sound (h.idle (by rw [hphase]; rfl)) hbatch ho
  have hplan : step w.1 w.2 env = some ([.beginClose], fun _ =>
      if obj.data.state = .ErrorClosing then w.1.user (.handleErrorEvent ev.idx)
      else w.1.go (.emitClose ev.idx)) := by
    simp only [step, hphase, infraGetCloseEvent, hbatch, hvalid, if_true, hclient]
  refine ⟨_, infra_ok hhandler haborted hrefs hplan hr', ?_, ?_, ?_⟩
  · dsimp only
    split <;> exact haborted
  · rw [hphase]
    dsimp only
    split
    · exact .emitError
    · exact .noError
  · rw [if_pos hphase, hbatch, hbatch']
    rfl

def SparesClosing (acts : List Action) : Prop :=
  runStandardLoop.machine.obeys (runStandardLoop.Meets fun k r op => op.sparesClosing k r) init acts

instance (acts : List Action) : Decidable (SparesClosing acts) :=
  inferInstanceAs (Decidable (runStandardLoop.machine.obeys _ init acts))

/-- The run lemma. -/
theorem closingHeld {acts : List Action} (hspares : SparesClosing acts)
    (hrun : run init acts = some w) :
    w.2.ClosingHeld w.1.phase ∧ w.2.CountsExactly ∧ w.2.closeRefs := by
  refine runStandardLoop.machine.run_invariant
    (J := fun w => w.2.ClosingHeld w.1.phase ∧ w.2.CountsExactly ∧ w.2.closeRefs) ?_
    ⟨.init, .init, by decide⟩ hspares hrun
  rintro w a w' ⟨h, hcounts, hrefs⟩ hmeets hstep
  cases (step_acts hstep).2 with
  | call hh hops hplan hrun =>
    exact ⟨h.call hh hops (hmeets _ hplan) hrun,
      Registry.sparesClosing_run hcounts hrefs (hmeets _ hplan) hrun⟩
  | @timer c hh =>
    refine ⟨?_, hcounts, hrefs⟩
    show w.2.ClosingHeld (w.1.timerCall c).phase
    rw [(w.1.timerCall_phase c).1]
    exact h
  | ret hh => exact ⟨h, hcounts, hrefs⟩
  | infra hh hp hplan hrun =>
    exact ⟨h.infra hcounts (step_closes hp) hrun,
      Registry.sparesClosing_run hcounts hrefs (hmeets _ hplan) hrun⟩
  | stuck hrunning => exact ⟨h, hcounts, hrefs⟩

end Loop

/-- While a close event is processed no access fails, and the loop goes on to the next event. -/
theorem close_event_goes_on {acts : List Action} {w : Ctl × Registry} {env : Env}
    (hspares : Loop.SparesClosing (acts ++ [.infra env])) (hrun : Loop.run Loop.init acts = some w)
    {idx : Nat} (hcloses : Loop.Closes w idx) (hhandler : w.1.handler = false)
    (haborted : w.1.aborted = false) :
    ∃ w', runStandardLoop.machine.step w (.infra env) = some w' ∧ Loop.GoesOn w idx w' := by
  obtain ⟨hacts, hmeets, -⟩ := (runStandardLoop.machine.obeys_append hrun).mp hspares
  obtain ⟨hheld, hcounts, hrefs⟩ := Loop.closingHeld hacts hrun
  rcases hcloses with hstage | ⟨hphase, hhead, o, ho⟩
  · exact Loop.stage_goes_on hheld hcounts hrefs hstage hhandler haborted hmeets
  · cases hbatch : (w.2.queue .close).batch with
    | nil =>
      rw [hbatch] at hhead
      cases hhead
    | cons ev rest =>
      rw [hbatch] at hhead
      cases hhead
      exact Loop.begin_goes_on hheld hrefs hphase hbatch ho hhandler haborted

/-- Two sockets are connected and closed by some call; the loop runs up to `infraGetCloseEvent`. -/
def bothClosed (c : SockCall) : List Action :=
  [Action.call (.createSocket 5), .call (.connect 0), .call (.createSocket 6), .call (.connect 1),
    .call (.sock 0 c), .call (.sock 1 c), .ret] ++ List.replicate 5 (Action.infra {})

/-- The close handler of the first socket destructs the second one. -/
def otherDestructed : List Action :=
  bothClosed .destroy ++ [Action.infra {}, .infra {}, .call (.destructSocket 1), .ret]

theorem close_event_goes_on_other :
    ∃ w, Loop.run Loop.init otherDestructed = some w ∧ w.1.phase = .handleCloseEvent 1 ∧
      ∃ w', runStandardLoop.machine.step w (.infra {}) = some w' ∧ Loop.GoesOn w 1 w' := by
  have hrun : ∃ w, Loop.run Loop.init otherDestructed = some w ∧
      w.1.phase = .handleCloseEvent 1 ∧ w.1.handler = false ∧ w.1.aborted = false := by
    decide +kernel
  obtain ⟨w, hrun, hphase, hhandler, haborted⟩ := hrun
  refine ⟨w, hrun, hphase,
    close_event_goes_on (by decide +kernel) hrun (.inl ?_) hhandler haborted⟩
  rw [hphase]
  rfl

/-- The error handler of a socket destructs it, and its close handler does. -/
theorem close_event_stops :
    (∃ w, Loop.run Loop.init (bothClosed (.setOption false) ++
        [Action.infra {}, .call (.destructSocket 0), .ret, .infra {}]) = some w ∧
      w.1.phase = .handleErrorEvent 1 ∧ w.1.aborted = true) ∧
    ∃ w, Loop.run Loop.init (bothClosed .destroy ++
        [Action.infra {}, .infra {}, .call (.destructSocket 0), .ret, .infra {}]) = some w ∧
      w.1.phase = .handleCloseEvent 1 ∧ w.1.aborted = true := by
  decide +kernel

end NodeCpp
