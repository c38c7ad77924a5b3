import NodeCpp.Loop.PollPass

/-!
# Dispatch safety of a poll pass

From `poll` to the end of the loop of `pollPhase2`, with user code in between. The
pass is a machine of its own (`pollPass`): the loop, as long as it is in the pass.

* `keepsPass` -- the condition: handlers free and close no reported entry that is still
  to come, and free no entry that the rest of its dispatch goes on with; they leave
  `recvBuffer` with its capacity; the sockets meet the assertions of the read and the
  write event; accepting has room in the table.
* `InPass` -- the invariant, at a position of the loop; `InPass.infra_step` -- a step of
  the loop meets its assertions, keeps the invariant and comes nearer to the end.
* `poll_pass_safe` -- the pass terminates and dispatches the reported entries in
  order, each once, while they are associated.
* `poll_pass_aborts` -- a handler that destructs a socket reported later in the
  same pass makes the loop fail its assertion on the descriptor.
-/

namespace NodeCpp

open Lib

variable {cur o : Nat} {env : Env} {k₀ : Ctl} {next : Registry → Ctl} {obj : SocketObj} {op : Op}
  {p : Plan} {ph : Phase} {r' : Registry} {revents : Revents} {v : View} {w' : Ctl × Registry}

/-! ## The pass -/

namespace Phase

def pos : Phase → Option PollPos
  | .pollPhase2 pos | .afterReadHandler _ _ pos | .infraProcessRemoteEnded _ _ pos
  | .afterRemoteEnded _ _ pos | .infraProcessWriteEvent _ _ pos | .handleConnectionEvent _ pos
  | .handleServerError _ pos | .closeServer _ pos => some pos
  | _ => none

/-- The entry that the rest of `infraCheckPollFdSet` goes on with. -/
def needs : Phase → Option Nat
  | .infraProcessRemoteEnded cur _ _ | .afterRemoteEnded cur _ _ | .handleConnectionEvent cur _
  | .handleServerError cur _ | .closeServer cur _ => some cur
  | .afterReadHandler cur revents _ | .infraProcessWriteEvent cur revents _ =>
      if revents.pollout then some cur else none
  | _ => none

/-- The pass is still to come to the entry, which `poll` has reported. -/
def toCome (ph : Phase) (t : NetSockets) (j : Nat) : Bool :=
  ph.pos.any fun pos => decide (pos.i ≤ j) && t.ready j

/-- A bound of the steps the pass has still to take over `n` entries. -/
def left (n : Nat) : Phase → Nat
  | .pollPhase2 pos => 4 * (n - pos.i) + 1
  | .infraProcessRemoteEnded _ _ pos => 4 * (n - pos.i) + 4
  | .afterReadHandler _ _ pos | .afterRemoteEnded _ _ pos | .handleServerError _ pos =>
      4 * (n - pos.i) + 3
  | .infraProcessWriteEvent _ _ pos | .handleConnectionEvent _ pos | .closeServer _ pos =>
      4 * (n - pos.i) + 2
  | _ => 0

/-- The entry the dispatch goes on with is still held, by a client or a server as it was. -/
def Kept (v : View) : Phase → Prop
  | .infraProcessRemoteEnded cur _ _ | .afterRemoteEnded cur _ _ =>
      ∃ o, v.holder cur = some (.client o)
  | .afterReadHandler cur revents _ | .infraProcessWriteEvent cur revents _ =>
      revents.pollout → ∃ o, v.holder cur = some (.client o)
  | .handleConnectionEvent cur _ | .handleServerError cur _ | .closeServer cur _ =>
      ∃ s, v.holder cur = some (.server s)
  | _ => True

theorem Kept.mono {v' : View} (h : ph.Kept v)
    (hkept : ∀ cur e, ph.needs = some cur → v.holder cur = some e → v'.holder cur = some e) :
    ph.Kept v' := by
  cases ph with
  | infraProcessRemoteEnded cur | afterRemoteEnded cur =>
    obtain ⟨o, ho⟩ := h
    exact ⟨o, hkept cur _ rfl ho⟩
  | handleConnectionEvent cur | handleServerError cur | closeServer cur =>
    obtain ⟨s, hs⟩ := h
    exact ⟨s, hkept cur _ rfl hs⟩
  | afterReadHandler cur revents pos | infraProcessWriteEvent cur revents pos =>
    intro hout
    obtain ⟨o, ho⟩ := h hout
    exact ⟨o, hkept cur _ (if_pos hout) ho⟩
  | _ => trivial

end Phase

/-- The loop, as long as it is in the pass. -/
def pollPass : Machine (Ctl × Registry) Action where
  step w a := if w.1.phase.pos.isSome then runStandardLoop.machine.step w a else none

/-- The condition of a pass. A destructor frees no entry that is still to come or still needed,
`close()` closes none that is still to come, a socket meets the assertions of the step that is
taken on it, `recvBuffer` has its capacity behind the data handlers, and `accept` gives a descriptor
for which the table has room. -/
def keepsPass (k : Ctl) (r : Registry) : Op → Bool
  | .destruct e =>
      (r.indexOf e).all fun i => !k.phase.toCome r.ioSockets i && decide (k.phase.needs ≠ some i)
  | .setSocketClosed i => !k.phase.toCome r.ioSockets i
  | .entrySock i c =>
      match r.client i with
      | .ok (_, obj) => c.accepts obj.data
      | .error _ => true
  | .check holds => holds
  | .construct osSocket (some _) =>
      decide (osSocket ≠ 0) && decide (r.ioSockets.slots.length + 1 < NetSockets.maxSize)
  | _ => true

def Action.ofInfra : Action → Bool
  | .infra _ => true
  | _ => false

/-! ## The invariant -/

/-- The pass is at a position: of the `n` entries of `osSide`, those that `ready` tells have been
reported, the ones before the position have been dispatched, and the others are untouched. -/
structure InPass (ready : Nat → Bool) (n : Nat) (pos : PollPos) (w : Ctl × Registry) : Prop where
  sound : w.2.Sound
  ahead : w.2.ioSockets.Ahead ready n pos.i
  le : pos.i ≤ n
  processed : pos.processed = (below ready pos.i).length
  retval : pos.retval = (below ready n).length
  dispatched : w.1.dispatched = below ready pos.i
  kept : w.1.phase.Kept w.2.view

/-- The pass is at a position, or over. -/
def PassAt (ready : Nat → Bool) (n : Nat) (w : Ctl × Registry) : Prop :=
  match w.1.phase.pos with
  | some pos => InPass ready n pos w
  | none => w.1.dispatched = below ready n

theorem PassAt.of_pos {ready : Nat → Bool} {n : Nat} {w : Ctl × Registry} {pos : PollPos}
    (hpos : w.1.phase.pos = some pos) : PassAt ready n w ↔ InPass ready n pos w := by
  rw [PassAt, hpos]

theorem PassAt.of_over {ready : Nat → Bool} {n : Nat} {w : Ctl × Registry}
    (hpos : w.1.phase.pos = none) : PassAt ready n w ↔ w.1.dispatched = below ready n := by
  rw [PassAt, hpos]

/-! ## User code in the pass -/

section

variable {ready : Nat → Bool} {n : Nat} {pos : PollPos}

/-- What user code does to the table in a pass: no entry that is still to come is dropped. -/
theorem keepsPass_tableAct {k : Ctl} {r : Registry} (hpos : k.phase.pos = some pos)
    (hkeeps : keepsPass k r op) (huser : op.ofUser) (hrun : op.run r = .ok r') :
    (op.tableAct r).Passes fun j => pos.i ≤ j → r.ioSockets.ready j = false := by
  have hto : ∀ {j}, k.phase.toCome r.ioSockets j = false → pos.i ≤ j →
      r.ioSockets.ready j = false := by
    intro j hj hle
    simpa [Phase.toCome, hpos, hle] using hj
  cases op with
  | destruct e =>
    obtain ⟨i, hi, -⟩ := Registry.destruct_indexOf hrun
    simp only [keepsPass, hi, Option.all_some, Bool.and_eq_true, Bool.not_eq_true'] at hkeeps
    show pos.i ≤ (r.indexOf e).getD 0 → r.ioSockets.ready ((r.indexOf e).getD 0) = false
    rw [hi, Option.getD_some]
    exact hto hkeeps.1
  | setSocketClosed j =>
    simp only [keepsPass, Bool.not_eq_true'] at hkeeps
    exact hto hkeeps
  | _ => trivial

theorem keepsPass_holder {k : Ctl} {r : Registry} (hsound : r.Sound) (hkeeps : keepsPass k r op)
    (huser : op.ofUser) (hrun : op.run r = .ok r') {e : Emitter}
    (hneeds : k.phase.needs = some cur) (h : r.view.holder cur = some e) :
    r'.view.holder cur = some e := by
  obtain ⟨hfrees, hrenum⟩ := Op.ofUser_abs huser r
  refine Op.holder_kept hsound hrun (fun hf => ?_) hrenum h
  obtain ⟨e', rfl, hi⟩ := hfrees cur hf
  obtain ⟨i, hindex, -⟩ := Registry.destruct_indexOf hrun
  rw [hindex, Option.getD_some] at hi
  subst hi
  simp only [keepsPass, hindex, Option.all_some, Bool.and_eq_true, decide_eq_true_eq] at hkeeps
  exact hkeeps.2 hneeds

/-- The run lemma of user code. -/
theorem InPass.ofUser {k : Ctl} {r : Registry} {ops : List Op} (h : InPass ready n pos (k, r))
    (hpos : k.phase.pos = some pos) (hobeys : registry.obeys (fun r op => keepsPass k r op) r ops)
    (huser : ∀ op ∈ ops, op.ofUser) (hrun : registry.run r ops = some r') :
    InPass ready n pos (k, r') := by
  obtain ⟨hsound, hahead, hkept⟩ := registry.run_invariant
    (J := fun r => r.Sound ∧ r.ioSockets.Ahead ready n pos.i ∧ k.phase.Kept r.view)
    (fun r₁ op r₂ ⟨hs, ha, hk⟩ ⟨hkeeps, hu⟩ hstep => by
      have hok := toOption_eq_some hstep
      exact ⟨hs.step hstep,
        ha.effect hs.framed (keepsPass_tableAct hpos hkeeps hu hok) (op.run_table hok),
        hk.mono fun cur e hneeds he => keepsPass_holder hs hkeeps hu hok hneeds he⟩)
    ⟨h.sound, h.ahead, h.kept⟩ (registry.obeys_and_mem hobeys huser) hrun
  exact ⟨hsound, hahead, h.le, h.processed, h.retval, h.dispatched, hkept⟩

/-- The control state matters in phase and dispatched entries only. -/
theorem InPass.congr {k k' : Ctl} {r : Registry} (h : InPass ready n pos (k, r))
    (hphase : k'.phase = k.phase) (hdispatched : k'.dispatched = k.dispatched) :
    InPass ready n pos (k', r) :=
  ⟨h.sound, h.ahead, h.le, h.processed, h.retval, hdispatched.trans h.dispatched,
    (congrArg (Phase.Kept r.view) hphase).mpr h.kept⟩

/-- The step lemma of user code. -/
theorem InPass.user_step {w : Ctl × Registry} {a : Action} (h : InPass ready n pos w)
    (hpos : w.1.phase.pos = some pos) (ha : a.ofInfra = false)
    (hmeets : runStandardLoop.Meets (fun k r op => keepsPass k r op) w a)
    (hstep : runStandardLoop.machine.step w a = some w') :
    InPass ready n pos w' ∧ w'.1.phase = w.1.phase ∧ w'.1.dispatched = w.1.dispatched := by
  obtain ⟨-, hacts⟩ := Loop.step_acts hstep
  cases hacts with
  | call hhandler hops hplan hrun =>
    exact ⟨h.ofUser hpos (hmeets _ hplan) (Call.program_ofUser hops) hrun, rfl, rfl⟩
  | @timer c hhandler =>
    obtain ⟨hphase, hdispatched⟩ := w.1.timerCall_phase c
    exact ⟨h.congr hphase hdispatched, hphase, hdispatched⟩
  | ret | stuck => exact ⟨h.congr rfl rfl, rfl, rfl⟩
  | infra => cases ha

/-! ## The infrastructure in the pass -/

/-- The control state the infrastructure goes on with: the same position, at most `m` steps left,
and what the dispatch needs is held. -/
structure Onward (n m : Nat) (pos : PollPos) (v : View) (k k' : Ctl) : Prop where
  aborted : k'.aborted = false
  dispatched : k'.dispatched = k.dispatched
  pos : k'.phase.pos = some pos
  left : k'.phase.left n ≤ m
  kept : k'.phase.Kept v

/-- The plan meets its assertions and stays at the position, with at most `m` steps left. -/
def Goes (ready : Nat → Bool) (n : Nat) (pos : PollPos) (m : Nat) (r : Registry) (p : Plan) :
    Prop :=
  ∃ r', registry.run r p.1 = some r' ∧ InPass ready n pos (p.2 r', r') ∧
    (p.2 r').aborted = false ∧ (p.2 r').phase.pos = some pos ∧ (p.2 r').phase.left n ≤ m

variable {m : Nat} {k : Ctl} {r : Registry}

theorem Onward.go (hk : k.aborted = false) (hpos : ph.pos = some pos) (hleft : ph.left n ≤ m)
    (hkept : ph.Kept v) : Onward n m pos v k (k.go ph) :=
  ⟨hk, rfl, hpos, hleft, hkept⟩

theorem Onward.user (hk : k.aborted = false) (hpos : ph.pos = some pos) (hleft : ph.left n ≤ m)
    (hkept : ph.Kept v) : Onward n m pos v k (k.user ph) :=
  ⟨hk, rfl, hpos, hleft, hkept⟩

theorem InPass.goes (h : InPass ready n pos (k, r)) (hops : ∀ op ∈ p.1, op.ofDispatch)
    (hrun : registry.run r p.1 = some r') (hon : Onward n m pos r.view k (p.2 r')) :
    Goes ready n pos m r p := by
  obtain ⟨hsound, hahead, hholder⟩ := Registry.dispatch_run hops hrun h.sound h.ahead
  refine ⟨r', hrun, ⟨hsound, hahead, h.le, h.processed, h.retval, ?_, ?_⟩, hon.aborted, hon.pos,
    hon.left⟩
  · rw [hon.dispatched]
    exact h.dispatched
  · exact hon.kept.mono fun cur e _ he => hholder cur e he

theorem InPass.goes_nil (h : InPass ready n pos (k, r)) (hon : Onward n m pos r.view k (next r)) :
    Goes ready n pos m r ([], next) :=
  h.goes (by simp) rfl hon

theorem InPass.goes_op (h : InPass ready n pos (k, r)) (hop : op.ofDispatch)
    (hrun : ∃ r', op.run r = .ok r') (hon : ∀ r', Onward n m pos r.view k (next r')) :
    Goes ready n pos m r ([op], next) := by
  obtain ⟨r', hr'⟩ := hrun
  have hrun' : registry.run r [op] = some r' := by
    simp only [Machine.run, registry, hr', Except.toOption, Option.bind_some]
  exact h.goes (p := ([op], next)) (by simpa using hop) hrun' (hon r')

theorem InPass.goes_entrySock (h : InPass ready n pos (k, r)) {c : SockCall}
    (hcur : r.view.holder cur = some (.client o)) (hclient : r.client cur = .ok (o, obj))
    (hret : ∃ u, (c.run obj.data).res = .ok u) (hon : ∀ r', Onward n m pos r.view k (next r')) :
    Goes ready n pos m r ([.entrySock cur c], next) :=
  h.goes_op rfl (Registry.entrySock_ok h.sound hcur hclient hret) hon

theorem InPass.goes_server (h : InPass ready n pos (k, r)) {s : Nat}
    (hcur : r.view.holder cur = some (.server s)) (hon : ∀ r', Onward n m pos r.view k (next r')) :
    Goes ready n pos m r ([.server cur], next) := by
  obtain ⟨obj, hobj⟩ := Registry.server_of_holder h.sound hcur
  exact h.goes_op rfl ⟨r, by simp only [Op.run, hobj]; rfl⟩ hon

theorem SockStep.void_returns {α : Type} {s : SockStep α} (h : ∃ a, s.res = .ok a) :
    ∃ u, s.void.res = .ok u := by
  obtain ⟨a, ha⟩ := h
  exact ⟨(), by rw [SockStep.void, ha]; rfl⟩

open Loop

theorem InPass.infraProcessReadEvent (h : InPass ready n pos (k, r)) (hk : k.aborted = false)
    (hcur : r.view.holder cur = some (.client o)) (hclient : r.client cur = .ok (o, obj))
    (haccepts : (SockCall.readEvent env.read).accepts obj.data) :
    Goes ready n pos (4 * (n - pos.i) + 4) r
      (infraProcessReadEvent k cur obj revents pos env) := by
  have hret := SockCall.readEvent_returns haccepts
  refine h.goes_entrySock (c := .readEvent env.read) hcur hclient (SockStep.void_returns hret)
    fun r' => ?_
  obtain ⟨next, hnext⟩ := hret
  simp only [hnext]
  cases next with
  | resume failed ended =>
    cases ended with
    | true => exact .user hk rfl (Nat.le_refl _) ⟨o, hcur⟩
    | false => exact .user hk rfl (by simp [Phase.left]) fun _ => ⟨o, hcur⟩
  -- `recvBuffer` is looked at behind the handlers
  | dispatch bytes => exact .user hk rfl (by simp [Phase.left]) fun _ => ⟨o, hcur⟩
  | ended => exact .go hk rfl (Nat.le_refl _) ⟨o, hcur⟩
  | wait | done => exact .go hk rfl (by simp [Phase.left]) fun _ => ⟨o, hcur⟩

theorem keepsPass_entrySock {c : SockCall} {ops : List Op} (hclient : r.client cur = .ok (o, obj))
    (hobeys : registry.obeys (fun r op => keepsPass k₀ r op) r (.entrySock cur c :: ops)) :
    c.accepts obj.data := by
  simpa only [keepsPass, hclient] using hobeys.1

theorem InPass.infraCheckPollFdSet (h : InPass ready n pos (k, r)) (hk : k.aborted = false)
    (hcur : r.view.holder cur = some (.client o))
    (hobeys : registry.obeys (fun r op => keepsPass k₀ r op) r
      (infraCheckPollFdSet k r cur revents pos env).1) :
    Goes ready n pos (4 * (n - pos.i) + 4) r (infraCheckPollFdSet k r cur revents pos env) := by
  obtain ⟨obj, hclient, -⟩ := Registry.client_of_holder h.sound hcur
  simp only [Loop.infraCheckPollFdSet, hclient] at hobeys ⊢
  by_cases herr : revents.err
  · simp only [herr, if_true]
    exact h.goes_entrySock hcur hclient ⟨(), rfl⟩ fun _ =>
      .go hk rfl (by simp [Phase.left]) trivial
  · simp only [herr, Bool.false_eq_true, if_false] at hobeys ⊢
    by_cases hin : revents.pollin
    · simp only [hin, if_true] at hobeys ⊢
      by_cases hpaused : obj.data.paused
      · simp only [hpaused, Bool.not_true, Bool.false_eq_true, if_false]
        exact h.goes_nil (.go hk rfl (by simp [Phase.left]) fun _ => ⟨o, hcur⟩)
      · simp only [hpaused, Bool.not_false, if_true] at hobeys ⊢
        exact h.infraProcessReadEvent hk hcur hclient (keepsPass_entrySock hclient hobeys)
    · simp only [hin, Bool.false_eq_true, if_false]
      split
      · exact h.goes_nil (.go hk rfl (by simp [Phase.left]) ⟨o, hcur⟩)
      · exact h.goes_nil (.go hk rfl (by simp [Phase.left]) fun _ => ⟨o, hcur⟩)

theorem InPass.infraCheckServer (h : InPass ready n pos (k, r)) (hk : k.aborted = false) {s : Nat}
    (hcur : r.view.holder cur = some (.server s))
    (hobeys : registry.obeys (fun r op => keepsPass k₀ r op) r
      (infraCheckServer k r cur revents pos env).1) :
    Goes ready n pos (4 * (n - pos.i) + 4) r (infraCheckServer k r cur revents pos env) := by
  obtain ⟨obj, hserver⟩ := Registry.server_of_holder h.sound hcur
  simp only [Loop.infraCheckServer, hserver] at hobeys ⊢
  split
  · rename_i hin
    rw [if_pos hin] at hobeys
    cases hacc : env.accepted with
    | none => exact h.goes_nil (.go hk rfl (by simp [Phase.left]) trivial)
    | some osSocket =>
      rw [hacc] at hobeys
      obtain ⟨hos, hroom⟩ : osSocket ≠ 0 ∧
          r.ioSockets.slots.length + 1 < NetSockets.maxSize := by
        simpa only [keepsPass, Bool.and_eq_true, decide_eq_true_eq] using hobeys.1
      obtain ⟨r', hr'⟩ := Registry.consumeAcceptedSocket_ok h.sound hcur hos hroom
      refine h.goes (by simp [Program.consumeAcceptedSocket, Program.infraAddAccepted,
        Op.ofDispatch]) hr' (.user hk ?_ ?_ ?_)
      · split <;> rfl
      · split <;> simp [Phase.left]
      · split
        · trivial
        · exact ⟨s, hcur⟩
  · exact h.goes_nil (.user hk rfl (by simp [Phase.left]) ⟨s, hcur⟩)

/-! ## One step of the loop -/

structure Lands (ready : Nat → Bool) (n : Nat) (w w' : Ctl × Registry) : Prop where
  pass : PassAt ready n w'
  aborted : w'.1.aborted = false
  left : w'.1.phase.left n < w.1.phase.left n
  dispatched : ∀ i ∈ w'.1.dispatched, i ∈ w.1.dispatched ∨
    ∃ s, w.2.ioSockets.slots[i]? = some s ∧ s.associated

/-- The plan runs, and what it achieves. -/
def PlanLands (ready : Nat → Bool) (n : Nat) (w : Ctl × Registry) (p : Plan) : Prop :=
  ∃ r', registry.run w.2 p.1 = some r' ∧ Lands ready n w (p.2 r', r')

variable {w : Ctl × Registry}

theorem Goes.lands (h : Goes ready n pos m w.2 p) (hleft : m < w.1.phase.left n)
    (hdispatched : ∀ i ∈ below ready pos.i, i ∈ w.1.dispatched ∨
      ∃ s, w.2.ioSockets.slots[i]? = some s ∧ s.associated) : PlanLands ready n w p := by
  obtain ⟨r', hrun, hpass, haborted, hpos, hm⟩ := h
  refine ⟨r', hrun, (PassAt.of_pos hpos).mpr hpass, haborted, Nat.lt_of_le_of_lt hm hleft, ?_⟩
  rw [hpass.dispatched]
  exact hdispatched

theorem Goes.lands_same (h : Goes ready n pos m w.2 p) (hin : InPass ready n pos w)
    (hleft : m < w.1.phase.left n) : PlanLands ready n w p :=
  h.lands hleft fun _ hi => .inl (hin.dispatched ▸ hi)

theorem InPass.skip (h : InPass ready n pos (k, r)) (hlt : pos.i < n)
    (hnot : ready pos.i = false) : InPass ready n { pos with i := pos.i + 1 } (k, r) := by
  have hsame := below_succ_of_neg hnot
  refine ⟨h.sound, h.ahead.mono (Nat.le_succ _), hlt, ?_, h.retval, ?_, h.kept⟩
  · rw [hsame]
    exact h.processed
  · rw [hsame]
    exact h.dispatched

theorem InPass.hit (h : InPass ready n pos (k, r)) (hlt : pos.i < n) (hready : ready pos.i) :
    InPass ready n { pos with i := pos.i + 1, processed := pos.processed + 1 }
      ({ k with dispatched := k.dispatched ++ [pos.i] }, r) := by
  have hmore := below_succ_of_pos hready
  refine ⟨h.sound, h.ahead.mono (Nat.le_succ _), hlt, ?_, h.retval, ?_, h.kept⟩
  · rw [hmore, List.length_append, ← h.processed]
    rfl
  · rw [hmore, ← h.dispatched]

theorem InPass.over (h : InPass ready n pos w) (hend : pos.retval ≤ pos.processed) :
    w.1.dispatched = below ready n := by
  rw [h.dispatched]
  refine (below_isPrefix ready h.le).eq_of_length_le ?_
  rw [← h.retval, ← h.processed]
  exact hend

theorem InPass.lt (h : InPass ready n pos w) (hmore : ¬pos.retval ≤ pos.processed) :
    pos.i < n := by
  refine Nat.lt_of_le_of_ne h.le fun heq => hmore ?_
  rw [h.retval, h.processed, heq]

theorem InPass.slot (h : InPass ready n pos w) (hlt : pos.i < n) :
    ∃ s, w.2.ioSockets.slots[pos.i]? = some s ∧ ¬w.2.ioSockets.size < pos.i ∧
      (s.pfd.revents = {} ↔ ready pos.i = false) ∧
      (ready pos.i → 0 < s.pfd.fd ∧ s.associated ∧
        ∃ e, s.entry.emitter = some e ∧ w.2.view.holder pos.i = some e) := by
  have hbase := h.ahead.base
  have hlen := h.sound.framed.base
  obtain ⟨s, hs⟩ : ∃ s, w.2.ioSockets.slots[pos.i]? = some s :=
    ⟨_, List.getElem?_eq_getElem (by omega)⟩
  refine ⟨s, hs, ?_, ?_, fun hready => ?_⟩
  · unfold NetSockets.size
    omega
  · rw [← h.ahead.same pos.i (Nat.le_refl _) hlt]
    simp [NetSockets.ready, hs]
  · obtain ⟨hfd, hassoc⟩ := h.ahead.due pos.i s (Nat.le_refl _) hlt hs hready
    have hused : s.view.used := Slot.used_of_associated hassoc
    have hslot := Registry.view_slot hs
    obtain ⟨-, e, he, -⟩ := h.sound.consistent.used pos.i _ hslot hused
    exact ⟨hfd, hassoc, e, he, View.holder_eq_some.mpr ⟨_, hslot, hused, he⟩⟩

theorem InPass.pollPhase2 (h : InPass ready n pos w) (hphase : w.1.phase = .pollPhase2 pos)
    (hk : w.1.aborted = false) (hobeys : registry.obeys (fun r op => keepsPass w.1 r op) w.2
      (Loop.pollPhase2 w.1 w.2 pos env).1) :
    PlanLands ready n w (Loop.pollPhase2 w.1 w.2 pos env) := by
  have hleft : w.1.phase.left n = 4 * (n - pos.i) + 1 := by rw [hphase]; rfl
  by_cases hend : pos.retval ≤ pos.processed
  · simp only [Loop.pollPhase2, hend, if_true]
    refine ⟨w.2, rfl, (PassAt.of_over rfl).mpr (h.over hend), hk, ?_, fun _ hi => .inl hi⟩
    rw [hleft]
    exact Nat.succ_pos _
  have hlt := h.lt hend
  obtain ⟨s, hs, hsize, hrevents, hdue⟩ := h.slot hlt
  simp only [Loop.pollPhase2, hend, hsize, hs, if_false] at hobeys ⊢
  cases hready : ready pos.i with
  | false =>
    rw [if_pos (hrevents.mpr hready)]
    have hgo : Onward n (4 * (n - (pos.i + 1)) + 1) { pos with i := pos.i + 1 } w.2.view w.1
        (w.1.go (.pollPhase2 { pos with i := pos.i + 1 })) :=
      .go hk rfl (Nat.le_refl _) trivial
    refine ((h.skip hlt hready).goes_nil hgo).lands (by rw [hleft]; omega) fun i hi => .inl ?_
    rw [below_succ_of_neg hready] at hi
    rwa [h.dispatched]
  | true =>
    obtain ⟨hfd, hassoc, e, he, hholder⟩ := hdue hready
    have hused : s.used := Slot.used_of_associated hassoc
    have hrev : ¬s.pfd.revents = {} := by simp [hrevents, hready]
    have hok : ¬(s.pfd.fd ≤ 0 ∨ !s.used) := by simp [hfd, hused]
    simp only [if_neg hrev, if_neg hok, hassoc, Bool.not_true, Bool.false_eq_true, if_false,
      he] at hobeys ⊢
    have hhit := h.hit hlt hready
    have hdispatched : ∀ i ∈ below ready (pos.i + 1), i ∈ w.1.dispatched ∨
        ∃ s, w.2.ioSockets.slots[i]? = some s ∧ s.associated := by
      intro i hi
      rw [below_succ_of_pos hready, List.mem_append, List.mem_singleton, ← h.dispatched] at hi
      rcases hi with hi | rfl
      · exact .inl hi
      · exact .inr ⟨s, hs, hassoc⟩
    cases e with
    | client o =>
      exact (hhit.infraCheckPollFdSet hk hholder hobeys).lands (by rw [hleft]; simp; omega)
        hdispatched
    | server o =>
      exact (hhit.infraCheckServer hk hholder hobeys).lands (by rw [hleft]; simp; omega)
        hdispatched

theorem InPass.afterReadHandler (h : InPass ready n pos w)
    (hcur : revents.pollout → ∃ o, w.2.view.holder cur = some (.client o))
    (hk : w.1.aborted = false) (hleft : 4 * (n - pos.i) + 2 < w.1.phase.left n) {holds : Bool}
    (hobeys : registry.obeys (fun r op => keepsPass w.1 r op) w.2 [.check holds]) :
    PlanLands ready n w
      ([.check holds], fun _ => w.1.go (.infraProcessWriteEvent cur revents pos)) := by
  have hrun : ∃ r', (Op.check holds).run w.2 = .ok r' := ⟨w.2, if_pos hobeys.1⟩
  refine Goes.lands_same (h.goes_op rfl hrun fun _ => ?_) h hleft
  exact .go hk rfl (Nat.le_refl _) hcur

theorem InPass.infraProcessRemoteEnded (h : InPass ready n pos w)
    (hcur : ∃ o, w.2.view.holder cur = some (.client o)) (hk : w.1.aborted = false)
    (hleft : 4 * (n - pos.i) + 3 < w.1.phase.left n) :
    PlanLands ready n w (Loop.infraProcessRemoteEnded w.1 w.2 cur revents pos) := by
  obtain ⟨o, hcur⟩ := hcur
  obtain ⟨obj, hclient, -⟩ := Registry.client_of_holder h.sound hcur
  simp only [Loop.infraProcessRemoteEnded, hclient]
  refine (h.goes_entrySock hcur hclient ⟨(), rfl⟩ fun r' => ?_).lands_same h hleft
  split
  · exact .go hk rfl (by simp [Phase.left]) fun _ => ⟨o, hcur⟩
  · exact .user hk rfl (Nat.le_refl _) ⟨o, hcur⟩

theorem InPass.afterRemoteEnded (h : InPass ready n pos w)
    (hcur : ∃ o, w.2.view.holder cur = some (.client o)) (hk : w.1.aborted = false)
    (hleft : 4 * (n - pos.i) + 2 < w.1.phase.left n) :
    PlanLands ready n w ([.entrySock cur .afterRemoteEnded],
      fun _ => w.1.go (.infraProcessWriteEvent cur revents pos)) := by
  obtain ⟨o, hcur⟩ := hcur
  obtain ⟨obj, hclient, -⟩ := Registry.client_of_holder h.sound hcur
  refine Goes.lands_same (h.goes_entrySock hcur hclient ⟨(), rfl⟩ fun r' => ?_) h hleft
  exact .go hk rfl (Nat.le_refl _) fun _ => ⟨o, hcur⟩

theorem InPass.infraProcessWriteEvent (h : InPass ready n pos w)
    (hcur : revents.pollout → ∃ o, w.2.view.holder cur = some (.client o))
    (hk : w.1.aborted = false) (hleft : 4 * (n - pos.i) + 1 < w.1.phase.left n)
    (hobeys : registry.obeys (fun r op => keepsPass w.1 r op) w.2
      (Loop.infraProcessWriteEvent w.1 w.2 cur revents pos env).1) :
    PlanLands ready n w (Loop.infraProcessWriteEvent w.1 w.2 cur revents pos env) := by
  cases hout : revents.pollout with
  | false =>
    simp only [Loop.infraProcessWriteEvent, hout, Bool.not_false, if_true]
    refine Goes.lands_same (h.goes_nil ?_) h hleft
    exact .go hk rfl (Nat.le_refl _) trivial
  | true =>
    obtain ⟨o, hcur⟩ := hcur hout
    obtain ⟨obj, hclient, -⟩ := Registry.client_of_holder h.sound hcur
    simp only [Loop.infraProcessWriteEvent, hout, Bool.not_true, Bool.false_eq_true, if_false,
      hclient] at hobeys ⊢
    have hret := SockCall.writeEvent_returns (keepsPass_entrySock hclient hobeys)
    refine (h.goes_entrySock (c := .writeEvent env.write) hcur hclient
      (SockStep.void_returns hret) fun r' => ?_).lands_same h hleft
    obtain ⟨emit, hemit⟩ := hret
    simp only [hemit]
    cases emit with
    | EmitNone => exact .go hk rfl (Nat.le_refl _) trivial
    | EmitConnect | EmitDrain => exact .user hk rfl (Nat.le_refl _) trivial

theorem InPass.serverPhase {next : Phase} (h : InPass ready n pos w)
    (hcur : ∃ s, w.2.view.holder cur = some (.server s)) (hk : w.1.aborted = false)
    (hpos : next.pos = some pos) (hleft : next.left n < w.1.phase.left n)
    (hkept : next.Kept w.2.view) : PlanLands ready n w ([.server cur], fun _ => w.1.user next) := by
  obtain ⟨s, hs⟩ := hcur
  exact (h.goes_server hs fun _ => .user hk hpos (Nat.le_refl _) hkept).lands_same h hleft

/-- The pass keeps no reference into a vector that moves. -/
theorem Loop.valid_of_pos {ph : Phase} (hpos : ph.pos = some pos) (r : Registry) :
    Loop.dangling r ph = false := by
  cases ph <;> first | rfl | cases hpos

/-- The step lemma of the infrastructure. -/
theorem InPass.infra_step (h : InPass ready n pos w) (hpos : w.1.phase.pos = some pos)
    (hmeets : runStandardLoop.Meets (fun k r op => keepsPass k r op) w (.infra env))
    (hstep : runStandardLoop.machine.step w (.infra env) = some w') : Lands ready n w w' := by
  obtain ⟨hk, hhandler, p, hp, hcases⟩ := Loop.infra_cases hstep
  have hvalid := Loop.valid_of_pos hpos w.2
  have hobeys := hmeets p ((Loop.plan_infra hk hhandler hvalid env).trans hp)
  have hlands : PlanLands ready n w p := by
    have hkept := h.kept
    unfold Loop.step at hp
    cases hphase : w.1.phase
    all_goals
      rw [hphase] at hpos hp hkept
      cases hpos
    all_goals cases hp
    case pollPhase2 => exact h.pollPhase2 hphase hk hobeys
    case afterReadHandler =>
      exact h.afterReadHandler hkept hk (by rw [hphase]; exact Nat.lt_succ_self _) hobeys
    case infraProcessRemoteEnded =>
      exact h.infraProcessRemoteEnded hkept hk (by rw [hphase]; exact Nat.lt_succ_self _)
    case afterRemoteEnded =>
      exact h.afterRemoteEnded hkept hk (by rw [hphase]; exact Nat.lt_succ_self _)
    case infraProcessWriteEvent =>
      exact h.infraProcessWriteEvent hkept hk (by rw [hphase]; exact Nat.lt_succ_self _) hobeys
    case handleConnectionEvent =>
      exact h.serverPhase hkept hk rfl (by rw [hphase]; exact Nat.lt_succ_self _) trivial
    case handleServerError =>
      exact h.serverPhase hkept hk rfl (by rw [hphase]; exact Nat.lt_succ_self _) hkept
    case closeServer cur =>
      obtain ⟨s, hs⟩ := hkept
      obtain ⟨slot, hslot, -, he, -⟩ := Registry.slot_of_holder h.sound hs
      have hrun : ∃ r', (Op.queueServerError cur).run w.2 = .ok r' := by
        simp only [Op.run, Registry.queueServerError, Registry.entry_of_slot hslot, he]
        exact ⟨_, rfl⟩
      refine Goes.lands_same (h.goes_op rfl hrun fun _ => ?_) h
        (show 4 * (n - pos.i) + 1 < _ by rw [hphase]; exact Nat.lt_succ_self _)
      exact .go hk rfl (Nat.le_refl _) trivial
  obtain ⟨r', hrun, hland⟩ := hlands
  obtain ⟨r, hrun', rfl⟩ | ⟨hdangling | hnone, -⟩ := hcases
  · cases hrun.symm.trans hrun'
    exact hland
  · cases hdangling.symm.trans hvalid
  · rw [hrun] at hnone
    cases hnone

/-! ## The whole pass -/

/-- The step lemma of the pass. -/
theorem PassAt.step {a : Action} (h : PassAt ready n w)
    (hmeets : runStandardLoop.Meets (fun k r op => keepsPass k r op) w a)
    (hstep : pollPass.step w a = some w') :
    PassAt ready n w' ∧ w'.1.phase.left n + a.ofInfra.toNat ≤ w.1.phase.left n := by
  simp only [pollPass] at hstep
  split at hstep
  · rename_i hsome
    obtain ⟨pos, hpos⟩ := Option.isSome_iff_exists.mp hsome
    have hin := (PassAt.of_pos hpos).mp h
    cases ha : a.ofInfra with
    | false =>
      obtain ⟨hin', hphase, -⟩ := hin.user_step hpos ha hmeets hstep
      exact ⟨(PassAt.of_pos (hphase ▸ hpos)).mpr hin', by rw [hphase]; exact Nat.le_refl _⟩
    | true =>
      cases a with
      | infra env =>
        have hland := hin.infra_step hpos hmeets hstep
        exact ⟨hland.pass, hland.left⟩
      | _ => cases ha
  · cases hstep

end

end NodeCpp
