import NodeCpp.Loop.PollPass
import NodeCpp.Loop.Servers
import NodeCpp.Loop.Stages

/-!
# Servers are closed once

`close()` passes the OS socket of a server to `internal_close`, and `rrOnClose` is run
for it from the close event that `closingProcedure` posts, or the removal of its last
accepted socket. Nothing in `close()` looks at the state of the server, and
`infraGetCloseEvents` has the range test `idx < ioSockets.size()`, one short of
`ourSide`, and forgets what is posted while it runs.

* `Op.closesOnce` -- the condition on an operation.
* `Registry.CloseQueue` -- what every operation keeps: a server that is being closed has
  a closed entry, and its events carry the index of that entry.
* `Registry.Owed` -- what every plan keeps: one event is pending for a server exactly if
  it is being closed and has no accepted sockets.
* `server_closed_once` -- `internal_close` and `rrOnClose` happen once.
* `server_close_forgotten` -- the only server of a node is closed, and `rrOnClose` is
  never run.
-/

namespace NodeCpp

open Lib

variable {ev : Pending} {i idx s : Nat} {slot : Slot} {srv : ServerObj}

namespace ServerClose

/-- `closingProcedure` of the server `n`: its OS socket is passed to `internal_close`, and it is
`BeingClosed`. -/
def closed (n : Nat) : Op → Bool
  | .serverState s .BeingClosed => decide (s = n)
  | _ => false

/-- `rrOnClose` of the server `n`. -/
def reported (n : Nat) : Op → Bool
  | .serverState s .Closed => decide (s = n)
  | _ => false

end ServerClose

/-- The entry is not that of a server that is being closed. -/
def Registry.spares (r : Registry) (i : Nat) : Bool :=
  match r.view.holder i with
  | some (.server n) => decide (r.stateOf n ≠ some .BeingClosed)
  | _ => true

/-- The condition on an operation: `close()` is called once, on a server that has its entry, and no
listening event comes later; close events are posted while `infraGetCloseEvents` does not run, and
pass its range test; no error event is posted for a server, and no server that is being closed
loses its entry. The counters of the servers are exact. -/
def Op.closesOnce (r : Registry) : Op → Bool
  | .serverState s .BeingClosed =>
      !r.closedServer s &&
        decide (r.view.holder ((r.indexOf (.server s)).getD 0) = some (.server s))
  | .listening i =>
      match r.server i with
      | .ok (_, srv) => !srv.state.closed
      | .error _ => true
  | .queue .serverClose _ _ => !(r.queue .serverClose).active
  | .take .serverClose =>
      (r.queue .serverClose).batch.head?.all fun ev => decide (ev.idx < r.ioSockets.size)
  | .queueServerError _ => false
  | .constructServer _ cnt => decide (cnt = 0)
  | .construct .. => decide (r.sockets.length + 1 < 2 ^ 64)
  | .destruct e => r.spares ((r.indexOf e).getD 0)
  | .resetEntry i | .endClose i => r.spares i
  | _ => true

theorem Op.countsExactly_of_closesOnce {r : Registry} {op : Op} (h : op.closesOnce r) :
    op.countsExactly r := by
  cases op with
  | constructServer | construct => exact h
  | _ => rfl

/-! ## What every operation keeps -/

def Registry.HasClosedEntry (r : Registry) (n : Nat) : Prop :=
  ∃ i s, r.view.slot i = some s ∧ s.state = .SockClosed ∧ s.emitter = some (.server n)

structure Registry.CloseQueue (r : Registry) : Prop where
  sound : r.Sound
  fd : ∀ (i : Nat) slot, r.ioSockets.slots[i]? = some slot → slot.entry.state = .SockClosed →
    slot.pfd.fd = invalidSocket
  entry : ∀ n, r.stateOf n = some .BeingClosed → r.HasClosedEntry n
  index : r.view.IndexKept .serverClose
  server : ∀ ev ∈ (r.queue .serverClose).events, ∃ n, ev.owner = .server n
  still : (r.queue .serverClose).Still
  counts : r.CountsExactly

/-- What the plans add to the condition. -/
structure Op.FollowsClose (r : Registry) (op : Op) : Prop where
  keeps : op.closesOnce r
  closing : ∀ n, op = .serverState n .BeingClosed → r.HasClosedEntry n
  states : ∀ n state, op = .serverState n state →
    state = .BeingClosed ∨ (state = .Closed ∧ r.stateOf n = some .BeingClosed)
  server : ∀ hq e, op = .queue .serverClose hq e → ∃ n, e = .server n
  rework : op = .reworkIfNecessary → (r.queue .serverClose).events = []

theorem Op.spares_of_frees {r : Registry} {op : Op} (hkeeps : op.closesOnce r)
    (h : (op.abs r).Frees i) : r.spares i := by
  cases op
  case destruct e =>
    cases h
    exact hkeeps
  case resetEntry idx | endClose idx =>
    cases h
    exact hkeeps
  all_goals
    simp only [abs, Registry.absSock] at h
    (try split at h) <;> (try split at h) <;> exact h.elim

namespace Registry

variable {r r' : Registry} {op : Op} {n : Nat}

theorem HasClosedEntry.holder (h : r.HasClosedEntry n) :
    ∃ i s, r.view.slot i = some s ∧ s.state = .SockClosed ∧
      r.view.holder i = some (.server n) := by
  obtain ⟨i, s, hs, hclosed, he⟩ := h
  exact ⟨i, s, hs, hclosed, View.holder_eq_some.mpr ⟨s, hs, by simp [SlotView.used, hclosed], he⟩⟩

theorem HasClosedEntry.step (h : r.HasClosedEntry n) (hsound : r.Sound) (hrun : op.run r = .ok r')
    (hfrees : ∀ i, (op.abs r).Frees i → r.view.holder i ≠ some (.server n)) :
    r'.HasClosedEntry n := by
  obtain ⟨i, s, hs, hclosed, he⟩ := h
  have hholder : r.view.holder i = some (.server n) :=
    View.holder_eq_some.mpr ⟨s, hs, by simp [SlotView.used, hclosed], he⟩
  obtain ⟨j, s', hs', hclosed', he'⟩ := (op.run_step hsound hrun).closed_kept hs
    hclosed fun hfree => hfrees i hfree hholder
  exact ⟨j, s', hs', hclosed', he'.trans he⟩

theorem not_closed_of_listening (hkeeps : (Op.listening i).closesOnce r)
    (hserver : r.server i = .ok (n, srv)) : r.closedServer n = false := by
  simp only [Op.closesOnce, hserver] at hkeeps
  rw [closedServer, stateOf_server hserver]
  simpa using hkeeps

theorem not_closed_of_closing (hkeeps : (Op.serverState n .BeingClosed).closesOnce r) :
    r.closedServer n = false := by
  simp only [Op.closesOnce, Bool.and_eq_true, Bool.not_eq_true'] at hkeeps
  exact hkeeps.1

theorem mem_pushed_serverClose (hkeeps : op.closesOnce r) (hrun : op.run r = .ok r')
    (h : ev ∈ (op.abs r).pushed .serverClose) :
    (∃ hq, op = .queue .serverClose hq ev.owner) ∧ r.indexOf ev.owner = some ev.idx := by
  obtain ⟨hq, hop, hindex⟩ | ⟨i, rfl, -⟩ := Op.mem_pushed (by decide) hrun h
  · exact ⟨⟨hq, hop⟩, hindex⟩
  · cases hkeeps

namespace CloseQueue

theorem init : Registry.init.CloseQueue := by
  have hblank : ∀ {i : Nat} {slot : Slot}, Registry.init.ioSockets.slots[i]? = some slot →
      slot = {} := fun h => List.eq_of_mem_replicate (List.mem_of_getElem? h)
  refine ⟨.init, fun i slot hslot hclosed => ?_, fun n h => (nomatch h),
    fun _ hev => (nomatch hev), fun _ hev => (nomatch hev),
    ⟨nofun, nofun, fun hne => absurd rfl hne⟩, .init⟩
  rw [hblank hslot] at hclosed
  cases hclosed

theorem fd_step (h : r.CloseQueue) (hrun : op.run r = .ok r') (i : Nat) (slot' : Slot)
    (hslot' : r'.ioSockets.slots[i]? = some slot') (hclosed : slot'.entry.state = .SockClosed) :
    slot'.pfd.fd = invalidSocket := by
  generalize hact : op.tableAct r = act
  have hslot := TableEffect.slot (hact ▸ op.run_table hrun) hslot'
  cases hslot with
  | same hs hstate he hfd => exact hfd.trans (h.fd _ _ hs (hstate.symm.trans hclosed))
  | unused hunused =>
    simp only [Slot.used, hclosed] at hunused
    cases hunused
  | issued hnew =>
    subst hnew
    cases hclosed
  | associated hassociated hpos =>
    simp only [Slot.associated, hclosed] at hassociated
    cases hassociated
  | closed _ hinvalid => exact hinvalid

theorem entry_step (h : r.CloseQueue) (hfollows : op.FollowsClose r) (hrun : op.run r = .ok r')
    (n : Nat) (hstate' : r'.stateOf n = some .BeingClosed) : r'.HasClosedEntry n := by
  cases stateStep hrun n with
  | same hop heq =>
    have hstate : r.stateOf n = some .BeingClosed := heq ▸ hstate'
    refine (h.entry n hstate).step h.sound hrun fun i hfrees hholder => ?_
    have hspares := Op.spares_of_frees hfollows.keeps hfrees
    simp only [spares, hholder, hstate] at hspares
    cases hspares
  | new osSocket cnt hop hnone hnew => cases hnew.symm.trans hstate'
  | set state hop hnew =>
    cases hnew.symm.trans hstate'
    subst hop
    exact (hfollows.closing n rfl).step h.sound hrun fun i hfrees => hfrees.elim
  | listening i srv hop hserver hnew => cases hnew.symm.trans hstate'

/-- The step lemma. -/
theorem step (h : r.CloseQueue) (hfollows : op.FollowsClose r) (hrun : op.run r = .ok r') :
    r'.CloseQueue := by
  have hstep := op.run_step h.sound hrun
  refine ⟨h.sound.op hrun, h.fd_step hrun, h.entry_step hfollows hrun,
    ?_, fun ev hev => ?_, ?_, h.counts.step (Op.countsExactly_of_closesOnce hfollows.keeps) hrun⟩
  · refine h.index.step h.sound.consistent hstep
      (fun ev hev => (mem_pushed_serverClose hfollows.keeps hrun hev).2) fun hop => ?_
    have hfrom := op.abs_comesFrom r
    rw [hop] at hfrom
    exact hfollows.rework hfrom
  · rcases List.mem_append.mp ((hstep.events_sublist .serverClose).subset hev) with hev | hev
    · exact h.server ev hev
    · obtain ⟨⟨hq, hop⟩, -⟩ := mem_pushed_serverClose hfollows.keeps hrun hev
      exact hfollows.server hq _ hop
  · refine hstep.still (fun hne => ?_) h.still
    obtain ⟨ev, hev⟩ := List.exists_mem_of_ne_nil _ hne
    obtain ⟨⟨hq, hop⟩, -⟩ := mem_pushed_serverClose hfollows.keeps hrun hev
    have hkeeps := hfollows.keeps
    rw [hop] at hkeeps
    show (r.queue .serverClose).active = false
    simpa [Op.closesOnce] using hkeeps

theorem ops {ops : List Op} (h : r.CloseQueue) (hobeys : registry.obeys Op.FollowsClose r ops)
    (hrun : registry.run r ops = some r') : r'.CloseQueue :=
  registry.run_invariant (fun _ _ _ hJ hG hs => hJ.step hG (toOption_eq_some hs)) h hobeys hrun

end CloseQueue

/-! ## Counting -/

theorem closing_step (hfollows : op.FollowsClose r) (hrun : op.run r = .ok r') (n : Nat) :
    ((∀ state, op ≠ .serverState n state) ∧
        (r'.stateOf n = r.stateOf n ∨ (r.closedServer n = false ∧ r'.closedServer n = false))) ∨
      (op = .serverState n .BeingClosed ∧ r.closedServer n = false ∧
        r'.stateOf n = some .BeingClosed) ∨
      (op = .serverState n .Closed ∧ r.stateOf n = some .BeingClosed ∧
        r'.stateOf n = some .Closed) := by
  cases stateStep hrun n with
  | same hop heq => exact .inl ⟨hop, .inl heq⟩
  | new osSocket cnt hop hnone hnew =>
    exact .inl ⟨by simp [hop], .inr (by simp [closedServer, hnone, hnew, ServerState.closed])⟩
  | set state hop hnew =>
    subst hop
    rcases hfollows.states n state rfl with rfl | ⟨rfl, hbeing⟩
    · exact .inr (.inl ⟨rfl, not_closed_of_closing hfollows.keeps, hnew⟩)
    · exact .inr (.inr ⟨rfl, hbeing, hnew⟩)
  | listening i srv hop hserver hnew =>
    subst hop
    have hopen := not_closed_of_listening hfollows.keeps hserver
    exact .inl ⟨by simp, .inr ⟨hopen, by simp [closedServer, hnew, ServerState.closed]⟩⟩

theorem stateOf_ne_of_open (h : r.closedServer n = false) :
    r.stateOf n ≠ some .BeingClosed ∧ r.stateOf n ≠ some .Closed := by
  constructor <;>
  · intro heq
    rw [closedServer, heq] at h
    cases h

theorem closedServer_count (n : Nat) (hfollows : op.FollowsClose r) (hrun : op.run r = .ok r') :
    (r'.closedServer n).toNat = (r.closedServer n).toNat + (ServerClose.closed n op).toNat := by
  rcases closing_step hfollows hrun n with ⟨hop, hsame⟩ | ⟨rfl, hopen, hnew⟩ | ⟨rfl, hold, hnew⟩
  · have hnot : ServerClose.closed n op = false := by
      unfold ServerClose.closed
      split
      · exact decide_eq_false fun heq => hop _ (by rw [heq])
      · rfl
    rcases hsame with heq | ⟨hopen, hopen'⟩
    · rw [closedServer, heq, hnot]
      rfl
    · rw [hopen, hopen', hnot]
      rfl
  · rw [hopen, closedServer, hnew]
    simp [ServerClose.closed, ServerState.closed]
  · simp [closedServer, hnew, hold, ServerClose.closed, ServerState.closed]

theorem reported_count (n : Nat) (hfollows : op.FollowsClose r) (hrun : op.run r = .ok r') :
    (decide (r'.stateOf n = some .Closed)).toNat =
      (decide (r.stateOf n = some .Closed)).toNat + (ServerClose.reported n op).toNat := by
  rcases closing_step hfollows hrun n with ⟨hop, hsame⟩ | ⟨rfl, hopen, hnew⟩ | ⟨rfl, hold, hnew⟩
  · have hnot : ServerClose.reported n op = false := by
      unfold ServerClose.reported
      split
      · exact decide_eq_false fun heq => hop _ (by rw [heq])
      · rfl
    rcases hsame with heq | ⟨hopen, hopen'⟩
    · rw [heq, hnot]
      rfl
    · simp [(stateOf_ne_of_open hopen).2, (stateOf_ne_of_open hopen').2, hnot]
  · simp [hnew, (stateOf_ne_of_open hopen).2, ServerClose.reported]
  · simp [hnew, hold, ServerClose.reported]

/-! ## The event a server is owed -/

/-- One event of the server is pending if it is being closed and has no accepted sockets, and none
otherwise, once `k` more have been posted. -/
def Owed (r : Registry) (n k : Nat) : Prop :=
  r.pendingOf .serverClose (.server n) + k =
    if r.stateOf n = some .BeingClosed ∧ r.acceptedCount n = 0 then 1 else 0

theorem CloseQueue.pending_step (h : r.CloseQueue) (hfollows : op.FollowsClose r)
    (hrun : op.run r = .ok r') (hqueues : op.queues .serverClose (.server n) = false)
    (htake : op ≠ .take .serverClose) :
    r'.pendingOf .serverClose (.server n) = r.pendingOf .serverClose (.server n) := by
  by_cases hclear : op = .clear .serverClose
  · -- what is cleared is empty
    subst hclear
    obtain ⟨hactive, hbatch, -, rfl⟩ := clear_eq_ok hrun
    have hempty : (r.queue .serverClose).events = [] := by
      rw [EventQueue.events, hbatch, h.still.waiting hactive]
      rfl
    rw [pendingOf, pendingOf, hempty]
    simp
  · have hbalance := Op.run_pendingOf h.sound (by decide) hclear (fun _ i heq => by
      have hkeeps := hfollows.keeps
      rw [heq] at hkeeps
      cases hkeeps) hrun (.server n)
    rw [Op.takes_of_ne htake, hqueues] at hbalance
    exact hbalance

theorem being_step (hfollows : op.FollowsClose r) (hrun : op.run r = .ok r')
    (hstate : ∀ state, op ≠ .serverState n state) :
    r'.stateOf n = some .BeingClosed ↔ r.stateOf n = some .BeingClosed := by
  rcases closing_step hfollows hrun n with ⟨-, heq | ⟨hopen, hopen'⟩⟩ | ⟨hop, -⟩ | ⟨hop, -⟩
  · rw [heq]
  · simp [(stateOf_ne_of_open hopen).1, (stateOf_ne_of_open hopen').1]
  · exact absurd hop (hstate _)
  · exact absurd hop (hstate _)

end Registry

/-- The operation has nothing to do with the server: no event of it is posted or taken, its state is
not set, and if it is being closed, its sockets stay. -/
structure Op.Leaves (r : Registry) (n : Nat) (op : Op) : Prop where
  queues : op.queues .serverClose (.server n) = false
  take : op ≠ .take .serverClose
  state : ∀ state, op ≠ .serverState n state
  sockets : r.stateOf n = some .BeingClosed → (∀ osSocket, op ≠ .construct osSocket (some n)) ∧
    ∀ o, op = .destruct (.client o) → ∃ x, r.origins[o]? = some x ∧ x ≠ some n

namespace Registry.Owed

variable {r r' : Registry} {ops : List Op} {k n : Nat}

theorem leaves (h : r.Owed n k) (hqueue : r.CloseQueue)
    (hobeys : registry.obeys Op.FollowsClose r ops) (hops : ∀ op ∈ ops, op.Leaves r n)
    (hrun : registry.run r ops = some r') : r'.Owed n k := by
  refine (registry.run_invariant (J := fun r₁ => r₁.CloseQueue ∧ r₁.Owed n k ∧
    (r₁.stateOf n = some .BeingClosed → r.stateOf n = some .BeingClosed) ∧
    ∃ l, r₁.origins = r.origins ++ l) ?_ ⟨hqueue, h, id, [], (List.append_nil _).symm⟩
    (registry.obeys_and_mem hobeys hops) hrun).2.1
  rintro r₁ op r₂ ⟨hqueue, howed, hstart, l, hl⟩ ⟨hfollows, hleaves⟩ hstep
  have hok := toOption_eq_some hstep
  have hbeing := being_step hfollows hok hleaves.state
  refine ⟨hqueue.step hfollows hok, ?_, fun h => hstart (hbeing.mp h), l ++ op.origin,
    by rw [op.run_origins hok, hl, List.append_assoc]⟩
  rw [Owed, hqueue.pending_step hfollows hok hleaves.queues hleaves.take, howed]
  by_cases hb : r₁.stateOf n = some .BeingClosed
  · -- a socket keeps its server, and those of the start come first
    obtain ⟨hconstruct, hdestruct⟩ := hleaves.sockets (hstart hb)
    rw [op.run_acceptedCount hok hconstruct]
    · simp only [hbeing]
    · intro o ho hsome
      obtain ⟨x, hx, hne⟩ := hdestruct o ho
      rw [hl, List.getElem?_append_left (List.getElem?_eq_some_iff.mp hx).1, hx] at hsome
      exact hne (Option.some.inj hsome)
  · simp only [hbeing, hb, false_and]

theorem closing (h : r.Owed n 0) (hqueue : r.CloseQueue)
    (hfollows : (Op.serverState n .BeingClosed).FollowsClose r)
    (hrun : (Op.serverState n .BeingClosed).run r = .ok r') :
    r'.Owed n (if r.acceptedCount n = 0 then 1 else 0) := by
  have hopen := (stateOf_ne_of_open (not_closed_of_closing hfollows.keeps)).1
  obtain ⟨hop, -⟩ | ⟨-, -, hbeing⟩ | ⟨hop, -⟩ := closing_step hfollows hrun n
  · exact absurd rfl (hop _)
  · rw [Owed, if_neg fun hcond => hopen hcond.1] at h
    rw [Owed, hqueue.pending_step hfollows hrun rfl (by simp), hbeing,
      Op.run_acceptedCount hrun (by simp) (by simp)]
    simpa using h
  · cases hop

/-- So is one that is being closed and loses its last socket. -/
theorem destruct {o : Nat} (h : r.Owed n 0) (hqueue : r.CloseQueue)
    (howner : r.roster.owners[o]? = some (true, some n)) (hbeing : r.stateOf n = some .BeingClosed)
    (hfollows : (Op.destruct (.client o)).FollowsClose r)
    (hrun : (Op.destruct (.client o)).run r = .ok r') :
    r'.Owed n (if r.acceptedCount n = 1 then 1 else 0) := by
  have hcount := acceptedCount_destruct howner hrun
  rw [Owed, if_neg (by omega), Nat.add_zero] at h
  rw [Owed, hqueue.pending_step hfollows hrun rfl (by simp), h, ← hcount,
    (being_step hfollows hrun (by simp)).mpr hbeing]
  simp

theorem report (h : r.Owed n 1) (hsound : r.Sound)
    (hrun : registry.run r (Program.appReportAllAceptedConnectionsEnded n idx) = some r') :
    r'.Owed n 0 := by
  have hroster := Registry.run_roster hrun (by
    simp [Program.appReportAllAceptedConnectionsEnded, Op.onRoster])
  obtain ⟨r₁, hat, hrun⟩ := registry.run_cons hrun
  cases Registry.map_const_eq_ok (toOption_eq_some hat)
  have hbalance := Op.run_pendingOf (q := .serverClose) hsound (by decide) (by simp) (by simp)
    (Loop.run_singleton hrun) (.server n)
  simp only [Op.takes, Op.queues, Bool.toNat_false, Nat.add_zero, decide_true, Bool.and_self,
    Bool.toNat_true] at hbalance
  rw [Owed, Nat.add_zero, hbalance, stateOf, acceptedCount_eq, hroster, ← acceptedCount_eq]
  exact h

end Registry.Owed

/-! ## The plans follow the condition -/

/-- The operation sets no state and does not compact, and the close events it posts are those of
servers. -/
def Op.Stateless : Op → Prop
  | .serverState .. | .reworkIfNecessary => False
  | .queue .serverClose _ e => ∃ n, e = .server n
  | _ => True

theorem Op.OfDestructor.stateless {op : Op} (h : op.OfDestructor) : op.Stateless := by
  rcases h.cases with ⟨o, rfl⟩ | ⟨idx, rfl⟩ | ⟨e, rfl⟩ <;> trivial

theorem Op.OfDestructor.leaves {op : Op} {r : Registry} {n : Nat} (h : op.OfDestructor)
    (hsockets : r.stateOf n = some .BeingClosed →
      ∀ o, op = .destruct (.client o) → ∃ x, r.origins[o]? = some x ∧ x ≠ some n) :
    op.Leaves r n := by
  rcases h.cases with ⟨o, rfl⟩ | ⟨idx, rfl⟩ | ⟨e, rfl⟩ <;>
    exact ⟨rfl, by simp, by simp, fun hbeing => ⟨by simp, hsockets hbeing⟩⟩

theorem Op.Plain.stateless {op : Op} {r : Registry} (h : op.Plain r) : op.Stateless := by
  cases op with
  | serverState | reworkIfNecessary => exact h
  | queue q hq e =>
    cases h
    trivial
  | _ => trivial

theorem Op.Plain.leaves {op : Op} {r : Registry} (h : op.Plain r) (n : Nat) : op.Leaves r n := by
  refine ⟨?_, ?_, ?_, fun _ => ⟨?_, ?_⟩⟩
  · cases op
    case queue q hq e =>
      cases h
      rfl
    all_goals rfl
  · rintro rfl
    exact h rfl
  · rintro state rfl
    exact h
  · rintro osSocket rfl
    cases h
  · rintro o rfl
    obtain ⟨o', obj, ⟨⟩, hlive, hserver⟩ := h
    exact ⟨none, by rw [Registry.origin_of_live hlive, hserver], by simp⟩

namespace Loop

variable {k : Ctl} {r r' : Registry} {ops : List Op}

theorem obeys_follows (hobeys : registry.obeys (fun r op => op.closesOnce r) r ops)
    (hops : ∀ op ∈ ops, op.Stateless) : registry.obeys Op.FollowsClose r ops := by
  refine registry.obeys_mono ?_ (registry.obeys_and_mem hobeys hops)
  rintro r₁ op ⟨hkeeps, hop⟩
  refine ⟨hkeeps, ?_, ?_, ?_, ?_⟩
  · rintro n rfl
    exact hop.elim
  · rintro n state rfl
    exact hop.elim
  · rintro hq e rfl
    exact hop
  · rintro rfl
    exact hop.elim

theorem closingProcedure_follows (hsound : r.Sound) (hlive : r.liveServer s = some srv)
    (hobeys : registry.obeys (fun r op => op.closesOnce r) r
      (Program.closingProcedure r s srv.index))
    (hrun : registry.run r (Program.closingProcedure r s srv.index) = some r') :
    registry.obeys Op.FollowsClose r (Program.closingProcedure r s srv.index) := by
  obtain ⟨r₁, hkeeps₁, hat, hobeys, hrun⟩ := registry.guarded_cons hobeys hrun
  refine (registry.obeys_cons hat).mpr ⟨⟨hkeeps₁, by simp, by simp, by simp, by simp⟩, ?_⟩
  obtain ⟨slot, hslot⟩ := Registry.map_const_isOk (toOption_eq_some hat)
  cases Registry.map_const_eq_ok (toOption_eq_some hat)
  obtain ⟨-, hslot, hused⟩ := NetSockets.at'_eq_ok hslot
  have hidx : (r.entry srv.index).index = srv.index := by
    rw [Registry.entry_of_slot hslot]
    exact (hsound.consistent.used _ _ (Registry.view_slot hslot) hused).1
  rw [hidx] at hrun hobeys ⊢
  obtain ⟨r₂, hkeeps₂, hclose, hobeys, hrun⟩ := registry.guarded_cons hobeys hrun
  refine (registry.obeys_cons hclose).mpr ⟨⟨hkeeps₂, by simp, by simp, by simp, by simp⟩, ?_⟩
  obtain ⟨r₃, hkeeps₃, hstate, hobeys, hrun⟩ := registry.guarded_cons hobeys hrun
  refine (registry.obeys_cons hstate).mpr ⟨⟨hkeeps₃, ?_, ?_, by simp, by simp⟩, ?_⟩
  · -- the condition is about the registry in which the entry is closed already
    rintro n ⟨⟩
    obtain ⟨t, ht, hr₂⟩ := Registry.onTable_eq_ok (toOption_eq_some hclose)
    have hindex : r₂.indexOf (.server s) = some srv.index := by
      rw [hr₂]
      exact Registry.view_index_server hlive
    simp only [Op.closesOnce, hindex, Option.getD_some, Bool.and_eq_true, decide_eq_true_eq]
      at hkeeps₃
    obtain ⟨-, hholder⟩ := hkeeps₃
    obtain ⟨slot', -, hslot', -, rfl⟩ := NetSockets.setSocketClosed_eq_ok ht
    subst hr₂
    obtain ⟨hlt, -⟩ := List.getElem?_eq_some_iff.mp hslot'
    obtain ⟨sv, hsv, -, he⟩ := View.holder_eq_some.mp hholder
    refine ⟨srv.index, sv, hsv, ?_, he⟩
    rw [Registry.view_slot (List.getElem?_set_self hlt)] at hsv
    cases hsv
    rfl
  · rintro n state ⟨⟩
    exact .inl rfl
  · refine obeys_follows hobeys ?_
    unfold Program.appReportAllAceptedConnectionsEnded
    split <;> simp [Op.Stateless]

theorem rrOnClose_follows (hserver : r.server idx = .ok (s, srv))
    (hslot : r.ioSockets.slots[idx]? = some slot)
    (hobeys : registry.obeys (fun r op => op.closesOnce r) r (rrOnClose r idx s srv slot))
    (hrun : registry.run r (rrOnClose r idx s srv slot) = some r') :
    registry.obeys Op.FollowsClose r (rrOnClose r idx s srv slot) := by
  obtain ⟨-, -, hbeing, -, -⟩ := rrOnClose_run hslot hrun
  -- all operations but the last leave the states alone
  let checks : List Op := [.take .serverClose, .at' idx,
    .check (decide (slot.pfd.fd = invalidSocket)), .check (decide (srv.state = .BeingClosed)),
    .check (decide (r.getSockCount s = 0))]
  have hsplit : rrOnClose r idx s srv slot = checks ++ [Op.serverState s .Closed] := rfl
  rw [hsplit] at hobeys hrun ⊢
  obtain ⟨r₁, hobeys₁, hchecks, ⟨hkeeps, -⟩, -⟩ := registry.guarded_append hobeys hrun
  have hroster : r₁.roster = r.roster := Registry.run_roster hchecks (by simp [checks, Op.onRoster])
  have hstate : r₁.stateOf s = some .BeingClosed := by
    rw [Registry.stateOf, hroster, ← hbeing]
    exact Registry.stateOf_server hserver
  refine (registry.obeys_append hchecks).mpr
    ⟨obeys_follows hobeys₁ (by simp [checks, Op.Stateless]),
    ⟨hkeeps, by simp, ?_, by simp, by simp⟩, fun _ _ => trivial⟩
  rintro n state ⟨⟩
  exact .inr ⟨rfl, hstate⟩

theorem ServerPlan.follows (hplan : ServerPlan k r ops) (h : r.CloseQueue)
    (hrework : k.phase = .reworkIfNecessary → (r.queue .serverClose).events = [])
    (hobeys : registry.obeys (fun r op => op.closesOnce r) r ops)
    (hrun : registry.run r ops = some r') : registry.obeys Op.FollowsClose r ops := by
  cases hplan with
  | plain hops => exact obeys_follows hobeys fun op hop => (hops op hop).stateless
  | accept osSocket hslot hassociated hserver =>
    exact obeys_follows hobeys
      (by simp [Program.consumeAcceptedSocket, Program.infraAddAccepted, Op.Stateless])
  | close hlive => exact closingProcedure_follows h.sound hlive hobeys hrun
  | destructServer hlive =>
    exact obeys_follows hobeys fun op hop => (Program.destructServer_ops r _ op hop).stateless
  | @cleanup o obj idx hlive =>
    refine obeys_follows hobeys fun op hop => ?_
    rcases List.mem_append.mp hop with hop | hop
    · rcases Program.onFinalCleanup_ops r o obj op hop with hmem | ⟨i, rfl⟩ | ⟨hq, n, rfl⟩
      · exact hmem.stateless
      · trivial
      · exact ⟨n, rfl⟩
    · cases List.mem_singleton.mp hop
      trivial
  | skipped hphase hbatch hsize => exact obeys_follows hobeys (by simp [Op.Stateless])
  | event hphase hbatch hserver hslot => exact rrOnClose_follows hserver hslot hobeys hrun
  | rework hphase =>
    exact ⟨⟨rfl, by simp, by simp, by simp, fun _ => hrework hphase⟩, fun _ _ => trivial⟩

/-! ## The plans keep what is owed -/

theorem open_of_associated (h : r.CloseQueue) (hslot : r.ioSockets.slots[i]? = some slot)
    (hassociated : slot.associated) (hserver : r.server i = .ok (s, srv)) :
    r.stateOf s ≠ some .BeingClosed := by
  intro hbeing
  obtain ⟨slot', hslot', he, -, -⟩ := Registry.server_eq_ok hserver
  cases hslot.symm.trans hslot'
  have hstate : slot.entry.state = .SockAssociated := by simpa [Slot.associated] using hassociated
  have hholder : r.view.holder i = some (.server s) :=
    View.holder_eq_some.mpr ⟨_, Registry.view_slot hslot, by
      simp [Slot.view, SlotView.used, hstate], he⟩
  obtain ⟨j, sv, hsv, hclosed, hholder'⟩ := (h.entry s hbeing).holder
  cases h.sound.consistent.holder_inj hholder hholder'
  rw [Registry.view_slot hslot] at hsv
  cases hsv
  cases hstate.symm.trans hclosed

theorem open_of_destruct (h : r.CloseQueue) (hkeeps : (Op.destruct (.server s)).closesOnce r) :
    r.stateOf s ≠ some .BeingClosed := by
  intro hbeing
  obtain ⟨j, sv, hsv, hclosed, hholder⟩ := (h.entry s hbeing).holder
  have hindex : r.indexOf (.server s) = some j := h.sound.consistent.index_of_holder hholder
  simp only [Op.closesOnce, hindex, Option.getD_some, Registry.spares, hholder, hbeing] at hkeeps
  cases hkeeps

theorem closingProcedure_owed (h : r.CloseQueue) (howed : r.Owed s 0)
    (hobeys : registry.obeys Op.FollowsClose r (Program.closingProcedure r s srv.index))
    (hrun : registry.run r (Program.closingProcedure r s srv.index) = some r') : r'.Owed s 0 := by
  let first : List Op := [.at' srv.index, .setSocketClosed (r.entry srv.index).index]
  have hsplit : Program.closingProcedure r s srv.index =
      first ++ (.serverState s .BeingClosed :: if r.getSockCount s = 0 then
        Program.appReportAllAceptedConnectionsEnded s srv.index else []) := rfl
  rw [hsplit] at hobeys hrun
  obtain ⟨r₁, hobeys₁, hfirst, hobeys, hrun⟩ := registry.guarded_append hobeys hrun
  obtain ⟨r₂, hfollows, hclose, -, hrun⟩ := registry.guarded_cons hobeys hrun
  have hqueue₁ := h.ops hobeys₁ hfirst
  have howed₁ := howed.leaves h hobeys₁
    (by simpa [first] using ⟨⟨rfl, by simp, by simp, by simp⟩, ⟨rfl, by simp, by simp, by simp⟩⟩)
    hfirst
  have howed₂ := howed₁.closing hqueue₁ hfollows (toOption_eq_some hclose)
  rw [Registry.acceptedCount_eq, Registry.run_roster hfirst (by simp [first, Op.onRoster]),
    ← Registry.acceptedCount_eq] at howed₂
  simp only [h.counts.getSockCount_eq_iff, UInt64.toNat_zero] at hrun
  by_cases hzero : r.acceptedCount s = 0
  · rw [if_pos hzero] at hrun howed₂
    exact howed₂.report (hqueue₁.sound.step hclose) hrun
  · rw [if_neg hzero] at hrun howed₂
    cases hrun
    exact howed₂

/-- The last accepted socket of a server that is being closed posts the event. -/
theorem cleanup_owed (h : r.CloseQueue) {o : Nat} {obj : SocketObj} (howed : r.Owed s 0)
    (hlive : r.liveSocket o = some obj) (hserver : obj.server = some s)
    (hsrv : r.liveServer s = some srv) (hbeing : r.stateOf s = some .BeingClosed)
    (hobeys : registry.obeys Op.FollowsClose r (Program.destructSocket o obj ++
      (if srv.state = .BeingClosed ∧ r.getSockCount s = 1 then
        Program.appReportAllAceptedConnectionsEnded s srv.index else []) ++ [Op.endClose idx]))
    (hrun : registry.run r (Program.destructSocket o obj ++
      (if srv.state = .BeingClosed ∧ r.getSockCount s = 1 then
        Program.appReportAllAceptedConnectionsEnded s srv.index else []) ++ [Op.endClose idx]) =
        some r') : r'.Owed s 0 := by
  let before : List Op :=
    (if obj.data.state = .Connecting ∨ obj.data.state = .Connected then [.sock o .destroy] else [])
      ++ [Op.setRefed obj.data.index false]
  have hsplit : Program.destructSocket o obj = before ++ [Op.destruct (.client o)] := by
    simp [Program.destructSocket, before]
  have hstate : srv.state = .BeingClosed :=
    Option.some.inj ((Registry.stateOf_live hsrv).symm.trans hbeing)
  simp only [hsplit, hstate, true_and, List.append_assoc, List.singleton_append,
    h.counts.getSockCount_eq_iff, UInt64.toNat_one] at hobeys hrun
  obtain ⟨r₁, hobeys₁, hbefore, hobeys, hrun⟩ := registry.guarded_append hobeys hrun
  obtain ⟨r₂, hfollows, hdestruct, hobeys, hrun⟩ := registry.guarded_cons hobeys hrun
  obtain ⟨r₃, hobeys₃, hreport, hobeys, hrun⟩ := registry.guarded_append hobeys hrun
  have hqueue₁ := h.ops hobeys₁ hbefore
  have hqueue₂ := hqueue₁.step hfollows (toOption_eq_some hdestruct)
  have hroster : r₁.roster = r.roster := Registry.run_roster hbefore (by
    simp only [before]
    split <;> simp [Op.onRoster])
  have howed₁ : r₁.Owed s 0 := howed.leaves h hobeys₁ (fun op hop => by
    have hmem : op ∈ Program.destructSocket o obj := hsplit ▸ List.mem_append_left _ hop
    refine (Program.destructSocket_ops o obj op hmem).leaves fun _ o' heq => ?_
    simp only [heq, before] at hop
    split at hop <;> simp at hop) hbefore
  have howed₂ := howed₁.destruct hqueue₁ (by rw [hroster, Registry.owner_of_live hlive, hserver])
    (by rw [Registry.stateOf, hroster, ← Registry.stateOf, hbeing]) hfollows
    (toOption_eq_some hdestruct)
  rw [Registry.acceptedCount_eq, hroster, ← Registry.acceptedCount_eq] at howed₂
  have howed₃ : r₃.Owed s 0 := by
    by_cases hone : r.acceptedCount s = 1
    · rw [if_pos hone] at hreport howed₂
      exact howed₂.report hqueue₂.sound hreport
    · rw [if_neg hone] at hreport howed₂
      cases hreport
      exact howed₂
  exact howed₃.leaves (hqueue₂.ops hobeys₃ hreport) hobeys
    (by simpa using ⟨rfl, by simp, by simp, by simp⟩) hrun

/-- The event that is next in the pass: its server is being closed, has no sockets and holds the
entry the event names, which has no descriptor. -/
theorem pass_head (h : r.CloseQueue) (howed : ∀ n, r.Owed n 0) {rest : List Pending}
    (hbatch : (r.queue .serverClose).batch = ev :: rest) :
    ∃ n slot, ev.owner = .server n ∧ r.stateOf n = some .BeingClosed ∧ r.acceptedCount n = 0 ∧
      r.view.holder ev.idx = some (.server n) ∧ r.ioSockets.slots[ev.idx]? = some slot ∧
      slot.pfd.fd = invalidSocket := by
  have hmem : ev ∈ (r.queue .serverClose).events := by
    rw [EventQueue.events_of_batch hbatch]
    exact List.mem_cons_self ..
  obtain ⟨n, hn⟩ := h.server ev hmem
  have hpos : 0 < r.pendingOf .serverClose (.server n) :=
    List.countP_pos_iff.mpr ⟨ev, hmem, by simpa using hn⟩
  have hcond : r.stateOf n = some .BeingClosed ∧ r.acceptedCount n = 0 := by
    by_contra hnot
    have hnone := howed n
    rw [Registry.Owed, if_neg hnot] at hnone
    omega
  obtain ⟨i, sv, hsv, hclosed, hholder⟩ := (h.entry n hcond.1).holder
  have hindex := h.sound.consistent.index_of_holder hholder
  cases (h.index ev hmem).2 i (hn ▸ hindex)
  obtain ⟨slot, hslot, rfl⟩ := Registry.view_slot_eq_some hsv
  exact ⟨n, slot, hn, hcond.1, hcond.2, hholder, hslot, h.fd _ slot hslot hclosed⟩

theorem rrOnClose_owed (h : r.CloseQueue) (howed : ∀ n, r.Owed n 0) {rest : List Pending}
    (hbatch : (r.queue .serverClose).batch = ev :: rest)
    (hserver : r.server ev.idx = .ok (s, srv)) (hslot : r.ioSockets.slots[ev.idx]? = some slot)
    (hrun : registry.run r (rrOnClose r ev.idx s srv slot) = some r') (n : Nat) : r'.Owed n 0 := by
  obtain ⟨-, -, -, -, r₁, htake, hclosed⟩ := rrOnClose_run hslot hrun
  obtain ⟨m, slot', hm, hbeing, hzero, hholder, -, -⟩ := pass_head h howed hbatch
  obtain ⟨obj, hobj⟩ := Registry.server_of_holder h.sound hholder
  cases hserver.symm.trans hobj
  have htaken := Op.run_pendingOf (q := .serverClose) h.sound (by decide) (by simp) (by simp) htake
    (.server n)
  have hkept := Op.run_pendingOf (q := .serverClose) (h.sound.op htake)
    (by decide) (by simp) (by simp) hclosed (.server n)
  have hcount : r'.acceptedCount n = r.acceptedCount n := by
    rw [Op.run_acceptedCount hclosed (by simp) (by simp),
      Op.run_acceptedCount htake (by simp) (by simp)]
  simp only [Op.takes, Op.queues, hbatch, List.head?_cons, Option.any_some, hm, decide_true,
    Bool.true_and, Emitter.server.injEq, Bool.toNat_false, Nat.add_zero] at htaken hkept
  have hone := howed n
  rw [Registry.Owed] at hone ⊢
  cases Registry.stateStep hclosed n with
  | same hop heq =>
    have hn : s ≠ n := fun hs => hop .Closed (by rw [hs])
    have hsame : r'.stateOf n = r.stateOf n := by
      rw [heq, Registry.stateOf, (Op.take .serverClose).run_roster htake]
      rfl
    rw [hsame, hcount, hkept, ← hone]
    simpa [hn] using htaken
  | set state hop hnew =>
    -- it was the only one
    cases hop
    rw [if_pos ⟨hbeing, hzero⟩] at hone
    rw [hnew, if_neg (by simp)]
    simp only [decide_true, Bool.toNat_true] at htaken
    omega
  | new osSocket cnt hop => cases hop
  | listening i srv hop => cases hop

theorem ServerPlan.owed (hplan : ServerPlan k r ops) (h : r.CloseQueue) (howed : ∀ n, r.Owed n 0)
    (hobeys : registry.obeys Op.FollowsClose r ops)
    (hrun : registry.run r ops = some r') (n : Nat) :
    r'.Owed n 0 := by
  have hleaves := fun hops => (howed n).leaves h hobeys hops hrun
  cases hplan with
  | plain hops => exact hleaves fun op hop => (hops op hop).leaves n
  | @accept i slot s srv osSocket hslot hassociated hserver =>
    have hopen := open_of_associated h hslot hassociated hserver
    refine hleaves fun op hop => ?_
    simp only [Program.consumeAcceptedSocket, Program.infraAddAccepted, List.cons_append,
      List.nil_append, List.mem_cons, List.not_mem_nil, or_false] at hop
    rcases hop with rfl | rfl | rfl | rfl | rfl | rfl | rfl | rfl | rfl
    · refine ⟨rfl, by simp, by simp, fun hbeing => ⟨?_, by simp⟩⟩
      rintro osSocket ⟨⟩
      exact hopen hbeing
    all_goals exact ⟨rfl, by simp, by simp, by simp⟩
  | @close s srv hlive =>
    by_cases hn : s = n
    · subst hn
      exact closingProcedure_owed h (howed s) hobeys hrun
    · refine hleaves fun op hop => ?_
      rcases Program.closingProcedure_ops hop with ⟨i, rfl⟩ | ⟨i, rfl⟩ | rfl | ⟨hq, rfl⟩ <;>
        exact ⟨by simp [Op.queues, hn], by simp, by simp [hn], by simp⟩
  | @destructServer s srv hlive =>
    have hdes := Program.destructServer_ops r s
    refine hleaves fun op hop => (hdes op hop).leaves fun hbeing o heq => ?_
    refine ⟨some s, Program.destructServer_origins (heq ▸ hop), ?_⟩
    rintro ⟨⟩
    -- the server itself goes last, and is still being closed then
    obtain ⟨r₁, hobeys₁, hsockets, ⟨hfollows, -⟩, -⟩ := registry.guarded_append hobeys hrun
    refine open_of_destruct (h.ops hobeys₁ hsockets) hfollows.keeps ?_
    refine registry.run_invariant (J := fun r => r.stateOf n = some .BeingClosed) ?_ hbeing
      (registry.obeys_and_mem hobeys₁ fun op hop => hdes op (List.mem_append_left _ hop)) hsockets
    rintro r₁ op r₂ hbeing ⟨hfollows, hop⟩ hstep
    refine (Registry.being_step hfollows (toOption_eq_some hstep) ?_).mpr hbeing
    rintro state rfl
    exact hop
  | @cleanup o obj idx hlive =>
    obtain hnil | ⟨s, srv, hserver, hsrv, hops⟩ := Program.onFinalCleanup_cases r o obj
    · rw [hnil] at hleaves
      exact hleaves (by simpa using ⟨rfl, by simp, by simp, by simp⟩)
    · rw [hops] at hobeys hrun hleaves
      by_cases hn : s = n ∧ r.stateOf n = some .BeingClosed
      · obtain ⟨rfl, hbeing⟩ := hn
        exact cleanup_owed h (howed s) hlive hserver hsrv hbeing hobeys hrun
      · refine hleaves fun op hop => ?_
        rw [List.append_assoc] at hop
        rcases List.mem_append.mp hop with hop | hop
        · refine (Program.destructSocket_ops o obj op hop).leaves fun hbeing o' heq => ?_
          have ho : o' = o := by
            simp only [heq, Program.destructSocket, List.mem_append] at hop
            rcases hop with hop | hop
            · split at hop <;> simp at hop
            · simpa using hop
          refine ⟨some s, by rw [ho, Registry.origin_of_live hlive, hserver], ?_⟩
          rintro ⟨⟩
          exact hn ⟨rfl, hbeing⟩
        · by_cases hcond : srv.state = .BeingClosed ∧ r.getSockCount s = 1
          · have hne : s ≠ n := by
              rintro rfl
              exact hn ⟨rfl, hcond.1 ▸ Registry.stateOf_live hsrv⟩
            simp only [if_pos hcond, Program.appReportAllAceptedConnectionsEnded, List.cons_append,
              List.nil_append, List.mem_cons, List.not_mem_nil, or_false] at hop
            rcases hop with rfl | rfl | rfl <;>
              exact ⟨by simp [Op.queues, hne], by simp, by simp, by simp⟩
          · simp only [if_neg hcond, List.nil_append, List.mem_singleton] at hop
            subst hop
            exact ⟨rfl, by simp, by simp, by simp⟩
  | skipped hphase hbatch hsize =>
    have hkeeps := hobeys.1.keeps
    simp only [Op.closesOnce, hbatch, List.head?_cons, Option.all_some, decide_eq_true_eq]
      at hkeeps
    exact absurd hkeeps hsize
  | event hphase hbatch hserver hslot => exact rrOnClose_owed h howed hbatch hserver hslot hrun n
  | rework hphase => exact hleaves (by simpa using ⟨rfl, by simp, by simp, by simp⟩)

end Loop

/-! ## Along the loop -/

structure ServerCloseKept (w : Ctl × Registry) : Prop where
  queue : w.2.CloseQueue
  owed : ∀ n, w.2.Owed n 0
  rework : w.1.phase = .reworkIfNecessary →
    w.1.handler = false ∧ (w.2.queue .serverClose).events = []

namespace ServerCloseKept

variable {w w' : Ctl × Registry} {a : Action} {p : Plan} {r : Registry}

theorem init : ServerCloseKept Loop.init := ⟨.init, fun _ => rfl, fun h => nomatch h⟩

theorem follows (h : ServerCloseKept w)
    (hmeets : runStandardLoop.Meets (fun _ r op => op.closesOnce r) w a)
    (hp : Loop.plan w.1 w.2 a = some p) (hrun : registry.run w.2 p.1 = some r) :
    registry.obeys Op.FollowsClose w.2 p.1 :=
  (Loop.plan_server hp).follows h.queue (fun hphase => (h.rework hphase).2) (hmeets p hp) hrun

/-- The step lemma. -/
theorem step (h : ServerCloseKept w)
    (hmeets : runStandardLoop.Meets (fun _ r op => op.closesOnce r) w a)
    (hstep : runStandardLoop.machine.step w a = some w') : ServerCloseKept w' := by
  have hplanned : ∀ {a p r}, runStandardLoop.Meets (fun _ r op => op.closesOnce r) w a →
      Loop.plan w.1 w.2 a = some p → registry.run w.2 p.1 = some r →
      r.CloseQueue ∧ ∀ n, r.Owed n 0 := by
    intro a p r hmeets hp hrun
    have hfollows := h.follows hmeets hp hrun
    exact ⟨h.queue.ops hfollows hrun, (Loop.plan_server hp).owed h.queue h.owed hfollows hrun⟩
  -- no handler runs when the table is about to be reworked
  have hhandler : w.1.handler = true → w.1.phase ≠ .reworkIfNecessary := by
    intro hhandler hphase
    rw [(h.rework hphase).1] at hhandler
    cases hhandler
  obtain ⟨-, hacts⟩ := Loop.step_acts hstep
  cases hacts with
  | call hh hops hplan hrun =>
    obtain ⟨hqueue, howed⟩ := hplanned hmeets hplan hrun
    exact ⟨hqueue, howed, fun hphase => absurd hphase (hhandler hh)⟩
  | timer hh =>
    exact ⟨h.queue, h.owed, fun hphase =>
      absurd ((w.1.timerCall_phase _).1 ▸ hphase) (hhandler hh)⟩
  | ret hh => exact ⟨h.queue, h.owed, fun hphase => absurd hphase (hhandler hh)⟩
  | infra hh hp hplan hrun =>
    obtain ⟨hqueue, howed⟩ := hplanned hmeets hplan hrun
    exact ⟨hqueue, howed, Loop.step_rework hh hp hrun⟩
  | stuck hrunning => exact ⟨h.queue, h.owed, h.rework⟩

theorem not_aborted {env : Env} (h : ServerCloseKept w)
    (hphase : w.1.phase = .infraGetCloseEvents) (hbatch : (w.2.queue .serverClose).batch ≠ [])
    (hobeys : Loop.Obeys (fun r op => op.closesOnce r) w [.infra env])
    (hrun : Loop.run w [.infra env] = some w') : w'.1.aborted = false := by
  obtain ⟨ev, rest, hev⟩ := List.exists_cons_of_ne_nil hbatch
  obtain ⟨w₁, hstep, hrest⟩ := runStandardLoop.machine.run_cons hrun
  cases hrest
  obtain ⟨haborted, hhandler, p, hp, hcases⟩ := Loop.infra_cases hstep
  -- nothing is pushed while the pass takes its events
  have hvalid : Loop.dangling w.2 w.1.phase = false := by
    rw [hphase]
    exact h.queue.still.moved (h.queue.still.active hbatch)
  have hmeets := hobeys.1 p ((Loop.plan_infra haborted hhandler hvalid env).trans hp)
  have hplan : Loop.infraGetCloseEvents w.1 w.2 = p := by
    unfold Loop.step at hp
    rw [hphase] at hp
    exact Option.some.inj hp
  have hevent := Loop.infraGetCloseEvents_cases w.1 w.2
  rw [hplan] at hevent
  obtain ⟨n, slot, -, hbeing, hzero, hholder, hslot, hfd⟩ := Loop.pass_head h.queue h.owed hev
  obtain ⟨srv, hserver⟩ := Registry.server_of_holder h.queue.sound hholder
  cases hevent with
  | done hnil => exact absurd hnil hbatch
  | skipped hbatch' hsize =>
    cases hev.symm.trans hbatch'
    have hkeeps : (Op.take .serverClose).closesOnce w.2 := hmeets.1
    simp only [Op.closesOnce, hev, List.head?_cons, Option.all_some, decide_eq_true_eq] at hkeeps
    exact absurd hkeeps hsize
  | lost hbatch' hlost =>
    cases hev.symm.trans hbatch'
    exact absurd hslot (hlost n srv slot hserver)
  | event hbatch' hsize hserver' hslot' =>
    cases hev.symm.trans hbatch'
    cases hserver.symm.trans hserver'
    cases hslot.symm.trans hslot'
    obtain ⟨s, hat⟩ := Registry.at_of_holder h.queue.sound hholder
    obtain ⟨-, -, -, -, hlive⟩ := Registry.server_eq_ok hserver
    have hstate : srv.state = .BeingClosed :=
      Option.some.inj ((Registry.stateOf_live hlive).symm.trans hbeing)
    obtain ⟨r', hrun', -⟩ := Loop.rrOnClose_ok hev hat hfd hstate
      ((h.queue.counts.getSockCount_eq_iff n).mpr hzero) hlive
    rcases hcases with ⟨r, -, rfl⟩ | ⟨hdangling | hnone, rfl⟩
    · exact haborted
    · cases hdangling.symm.trans hvalid
    · cases hrun'.symm.trans hnone

end ServerCloseKept

/-- What the operations that follow the condition count is counted along the loop. -/
theorem ServerCloseKept.run_count {acts : List Action} {w : Ctl × Registry} {μ : Registry → Nat}
    {p : Op → Bool} (hcount : ∀ {op : Op} {r r' : Registry}, op.FollowsClose r →
      op.run r = .ok r' → μ r' = μ r + (p op).toNat)
    (hobeys : Loop.Obeys (fun r op => op.closesOnce r) Loop.init acts)
    (hrun : Loop.run Loop.init acts = some w) :
    μ w.2 = μ Loop.init.2 + Loop.count (fun _ => p) acts :=
  runStandardLoop.run_count (J := ServerCloseKept) (fun _ _ _ hJ hG hs => hJ.step hG hs)
    (fun _ _ _ _ hJ hG hp hr => registry.run_count (J := fun _ => True)
      (fun _ _ _ _ _ _ => trivial) (fun _ _ _ _ hG hs => hcount hG (toOption_eq_some hs)) trivial
      (hJ.follows hG hp hr) hr) .init hobeys hrun

/-! ## How often a server is closed -/

def Action.closes (n : Nat) : Action → Bool
  | .call c => decide (c = .close n)
  | _ => false

theorem Call.program_serverState {r : Registry} {c : Call} {ops : List Op}
    (h : c.program r = some ops) (hc : ∀ s, c ≠ .close s) :
    ∀ op ∈ ops, ∀ s state, op ≠ .serverState s state := by
  rintro op hop s state rfl
  cases Call.program_ops h with
  | plain hops => exact hops _ hop
  | close heq hlive => exact hc _ heq
  | destructServer hlive => exact Program.destructServer_ops r _ _ hop

namespace ServerClose

variable {n : Nat} {ops : List Op} {acts : List Action}

theorem tally_closed_eq_zero (h : ∀ op ∈ ops, op ≠ .serverState n .BeingClosed) (r : Registry) :
    registry.tally (fun _ op => (closed n op).toNat) r ops = 0 := by
  refine registry.tally_eq_zero (fun op hop _ => ?_) r
  have hne := h op hop
  unfold closed
  split
  · rename_i s
    have hs : s ≠ n := by
      rintro rfl
      exact hne rfl
    simp [hs]
  · rfl

theorem tally_closed_call {r r' : Registry} {c : Call} (h : c.program r = some ops)
    (hrun : registry.run r ops = some r') :
    registry.tally (fun _ op => (closed n op).toNat) r ops = ((Action.call c).closes n).toNat := by
  by_cases hc : ∃ s, c = .close s
  · rw [registry.tally_eq_sum _ hrun]
    obtain ⟨s, rfl⟩ := hc
    obtain ⟨srv, -, rfl⟩ := Option.map_eq_some_iff.mp h
    simp only [Program.closingProcedure, Program.appReportAllAceptedConnectionsEnded]
    split <;> simp [closed, Action.closes]
  · rw [tally_closed_eq_zero fun op hop =>
      Call.program_serverState h (fun s hs => hc ⟨s, hs⟩) op hop n .BeingClosed]
    have hne : c ≠ .close n := fun heq => hc ⟨n, heq⟩
    simp [Action.closes, hne]

theorem weigh_closed {w w' : Ctl × Registry} {a : Action}
    (hstep : runStandardLoop.machine.step w a = some w') (haborted : w'.1.aborted = false) :
    runStandardLoop.weigh (fun _ op => (closed n op).toNat) w a = (a.closes n).toNat := by
  obtain ⟨hrunning, hacts⟩ := Loop.step_acts hstep
  cases hacts with
  | call hhandler hops hplan hrun =>
    simp only [Controller.weigh, runStandardLoop, hplan, hrun]
    exact tally_closed_call hops hrun
  | timer hhandler | ret hhandler =>
    simp [Controller.weigh, runStandardLoop, Loop.plan, hrunning, hhandler, Machine.run,
      Machine.tally, Action.closes]
  | infra hhandler hp hplan hrun =>
    simp only [Controller.weigh, runStandardLoop, hplan, hrun]
    refine tally_closed_eq_zero ?_ _
    rintro op hop rfl
    cases (Loop.step_ops hp _ hop).2
  | stuck hrunning => cases haborted

/-- The run lemma: `internal_close` has been called as often as `close()`. -/
theorem count_closed {w : Ctl × Registry} (hrun : Loop.run Loop.init acts = some w)
    (haborted : w.1.aborted = false) :
    Loop.count (fun _ => closed n) acts = acts.countP (Action.closes n) := by
  have hfrom : ∀ {acts : List Action} {w₀ : Ctl × Registry}, Loop.run w₀ acts = some w →
      runStandardLoop.tally (fun _ op => (closed n op).toNat) w₀ acts =
        acts.countP (Action.closes n) := by
    intro acts
    induction acts with
    | nil => intros; rfl
    | cons a acts ih =>
      intro w₀ hrun
      obtain ⟨w₁, hstep, hrest⟩ := runStandardLoop.machine.run_cons hrun
      have hrunning : w₁.1.aborted = false := by
        cases h : w₁.1.aborted with
        | false => rfl
        | true =>
          rw [Loop.run_aborted h hrest, h] at haborted
          cases haborted
      rw [Controller.tally, runStandardLoop.machine.tally_cons _ hstep,
        weigh_closed hstep hrunning, ← Controller.tally, ih hrest, List.countP_cons, Nat.add_comm]
      cases a.closes n <;> rfl
  exact hfrom hrun

end ServerClose

/-- `internal_close` is called once for every server that is closed, and `rrOnClose` is run for it
once: by the end of the first `infraGetCloseEvents` in which it has no accepted sockets. No event of
`infraGetCloseEvents` fails an assertion. -/
theorem server_closed_once {acts : List Action} {w : Ctl × Registry}
    (hobeys : Loop.Obeys (fun r op => op.closesOnce r) Loop.init acts)
    (hrun : Loop.run Loop.init acts = some w) :
    (∀ n, Loop.count (fun _ => ServerClose.closed n) acts ≤ 1 ∧
        (.call (.close n) ∈ acts → w.1.aborted = false →
          Loop.count (fun _ => ServerClose.closed n) acts = 1) ∧
        Loop.count (fun _ => ServerClose.reported n) acts ≤
          Loop.count (fun _ => ServerClose.closed n) acts ∧
        (w.1.phase = .reworkIfNecessary → w.2.acceptedCount n = 0 →
          Loop.count (fun _ => ServerClose.reported n) acts =
            Loop.count (fun _ => ServerClose.closed n) acts)) ∧
      ∀ env w', w.1.phase = .infraGetCloseEvents → (w.2.queue .serverClose).batch ≠ [] →
        Loop.Obeys (fun r op => op.closesOnce r) w [.infra env] →
        Loop.run w [.infra env] = some w' → w'.1.aborted = false := by
  have hkept : ServerCloseKept w := runStandardLoop.machine.run_invariant
    (fun _ _ _ hJ hG hs => hJ.step hG hs) .init hobeys hrun
  refine ⟨fun n => ?_, fun env w' => hkept.not_aborted⟩
  have hclosed := ServerCloseKept.run_count (Registry.closedServer_count n) hobeys hrun
  have hreported := ServerCloseKept.run_count (μ := fun r =>
    (decide (r.stateOf n = some .Closed)).toNat)
    (Registry.reported_count n) hobeys hrun
  have hzero : (Loop.init.2.closedServer n).toNat = 0 ∧
      (decide (Loop.init.2.stateOf n = some .Closed)).toNat = 0 := ⟨rfl, rfl⟩
  simp only [hzero.1, hzero.2, Nat.zero_add] at hclosed hreported
  rw [← hclosed, ← hreported]
  have hle : (decide (w.2.stateOf n = some .Closed)).toNat ≤ (w.2.closedServer n).toNat := by
    by_cases hstate : w.2.stateOf n = some .Closed
    · simp [hstate, Registry.closedServer, ServerState.closed]
    · simp [hstate]
  refine ⟨Bool.toNat_le _, fun hmem haborted => ?_, hle, fun hphase hzero => ?_⟩
  · -- the call closes the server, unless it is closed
    have hpos : 0 < acts.countP (Action.closes n) :=
      List.countP_pos_iff.mpr ⟨_, hmem, by simp [Action.closes]⟩
    rw [← ServerClose.count_closed hrun haborted, ← hclosed] at hpos
    have hle := (w.2.closedServer n).toNat_le
    omega
  · -- nothing is owed at the end of the pass
    have hnone : w.2.stateOf n ≠ some .BeingClosed := by
      intro hbeing
      have howed := hkept.owed n
      rw [Registry.Owed, if_pos ⟨hbeing, hzero⟩, Registry.pendingOf,
        (hkept.rework hphase).2] at howed
      cases howed
    rw [Registry.closedServer]
    cases hstate : w.2.stateOf n with
    | none => rfl
    | some state =>
      cases state with
      | BeingClosed => exact absurd hstate hnone
      | _ => rfl

/-- A server is closed by an immediate of the second iteration, up to the end of that iteration. -/
def closedWithRoom : List Action :=
  [Action.call (.createServer 5 0), .call (.listen 0), .call (.createSocket 6),
    .timer (.setTimeout 1 0), .ret, .infra {}, .infra {}, .ret] ++
    List.replicate 10 (Action.infra {}) ++
  [Action.infra { now := 1000 }, .infra {}, .timer .setInmediate, .ret, .infra {},
  .infra {}, .infra {},
    .call (.close 0), .ret] ++ List.replicate 4 (Action.infra {}) ++
    [Action.ret, .infra {}, .infra {}]

theorem server_closed_once_with_room :
    ∃ w, Loop.run Loop.init closedWithRoom = some w ∧ w.1.phase = .reworkIfNecessary ∧
      Loop.count (fun _ => ServerClose.closed 0) closedWithRoom = 1 ∧
      Loop.count (fun _ => ServerClose.reported 0) closedWithRoom = 1 := by
  obtain ⟨w, hw, hphase, haborted, hzero⟩ :
      ∃ w, Loop.run Loop.init closedWithRoom = some w ∧ w.1.phase = .reworkIfNecessary ∧
        w.1.aborted = false ∧ w.2.acceptedCount 0 = 0 := by decide +kernel
  obtain ⟨-, hclosed, -, hreported⟩ := (server_closed_once (by decide +kernel) hw).1 0
  have hone := hclosed (by simp [closedWithRoom]) haborted
  exact ⟨w, hw, hphase, hone, (hreported hphase hzero).trans hone⟩

/-- The only server of a node is closed by an immediate, up to the end of that iteration. -/
def closedAlone : List Action :=
  [Action.call (.createServer 5 0), .call (.listen 0), .ret, .infra {}, .infra {},
  .timer .setInmediate,
    .ret] ++ List.replicate 5 (Action.infra {}) ++ [Action.call (.close 0), .ret] ++
    List.replicate 5 (Action.infra {})

/-- The only server of a node, which listens, is closed by an immediate: its index is the last of
`ourSide`, `infraGetCloseEvents` drops its event, and `rrOnClose` is not run. -/
theorem server_close_forgotten :
    ∃ acts w, Loop.run Loop.init acts = some w ∧ w.1.aborted = false ∧
      w.1.phase = .reworkIfNecessary ∧ w.2.acceptedCount 0 = 0 ∧
      (w.2.queue .serverClose).events = [] ∧
      Loop.count (fun _ => ServerClose.closed 0) acts = 1 ∧
      Loop.count (fun _ => ServerClose.reported 0) acts = 0 :=
  ⟨closedAlone, by decide +kernel⟩

end NodeCpp
