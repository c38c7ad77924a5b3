import NodeCpp.Loop.Runs

/-!
# No close event is lost

A socket that is `Closing` or `ErrorClosing` and still in the table waits for its
close event: one is queued under its index, or it is the one `infraGetCloseEvent` is
processing. What would break this is excluded by `ViewOp.KeepsEvents`: an event that
is queued while `infraGetCloseEvent` runs is cleared unseen, and a compaction leaves
the queued indices behind.
-/

namespace NodeCpp

/-- No close event is queued while `infraGetCloseEvent` runs, and no table is compacted while
close events are queued. -/
def ViewOp.KeepsEvents (v : View) : ViewOp → Prop
  | .move _ _ evs => evs = [] ∨ (v.queue .close).active = false
  | .renumber => (v.queue .close).events = []
  | _ => True

instance (v : View) : ∀ op : ViewOp, Decidable (op.KeepsEvents v)
  | .move _ _ evs => inferInstanceAs (Decidable (evs = [] ∨ (v.queue .close).active = false))
  | .renumber => inferInstanceAs (Decidable ((v.queue .close).events = []))
  | .skip | .issue .. | .release .. | .associate _ | .shut _ | .wipe _ | .reindex .. | .push ..
  | .start _ | .take _ | .clear _ | .finish _ | .beginClose .. | .endClose _ => isTrue trivial

namespace View

/-- A close event of `e` is queued under the index `i`. -/
def Announced (v : View) (i : Nat) (e : Emitter) : Prop :=
  ∃ ev ∈ (v.queue .close).events, ev.idx = i ∧ ev.owner = e

/-- Every socket that is to be closed has its event queued or being processed; a pass starts with
all events there are. -/
structure EventsKept (v : View) : Prop where
  queued : ∀ i e, v.holder i = some e → (v.state e).toBeClosed →
    v.Announced i e ∨ v.closing = some i
  waiting : (v.queue .close).active → (v.queue .close).waiting = []
  batch : (v.queue .close).batch ≠ [] → (v.queue .close).active
  current : v.current ≠ none → (v.queue .close).active

variable {v v' : View}

/-- A step that does not touch the close events or the states, and hands out no slot to a socket
that is to be closed. -/
theorem EventsKept.congr (h : v.EventsKept) (hqueue : v'.queue .close = v.queue .close)
    (hcurrent : v'.current = v.current) (hstate : v'.state = v.state)
    (hholder : ∀ i e, v'.holder i = some e → (v.state e).toBeClosed → v.holder i = some e) :
    v'.EventsKept := by
  refine ⟨?_, ?_, ?_, ?_⟩
  · intro i e hi he
    rw [hstate] at he
    simpa only [Announced, closing, hqueue, hcurrent] using h.queued i e (hholder i e hi he) he
  · rw [hqueue]; exact h.waiting
  · rw [hqueue]; exact h.batch
  · rw [hqueue, hcurrent]; exact h.current

theorem EventsKept.move (h : v.EventsKept) (hc : v.Consistent) {e : Emitter} {st : SockState}
    {evs : List Pending} (hmove : StateMove (v.state e) st (evs.map Pending.err))
    (hevs : ∀ ev ∈ evs, ev.owner = e ∧ v.Denotes ev)
    (hkeeps : evs = [] ∨ (v.queue .close).active = false) :
    ((v.setState e st).onQueue .close (·.pushAll evs)).EventsKept := by
  have hclose : ((v.setState e st).onQueue .close (·.pushAll evs)).queue .close =
      (v.queue .close).pushAll evs := onQueue_self ..
  refine ⟨?_, ?_, ?_, ?_⟩
  · intro i e' hi he'
    have hold : v.Announced i e' ∨ v.closing = some i →
        (∃ ev ∈ ((v.queue .close).pushAll evs).events, ev.idx = i ∧ ev.owner = e') ∨
          v.closing = some i := by
      rintro (⟨ev, hev, hidx⟩ | hcur)
      · exact .inl ⟨ev, by simp [hev], hidx⟩
      · exact .inr hcur
    simp only [Announced, hclose]
    simp only [onQueue_state, setState_state, Function.update_apply] at he'
    split at he'
    · subst e'
      rcases hmove.toBeClosed he' with hst | hpushed
      · exact hold (h.queued i e hi (hst ▸ he'))
      · -- the event that is pushed now carries the index of the socket
        obtain ⟨ev, hev⟩ := List.exists_mem_of_ne_nil evs (by rintro rfl; exact hpushed rfl)
        obtain ⟨howner, hden⟩ := hevs ev hev
        exact .inl ⟨ev, by simp [hev], hc.denotes_idx hden (howner ▸ hi), howner⟩
    · exact hold (h.queued i e' hi he')
  · rw [hclose]
    intro hactive
    rcases hkeeps with rfl | hno
    · simpa [EventQueue.pushAll] using h.waiting hactive
    · rw [show (v.queue .close).active = true from hactive] at hno
      cases hno
  · rw [hclose]
    exact h.batch
  · rw [hclose]
    exact h.current

/-- The next event of a pass is taken: its slot is not used, or it is the slot that is processed
from now on. -/
theorem EventsKept.take (h : v.EventsKept) {ev : Pending} {rest : List Pending}
    (hbatch : (v.queue .close).batch = ev :: rest)
    (hqueue : v'.queue .close = (v.queue .close).take) (hstate : v'.state = v.state)
    (hholder : ∀ i e, v'.holder i = some e →
      (v.holder i = some e ∧ v.closing ≠ some i ∧ i ≠ ev.idx) ∨ v'.closing = some i) :
    v'.EventsKept := by
  have hactive : (v.queue .close).active := h.batch (by simp [hbatch])
  refine ⟨?_, ?_, ?_, ?_⟩
  · intro i e hi he
    rw [hstate] at he
    rcases hholder i e hi with ⟨hold, hcur, hne⟩ | hcur
    · obtain ⟨ev', hev', hidx, howner⟩ := (h.queued i e hold he).resolve_right hcur
      rw [EventQueue.events_of_batch hbatch] at hev'
      refine .inl ⟨ev', ?_, hidx, howner⟩
      rw [hqueue]
      refine (List.mem_cons.mp hev').resolve_left ?_
      rintro rfl
      exact hne hidx.symm
    · exact .inr hcur
  · rw [hqueue]; exact h.waiting
  · rw [hqueue]; exact fun _ => hactive
  · rw [hqueue]; exact fun _ => hactive

theorem EventsKept.onClose (h : v.EventsKept) {f : EventQueue → EventQueue}
    (hevents : ∀ ev ∈ (v.queue .close).events, ev ∈ (f (v.queue .close)).events)
    (hwaiting : (f (v.queue .close)).active → (f (v.queue .close)).waiting = [])
    (hbatch : (f (v.queue .close)).batch ≠ [] → (f (v.queue .close)).active)
    (hcurrent : v.current ≠ none → (f (v.queue .close)).active) :
    (v.onQueue .close f).EventsKept := by
  refine ⟨?_, ?_, ?_, ?_⟩
  · intro i e hi he
    rcases h.queued i e hi he with ⟨ev, hev, hidx⟩ | hcur
    · exact .inl ⟨ev, by rw [onQueue_self]; exact hevents ev hev, hidx⟩
    · exact .inr hcur
  all_goals rwa [onQueue_self]

theorem EventsKept.renumber (h : v.EventsKept) (hempty : (v.queue .close).events = [])
    (hcurrent : v.current = none) (hrenum : v.Renumbered v') : v'.EventsKept := by
  refine ⟨fun j e hj he => ?_, ?_, ?_, ?_⟩
  · obtain ⟨i, hi⟩ := hrenum.holder hj
    rw [hrenum.state] at he
    rcases h.queued i e hi he with ⟨ev, hev, -⟩ | hcur
    · rw [hempty] at hev
      cases hev
    · rw [closing_eq_none hcurrent] at hcur
      cases hcur
  · rw [hrenum.queue]; exact h.waiting
  · rw [hrenum.queue]; exact h.batch
  · rw [hrenum.queue, hrenum.current]; exact h.current

/-- The step lemma. -/
theorem EventsKept.step (h : v.EventsKept) (hc : v.Consistent) {op : ViewOp}
    (hstep : v.Step op v') (hkeeps : op.KeepsEvents v) : v'.EventsKept := by
  have hholder : (∀ e i, op ≠ .issue e i) → op ≠ .renumber →
      ∀ i e, v'.holder i = some e → v.holder i = some e :=
    fun hissue hrenum i e hi => hstep.holder_of_holder hc hissue hrenum hi
  have hslots : (∀ e i, op ≠ .issue e i) → op ≠ .renumber → v'.queue .close = v.queue .close →
      v'.current = v.current → v'.state = v.state → v'.EventsKept :=
    fun hissue hrenum hqueue hcurrent hstate =>
      h.congr hqueue hcurrent hstate fun i e hi _ => hholder hissue hrenum i e hi
  have hother : ∀ {q f}, q ≠ QueueId.close → (v.onQueue q f).EventsKept := by
    intro q f hq
    exact h.congr (Function.update_of_ne hq.symm ..) rfl rfl fun _ _ hi _ => hi
  cases hstep with
  | skip => exact h
  | issue hfresh hstate hcloses hfree =>
    -- a new socket is not closing
    refine h.congr rfl rfl rfl fun i e' hi he' => ?_
    rw [setSlot_holder] at hi
    split at hi
    · cases hi
      rw [hstate] at he'
      cases he'
    · exact hi
  | release hindex hslot => exact hslots (by simp) (by simp) rfl rfl rfl
  | associate hslot hissued => exact hslots (by simp) (by simp) rfl rfl rfl
  | shut hslot hused => exact hslots (by simp) (by simp) rfl rfl rfl
  | wipe hslot => exact hslots (by simp) (by simp) rfl rfl rfl
  | reindex hslot hused hemitter => exact hslots (by simp) (by simp) rfl rfl rfl
  | move hlive hmove hevs => exact h.move hc hmove hevs hkeeps
  | push hq hev => exact hother hq
  | @start q =>
    by_cases hq : q = .close
    · subst hq
      exact h.onClose (by simp) (fun _ => rfl) (fun _ => rfl) fun _ => rfl
    · exact hother hq
  | @take q ev rest hbatch hclose =>
    by_cases hq : q = .close
    · subst hq
      refine h.take hbatch (onQueue_self ..) rfl fun i e hi => ?_
      by_cases hcur : v.closing = some i
      · exact .inr hcur
      · obtain ⟨s, hs, hused, -⟩ := holder_eq_some.mp hi
        refine .inl ⟨hi, hcur, ?_⟩
        rintro rfl
        rw [hclose rfl s hs] at hused
        cases hused
    · exact hother hq
  | @clear q hactive hbatch hcurrent =>
    by_cases hq : q = .close
    · subst hq
      have hempty : (v.queue .close).events = [] := by
        rw [EventQueue.events, hbatch, h.waiting hactive]
        rfl
      exact h.onClose (by simp [hempty]) (fun _ => rfl) (fun hne => absurd rfl hne)
        fun hne => absurd hcurrent hne
    · exact hother hq
  | @finish q hbatch hcurrent =>
    by_cases hq : q = .close
    · subst hq
      exact h.onClose (by simp [EventQueue.events_finish hbatch]) (by simp [EventQueue.finish])
        (fun hne => absurd rfl hne) fun hne => absurd hcurrent hne
    · exact hother hq
  | @beginClose e ev rest s s' hbatch hcurrent hslot hused hemitter hlive hslot' =>
    refine h.take hbatch (onQueue_self (v := v.setSlot s.index _) .close .take) rfl
      fun i e' hi => ?_
    by_cases hidx : i = ev.idx
    · exact .inr (congrArg some hidx.symm)
    · exact .inl ⟨hholder (by simp) (by simp) i e' hi, by simp [closing_eq_none hcurrent], hidx⟩
  | @endClose j s hclosing hslot =>
    have hset : (v.setSlot j { index := j }).holder j = none :=
      (setSlot_holder_free rfl j).trans (if_pos rfl)
    refine ⟨fun i e hi he => ?_, h.waiting, h.batch, fun hne => absurd rfl hne⟩
    refine .inl ((h.queued i e (hholder (by simp) (by simp) i e hi) he).resolve_right ?_)
    rintro hcur
    cases hclosing.symm.trans hcur
    cases hset.symm.trans hi
  | renumber hcurrent hrenum => exact h.renumber hkeeps hcurrent hrenum

end View

/-- No close event is lost: in every run that keeps the events, whenever `infraGetCloseEvent` is
not running, a socket in the table that is `Closing` or `ErrorClosing` has a close event queued
under its index. -/
theorem close_events_kept {acts : List Action} {w : Ctl × Registry}
    (hobeys : Loop.Obeys (fun r op => (op.abs r).KeepsEvents r.view) Loop.init acts)
    (hrun : Loop.run Loop.init acts = some w) (hpass : (w.2.queue .close).active = false)
    {i o : Nat} {s : Slot} {obj : SocketObj} (hslot : w.2.ioSockets.slots[i]? = some s)
    (hused : s.used) (hemitter : s.entry.emitter = some (.client o))
    (hobj : w.2.sockets[o]? = some obj)
    (hstate : obj.data.state = .Closing ∨ obj.data.state = .ErrorClosing) :
    ∃ ev ∈ (w.2.queue .close).events, ev.idx = i ∧ ev.owner = .client o := by
  have hinit : Loop.init.2.view.EventsKept := by
    refine ⟨fun i e hi he => ?_, fun _ => rfl, fun hne => absurd rfl hne, fun hne => absurd rfl hne⟩
    cases e <;> cases he
  obtain ⟨-, hkept⟩ := Loop.view_invariant (J := View.EventsKept)
    (fun r op v' hsound hJ hG hstep => hJ.step hsound.consistent hstep hG) .init hinit hobeys hrun
  have hholder : w.2.view.holder i = some (.client o) :=
    View.holder_eq_some.mpr ⟨s.view, Registry.view_slot hslot, hused, hemitter⟩
  have hclosing : (w.2.view.state (.client o)).toBeClosed := by
    rcases hstate with h | h <;> simp [Registry.view, hobj, h, SockState.toBeClosed]
  refine (hkept.queued i (.client o) hholder hclosing).resolve_right fun hcur => ?_
  have hactive := hkept.current fun hnone => by
    rw [View.closing_eq_none hnone] at hcur
    cases hcur
  rw [show w.2.view.queue = w.2.queue from rfl, hpass] at hactive
  cases hactive

/-- Two connected sockets, of which the first is destroyed in `main()`, up to its `close`
handlers. -/
def closingFirst : List Action :=
  [Action.call (.createSocket 5), .call (.connect 0), .call (.createSocket 6), .call (.connect 1),
    .call (.sock 0 .destroy), .ret] ++ List.replicate 7 (Action.infra {})

/-- The rest of a close event, from its `close` handlers on. -/
def closingRest : List Action :=
  [.ret, .infra {}, .ret, .infra {}, .ret, .infra {}]

/-- The `close` handler of the first socket sets an immediate, which destroys the second socket in
the next iteration. -/
theorem close_events_kept_immediate :
    ∃ w, Loop.run Loop.init (closingFirst ++ [.timer .setInmediate] ++ closingRest ++
        List.replicate 9 (.infra {}) ++ [.call (.sock 1 .destroy)]) = some w ∧
      ∃ ev ∈ (w.2.queue .close).events, ev.idx = 2 ∧ ev.owner = .client 1 := by
  obtain ⟨w, hw, hpass, ⟨s, hslot, hused, hemitter⟩, obj, hobj, hstate⟩ :
      ∃ w, Loop.run Loop.init (closingFirst ++ [Action.timer .setInmediate] ++ closingRest ++
          List.replicate 9 (Action.infra {}) ++ [Action.call (.sock 1 .destroy)]) = some w ∧
        (w.2.queue .close).active = false ∧
        (∃ s, w.2.ioSockets.slots[2]? = some s ∧ s.used ∧ s.entry.emitter = some (.client 1)) ∧
        ∃ obj, w.2.sockets[1]? = some obj ∧ obj.data.state = .Closing := by decide +kernel
  exact ⟨w, hw, close_events_kept (by decide +kernel) hw hpass hslot hused hemitter hobj
    (.inl hstate)⟩

/-- Four connected sockets, of which three are destroyed in `main()`, up to the `close` handlers of
the first: `pendingCloseEvents` has room for another event. -/
def closingThree : List Action :=
  [Action.call (.createSocket 5), .call (.connect 0), .call (.createSocket 6), .call (.connect 1),
    .call (.createSocket 7), .call (.connect 2), .call (.createSocket 8), .call (.connect 3),
    .call (.sock 0 .destroy), .call (.sock 1 .destroy), .call (.sock 2 .destroy), .ret] ++
  List.replicate 7 (Action.infra {})

/-- The fourth socket is destroyed by the `close` handler of the first: it is `Closing` when
`infraGetCloseEvent` returns, and no event is queued. -/
theorem close_event_lost :
    ∃ w, Loop.run Loop.init (closingThree ++ [.call (.sock 3 .destroy)] ++ closingRest ++
        [.infra {}, .infra {}] ++ closingRest ++ [.infra {}, .infra {}] ++ closingRest ++
        [.infra {}]) = some w ∧
      w.1.phase = .infraProcessSockAcceptedEvents ∧ (w.2.queue .close).active = false ∧
      (∃ s, w.2.ioSockets.slots[4]? = some s ∧ s.used ∧ s.entry.emitter = some (.client 3)) ∧
      (∃ obj, w.2.sockets[3]? = some obj ∧ obj.data.state = .Closing) ∧
      (w.2.queue .close).events = [] := by
  decide +kernel

end NodeCpp
