import NodeCpp.Loop.Runs

/-!
# The identity of queued indices

The event vectors hold slot indices, and slots are given up, taken again and
renumbered while events wait. `View.Own` says that the slot of an event is unused or
still held by the object the event was queued for; it holds of every waiting event
and of the one being processed in all runs that meet `ViewOp.KeepsIdentity`.

The close events of servers are not looked at here.
-/

namespace NodeCpp

open Lib

variable {ev : Pending} {q : QueueId}

namespace View

/-- The close event being processed and the events waiting in `pendingCloseEvents` and
`pendingAcceptedEvents` of the socket manager and in `pendingListenEvents`. -/
def pending (v : View) : List Pending :=
  v.current.toList ++ ((v.queue .close).events ++ ((v.queue .accepted).events ++
    (v.queue .listen).events))

/-- The slot of an event is unused or held by the object the event was queued for. -/
def Own (v : View) (ev : Pending) : Prop :=
  v.holder ev.idx = none ∨ v.holder ev.idx = some ev.owner

instance (v : View) (ev : Pending) : Decidable (v.Own ev) :=
  inferInstanceAs (Decidable (_ ∨ _))

theorem mem_pending {v : View} :
    ev ∈ v.pending ↔ v.current = some ev ∨ ∃ q, q ≠ .serverClose ∧ ev ∈ (v.queue q).events := by
  simp only [pending, List.mem_append, Option.mem_toList]
  constructor
  · rintro (h | h | h | h)
    · exact .inl h
    · exact .inr ⟨.close, by decide, h⟩
    · exact .inr ⟨.accepted, by decide, h⟩
    · exact .inr ⟨.listen, by decide, h⟩
  · rintro (h | ⟨q, hq, h⟩)
    · exact .inl h
    · cases q with
      | close => exact .inr (.inl h)
      | accepted => exact .inr (.inr (.inl h))
      | serverClose => exact absurd rfl hq
      | listen => exact .inr (.inr (.inr h))

end View

/-- No object is given a slot whose index an event still carries, an event is queued only while no
other object holds its slot, and no table is compacted while events wait. -/
def ViewOp.KeepsIdentity (v : View) : ViewOp → Prop
  | .issue _ i => ∀ ev ∈ v.pending, ev.idx ≠ i
  | .move _ _ evs => ∀ ev ∈ evs, v.Own ev
  | .push q ev => q = .serverClose ∨ v.Own ev
  | .renumber => v.pending = []
  | _ => True

instance (v : View) : ∀ op : ViewOp, Decidable (op.KeepsIdentity v)
  | .issue _ i => inferInstanceAs (Decidable (∀ ev ∈ v.pending, ev.idx ≠ i))
  | .move _ _ evs => inferInstanceAs (Decidable (∀ ev ∈ evs, v.Own ev))
  | .push q ev => inferInstanceAs (Decidable (q = .serverClose ∨ v.Own ev))
  | .renumber => inferInstanceAs (Decidable (v.pending = []))
  | .skip | .release .. | .associate _ | .shut _ | .wipe _ | .reindex .. | .start _ | .take _
  | .clear _ | .finish _ | .beginClose .. | .endClose _ => isTrue trivial

theorem ViewOp.KeepsIdentity.own {v : View} {op : ViewOp} (h : op.KeepsIdentity v)
    (hq : q ≠ .serverClose) (hev : ev ∈ op.pushed q) : v.Own ev := by
  cases op
  case move e st evs =>
    simp only [pushed] at hev
    split at hev
    · exact h ev hev
    · cases hev
  case push q' ev' =>
    simp only [pushed] at hev
    split at hev
    · subst q'
      cases List.mem_singleton.mp hev
      exact h.resolve_left hq
    · cases hev
  all_goals cases hev

namespace View

variable {v v' : View} {op : ViewOp}

theorem Step.mem_pending (hstep : v.Step op v') (h : ev ∈ v'.pending) :
    ev ∈ v.pending ∨ ∃ q, q ≠ .serverClose ∧ ev ∈ op.pushed q := by
  rcases View.mem_pending.mp h with hcurrent | ⟨q, hq, hev⟩
  · rcases hstep.current_cases hcurrent with hcurrent | hev
    · exact .inl (View.mem_pending.mpr (.inl hcurrent))
    · exact .inl (View.mem_pending.mpr (.inr ⟨.close, by decide, hev⟩))
  · rcases List.mem_append.mp ((hstep.events_sublist q).subset hev) with hold | hnew
    · exact .inl (View.mem_pending.mpr (.inr ⟨q, hq, hold⟩))
    · exact .inr ⟨q, hq, hnew⟩

/-- The step lemma. -/
theorem own_step (hc : v.Consistent) (h : ∀ ev ∈ v.pending, v.Own ev) (hstep : v.Step op v')
    (hkeeps : op.KeepsIdentity v) : ∀ ev ∈ v'.pending, v'.Own ev := by
  intro ev hev
  have hfrom := hstep.mem_pending hev
  have hown : v.Own ev := by
    rcases hfrom with hold | ⟨q, hq, hnew⟩
    · exact h ev hold
    · exact hkeeps.own hq hnew
  obtain hsame | ⟨e, rfl, -⟩ | ⟨-, hnone⟩ | rfl := hstep.holder_cases hc ev.idx
  · rwa [Own, hsame]
  · rcases hfrom with hold | ⟨q, -, hnew⟩
    · exact absurd rfl (hkeeps ev hold)
    · cases hnew
  · exact .inl hnone
  · rcases hfrom with hold | ⟨q, -, hnew⟩
    · rw [show v.pending = [] from hkeeps] at hold
      cases hold
    · cases hnew

end View

/-! ## Events of unused slots -/

/-- The vector whose next event the infrastructure takes. -/
def Phase.consumes : Phase → Option QueueId
  | .infraGetCloseEvent => some .close
  | .infraProcessSockAcceptedEvents => some .accepted
  | .infraEmitListeningEvents => some .listen
  | _ => none

def Registry.SameObjects (r r' : Registry) : Prop :=
  r'.ioSockets = r.ioSockets ∧ r'.sockets = r.sockets ∧ r'.servers = r.servers

namespace Registry

variable {r r' : Registry}

theorem take_sameObjects (h : r.take q = .ok r') : r.SameObjects r' := by
  unfold take at h
  split at h
  · cases h
  split at h
  · cases h
  · cases h
    exact ⟨rfl, rfl, rfl⟩

theorem used_of_at {i : Nat} {s : Slot} (h : r.ioSockets.at' i = .ok s) : r.used i := by
  obtain ⟨-, hs, hused⟩ := NetSockets.at'_eq_ok h
  simp only [used, entry_of_slot hs]
  exact hused

theorem run_take_sameObjects {i : Nat} {op : Op} {ops : List Op} (hunused : r.used i = false)
    (hop : ∀ r₁ r₂ : Registry, op.run r₁ = .ok r₂ → r₁.used i)
    (h : registry.run r (.take q :: op :: ops) = some r') : r.SameObjects r' := by
  obtain ⟨r₁, htake, h⟩ := registry.run_cons h
  obtain ⟨r₂, hrun, -⟩ := registry.run_cons h
  have hsame := take_sameObjects (toOption_eq_some htake)
  have hused := hop r₁ r₂ (toOption_eq_some hrun)
  have hentry : r₁.entry i = r.entry i := by rw [entry, entry, hsame.1]
  rw [used, hentry] at hused
  cases hunused.symm.trans hused

end Registry

/-- An event of an unused slot is consumed without an effect on the table or on any object. -/
theorem consume_unused {w w' : Ctl × Registry} {env : Env} {rest : List Pending}
    (hphase : w.1.phase.consumes = some q) (hbatch : (w.2.queue q).batch = ev :: rest)
    (hunused : w.2.used ev.idx = false)
    (hstep : runStandardLoop.machine.step w (.infra env) = some w') : w.2.SameObjects w'.2 := by
  obtain ⟨-, -, p, hp, ⟨r, hrun, rfl⟩ | ⟨-, rfl⟩⟩ := Loop.infra_cases hstep
  · have htake : registry.run w.2 [.take q] = some r → w.2.SameObjects r := by
      intro h
      obtain ⟨r₁, htake, h⟩ := registry.run_cons h
      cases h
      exact Registry.take_sameObjects (toOption_eq_some htake)
    cases hcase : w.1.phase <;> rw [hcase] at hphase <;> cases hphase
    case infraEmitListeningEvents.refl =>
      simp only [Loop.step, hcase, Loop.infraEmitListeningEvents, hbatch] at hp
      split at hp
      · cases hp
        refine Registry.run_take_sameObjects hunused (fun r₁ r₂ h => ?_) hrun
        obtain ⟨s, hs, -⟩ := bind_eq_ok h
        exact Registry.used_of_at hs
      · cases hp
        exact htake hrun
    case infraGetCloseEvent.refl =>
      simp only [Loop.step, hcase, Loop.infraGetCloseEvent, hbatch, hunused, Bool.and_false,
        Bool.false_eq_true, if_false] at hp
      cases hp
      exact htake hrun
    case infraProcessSockAcceptedEvents.refl =>
      simp only [Loop.step, hcase, Loop.infraProcessSockAcceptedEvents, hbatch] at hp
      split at hp
      · cases hp
        refine Registry.run_take_sameObjects hunused (fun r₁ r₂ h => ?_) hrun
        obtain ⟨s, hs⟩ := Registry.map_const_isOk h
        exact Registry.used_of_at hs
      · cases hp
        exact htake hrun
  · exact ⟨rfl, rfl, rfl⟩

/-- Slot identity of queued events: in every run that keeps the identities, the slot of an event
that waits or is being processed is unused or belongs to the object the event was queued for, and
consuming an event of an unused slot has no effect on the table or on any object. -/
theorem queued_index_identity {acts : List Action} {w : Ctl × Registry}
    (hobeys : Loop.Obeys (fun r op => (op.abs r).KeepsIdentity r.view) Loop.init acts)
    (hrun : Loop.run Loop.init acts = some w) :
    (∀ ev, (w.2.current = some ev ∨ ∃ q, q ≠ .serverClose ∧ ev ∈ (w.2.queue q).events) →
      ∀ s, w.2.ioSockets.slots[ev.idx]? = some s → s.used → s.entry.emitter = some ev.owner) ∧
      ∀ q ev rest env w', w.1.phase.consumes = some q → (w.2.queue q).batch = ev :: rest →
        w.2.used ev.idx = false → runStandardLoop.machine.step w (.infra env) = some w' →
        w.2.SameObjects w'.2 := by
  obtain ⟨hsound, hown⟩ := Loop.view_invariant (J := fun v => ∀ ev ∈ v.pending, v.Own ev)
    (fun r op v' hsound hJ hG hstep => View.own_step hsound.consistent hJ hstep hG) .init
    (fun ev hev => by cases hev) hobeys hrun
  refine ⟨fun ev hev s hs hused => ?_, fun q ev rest env w' => consume_unused⟩
  obtain ⟨-, e, he, -⟩ := hsound.consistent.used ev.idx s.view (Registry.view_slot hs) hused
  have hholder : w.2.view.holder ev.idx = some e :=
    View.holder_eq_some.mpr ⟨s.view, Registry.view_slot hs, hused, he⟩
  rcases hown ev (View.mem_pending.mpr hev) with hnone | hsome
  · rw [hholder] at hnone
    cases hnone
  · rw [← hsome, hholder]
    exact he

/-- A socket that is destroyed in `main()` and stays in place, up to the processing of its close
event. -/
theorem queued_index_identity_destroy :
    ∃ w, Loop.run Loop.init ([.call (.createSocket 5), .call (.connect 0),
        .call (.sock 0 .destroy), .ret] ++ List.replicate 6 (.infra {})) = some w ∧
      w.2.current = some { idx := 1, owner := .client 0 } ∧
      ∀ s, w.2.ioSockets.slots[1]? = some s → s.used → s.entry.emitter = some (.client 0) := by
  obtain ⟨w, hw, hcurrent⟩ : ∃ w, Loop.run Loop.init ([Action.call (.createSocket 5), .call (.connect 0),
      .call (.sock 0 .destroy), .ret] ++ List.replicate 6 (Action.infra {})) = some w ∧
      w.2.current = some { idx := 1, owner := .client 0 } := by decide +kernel
  exact ⟨w, hw, hcurrent, (queued_index_identity (by decide +kernel) hw).1 _ (.inl hcurrent)⟩

/-- A socket is destructed while its close event is queued, and a new socket takes its slot: the
event closes the descriptor of the new socket, which is still connecting. -/
theorem queued_index_taken_over :
    ∃ w, Loop.run Loop.init ([.call (.createSocket 5), .call (.connect 0),
        .call (.destructSocket 0), .call (.createSocket 6), .call (.connect 1), .ret] ++
        List.replicate 6 (.infra {})) = some w ∧
      w.2.current = some { idx := 1, owner := .client 0 } ∧
      (∃ s, w.2.ioSockets.slots[1]? = some s ∧ s.entry.state = .SockClosed ∧
        s.entry.emitter = some (.client 1)) ∧
      ∃ obj, w.2.sockets[1]? = some obj ∧ obj.data.state = .Connecting ∧ obj.closes = 1 := by
  decide +kernel

/-! ## The loop and the ownership model -/

/-- Every run of the loop is a run of the ownership model. A used slot lies behind the reserved ones
and belongs to a live object that remembers it, and no other slot names that object. -/
theorem loop_refines_ownership {acts : List Action} {w : Ctl × Registry}
    (hrun : Loop.run Loop.init acts = some w) :
    Relation.ReflTransGen (fun v v' => ∃ op, View.Step v op v') Loop.init.2.view w.2.view ∧
      ∀ i s, w.2.ioSockets.slots[i]? = some s → s.used →
        w.2.ioSockets.reservedCapacity ≤ i ∧ s.entry.index = i ∧
        ∃ e, s.entry.emitter = some e ∧ w.2.indexOf e = some i ∧
          ∀ j s', w.2.ioSockets.slots[j]? = some s' → s'.entry.emitter = some e → j = i := by
  have hsound := Loop.sound hrun
  refine ⟨Loop.view_relation (G := fun _ _ => True) (fun _ => .refl) (fun _ _ _ => .trans)
    (fun _ _ _ _ _ hstep => .single ⟨_, hstep⟩) .init
    (runStandardLoop.machine.obeys_of_forall
      (fun _ _ _ _ => registry.obeys_of_forall (fun _ _ => trivial) _ _) _ _) hrun, ?_⟩
  intro i s hs hused
  obtain ⟨hindex, e, he, hlive⟩ := hsound.consistent.used i _ (Registry.view_slot hs) hused
  refine ⟨Nat.le_of_not_lt fun hlt => ?_, hindex, e, he, hlive, fun j s' hs' he' => ?_⟩
  · rw [hsound.framed.front i s hlt hs] at hused
    cases hused
  · exact (hsound.consistent.remembered j _ e i (Registry.view_slot hs') he' hlive).symm

/-- A socket is destroyed in `main()`, its close event is processed, and a timer of the next
iteration creates a socket, which takes its slot. -/
def slotReused : List Action :=
  [Action.call (.createSocket 5), .call (.connect 0), .call (.createSocket 6), .call (.connect 1),
    .timer (.setTimeout 1 0), .call (.sock 0 .destroy), .ret] ++
  List.replicate 7 (Action.infra {}) ++ [.ret, .infra {}, .ret, .infra {}, .ret] ++
  List.replicate 6 (Action.infra {}) ++
  [.infra { now := 5000 }, .infra {}, .call (.createSocket 7), .ret]

theorem loop_refines_ownership_reused :
    ∃ w, Loop.run Loop.init slotReused = some w ∧
      Relation.ReflTransGen (fun v v' => ∃ op, View.Step v op v') Loop.init.2.view w.2.view ∧
      ∃ s, w.2.ioSockets.slots[1]? = some s ∧ s.entry.index = 1 ∧
        s.entry.emitter = some (.client 2) ∧ w.2.indexOf (.client 2) = some 1 ∧
        ∀ j s', w.2.ioSockets.slots[j]? = some s' →
          s'.entry.emitter = some (.client 2) → j = 1 := by
  obtain ⟨w, hrun, s, hs, hused, hclient⟩ : ∃ w, Loop.run Loop.init slotReused = some w ∧
      ∃ s, w.2.ioSockets.slots[1]? = some s ∧ s.used ∧ s.entry.emitter = some (.client 2) := by
    decide +kernel
  obtain ⟨hruns, hslots⟩ := loop_refines_ownership hrun
  obtain ⟨-, hindex, e, he, hremembers, honly⟩ := hslots 1 s hs hused
  cases hclient.symm.trans he
  exact ⟨w, hrun, hruns, s, hs, hindex, hclient, hremembers, honly⟩

end NodeCpp
