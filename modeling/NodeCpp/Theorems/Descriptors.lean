import NodeCpp.Loop.Runs

/-!
# Descriptors are closed once

The descriptor of a socket is passed to `internal_close` when its close event is
processed. That happens at most once in every run (`View.ClosedOnce`). It has happened
when the socket has no entry any more, provided that entries are freed and reset only
after that (`ViewOp.KeepsDescriptors`): the destructor frees the entry of a socket
whose descriptor is open, and a remembered index can free the entry of another socket.
-/

namespace NodeCpp

def Emitter.isClient : Emitter → Bool
  | .client _ => true
  | .server _ => false

namespace View

def Settled (v : View) (i : Nat) : Prop :=
  ∀ s ∈ v.slot i, s.used → s.state = .SockClosed ∨ s.emitter.any Emitter.isClient = false

instance (v : View) (i : Nat) : Decidable (v.Settled i) :=
  inferInstanceAs (Decidable (∀ s ∈ v.slot i, _))

end View

/-- A slot is freed or reset only when it holds no client socket with an open descriptor, and the
close of a server is not applied to the slot of a client socket. -/
def ViewOp.KeepsDescriptors (v : View) : ViewOp → Prop
  | .release _ i | .wipe i | .endClose i => v.Settled i
  | .shut i => (v.holder i).any Emitter.isClient = false
  | _ => True

instance (v : View) : ∀ op : ViewOp, Decidable (op.KeepsDescriptors v)
  | .release _ i | .wipe i | .endClose i => inferInstanceAs (Decidable (v.Settled i))
  | .shut i => inferInstanceAs (Decidable ((v.holder i).any Emitter.isClient = false))
  | .skip | .issue .. | .associate _ | .reindex .. | .move .. | .push .. | .start _ | .take _
  | .clear _ | .finish _ | .beginClose .. | .renumber => isTrue trivial

namespace View

variable {v v' : View} {op : ViewOp}

/-! ## What a step does to the counts -/

theorem Step.closes_cases (hstep : v.Step op v') :
    ((∀ e i, op ≠ .beginClose e i) ∧ v'.closes = v.closes) ∨
      ∃ e i, op = .beginClose e i ∧ v.holder i = some e ∧ v.closing = none ∧
        v'.closing = some i ∧ v'.closes = Function.update v.closes e (v.closes e + 1) := by
  cases hstep with
  | beginClose hbatch hcurrent hslot hused hemitter hlive hslot' =>
    exact .inr ⟨_, _, rfl, holder_eq_some.mpr ⟨_, hslot, hused, hemitter⟩,
      closing_eq_none hcurrent, rfl, rfl⟩
  | renumber hcurrent hrenum => exact .inl ⟨by simp, hrenum.closes⟩
  | _ => exact .inl ⟨by simp, rfl⟩

theorem Step.known_cases (hstep : v.Step op v') :
    v'.known = v.known ∨
      ∃ e i, v'.holder i = some e ∧ v'.known = Function.update v.known e true := by
  cases hstep with
  | issue hfresh hstate hcloses hfree =>
    exact .inr ⟨_, _, (setSlot_holder ..).trans (if_pos rfl), rfl⟩
  | renumber hcurrent hrenum => exact .inl hrenum.known
  | _ => exact .inl rfl

theorem Step.closing_cases (hstep : v.Step op v') :
    v'.closing = v.closing ∨ (∃ e i, op = .beginClose e i) ∨
      ∃ i, v.closing = some i ∧ v'.holder i = none := by
  cases hstep with
  | beginClose hbatch hcurrent hslot hused hemitter hlive hslot' => exact .inr (.inl ⟨_, _, rfl⟩)
  | endClose hclosing hslot =>
    exact .inr (.inr ⟨_, hclosing, (setSlot_holder_free rfl _).trans (if_pos rfl)⟩)
  | renumber hcurrent hrenum => exact .inl (by rw [closing, closing, hrenum.current])
  | _ => exact .inl rfl

theorem Step.closed_cases (hc : v.Consistent) (hstep : v.Step op v') {i : Nat} {s : SlotView}
    (hs : v'.slot i = some s) (hclosed : s.state = .SockClosed) :
    (∃ i₀ s₀, v.slot i₀ = some s₀ ∧ s₀.state = .SockClosed ∧ s₀.emitter = s.emitter) ∨
      (op = .shut i ∧ v.holder i = s.emitter) ∨ ∃ e, op = .beginClose e i ∧ s.emitter = some e := by
  by_cases hop : op = .renumber
  · subst hop
    cases hstep with
    | renumber hcurrent hrenum =>
      obtain ⟨i₀, s₀, hs₀, -, rfl⟩ := hrenum.moved i s hs (by simp [SlotView.used, hclosed])
      exact .inl ⟨i₀, s₀, hs₀, hclosed, rfl⟩
  · exact (hstep.closed_at hc hop hs hclosed).imp_left fun hs₀ => ⟨i, hs₀⟩

/-! ## No double close -/

/-- No descriptor is closed twice; a socket whose descriptor is closed has no entry, but for the
one that is being processed. -/
structure ClosedOnce (v : View) : Prop where
  once : ∀ e, v.closes e ≤ 1
  gone : ∀ e i, v.closes e ≠ 0 → v.holder i = some e → v.closing = some i

theorem ClosedOnce.open (h : v.ClosedOnce) {e : Emitter} {i : Nat} (hi : v.holder i = some e)
    (hnone : v.closing = none) : v.closes e = 0 := by
  by_contra hne
  rw [h.gone e i hne hi] at hnone
  cases hnone

/-- The step lemma; it needs no condition. -/
theorem ClosedOnce.step (h : v.ClosedOnce) (hc : v.Consistent) (hstep : v.Step op v') :
    v'.ClosedOnce := by
  obtain ⟨hno, hcloses⟩ | ⟨e₀, i₀, rfl, hheld, hnone, hclosing, hcloses⟩ := hstep.closes_cases
  · refine ⟨fun e => hcloses ▸ h.once e, fun e i hne hi => ?_⟩
    rw [hcloses] at hne
    obtain hsame | ⟨e', rfl, -, hnew, -, hopen⟩ | ⟨-, hfree⟩ | rfl := hstep.holder_cases hc i
    · have hgone := h.gone e i hne (hsame ▸ hi)
      obtain heq | ⟨e', i', rfl⟩ | ⟨i', hi', hfree⟩ := hstep.closing_cases
      · exact heq.trans hgone
      · exact absurd rfl (hno e' i')
      · cases hgone.symm.trans hi'
        cases hi.symm.trans hfree
    · cases hi.symm.trans hnew
      exact absurd hopen hne
    · cases hi.symm.trans hfree
    · -- no event is being processed, so the socket had no slot to be moved
      cases hstep with
      | renumber hcurrent hrenum =>
        obtain ⟨i₀, hi₀⟩ := hrenum.holder hi
        exact absurd (h.open hi₀ (closing_eq_none hcurrent)) hne
  · have hopen := h.open hheld hnone
    refine ⟨fun e => ?_, fun e i hne hi => ?_⟩
    · rw [hcloses, Function.update_apply]
      split
      · omega
      · exact h.once e
    · have hi' := hstep.holder_of_holder hc (by simp) (by simp) hi
      rw [hcloses, Function.update_apply] at hne
      split at hne
      · subst e
        rw [hclosing, hc.holder_inj hi' hheld]
      · exact absurd (h.open hi' hnone) hne

theorem ClosedOnce.stays (h : v.ClosedOnce) (hstep : v.Step op v') {e : Emitter}
    (hclosed : v.closes e = 1) : v'.closes e = 1 := by
  obtain ⟨-, hcloses⟩ | ⟨e₀, i₀, -, hheld, hnone, -, hcloses⟩ := hstep.closes_cases
  · rw [hcloses, hclosed]
  · have hopen := h.open hheld hnone
    rw [hcloses, Function.update_of_ne]
    · exact hclosed
    · rintro rfl
      omega

/-! ## No leak -/

/-- A client socket holds a slot, or its descriptor has been closed; in a closed slot it has. -/
structure DescriptorsKept (v : View) : Prop where
  held : ∀ o, v.known (.client o) →
    (∃ i, v.holder i = some (.client o)) ∨ v.closes (.client o) = 1
  shut : ∀ i s o, v.slot i = some s → s.state = .SockClosed → s.emitter = some (.client o) →
    v.closes (.client o) = 1

/-- A slot that is given up belongs to a server, or its descriptor has been closed. -/
theorem DescriptorsKept.of_frees (h : v.DescriptorsKept) {i o : Nat} (hfrees : op.Frees i)
    (hkeeps : op.KeepsDescriptors v) (hi : v.holder i = some (.client o)) :
    v.closes (.client o) = 1 := by
  have hsettled : v.Settled i := by
    cases op
    case release e j => cases hfrees; exact hkeeps
    case wipe j => cases hfrees; exact hkeeps
    case endClose j => cases hfrees; exact hkeeps
    all_goals cases hfrees
  obtain ⟨s, hs, hused, he⟩ := holder_eq_some.mp hi
  rcases hsettled s hs hused with hclosed | hserver
  · exact h.shut i s o hs hclosed he
  · rw [he] at hserver
    cases hserver

/-- The step lemma. -/
theorem DescriptorsKept.step (h : v.DescriptorsKept) (honce : v.ClosedOnce) (hc : v.Consistent)
    (hstep : v.Step op v') (hkeeps : op.KeepsDescriptors v) : v'.DescriptorsKept := by
  refine ⟨fun o hknown => ?_, fun i s o hs hclosed he => ?_⟩
  · have hold : v.known (.client o) →
        (∃ i, v'.holder i = some (.client o)) ∨ v'.closes (.client o) = 1 := by
      intro hknown
      rcases h.held o hknown with ⟨i, hi⟩ | hclosed
      · obtain hsame | ⟨e', -, hnone, -⟩ | ⟨hfrees, -⟩ | rfl := hstep.holder_cases hc i
        · exact .inl ⟨i, hsame.trans hi⟩
        · cases hi.symm.trans hnone
        · exact .inr (honce.stays hstep (h.of_frees hfrees hkeeps hi))
        · cases hstep with
          | renumber hcurrent hrenum =>
            obtain ⟨s, hs, hused, he⟩ := holder_eq_some.mp hi
            obtain ⟨j, hj⟩ := hrenum.kept i s hs hused
            exact .inl ⟨j, holder_eq_some.mpr ⟨_, hj, hused, he⟩⟩
      · exact .inr (honce.stays hstep hclosed)
    obtain hsame | ⟨e, i, hi, heq⟩ := hstep.known_cases
    · exact hold (hsame ▸ hknown)
    · by_cases he : e = .client o
      · exact .inl ⟨i, he ▸ hi⟩
      · rw [heq, Function.update_of_ne (Ne.symm he)] at hknown
        exact hold hknown
  · obtain ⟨i₀, s₀, hs₀, hclosed₀, he₀⟩ | ⟨rfl, hholder⟩ | ⟨e, rfl, he'⟩ :=
      hstep.closed_cases hc hs hclosed
    · exact honce.stays hstep (h.shut i₀ s₀ o hs₀ hclosed₀ (he₀.trans he))
    · have hserver : (v.holder i).any Emitter.isClient = false := hkeeps
      rw [hholder, he] at hserver
      cases hserver
    · cases he'.symm.trans he
      obtain ⟨hno, -⟩ | ⟨e₀, i₀, hop, hheld, hnone, -, hcloses⟩ := hstep.closes_cases
      · exact absurd rfl (hno _ _)
      · cases hop
        rw [hcloses, Function.update_self, honce.open hheld hnone]

theorem ClosedOnce.init : Registry.init.view.ClosedOnce := by
  refine ⟨fun e => ?_, fun e i hne => ?_⟩
  · cases e <;> exact Nat.zero_le 1
  · cases e <;> exact absurd rfl hne

theorem DescriptorsKept.init : Registry.init.view.DescriptorsKept := by
  refine ⟨fun o hknown => (by cases hknown), fun i s o hs hclosed he => ?_⟩
  obtain ⟨t, ht, rfl⟩ := Registry.view_slot_eq_some hs
  rw [List.eq_of_mem_replicate (List.mem_of_getElem? ht)] at he
  cases he

end View

/-- No descriptor leak and no double close: the descriptor of a socket is passed to
`internal_close` at most once, and in every run that keeps the descriptors it has been passed
exactly once when no entry of the table is used by the socket. -/
theorem descriptor_closed_once {acts : List Action} {w : Ctl × Registry}
    (hobeys : Loop.Obeys (fun r op => (op.abs r).KeepsDescriptors r.view) Loop.init acts)
    (hrun : Loop.run Loop.init acts = some w) {o : Nat} {obj : SocketObj}
    (hobj : w.2.sockets[o]? = some obj) :
    obj.closes ≤ 1 ∧
      ((∀ (i : Nat) s, w.2.ioSockets.slots[i]? = some s → s.used →
        s.entry.emitter ≠ some (.client o)) → obj.closes = 1) := by
  obtain ⟨-, honce, hkept⟩ := Loop.view_invariant
    (J := fun v => v.ClosedOnce ∧ v.DescriptorsKept)
    (fun r op v' hsound hJ hG hstep => ⟨hJ.1.step hsound.consistent hstep,
      hJ.2.step hJ.1 hsound.consistent hstep hG⟩) .init
    ⟨View.ClosedOnce.init, View.DescriptorsKept.init⟩ hobeys hrun
  have hcloses : w.2.view.closes (.client o) = obj.closes := by simp [Registry.view, hobj]
  have hknown : w.2.view.known (.client o) := by
    obtain ⟨hlt, -⟩ := List.getElem?_eq_some_iff.mp hobj
    simpa [Registry.view] using hlt
  refine ⟨hcloses ▸ honce.once (.client o), fun hunused => ?_⟩
  rw [← hcloses]
  refine (hkept.held o hknown).resolve_left ?_
  rintro ⟨i, hi⟩
  obtain ⟨s, hs, hused, he⟩ := View.holder_eq_some.mp hi
  obtain ⟨t, ht, rfl⟩ := Registry.view_slot_eq_some hs
  exact hunused i t ht hused he

/-- A socket that is destroyed and closed by the loop. -/
theorem descriptor_closed_once_destroy :
    ∃ w obj, Loop.run Loop.init ([.call (.createSocket 5), .call (.connect 0),
        .call (.sock 0 .destroy), .ret] ++ List.replicate 7 (.infra {}) ++
        [.ret, .infra {}, .ret, .infra {}, .ret, .infra {}]) = some w ∧
      w.2.sockets[0]? = some obj ∧ obj.closes ≤ 1 ∧
      ((∀ (i : Nat) s, w.2.ioSockets.slots[i]? = some s → s.used →
        s.entry.emitter ≠ some (.client 0)) → obj.closes = 1) := by
  obtain ⟨w, hw, obj, hobj, -⟩ : ∃ w, Loop.run Loop.init ([Action.call (.createSocket 5),
      .call (.connect 0), .call (.sock 0 .destroy), .ret] ++ List.replicate 7 (Action.infra {}) ++
      [Action.ret, .infra {}, .ret, .infra {}, .ret, .infra {}]) = some w ∧
      ∃ obj, w.2.sockets[0]? = some obj ∧ obj.alive := by decide +kernel
  exact ⟨w, obj, hw, hobj, descriptor_closed_once (by decide +kernel) hw hobj⟩

/-- A connecting socket is destructed. Its close event finds the entry unused and is dropped: the
descriptor is never closed. -/
theorem descriptor_leaked :
    ∃ w obj, Loop.run Loop.init ([.call (.createSocket 5), .call (.connect 0),
        .call (.destructSocket 0), .timer .setInmediate, .ret] ++ List.replicate 5 (.infra {}) ++
        [.ret, .infra {}, .infra {}, .infra {}]) = some w ∧
      w.2.sockets[0]? = some obj ∧ (∀ s ∈ w.2.ioSockets.slots, s.used = false) ∧
      (∀ q, (w.2.queue q).events = []) ∧ obj.closes = 0 := by
  obtain ⟨w, hw, hslots, hqueues, obj, hobj, hcloses⟩ :
      ∃ w, Loop.run Loop.init ([Action.call (.createSocket 5), .call (.connect 0),
          .call (.destructSocket 0), .timer .setInmediate, .ret] ++
          List.replicate 5 (Action.infra {}) ++
          [Action.ret, .infra {}, .infra {}, .infra {}]) = some w ∧
        (∀ s ∈ w.2.ioSockets.slots, s.used = false) ∧
        (∀ q ∈ [QueueId.close, .accepted, .serverClose, .listen], (w.2.queue q).events = []) ∧
        ∃ obj, w.2.sockets[0]? = some obj ∧ obj.closes = 0 := by decide +kernel
  refine ⟨w, obj, hw, hobj, hslots, fun q => hqueues q ?_, hcloses⟩
  cases q <;> simp

end NodeCpp
