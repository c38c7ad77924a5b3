import NodeCpp.Loop.Runs

/-!
# The frame of socket destruction

`~SocketBase` addresses the table through the index the socket remembers. It leaves
every other object alone exactly when the slot of that index is not held by another
object. A socket that `infraGetCloseEvent` has closed keeps its index while its slot
is given away, so the condition can fail.
-/

namespace NodeCpp

open Lib

namespace Registry

/-- Nothing that belongs to another object than the socket `o` is changed: its slot (the entry
with the refed flag, and the `pollfd`) and the object itself. -/
structure Undisturbed (r r' : Registry) (o : Nat) : Prop where
  slots : ∀ (i : Nat) s e, r.ioSockets.slots[i]? = some s → s.used → s.entry.emitter = some e →
    e ≠ .client o → r'.ioSockets.slots[i]? = some s
  sockets : ∀ k, k ≠ o → r'.sockets[k]? = r.sockets[k]?
  servers : r'.servers = r.servers

variable {r : Registry} {o : Nat} {obj : SocketObj}

/-- What `destroy()` does to a socket that is connecting or connected. -/
def destroyed (r : Registry) (o : Nat) (obj : SocketObj) : Registry :=
  { r with sockets := r.sockets.set o { obj with data := { obj.data with state := .Closing } }
    }.pushAll .close [{ idx := obj.data.index, owner := .client o }]

theorem sock_destroy (hobj : r.liveSocket o = some obj)
    (hstate : obj.data.state = .Connecting ∨ obj.data.state = .Connected) :
    r.sock o .destroy = .ok (r.destroyed o obj) := by
  have hrun : SockCall.destroy.run obj.data =
      ⟨{ obj.data with state := .Closing }, [.lingerZero, .queueClose false], .ok ()⟩ := by
    rcases hstate with h | h <;>
      simp [SockCall.run, OSLayer.appDestroy, SocketData.isValid, closeSocket, closeWith, h,
        SockState.closing]
  simp only [sock, hobj, sockAt, hrun]
  rfl

theorem destructSocket_destroyed (hobj : r.liveSocket o = some obj) :
    ∃ r₁ obj₁, registry.run r (Program.destructSocket o obj) =
        registry.run r₁ [.setRefed obj.data.index false, .destruct (.client o)] ∧
      r₁.ioSockets = r.ioSockets ∧ r₁.servers = r.servers ∧
      r₁.sockets = r.sockets.set o obj₁ ∧ r₁.liveSocket o = some obj₁ ∧
      obj₁.data.index = obj.data.index := by
  obtain ⟨hget, halive⟩ := liveSocket_eq_some hobj
  obtain ⟨hlt, hself⟩ := List.getElem?_eq_some_iff.mp hget
  unfold Program.destructSocket
  split
  · rename_i hstate
    refine ⟨r.destroyed o obj, { obj with data := { obj.data with state := .Closing } }, ?_, rfl,
      rfl, rfl, ?_, rfl⟩
    · have hstep : registry.step r (.sock o .destroy) = some (r.destroyed o obj) :=
        congrArg Except.toOption (sock_destroy hobj hstate)
      simp only [List.cons_append, List.nil_append, Lib.Machine.run, hstep, Option.bind_some]
    · simp [liveSocket, destroyed, pushAll, hlt, Option.filter_some, halive]
  · refine ⟨r, obj, rfl, rfl, rfl, ?_, hobj, rfl⟩
    rw [← hself, List.set_getElem_self]

end Registry

theorem NetSockets.setRefed_setUnused {t : NetSockets} {idx : Nat} {s : Slot}
    (hslot : t.slotAt idx = .ok s) :
    ∃ t₁ t₂ s', t.setRefed idx false = .ok t₁ ∧ t₁.setUnused idx = .ok t₂ ∧
      t₂.slots = t.slots.set idx s' ∧ s'.used = false ∧ t₂.slotAt idx = .ok s' := by
  have hrefed := setRefed_ok hslot false (by simp)
  have hslot₁ := slotAt_setSlot hslot { s with entry := { s.entry with refed := false } }
  obtain ⟨t₂, hunused⟩ : ∃ t₂, (t.setSlot idx
      { s with entry := { s.entry with refed := false } }).setUnused idx = .ok t₂ := by
    simp only [setUnused, hslot₁]
    exact ⟨_, rfl⟩
  obtain ⟨s₁, -, -, heq⟩ := setUnused_eq_ok hunused
  have hslots := congrArg NetSockets.slots heq
  have hslot₂ := slotAt_setSlot hslot₁
    { entry := { s₁.entry with state := .Unused, index := 0 }
      pfd := { s₁.pfd with fd := invalidSocket } }
  refine ⟨_, t₂, _, hrefed, hunused, hslots.trans (List.set_set ..), rfl, ?_⟩
  rw [heq]
  exact hslot₂

namespace Registry

variable {r : Registry} {o : Nat} {obj : SocketObj}

/-- With a slot under the remembered index the destructor completes: the slot is unused then,
and the socket is gone. -/
theorem destructSocket_run (hobj : r.liveSocket o = some obj) {s : Slot}
    (hslot : r.ioSockets.slotAt obj.data.index = .ok s) :
    ∃ r' obj' s', registry.run r (Program.destructSocket o obj) = some r' ∧
      r'.ioSockets.slots = r.ioSockets.slots.set obj.data.index s' ∧ s'.used = false ∧
      r'.ioSockets.slotAt obj.data.index = .ok s' ∧
      r'.sockets = r.sockets.set o obj' ∧ r'.servers = r.servers := by
  obtain ⟨r₁, obj₁, hrun, htable, hservers, hsockets, hlive, hindex⟩ :=
    destructSocket_destroyed hobj
  obtain ⟨t₁, t₂, s', hrefed, hunused, hslots, hfree, hslot'⟩ :=
    NetSockets.setRefed_setUnused hslot
  have hstep₁ : registry.step r₁ (.setRefed obj.data.index false) =
      some { r₁ with ioSockets := t₁ } := by
    simp only [registry, Op.run, onTable, htable, hrefed]
    rfl
  have hstep₂ : registry.step { r₁ with ioSockets := t₁ } (.destruct (.client o)) =
      some { r₁ with
        ioSockets := t₂
        sockets := r₁.sockets.set o { obj₁ with alive := false } } := by
    have hlive₁ : ({ r₁ with ioSockets := t₁ } : Registry).liveSocket o = some obj₁ := hlive
    simp only [registry, Op.run, destruct, hlive₁, hindex, hunused]
    rfl
  refine ⟨{ r₁ with ioSockets := t₂, sockets := r₁.sockets.set o { obj₁ with alive := false } },
    { obj₁ with alive := false }, s', ?_, hslots, hfree, hslot', ?_, hservers⟩
  · rw [hrun]
    simp only [Lib.Machine.run, hstep₁, hstep₂, Option.bind_some]
  · rw [hsockets, List.set_set]

theorem slotAt_of_destructSocket {r' : Registry} (hobj : r.liveSocket o = some obj)
    (h : registry.run r (Program.destructSocket o obj) = some r') :
    ∃ s, r.ioSockets.slotAt obj.data.index = .ok s := by
  obtain ⟨r₁, obj₁, hrun, htable, -⟩ := destructSocket_destroyed hobj
  rw [hrun] at h
  obtain ⟨r₂, hstep, -⟩ := registry.run_cons h
  obtain ⟨t, ht, -⟩ := onTable_eq_ok (toOption_eq_some hstep)
  rw [htable] at ht
  obtain ⟨s, hs, -⟩ := bind_eq_ok ht
  exact ⟨s, hs⟩

end Registry

/-- Frame law of socket destruction: in every reachable state, the destructor of a socket leaves
all other objects and their slots unchanged if and only if no other object holds the slot of the
index the socket remembers. -/
theorem destructSocket_frame_iff {acts : List Action} {w : Ctl × Registry} {o : Nat}
    {obj : SocketObj} (hrun : Loop.run Loop.init acts = some w)
    (hobj : w.2.liveSocket o = some obj) :
    (∀ r', registry.run w.2 (Program.destructSocket o obj) = some r' → w.2.Undisturbed r' o) ↔
      ∀ s e, w.2.ioSockets.slots[obj.data.index]? = some s → s.used →
        s.entry.emitter = some e → e = .client o := by
  constructor
  · intro hframe s e hs hused he
    have hslot := (Loop.sound hrun).framed.slotAt_of_used hs hused
    obtain ⟨r', obj', s', hrun', hslots, hfree, -⟩ := Registry.destructSocket_run hobj hslot
    by_cases heq : e = .client o
    · exact heq
    · -- the slot was used and is not any more
      obtain ⟨hlt, -⟩ := List.getElem?_eq_some_iff.mp hs
      have hkept := (hframe r' hrun').slots _ s e hs hused he heq
      rw [hslots, List.getElem?_set_self hlt] at hkept
      cases hkept
      rw [hused] at hfree
      cases hfree
  · intro hown r' hrun'
    obtain ⟨s, hslot⟩ := Registry.slotAt_of_destructSocket hobj hrun'
    obtain ⟨r'', obj', s', hrun'', hslots, -, -, hsockets, hservers⟩ :=
      Registry.destructSocket_run hobj hslot
    cases hrun'.symm.trans hrun''
    refine ⟨fun i t e ht hused he hne => ?_, fun k hk => ?_, hservers⟩
    · rw [hslots, List.getElem?_set_ne]
      · exact ht
      · rintro rfl
        exact hne (hown t e ht hused he)
    · rw [hsockets, List.getElem?_set_ne (Ne.symm hk)]

/-- Two connected sockets side by side. -/
theorem destructSocket_frame_iff_two :
    ∃ w obj, Loop.run Loop.init [.call (.createSocket 5), .call (.connect 0),
        .call (.createSocket 6), .call (.connect 1)] = some w ∧ w.2.liveSocket 0 = some obj ∧
      ∀ r', registry.run w.2 (Program.destructSocket 0 obj) = some r' → w.2.Undisturbed r' 0 := by
  obtain ⟨w, obj, hw, hobj, hslot⟩ : ∃ w obj, Loop.run Loop.init [.call (.createSocket 5),
      .call (.connect 0), .call (.createSocket 6), .call (.connect 1)] = some w ∧
      w.2.liveSocket 0 = some obj ∧
      ∃ s, w.2.ioSockets.slots[obj.data.index]? = some s ∧ s.entry.emitter = some (.client 0) :=
    ⟨_, _, rfl, rfl, _, rfl, rfl⟩
  refine ⟨w, obj, hw, hobj, (destructSocket_frame_iff hw hobj).mpr fun s e hs _ he => ?_⟩
  obtain ⟨s', hs', he'⟩ := hslot
  cases hs.symm.trans hs'
  exact Option.some.inj (he.symm.trans he')

/-- A socket that the loop has closed is destructed by an immediate, after a new socket has taken
its slot and is connecting: the entry of the new socket becomes unused. -/
theorem destructSocket_frees_other :
    ∃ w obj r', Loop.run Loop.init ([.call (.createSocket 5), .call (.connect 0),
        .call (.sock 0 .destroy), .ret] ++ List.replicate 7 (.infra {}) ++
        [.timer .setInmediate, .ret, .infra {}, .ret, .infra {}, .ret] ++
        List.replicate 10 (.infra {}) ++ [.call (.createSocket 6), .call (.connect 1)]) = some w ∧
      w.2.liveSocket 0 = some obj ∧
      registry.run w.2 (Program.destructSocket 0 obj) = some r' ∧ ¬w.2.Undisturbed r' 0 := by
  obtain ⟨w, hw, ⟨s, hs, hused, he⟩, obj, hobj, r', hr', s', hs', hunused⟩ :
      ∃ w, Loop.run Loop.init ([Action.call (.createSocket 5), .call (.connect 0),
          .call (.sock 0 .destroy), .ret] ++ List.replicate 7 (Action.infra {}) ++
          [Action.timer .setInmediate, .ret, .infra {}, .ret, .infra {}, .ret] ++
          List.replicate 10 (Action.infra {}) ++
          [Action.call (.createSocket 6), .call (.connect 1)]) = some w ∧
        (∃ s, w.2.ioSockets.slots[1]? = some s ∧ s.used ∧ s.entry.emitter = some (.client 1)) ∧
        ∃ obj, w.2.liveSocket 0 = some obj ∧
          ∃ r', registry.run w.2 (Program.destructSocket 0 obj) = some r' ∧
            ∃ s', r'.ioSockets.slots[1]? = some s' ∧ s'.used = false := by decide +kernel
  refine ⟨w, obj, r', hw, hobj, hr', fun h => ?_⟩
  cases (h.slots 1 s (.client 1) hs hused he (by decide)).symm.trans hs'
  rw [hused] at hunused
  cases hunused

end NodeCpp
