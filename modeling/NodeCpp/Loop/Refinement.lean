import NodeCpp.Loop.Compaction

/-!
# The registry refines the ownership model

The simulation, one operation at a time and then as one theorem (`Op.run_step`): an
operation of the registry that does not fail takes the step `Op.abs` names. With it
comes the soundness of every registry that can be reached (`Registry.Sound.step`).
-/

namespace NodeCpp

open Lib

variable {c : SockCall} {e : Emitter} {i idx osSocket : Nat}

/-! ## The simulation, operation by operation -/

namespace Registry

variable {r r' : Registry}

theorem view_quiet {t : NetSockets} (h : r.ioSockets.Quiet t) :
    { r with ioSockets := t }.view = r.view :=
  view_slots_forget fun k => h.map_slot (fun _ => rfl) k

theorem view_addEntry {t : NetSockets} (h : r.ioSockets.addEntry e osSocket = .ok t) :
    { r with ioSockets := t }.view =
        r.view.setSlot r.ioSockets.freeIndex
          { state := .SockIssued, emitter := some e, index := r.ioSockets.freeIndex } ∧
      ∀ s, r.view.slot r.ioSockets.freeIndex = some s → s.used = false := by
  obtain ⟨-, hcases⟩ := NetSockets.addEntry_eq_ok h
  rcases NetSockets.freeIndex_cases r.ioSockets with ⟨s, hs, hunused, -, -⟩ | hnew
  · refine ⟨?_, ?_⟩
    · rcases hcases with ⟨-, rfl⟩ | ⟨hge, -⟩
      · exact view_setSlot hs (NetSockets.setSlot_slots ..)
      · obtain ⟨hlt, -⟩ := List.getElem?_eq_some_iff.mp hs
        omega
    · intro sv hsv
      cases (view_slot hs).symm.trans hsv
      exact hunused
  · have hnone : r.ioSockets.slots[r.ioSockets.freeIndex]? = none :=
      List.getElem?_eq_none (by omega)
    refine ⟨?_, ?_⟩
    · rcases hcases with ⟨hlt, -⟩ | ⟨-, -, rfl⟩
      · omega
      · ext1 <;> try rfl
        refine Function.eq_update_iff.mpr ⟨?_, ?_⟩
        · simp [view, hnew, Slot.view, Slot.issued]
        · intro k hk
          simp only [view, Lib.getElem?_concat_of_ne (hnew ▸ hk)]
    · intro sv hsv
      obtain ⟨s, hs, -⟩ := view_slot_eq_some hsv
      rw [hnone] at hs
      cases hs

theorem construct_step {owner : Option Nat} (h : r.construct osSocket owner = .ok r') :
    r.view.Step (.issue (.client r.sockets.length) r.ioSockets.freeIndex) r'.view := by
  obtain ⟨t, ht, h⟩ := bind_eq_ok h
  cases h
  obtain ⟨hview, hfree⟩ := view_addEntry ht
  have hborn := view_newSocket (r := { r with ioSockets := t })
    { data := { index := r.ioSockets.freeIndex, osSocket := osSocket }, server := owner }
    rfl rfl rfl
  have hall := View.Step.issue (v := r.view) (e := .client r.sockets.length)
    (i := r.ioSockets.freeIndex) (by simp [view]) (by simp [view]) (by simp [view]) hfree
  rw [hview] at hborn
  exact hborn ▸ hall

theorem constructServer_step {cnt : UInt64} (h : r.constructServer osSocket cnt = .ok r') :
    r.view.Step (.issue (.server r.servers.length) r.ioSockets.freeIndex) r'.view := by
  obtain ⟨t, ht, h⟩ := bind_eq_ok h
  cases h
  obtain ⟨hview, hfree⟩ := view_addEntry ht
  have hborn := view_newServer (r := { r with ioSockets := t })
    { index := r.ioSockets.freeIndex, cnt := cnt } rfl
  have hall := View.Step.issue (v := r.view) (e := .server r.servers.length)
    (i := r.ioSockets.freeIndex) (by simp [view]) rfl rfl hfree
  rw [hview] at hborn
  exact hborn ▸ hall

theorem destruct_step (h : r.destruct e = .ok r') :
    r.view.Step (.release e ((r.indexOf e).getD 0)) r'.view := by
  cases destruct_cases h with
  | @client o obj t hobj ht =>
    obtain ⟨s, -, hs, heq⟩ := NetSockets.setUnused_eq_ok ht
    have hget := (liveSocket_eq_some hobj).1
    have hsock := view_setSocket (r := { r with ioSockets := t }) { obj with alive := false } hget
    rw [view_setSlot hs (congrArg NetSockets.slots heq), View.setState_self,
      View.setCloses_self] at hsock
    · rw [show r.indexOf (.client o) = some obj.data.index from view_index_client hobj]
      exact hsock ▸ View.Step.release (view_index_client hobj) (view_slot hs)
    · simp [view, hget]
    · simp [view, hget]
  | @server n obj t hobj ht =>
    obtain ⟨s, -, hs, heq⟩ := NetSockets.setUnused_eq_ok ht
    have hsrv := view_setServer (r := { r with ioSockets := t }) { obj with alive := false }
      (liveServer_eq_some hobj).1
    rw [view_setSlot hs (congrArg NetSockets.slots heq)] at hsrv
    rw [show r.indexOf (.server n) = some obj.index from view_index_server hobj]
    exact hsrv ▸ View.Step.release (view_index_server hobj) (view_slot hs)

theorem setAssociated_step (h : r.onTable (r.ioSockets.setAssociated idx) = .ok r') :
    r.view.Step (.associate idx) r'.view := by
  obtain ⟨t, ht, rfl⟩ := onTable_eq_ok h
  obtain ⟨s, -, hs, hissued, -, heq⟩ := NetSockets.setAssociated_eq_ok ht
  rw [view_setSlot hs (congrArg NetSockets.slots heq)]
  exact .associate (view_slot hs) hissued

theorem setSocketClosed_step (h : r.onTable (r.ioSockets.setSocketClosed idx) = .ok r') :
    r.view.Step (.shut idx) r'.view := by
  obtain ⟨t, ht, rfl⟩ := onTable_eq_ok h
  obtain ⟨s, -, hs, hused, heq⟩ := NetSockets.setSocketClosed_eq_ok ht
  rw [view_setSlot hs (congrArg NetSockets.slots heq)]
  exact .shut (view_slot hs) hused

theorem resetEntry_step (h : r.onTable (r.ioSockets.resetEntry idx) = .ok r') :
    r.view.Step (.wipe idx) r'.view := by
  obtain ⟨t, ht, rfl⟩ := onTable_eq_ok h
  obtain ⟨s, -, hs, heq⟩ := NetSockets.resetEntry_eq_ok ht
  rw [view_setSlot hs (congrArg NetSockets.slots heq)]
  exact .wipe (view_slot hs)

theorem view_poll (ready : Nat → Revents) :
    { r with ioSockets := r.ioSockets.poll ready }.view = r.view := by
  refine view_slots_forget fun k => ?_
  simp only [NetSockets.poll, List.getElem?_mapIdx, Option.map_map]
  congr 1
  funext s
  simp only [Function.comp_apply]
  split <;> rfl

/-- A call on a live socket moves its state; the events it queues carry the index `idx`. -/
theorem sockAt_step {o : Nat} {obj : SocketObj} (hobj : r.liveSocket o = some obj)
    (hidx : r.view.index (.client o) = some idx ∨
      ∃ i s, r.view.slot i = some s ∧ s.emitter = some (.client o) ∧ s.index = idx)
    (h : r.sockAt o obj idx c = .ok r') : r.view.Step (absSock o obj idx c) r'.view := by
  obtain ⟨u, -, h⟩ := bind_eq_ok h
  obtain ⟨t, ht, h⟩ := bind_eq_ok h
  cases h
  obtain ⟨hget, halive⟩ := liveSocket_eq_some hobj
  have hmoves := SockCall.run_moves obj.data c
  have hsock := view_setSocket (r := { r with ioSockets := t })
    { obj with data := (c.run obj.data).data } hget
  rw [view_quiet (NetSockets.foldlM_changePoll_quiet ht), View.setIndex_self, View.setCloses_self]
    at hsock
  · have hstep : r.view.Step (absSock o obj idx c) _ := .move
      (by simp [view_index_client hobj])
      (by
        have hstate : r.view.state (.client o) = obj.data.state := by simp [view, hget]
        rw [hstate, List.map_map]
        exact (congrArg (StateMove _ _) (List.map_id _)).mpr hmoves.state)
      (by
        intro ev hev
        obtain ⟨err, -, rfl⟩ := List.mem_map.mp hev
        exact ⟨rfl, hidx⟩)
    rw [← hsock] at hstep
    exact hstep
  · simp [view, hget]
  · simp [view_index_client hobj, halive, hmoves.index]

theorem sock_step {o : Nat} (h : r.sock o c = .ok r') :
    r.view.Step ((Op.sock o c).abs r) r'.view := by
  unfold sock at h
  split at h
  · cases h
  · rename_i obj hobj
    simp only [Op.abs, hobj]
    exact sockAt_step hobj (.inl (view_index_client hobj)) h

theorem entrySock_step (h : r.entrySock i c = .ok r') :
    r.view.Step ((Op.entrySock i c).abs r) r'.view := by
  obtain ⟨⟨o, obj⟩, hclient, h⟩ := bind_eq_ok h
  obtain ⟨s, hs, hem, hentry, hobj⟩ := client_eq_ok hclient
  simp only [Op.abs, hclient]
  refine sockAt_step hobj ?_ h
  have hslot : ∃ k s, r.view.slot k = some s ∧ s.emitter = some (.client o) ∧
      s.index = (r.entry i).index := ⟨i, s.view, view_slot hs, hem, by rw [hentry]; rfl⟩
  cases c
  case writeEvent => exact .inl (view_index_client hobj)
  all_goals exact .inr hslot

theorem view_serverState {n : Nat} {state : ServerState} (h : r.serverState n state = .ok r') :
    r'.view = r.view := by
  unfold serverState at h
  split at h
  · cases h
  rename_i obj hobj
  cases h
  obtain ⟨hget, halive⟩ := liveServer_eq_some hobj
  rw [view_setServer _ hget]
  exact View.setIndex_self (by simp [view_index_server hobj, halive])

theorem listening_step (h : r.listening i = .ok r') :
    r.view.Step ((Op.listening i).abs r) r'.view := by
  obtain ⟨s, hs, h⟩ := bind_eq_ok h
  obtain ⟨⟨n, obj⟩, hserver, h⟩ := bind_eq_ok h
  cases h
  obtain ⟨-, hs, hused⟩ := NetSockets.at'_eq_ok hs
  obtain ⟨s', hs', hem, -, hobj⟩ := server_eq_ok hserver
  cases hs.symm.trans hs'
  obtain ⟨hget, halive⟩ := liveServer_eq_some hobj
  simp only [Op.abs, hserver]
  rw [view_setServer _ hget]
  simp only [halive, if_true]
  exact .reindex (view_slot hs) hused hem

theorem queueEvent_step {q : QueueId} {hq : q ≠ .close} (h : r.queueEvent q e = .ok r') :
    r.view.Step ((Op.queue q hq e).abs r) r'.view := by
  unfold queueEvent at h
  split at h
  · cases h
  rename_i idx hidx
  cases h
  simp only [Op.abs, hidx, Option.getD_some]
  exact .push hq (.inl hidx)

theorem queueServerError_step (h : r.queueServerError i = .ok r') :
    r.view.Step ((Op.queueServerError i).abs r) r'.view := by
  unfold queueServerError at h
  split at h
  · cases h
  rename_i e he
  cases h
  obtain ⟨s, hs, hem, hentry⟩ := slot_of_emitter he
  simp only [Op.abs, he]
  exact .push (by decide) (.inr ⟨i, s.view, view_slot hs, hem, by rw [hentry]; rfl⟩)

theorem view_used {s : SlotView} (hs : r.view.slot i = some s) : s.used = r.used i := by
  obtain ⟨t, ht, rfl⟩ := view_slot_eq_some hs
  simp only [used, entry_of_slot ht]
  rfl

theorem take_step {q : QueueId} (h : r.take q = .ok r') : r.view.Step (.take q) r'.view := by
  obtain ⟨ev, rest, hbatch, hclose, rfl⟩ := take_eq_ok h
  refine .take hbatch fun hq s hs => ?_
  have hnot : ¬r.used ev.idx := fun hused => hclose ⟨hq, hused⟩
  rw [view_used hs]
  simpa using hnot

theorem beginClose_step (h : r.beginClose = .ok r') :
    r.view.Step (Op.beginClose.abs r) r'.view := by
  obtain ⟨ev, rest, s, o, obj, t, hbatch, hcurrent, hs, hclient, ht, rfl⟩ := beginClose_eq_ok h
  obtain ⟨-, hs, hused⟩ := NetSockets.at'_eq_ok hs
  obtain ⟨s₁, hs₁, hem, -, hobj⟩ := client_eq_ok hclient
  cases hs.symm.trans hs₁
  obtain ⟨s', -, hs', -, heq⟩ := NetSockets.setSocketClosed_eq_ok ht
  obtain ⟨hget, halive⟩ := liveSocket_eq_some hobj
  have hstep := View.Step.beginClose (v := r.view) hbatch hcurrent (view_slot hs) hused hem
    (by simp [view_index_client hobj]) (view_slot hs')
  have hcloses : r.view.closes (.client o) = obj.closes := by simp [view, hget]
  have hsock := view_setSocket (r := { r with ioSockets := t })
    { obj with closes := obj.closes + 1 } hget
  rw [view_setSlot hs' (congrArg NetSockets.slots heq), View.setIndex_self, View.setState_self]
    at hsock
  · simp only [Op.abs, hbatch, hclient]
    rw [hcloses] at hstep
    show r.view.Step _ ((Registry.view { r with
      ioSockets := t
      sockets := r.sockets.set o { obj with closes := obj.closes + 1 } }).onQueue .close
        .take |>.setCurrent (some ev))
    rw [hsock]
    exact hstep
  · simp [view, hget]
  · simp [view_index_client hobj, halive]

theorem endClose_step (h : r.endClose i = .ok r') : r.view.Step (.endClose i) r'.view := by
  unfold endClose at h
  split at h
  · rename_i hcond
    obtain ⟨hcurrent, -⟩ := hcond
    obtain ⟨t, ht, h⟩ := bind_eq_ok h
    cases h
    obtain ⟨s, -, hs, heq⟩ := NetSockets.resetEntry_eq_ok ht
    have hview := view_setSlot hs (congrArg NetSockets.slots heq)
    have hstep := View.Step.endClose (v := r.view) hcurrent (view_slot hs)
    show r.view.Step _ (View.setCurrent { r with ioSockets := t }.view none)
    rw [hview]
    exact hstep
  · cases h

theorem reworkIfNecessary_step {r' : Registry} (hc : r.view.Consistent)
    (hframed : r.ioSockets.Framed) (h : r.reworkIfNecessary = .ok r') :
    r.view.Step (Op.reworkIfNecessary.abs r) r'.view := by
  obtain ⟨hcurrent, t, t', ht, ht', rfl⟩ := reworkIfNecessary_eq_ok h
  obtain ⟨b, c, heq, -⟩ := NetSockets.mergeAccum_eq_ok ht
  have hcompacts : t.compacts = r.ioSockets.compacts := by rw [heq]; rfl
  simp only [Op.abs, ← hcompacts]
  obtain ⟨hno, rfl⟩ | ⟨hyes, c', heq'⟩ := NetSockets.makeCompactIfNecessary_eq_ok ht'
  · simp only [hno, Bool.false_eq_true, if_false]
    have hview : { r with ioSockets := t', accum := r.accum.clear }.view = r.view := by
      refine view_slots_forget fun k => ?_
      rw [heq]
    rw [hview]
    exact .skip
  · simp only [hyes, if_true]
    refine .renumber hcurrent (updateIndices_renumbered hc hframed ?_)
    rw [heq', heq]
    rfl

end Registry

/-! ## The simulation -/

structure Registry.Sound (r : Registry) : Prop where
  consistent : r.view.Consistent
  framed : r.ioSockets.Framed

open Registry in
/-- An operation of the registry takes its step in the ownership model. -/
theorem Op.run_step {r r' : Registry} {op : Op} (hsound : r.Sound) (h : op.run r = .ok r') :
    r.view.Step (op.abs r) r'.view := by
  cases op with
  | construct osSocket owner => exact construct_step h
  | constructServer osSocket cnt => exact constructServer_step h
  | destruct e => exact destruct_step h
  | setAssociated idx => exact setAssociated_step h
  | changePoll idx c =>
    obtain ⟨t, ht, rfl⟩ := onTable_eq_ok h
    rw [view_quiet (NetSockets.changePoll_quiet ht)]
    exact .skip
  | setRefed idx refed =>
    obtain ⟨t, ht, rfl⟩ := onTable_eq_ok h
    rw [view_quiet (NetSockets.setRefed_quiet ht)]
    exact .skip
  | setSocketClosed idx => exact setSocketClosed_step h
  | resetEntry idx => exact resetEntry_step h
  | poll ready =>
    cases h
    rw [view_poll ready]
    exact .skip
  | reworkIfNecessary => exact reworkIfNecessary_step hsound.consistent hsound.framed h
  | check holds =>
    simp only [run] at h
    split at h
    · cases h
      exact .skip
    · cases h
  | at' idx | client i | server i =>
    rw [map_const_eq_ok h]
    exact .skip
  | sock o c => exact sock_step h
  | entrySock i c => exact entrySock_step h
  | serverState s state =>
    rw [view_serverState h]
    exact .skip
  | listening i => exact listening_step h
  | queue q hq e => exact queueEvent_step h
  | queueServerError i => exact queueServerError_step h
  | start q =>
    cases h
    exact .start
  | take q => exact take_step h
  | clear q =>
    obtain ⟨hactive, hbatch, hcurrent, rfl⟩ := clear_eq_ok h
    exact .clear hactive hbatch hcurrent
  | finish q =>
    obtain ⟨hbatch, hcurrent, rfl⟩ := endPass_eq_ok h
    exact .finish hbatch hcurrent
  | beginClose => exact beginClose_step h
  | endClose i => exact endClose_step h

theorem Registry.Sound.init : Registry.init.Sound := by
  refine ⟨⟨?_, ?_, ?_, ?_⟩, .init false⟩
  · intro i s hs hused
    obtain ⟨t, ht, rfl⟩ := view_slot_eq_some hs
    rw [List.eq_of_mem_replicate (List.mem_of_getElem? ht)] at hused
    cases hused
  · intro i s e j hs he hj
    cases e <;> cases hj
  · intro i s e hs he
    obtain ⟨t, ht, rfl⟩ := view_slot_eq_some hs
    rw [List.eq_of_mem_replicate (List.mem_of_getElem? ht)] at he
    cases he
  · intro e j hj
    cases e <;> cases hj

/-- The step lemma: every operation keeps the registry sound. -/
theorem Registry.Sound.op {r r' : Registry} {op : Op} (h : r.Sound) (hrun : op.run r = .ok r') :
    r'.Sound :=
  ⟨h.consistent.step (op.run_step h hrun), h.framed.effect (op.run_table hrun)⟩

theorem Registry.Sound.step {r r' : Registry} {op : Op} (h : r.Sound)
    (hstep : registry.step r op = some r') : r'.Sound := h.op (toOption_eq_some hstep)

end NodeCpp
