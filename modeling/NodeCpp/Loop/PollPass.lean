import NodeCpp.Loop.Runs

/-!
# What a poll pass relies on

Between `poll` and the end of the loop of `pollPhase2`, handlers run and the table
changes. `NetSockets.Ahead` is what the loop needs of the part of the table it has
still to visit: the entries reported by `poll` are still reported, still associated
and still have their descriptors, and no others have become ready.

* `Ahead.effect` -- what may happen to the table in a pass keeps it, as long as no
  reported entry ahead is freed or closed.
* `Registry.entrySock_ok`, `Registry.consumeAcceptedSocket_ok` -- the steps of
  `infraCheckPollFdSet` meet their assertions on a slot that is still held.
-/

namespace NodeCpp

open Lib

variable {e : Emitter} {k osSocket : Nat}

namespace NetSockets

/-- `poll` has reported something for the entry. -/
def ready (t : NetSockets) (j : Nat) : Bool :=
  (t.slots[j]?).any fun s => decide (s.pfd.revents ≠ {})

/-- The entries from `i` on are as `poll` has left them: `ready` tells which of the `n` entries
of `osSide` it has reported. -/
structure Ahead (ready : Nat → Bool) (n i : Nat) (t : NetSockets) : Prop where
  base : n ≤ t.baseSz
  same : ∀ j, i ≤ j → j < n → t.ready j = ready j
  due : ∀ j s, i ≤ j → j < n → t.slots[j]? = some s → ready j → 0 < s.pfd.fd ∧ s.associated

namespace Ahead

variable {ready : Nat → Bool} {n i : Nat} {t t' : NetSockets}

theorem mono (h : t.Ahead ready n i) {i' : Nat} (hi : i ≤ i') : t.Ahead ready n i' :=
  ⟨h.base, fun j hj => h.same j (Nat.le_trans hi hj), fun j s hj => h.due j s (Nat.le_trans hi hj)⟩

theorem set (h : t.Ahead ready n i) {s s' : Slot} (hs : t.slots[k]? = some s)
    (hslots : t'.slots = t.slots.set k s') (hbase : t.baseSz ≤ t'.baseSz)
    (hready : i ≤ k → k < n → decide (s'.pfd.revents ≠ {}) = ready k)
    (hdue : i ≤ k → k < n → ready k → 0 < s'.pfd.fd ∧ s'.associated) : t'.Ahead ready n i := by
  obtain ⟨hk, -⟩ := List.getElem?_eq_some_iff.mp hs
  have hget : ∀ j : Nat, t'.slots[j]? = if k = j then some s' else t.slots[j]? := by
    intro j
    simp only [hslots, List.getElem?_set, hk, if_true]
  refine ⟨Nat.le_trans h.base hbase, fun j hj hjn => ?_, fun j s₁ hj hjn hs₁ hr => ?_⟩
  · simp only [NetSockets.ready, hget]
    split
    · subst j
      exact hready hj hjn
    · exact h.same j hj hjn
  · rw [hget] at hs₁
    split at hs₁
    · subst j
      cases hs₁
      exact hdue hj hjn hr
    · exact h.due j s₁ hj hjn hs₁ hr

theorem set_of_not_ready (h : t.Ahead ready n i) {s s' : Slot} (hs : t.slots[k]? = some s)
    (hslots : t'.slots = t.slots.set k s') (hbase : t.baseSz ≤ t'.baseSz)
    (hrevents : s'.pfd.revents = s.pfd.revents) (hnot : i ≤ k → k < n → ready k = false) :
    t'.Ahead ready n i := by
  refine h.set hs hslots hbase (fun hi hn => ?_) fun hi hn hr => ?_
  · rw [hrevents, ← h.same k hi hn]
    simp [NetSockets.ready, hs]
  · rw [hnot hi hn] at hr
    cases hr

theorem quiet (h : t.Ahead ready n i) (hq : t.Quiet t') : t'.Ahead ready n i := by
  have hmap := hq.map_slot (g := fun s => (s.pfd.revents, s.pfd.fd, s.associated)) fun _ => rfl
  refine ⟨by rw [hq.rest]; exact h.base, fun j hj hjn => ?_, fun j s' hj hjn hs' hr => ?_⟩
  · have hj' := hmap j
    rw [← h.same j hj hjn]
    simp only [NetSockets.ready]
    cases hs : t.slots[j]? with
    | none =>
      rw [hs] at hj'
      rw [Option.map_eq_none_iff.mp hj']
    | some s =>
      rw [hs] at hj'
      obtain ⟨s', hs', heq⟩ := Option.map_eq_some_iff.mp hj'
      have hrevents := congrArg Prod.fst heq
      simp only at hrevents
      simp only [hs', Option.any_some, hrevents]
  · have hj' := hmap j
    rw [hs', Option.map_some] at hj'
    obtain ⟨s, hs, heq⟩ := Option.map_eq_some_iff.mp hj'.symm
    have hfd := congrArg (Prod.fst ∘ Prod.snd) heq
    have hassoc := congrArg (Prod.snd ∘ Prod.snd) heq
    simp only [Function.comp_apply] at hfd hassoc
    rw [← hfd, ← hassoc]
    exact h.due j s hj hjn hs hr

theorem not_ready (h : t.Ahead ready n i) {s : Slot} (hs : t.slots[k]? = some s)
    (hassoc : s.associated = false) (hi : i ≤ k) (hn : k < n) : ready k = false := by
  by_contra hr
  have hdue := (h.due k s hi hn hs (by simpa using hr)).2
  rw [hassoc] at hdue
  cases hdue

theorem append (h : t.Ahead ready n i) (hframed : t.Framed) {s : Slot}
    (hslots : t'.slots = t.slots ++ [s]) (hbase : t.baseSz ≤ t'.baseSz) : t'.Ahead ready n i := by
  have hold : ∀ j, j < n → t'.slots[j]? = t.slots[j]? := by
    intro j hj
    have hlen := Nat.le_trans h.base hframed.base
    rw [hslots, List.getElem?_append_left (by omega)]
  refine ⟨Nat.le_trans h.base hbase, fun j hj hjn => ?_, fun j s hj hjn hs hr => ?_⟩
  · simp only [NetSockets.ready, hold j hjn]
    exact h.same j hj hjn
  · rw [hold j hjn] at hs
    exact h.due j s hj hjn hs hr

end Ahead

end NetSockets

/-- What may happen to the table in a pass; `P` holds of the slots whose descriptor is dropped. -/
def TableAct.Passes (P : Nat → Prop) : TableAct → Prop
  | .op (.addEntry ..) | .op (.setAssociated _) | .quiet => True
  | .op (.setSocketClosed j) | .op (.setUnused j) => P j
  | _ => False

/-- The step lemma of the table: entries ahead are lost only by freeing or closing them. -/
theorem NetSockets.Ahead.effect {ready : Nat → Bool} {n i : Nat} {t t' : NetSockets}
    {act : TableAct} (h : t.Ahead ready n i) (hframed : t.Framed)
    (hact : act.Passes fun j => i ≤ j → t.ready j = false) (heffect : TableEffect t act t') :
    t'.Ahead ready n i := by
  cases heffect with
  | poll ready => cases hact
  | quiet hq => exact h.quiet hq
  | op hstep =>
    cases tableOps_cases hstep with
    | writes count hres hs hwrites =>
      cases hwrites with
      | issued e osSocket hunused =>
        have hnot := h.not_ready hs (Slot.associated_of_unused hunused)
        refine h.set hs rfl (Nat.le_refl _) (fun hi hn => ?_) fun hi hn hr => ?_
        · rw [hnot hi hn]
          rfl
        · rw [hnot hi hn] at hr
          cases hr
      | associated hissued hfd =>
        exact h.set_of_not_ready hs rfl (Nat.le_refl _) rfl
          (h.not_ready hs (by simp [Slot.associated, hissued]))
      | closed | freed =>
        exact h.set_of_not_ready hs rfl (Nat.le_refl _) rfl
          fun hi hn => (h.same _ hi hn).symm.trans (hact hi)
      | reset => cases hact
    | grows e osSocket hbase hroom => exact h.append hframed rfl hbase.1
    | awaker | reworks => cases hact

/-! ## The operations of a pass -/

/-- The operations `infraCheckPollFdSet` is made of. -/
def Op.ofDispatch : Op → Bool
  | .construct .. | .setAssociated _ | .changePoll .. | .setRefed .. | .check _ | .at' _ | .server _
  | .sock .. | .entrySock .. | .queue .. | .queueServerError _ => true
  | _ => false

namespace Op

variable {r r' : Registry} {op : Op}

theorem holder_kept (hsound : r.Sound) (hrun : op.run r = .ok r') {i : Nat}
    (hfrees : ¬(op.abs r).Frees i) (hrenum : op.abs r ≠ .renumber) (h : r.view.holder i = some e) :
    r'.view.holder i = some e := by
  obtain hsame | ⟨e', -, hnone, -⟩ | ⟨hf, -⟩ | hr :=
    (op.run_step hsound hrun).holder_cases hsound.consistent i
  · rw [hsame, h]
  · rw [h] at hnone
    cases hnone
  · exact absurd hf hfrees
  · exact absurd hr hrenum

theorem ofDispatch_abs (h : op.ofDispatch) (r : Registry) :
    (∀ i, ¬(op.abs r).Frees i) ∧ op.abs r ≠ .renumber := by
  cases op <;> cases h <;> simp only [abs, Registry.absSock] <;> (try split) <;>
    simp [ViewOp.Frees]

theorem ofDispatch_passes (h : op.ofDispatch) (r : Registry) (P : Nat → Prop) :
    (op.tableAct r).Passes P := by
  cases op <;> cases h <;> trivial

/-- User code gives up a slot by destructing its object only. -/
theorem ofUser_abs (h : op.ofUser) (r : Registry) :
    (∀ i, (op.abs r).Frees i → ∃ e, op = .destruct e ∧ (r.indexOf e).getD 0 = i) ∧
      op.abs r ≠ .renumber := by
  cases op <;> (try cases h) <;> simp only [abs, Registry.absSock] <;> (try split) <;>
    simp [ViewOp.Frees]

end Op

namespace Registry

variable {r r' : Registry} {ready : Nat → Bool} {n i : Nat}

/-- The run lemma of dispatching: no entry ahead is lost, and every slot stays with its object. -/
theorem dispatch_run {ops : List Op} (hops : ∀ op ∈ ops, op.ofDispatch)
    (hrun : registry.run r ops = some r') (hsound : r.Sound)
    (hahead : r.ioSockets.Ahead ready n i) :
    r'.Sound ∧ r'.ioSockets.Ahead ready n i ∧
      ∀ k e, r.view.holder k = some e → r'.view.holder k = some e := by
  refine registry.run_kept_of_mem
    (J := fun r' => r'.Sound ∧ r'.ioSockets.Ahead ready n i ∧
      ∀ k e, r.view.holder k = some e → r'.view.holder k = some e) ?_
    ⟨hsound, hahead, fun _ _ h => h⟩ hops hrun
  rintro r₁ op r₂ ⟨hs, ha, hh⟩ hop hstep
  have hok := toOption_eq_some hstep
  have habs := Op.ofDispatch_abs hop r₁
  exact ⟨hs.step hstep, ha.effect hs.framed (Op.ofDispatch_passes hop r₁ _) (op.run_table hok),
    fun k e hk => Op.holder_kept hs hok (habs.1 k) habs.2 (hh k e hk)⟩

/-! ## The objects of held slots -/

theorem slot_of_holder (hsound : r.Sound) (h : r.view.holder i = some e) :
    ∃ s, r.ioSockets.slots[i]? = some s ∧ s.used ∧ s.entry.emitter = some e ∧
      s.entry.index = i ∧ r.indexOf e = some i := by
  obtain ⟨sv, hsv, hused, he⟩ := View.holder_eq_some.mp h
  obtain ⟨s, hs, rfl⟩ := view_slot_eq_some hsv
  obtain ⟨hindex, -⟩ := hsound.consistent.used i _ hsv hused
  exact ⟨s, hs, hused, he, hindex, hsound.consistent.index_of_holder h⟩

theorem at_of_holder (hsound : r.Sound) (h : r.view.holder i = some e) :
    ∃ s, r.ioSockets.at' i = .ok s := by
  obtain ⟨s, hs, hused, -⟩ := slot_of_holder hsound h
  refine ⟨s, ?_⟩
  simp only [NetSockets.at', hsound.framed.slotAt_of_used hs hused, bind, Except.bind, hused,
    if_true]

theorem client_of_holder (hsound : r.Sound) {o : Nat} (h : r.view.holder i = some (.client o)) :
    ∃ obj, r.client i = .ok (o, obj) ∧ obj.data.index = i ∧ (r.entry i).index = i := by
  obtain ⟨s, hs, -, he, hindex, hlive⟩ := slot_of_holder hsound h
  obtain ⟨obj, hobj, hidx⟩ := Option.map_eq_some_iff.mp hlive
  refine ⟨obj, ?_, hidx, by rw [entry_of_slot hs, hindex]⟩
  simp only [client, entry_of_slot hs, he, hobj]

theorem server_of_holder (hsound : r.Sound) {s : Nat} (h : r.view.holder i = some (.server s)) :
    ∃ obj, r.server i = .ok (s, obj) := by
  obtain ⟨slot, hslot, -, he, -, hlive⟩ := slot_of_holder hsound h
  obtain ⟨obj, hobj, -⟩ := Option.map_eq_some_iff.mp hlive
  exact ⟨obj, by simp only [server, entry_of_slot hslot, he, hobj]⟩

end Registry

/-! ## The steps of `infraCheckPollFdSet` meet their assertions -/

namespace NetSockets

variable {t : NetSockets} {idx : Nat} {s : Slot}

theorem changePoll_ok (h : t.slotAt idx = .ok s) (c : PollChange) :
    ∃ t' s', t.changePoll idx c = .ok t' ∧ t'.slotAt idx = .ok s' := by
  have hmodify : ∀ f, ∃ t' s', t.modifyEvents idx f = .ok t' ∧ t'.slotAt idx = .ok s' :=
    fun f => ⟨_, _, modifyEvents_ok h f, slotAt_setSlot h _⟩
  cases c <;> simp only [changePoll, setPollin, unsetPollin, setPollout, unsetPollout] <;>
    exact hmodify _

theorem foldlM_changePoll_ok (h : t.slotAt idx = .ok s) (cs : List PollChange) :
    ∃ t', cs.foldlM (fun t c => t.changePoll idx c) t = .ok t' := by
  induction cs generalizing t s with
  | nil => exact ⟨t, rfl⟩
  | cons c cs ih =>
    obtain ⟨t', s', ht', hs'⟩ := changePoll_ok h c
    rw [List.foldlM_cons, ht']
    exact ih hs'

theorem addEntry_ok (hframed : t.Framed) (e : Emitter) (hos : osSocket ≠ 0)
    (hroom : t.slots.length + 1 < maxSize) :
    ∃ t', t.addEntry e osSocket = .ok t' ∧
      t'.slotAt t.freeIndex = .ok (Slot.issued t.freeIndex e osSocket) := by
  have hres : t.reservedCapacity ≤ t.freeIndex := by
    rcases freeIndex_cases t with ⟨-, -, -, hres, -⟩ | hnew
    · exact hres
    · exact hnew ▸ hframed.reserved
  have hfound : ∀ {t' : NetSockets}, t'.clustering = t.clustering →
      t'.slots[t.freeIndex]? = some (Slot.issued t.freeIndex e osSocket) →
      t'.slotAt t.freeIndex = .ok (Slot.issued t.freeIndex e osSocket) := by
    intro t' hclus hs
    have hres' : ¬t.freeIndex < t'.reservedCapacity := by
      simp only [reservedCapacity, hclus]
      exact Nat.not_lt.mpr hres
    simp only [slotAt, hres', if_false, hs]
  unfold addEntry
  rw [if_neg hos]
  by_cases hlt : t.freeIndex < t.slots.length
  · rw [if_pos hlt]
    exact ⟨_, rfl, hfound rfl (List.getElem?_set_self hlt)⟩
  · rw [if_neg hlt, if_neg (Nat.not_le.mpr hroom)]
    have hnew : t.freeIndex = t.slots.length := by
      rcases freeIndex_cases t with ⟨s, hs, -⟩ | hnew
      · exact absurd (List.getElem?_eq_some_iff.mp hs).1 hlt
      · exact hnew
    refine ⟨_, rfl, hfound rfl ?_⟩
    simp [hnew]

theorem setAssociated_ok (h : t.slotAt idx = .ok s) (hissued : s.entry.state = .SockIssued)
    (hpfd : s.pfd.pollin = false ∧ s.pfd.pollout = false ∧ s.pfd.revents = {})
    (hfd : 0 < -s.pfd.fd) : ∃ t' s', t.setAssociated idx = .ok t' ∧ t'.slotAt idx = .ok s' := by
  have hok : ¬(s.pfd.pollin ∨ s.pfd.pollout ∨ s.pfd.revents ≠ {} ∨ ¬0 < -s.pfd.fd) := by
    simp only [hpfd, hfd, not_true_eq_false, ne_eq, Bool.false_eq_true, or_self, not_false_eq_true]
  simp only [setAssociated, h, bind, Except.bind, hissued, ne_eq, not_true_eq_false, if_false,
    if_neg hok]
  exact ⟨_, _, rfl, slotAt_setSlot h _⟩

theorem infraAddAccepted_ok (hos : osSocket ≠ 0)
    (h : t.slotAt idx = .ok (Slot.issued k e osSocket)) :
    ∃ t₁ s₁ t₂ t₃ t₄, t.changePoll idx .unsetPollout = .ok t₁ ∧ t₁.at' idx = .ok s₁ ∧
      t₁.setRefed idx true = .ok t₂ ∧ t₂.setAssociated idx = .ok t₃ ∧
      t₃.changePoll idx .setPollin = .ok t₄ := by
  -- `unsetPollout` leaves the entry as it is
  have h₁ := slotAt_setSlot h (Slot.issued k e osSocket)
  have ht₁ : t.changePoll idx .unsetPollout = .ok (t.setSlot idx (Slot.issued k e osSocket)) := by
    simp only [changePoll, unsetPollout]
    exact modifyEvents_ok h _
  have hfd : 0 < -(Slot.issued k e osSocket).pfd.fd := by
    show 0 < - -(osSocket : Int)
    omega
  obtain ⟨t₃, s₃, ht₃, hs₃⟩ := setAssociated_ok (slotAt_setSlot h₁ { Slot.issued k e osSocket with
    entry := { (Slot.issued k e osSocket).entry with refed := true } }) rfl ⟨rfl, rfl, rfl⟩ hfd
  obtain ⟨t₄, -, ht₄, -⟩ := changePoll_ok hs₃ .setPollin
  refine ⟨_, Slot.issued k e osSocket, _, t₃, t₄, ht₁, ?_,
    setRefed_ok h₁ true fun _ => rfl, ht₃, ht₄⟩
  simp only [at', h₁]
  rfl

end NetSockets

namespace Registry

variable {r : Registry} {i : Nat}

theorem entrySock_ok (hsound : r.Sound) {o : Nat} {obj : SocketObj} {c : SockCall}
    (hi : r.view.holder i = some (.client o)) (hclient : r.client i = .ok (o, obj))
    (hret : ∃ u, (c.run obj.data).res = .ok u) : ∃ r', (Op.entrySock i c).run r = .ok r' := by
  obtain ⟨s, hs, hused, -⟩ := slot_of_holder hsound hi
  obtain ⟨obj', hclient', hindex, hentry⟩ := client_of_holder hsound hi
  cases hclient.symm.trans hclient'
  have hstep : r.stepIndex i obj c = i := by
    cases c <;> first | exact hindex | exact hentry
  obtain ⟨u, hu⟩ := hret
  obtain ⟨t, ht⟩ := NetSockets.foldlM_changePoll_ok (hsound.framed.slotAt_of_used hs hused)
    ((c.run obj.data).fx.filterMap Fx.pollChange)
  simp only [Op.run, entrySock, hclient, hstep, sockAt, hu, ht, bind, Except.bind]
  exact ⟨_, rfl⟩

/-- The first half of accepting: the new socket is registered, announced and connected. -/
theorem acceptNew_ok {t : NetSockets} (server : Option Nat)
    (ht : r.ioSockets.addEntry (.client r.sockets.length) osSocket = .ok t) :
    ∃ r', registry.run r [.construct osSocket server,
        .queue .accepted (by decide) (.client r.sockets.length),
        .sock r.sockets.length .accepted] = some r' ∧ r'.ioSockets = t := by
  let new : SocketObj :=
    { data := { index := r.ioSockets.freeIndex, osSocket := osSocket }, server := server }
  let r₁ : Registry :=
    { r with ioSockets := t, accum := r.accumAdded, sockets := r.sockets ++ [new] }
  have hconstruct : r.construct osSocket server = .ok r₁ := by
    simp only [construct, ht]
    rfl
  have hlive : r₁.liveSocket r.sockets.length = some new := by
    simp [liveSocket, r₁, new, Option.filter_some]
  have hqueue : r₁.queueEvent .accepted (.client r.sockets.length) = .ok (r₁.pushAll .accepted
      [{ idx := r.ioSockets.freeIndex, owner := .client r.sockets.length }]) := by
    simp only [queueEvent, indexOf, hlive, Option.map_some]
    rfl
  have hsock : ∀ r₂ : Registry, r₂.liveSocket r.sockets.length = some new →
      ∃ r₃, r₂.sock r.sockets.length .accepted = .ok r₃ ∧ r₃.ioSockets = r₂.ioSockets := by
    intro r₂ h₂
    simp only [sock, h₂]
    exact ⟨_, rfl, rfl⟩
  obtain ⟨r₃, hr₃, htable⟩ := hsock (r₁.pushAll .accepted
    [{ idx := r.ioSockets.freeIndex, owner := .client r.sockets.length }]) hlive
  refine ⟨r₃, ?_, htable⟩
  simp only [Machine.run, registry, Op.run, hconstruct, hqueue, hr₃, Except.toOption,
    Option.bind_some]

/-- The second half of accepting: the entry of the new socket is associated. -/
theorem acceptEntry_ok {idx : Nat} (hos : osSocket ≠ 0)
    (h : r.ioSockets.slotAt idx = .ok (Slot.issued k e osSocket)) :
    ∃ r', registry.run r [.changePoll idx .unsetPollout, .at' idx, .setRefed idx true,
      .setAssociated idx, .changePoll idx .setPollin] = some r' := by
  obtain ⟨t₁, s₁, t₂, t₃, t₄, h₁, hat, h₂, h₃, h₄⟩ := NetSockets.infraAddAccepted_ok hos h
  simp only [Machine.run, registry, Op.run, onTable, h₁, hat, h₂, h₃, h₄, bind, Except.bind,
    Except.map, Except.toOption, Option.bind_some]
  exact ⟨_, rfl⟩

theorem consumeAcceptedSocket_ok (hsound : r.Sound) {s : Nat}
    (hi : r.view.holder i = some (.server s)) (hos : osSocket ≠ 0)
    (hroom : r.ioSockets.slots.length + 1 < NetSockets.maxSize) :
    ∃ r', registry.run r (Program.consumeAcceptedSocket r i s osSocket) = some r' := by
  obtain ⟨t, ht, hslot⟩ :=
    NetSockets.addEntry_ok hsound.framed (.client r.sockets.length) hos hroom
  obtain ⟨r', hr'⟩ : ∃ r', registry.run r (.construct osSocket (some s) ::
      Program.infraAddAccepted r.sockets.length r.ioSockets.freeIndex) = some r' := by
    obtain ⟨r₁, hr₁, rfl⟩ := acceptNew_ok (some s) ht
    obtain ⟨r', hr'⟩ := acceptEntry_ok hos hslot
    refine ⟨r', ?_⟩
    rw [Program.infraAddAccepted]
    exact (registry.run_append r [_, _, _] _).trans (by rw [hr₁]; exact hr')
  -- a pass with nothing ahead
  have hahead : r.ioSockets.Ahead (fun _ => false) 0 0 :=
    ⟨Nat.zero_le _, fun j _ hj => absurd hj (Nat.not_lt_zero j),
      fun j _ _ hj => absurd hj (Nat.not_lt_zero j)⟩
  obtain ⟨hsound', -, hholder⟩ := dispatch_run
    (by simp [Program.infraAddAccepted, Op.ofDispatch]) hr' hsound hahead
  obtain ⟨obj, hobj⟩ := server_of_holder hsound' (hholder i _ hi)
  refine ⟨r', ?_⟩
  rw [Program.consumeAcceptedSocket, registry.run_append, hr']
  simp only [Option.bind_some, Machine.run, registry, Op.run, hobj]
  rfl

end Registry

end NodeCpp
