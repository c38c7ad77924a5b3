import NodeCpp.Lib.Position
import NodeCpp.Loop.Registry

/-!
# What the operations of the registry do to the table

Seen from the table, an operation of the registry is one of the table's own
operations (`Op.tableAct`), or it leaves the entries alone: it changes event bits
and `refed` flags only, or it is `poll` filling in `revents`. `Op.run_table` says
so once for all operations; what the table keeps, the registry keeps.

* `NetSockets.Quiet` -- at most event bits and `refed` flags differ.
* `NetSockets.Framed` -- the reserved slots are there and unused, and `ourSide` is a
  part of the table.
-/

namespace NodeCpp

open Lib

variable {act : TableAct} {idx : Nat} {q : QueueId} {s : Slot}

/-! ## Operations that leave the entries alone -/

/-- A slot without its event bits and its `refed` flag. -/
def Slot.settled (s : Slot) : Slot :=
  { entry := { s.entry with refed := false }
    pfd := { s.pfd with pollin := false, pollout := false } }

namespace NetSockets

/-- At most event bits and `refed` flags differ. -/
structure Quiet (t t' : NetSockets) : Prop where
  slots : t'.slots.map Slot.settled = t.slots.map Slot.settled
  rest : t' = { t with slots := t'.slots }

variable {t t₁ t' : NetSockets}

theorem Quiet.refl (t : NetSockets) : t.Quiet t := ⟨rfl, rfl⟩

theorem Quiet.trans (h : t.Quiet t₁) (h' : t₁.Quiet t') : t.Quiet t' :=
  ⟨h'.slots.trans h.slots, by rw [h'.rest, h.rest]⟩

theorem Quiet.set {i : Nat} {s' : Slot} (hs : t.slots[i]? = some s)
    (hsettled : s'.settled = s.settled) : t.Quiet (t.setSlot i s') := by
  refine ⟨?_, rfl⟩
  rw [setSlot_slots]
  exact map_set_of_eq hs hsettled

theorem Quiet.map_slot (h : t.Quiet t') {β : Type} {g : Slot → β}
    (hg : ∀ s, g s = g s.settled) (k : Nat) :
    (t'.slots[k]?).map g = (t.slots[k]?).map g := by
  have hk : (t'.slots[k]?).map Slot.settled = (t.slots[k]?).map Slot.settled := by
    rw [← List.getElem?_map, ← List.getElem?_map, h.slots]
  have hcomp : g = g ∘ Slot.settled := funext hg
  rw [hcomp, ← Option.map_map, ← Option.map_map, hk]

theorem modifyEvents_quiet {f : Pollfd → Pollfd}
    (hf : ∀ s : Slot, ({ s with pfd := f s.pfd } : Slot).settled = s.settled)
    (h : t.modifyEvents idx f = .ok t') : t.Quiet t' := by
  obtain ⟨s, -, hs, rfl⟩ := modifyEvents_eq_ok h
  exact Quiet.set hs (hf s)

theorem changePoll_quiet {c : PollChange} (h : t.changePoll idx c = .ok t') : t.Quiet t' := by
  cases c <;>
    simp only [changePoll, setPollin, unsetPollin, setPollout, unsetPollout] at h <;>
    exact modifyEvents_quiet (fun _ => rfl) h

theorem setRefed_quiet {refed : Bool} (h : t.setRefed idx refed = .ok t') : t.Quiet t' := by
  obtain ⟨s, -, hs, rfl⟩ := setRefed_eq_ok h
  exact Quiet.set hs rfl

theorem foldlM_changePoll_quiet {cs : List PollChange}
    (h : cs.foldlM (fun t c => t.changePoll idx c) t = .ok t') : t.Quiet t' := by
  induction cs generalizing t with
  | nil =>
    cases h
    exact Quiet.refl _
  | cons c cs ih =>
    rw [List.foldlM_cons] at h
    obtain ⟨t₁, h₁, h⟩ := bind_eq_ok h
    exact (changePoll_quiet h₁).trans (ih h)

/-! ## The reserved slots -/

/-- The reserved slots are there and unused, and `ourSide` is a part of the table. -/
structure Framed (t : NetSockets) : Prop where
  reserved : t.reservedCapacity ≤ t.slots.length
  front : ∀ i s, i < t.reservedCapacity → t.slots[i]? = some s → s.used = false
  base : t.baseSz ≤ t.slots.length

theorem Framed.init (clustering : Bool) : (init clustering).Framed := by
  refine ⟨by cases clustering <;> decide, fun i s _ hs => ?_, by cases clustering <;> decide⟩
  rw [List.eq_of_mem_replicate (List.mem_of_getElem? hs)]
  rfl

theorem Framed.slotAt_of_used (h : t.Framed) {i : Nat} (hs : t.slots[i]? = some s)
    (hused : s.used) : t.slotAt i = .ok s := by
  have hres : ¬i < t.reservedCapacity := by
    intro hlt
    rw [h.front i s hlt hs] at hused
    cases hused
  simp only [slotAt, hres, if_false, hs]

theorem Framed.set (h : t.Framed) {i : Nat} {s' : Slot} (hres : t.reservedCapacity ≤ i)
    (hslots : t'.slots = t.slots.set i s') (hclus : t'.clustering = t.clustering)
    (hbase : t'.baseSz = t.baseSz) : t'.Framed := by
  have hcap : t'.reservedCapacity = t.reservedCapacity := by simp only [reservedCapacity, hclus]
  have hlen : t'.slots.length = t.slots.length := by rw [hslots, List.length_set]
  refine ⟨by rw [hcap, hlen]; exact h.reserved, fun k s hk hs => ?_,
    by rw [hbase, hlen]; exact h.base⟩
  rw [hcap] at hk
  rw [hslots, List.getElem?_set_ne (by omega)] at hs
  exact h.front k s hk hs

theorem Framed.append (h : t.Framed) {s' : Slot} (hslots : t'.slots = t.slots ++ [s'])
    (hclus : t'.clustering = t.clustering) (hbase : t'.baseSz ≤ t.baseSz + 1) : t'.Framed := by
  have hcap : t'.reservedCapacity = t.reservedCapacity := by simp only [reservedCapacity, hclus]
  have hlen : t'.slots.length = t.slots.length + 1 := by rw [hslots, List.length_append]; rfl
  have hres := h.reserved
  have hle := h.base
  refine ⟨by omega, fun k s hk hs => ?_, by omega⟩
  rw [hcap] at hk
  rw [hslots, List.getElem?_append_left (by omega)] at hs
  exact h.front k s hk hs

theorem Framed.compact {kept : List Slot}
    (hslots : t'.slots = (NetSockets.init t'.clustering).slots ++ kept)
    (hbase : t'.baseSz = t'.slots.length) : t'.Framed := by
  have hlen : (NetSockets.init t'.clustering).slots.length = t'.reservedCapacity :=
    List.length_replicate
  refine ⟨by rw [hslots, List.length_append, hlen]; omega, fun k s hk hs => ?_, hbase.le⟩
  rw [hslots, List.getElem?_append_left (by omega)] at hs
  rw [List.eq_of_mem_replicate (List.mem_of_getElem? hs)]
  rfl

theorem Framed.quiet (h : t.Framed) (hq : t.Quiet t') : t'.Framed := by
  have hcap : t'.reservedCapacity = t.reservedCapacity := by rw [hq.rest]; rfl
  have hlen : t'.slots.length = t.slots.length := by
    simpa using congrArg List.length hq.slots
  have hbase : t'.baseSz = t.baseSz := by rw [hq.rest]
  refine ⟨by rw [hcap, hlen]; exact h.reserved, fun k s' hk hs' => ?_,
    by rw [hbase, hlen]; exact h.base⟩
  have hmap := hq.map_slot (g := Slot.used) (fun _ => rfl) k
  rw [hs', Option.map_some] at hmap
  obtain ⟨s, hs, hused⟩ := Option.map_eq_some_iff.mp hmap.symm
  rw [← hused]
  exact h.front k s (hcap ▸ hk) hs

theorem Framed.poll (h : t.Framed) (ready : Nat → Revents) : (t.poll ready).Framed := by
  refine ⟨?_, fun k s' hk hs' => ?_, ?_⟩
  · show t.reservedCapacity ≤ (t.slots.mapIdx _).length
    rw [List.length_mapIdx]
    exact h.reserved
  rotate_left
  · show t.baseSz ≤ (t.slots.mapIdx _).length
    rw [List.length_mapIdx]
    exact h.base
  simp only [NetSockets.poll, List.getElem?_mapIdx, Option.map_eq_some_iff] at hs'
  obtain ⟨s, hs, rfl⟩ := hs'
  have hused := h.front k s hk hs
  split
  · exact hused
  · exact hused

theorem Framed.merge (h : t.Framed) (hmerge : t.mergeAccum = .ok t') : t'.Framed := by
  obtain ⟨b, c, rfl, hb⟩ := mergeAccum_eq_ok hmerge
  exact ⟨h.reserved, h.front, (hb h.base).le⟩

theorem Framed.rework (h : t.Framed) (hrework : t.reworkIfNecessary = .ok t') : t'.Framed := by
  obtain ⟨t₁, hmerge, hcompact⟩ := bind_eq_ok hrework
  obtain ⟨-, rfl⟩ | ⟨-, c', rfl⟩ := makeCompactIfNecessary_eq_ok hcompact
  · exact h.merge hmerge
  · exact Framed.compact rfl rfl

theorem Framed.tableOps (h : t.Framed) {op : TableOp} (hstep : tableOps.step t op = some t') :
    t'.Framed := by
  cases tableOps_cases hstep with
  | writes count hres hs hwrites => exact h.set hres rfl rfl rfl
  | grows e osSocket hbase hroom => exact h.append rfl rfl hbase.2
  | awaker sock => exact ⟨h.reserved, h.front, h.base⟩
  | reworks hrework => exact h.rework hrework

end NetSockets

/-! ## The operations of the registry, seen from the table -/

/-- What happens to the table: one of its own operations, `poll`, or nothing that matters. -/
inductive TableAct
  | op (op : TableOp)
  | poll (ready : Nat → Revents)
  | quiet

def Op.tableAct (r : Registry) : Op → TableAct
  | .construct osSocket _ => .op (.addEntry (.client r.sockets.length) osSocket)
  | .constructServer osSocket _ => .op (.addEntry (.server r.servers.length) osSocket)
  | .destruct e => .op (.setUnused ((r.indexOf e).getD 0))
  | .setAssociated idx => .op (.setAssociated idx)
  | .setSocketClosed idx => .op (.setSocketClosed idx)
  | .resetEntry idx | .endClose idx => .op (.resetEntry idx)
  | .reworkIfNecessary => .op .reworkIfNecessary
  | .beginClose =>
      match (r.queue .close).batch with
      | ev :: _ => .op (.setSocketClosed (r.entry ev.idx).index)
      | [] => .quiet
  | .poll ready => .poll ready
  | _ => .quiet

inductive TableEffect (t : NetSockets) : TableAct → NetSockets → Prop
  | op {op : TableOp} {t' : NetSockets} (h : tableOps.step t op = some t') :
      TableEffect t (.op op) t'
  | poll (ready : Nat → Revents) : TableEffect t (.poll ready) (t.poll ready)
  | quiet {t' : NetSockets} (h : t.Quiet t') : TableEffect t .quiet t'

namespace Registry

variable {r r' : Registry}

theorem onTable_eq_ok {x : Except Failure NetSockets} (h : r.onTable x = .ok r') :
    ∃ t, x = .ok t ∧ r' = { r with ioSockets := t } := by
  obtain ⟨t, ht, h⟩ := bind_eq_ok h
  cases h
  exact ⟨t, ht, rfl⟩

theorem map_const_eq_ok {α : Type} {x : Except Failure α} (h : (x.map fun _ => r) = .ok r') :
    r' = r := by
  cases x with
  | error e => cases h
  | ok a => cases h; rfl

theorem map_const_isOk {α : Type} {x : Except Failure α} (h : (x.map fun _ => r) = .ok r') :
    ∃ a, x = .ok a := by
  cases x with
  | error e => cases h
  | ok a => exact ⟨a, rfl⟩

theorem sockAt_quiet {o : Nat} {obj : SocketObj} {c : SockCall}
    (h : r.sockAt o obj idx c = .ok r') : r.ioSockets.Quiet r'.ioSockets := by
  obtain ⟨u, -, h⟩ := bind_eq_ok h
  obtain ⟨t, ht, h⟩ := bind_eq_ok h
  cases h
  exact NetSockets.foldlM_changePoll_quiet ht

/-- A destructor runs on a live object and frees the slot the object remembers. -/
inductive Destructs (r : Registry) : Emitter → Registry → Prop
  | client {o : Nat} {obj : SocketObj} {t : NetSockets} (hobj : r.liveSocket o = some obj)
      (ht : r.ioSockets.setUnused obj.data.index = .ok t) :
      Destructs r (.client o)
        { r with ioSockets := t, sockets := r.sockets.set o { obj with alive := false } }
  | server {n : Nat} {obj : ServerObj} {t : NetSockets} (hobj : r.liveServer n = some obj)
      (ht : r.ioSockets.setUnused obj.index = .ok t) :
      Destructs r (.server n)
        { r with ioSockets := t, servers := r.servers.set n { obj with alive := false } }

theorem destruct_cases {e : Emitter} (h : r.destruct e = .ok r') : Destructs r e r' := by
  unfold destruct at h
  split at h <;> split at h
  · cases h
  · obtain ⟨t, ht, h⟩ := bind_eq_ok h
    cases h
    exact .client ‹_› ht
  · cases h
  · obtain ⟨t, ht, h⟩ := bind_eq_ok h
    cases h
    exact .server ‹_› ht

theorem destruct_indexOf {e : Emitter} (h : r.destruct e = .ok r') :
    ∃ i, r.indexOf e = some i ∧ r.ioSockets.setUnused i = .ok r'.ioSockets := by
  cases destruct_cases h with
  | client hobj ht | server hobj ht => exact ⟨_, by rw [indexOf, hobj]; rfl, ht⟩

theorem beginClose_eq_ok (h : r.beginClose = .ok r') :
    ∃ ev rest s o obj t, (r.queue .close).batch = ev :: rest ∧ r.current = none ∧
      r.ioSockets.at' ev.idx = .ok s ∧ r.client ev.idx = .ok (o, obj) ∧
      r.ioSockets.setSocketClosed s.entry.index = .ok t ∧
      r' = { r with ioSockets := t
                    accum := r.accum.refer
                    sockets := r.sockets.set o { obj with closes := obj.closes + 1 }
                    queue := Function.update r.queue .close (r.queue .close).take
                    current := some ev } := by
  unfold beginClose at h
  split at h
  · rename_i ev rest hbatch hcurrent
    obtain ⟨s, hs, h⟩ := bind_eq_ok h
    obtain ⟨⟨o, obj⟩, hclient, h⟩ := bind_eq_ok h
    obtain ⟨t, ht, h⟩ := bind_eq_ok h
    cases h
    exact ⟨ev, rest, s, o, obj, t, hbatch, hcurrent, hs, hclient, ht, rfl⟩
  · cases h

theorem beginClose_table (h : r.beginClose = .ok r') :
    ∃ ev rest, (r.queue .close).batch = ev :: rest ∧
      r.ioSockets.setSocketClosed (r.entry ev.idx).index = .ok r'.ioSockets := by
  obtain ⟨ev, rest, s, o, obj, t, hbatch, -, hs, -, ht, rfl⟩ := beginClose_eq_ok h
  obtain ⟨-, hs, -⟩ := NetSockets.at'_eq_ok hs
  refine ⟨ev, rest, hbatch, ?_⟩
  simp only [entry, hs]
  exact ht

theorem reworkIfNecessary_eq_ok (h : r.reworkIfNecessary = .ok r') :
    r.current = none ∧ ∃ t t', r.ioSockets.mergeAccum = .ok t ∧ t.makeCompactIfNecessary = .ok t' ∧
      r' = if t.compacts then { r.updateIndices t' with accum := r.accum.clear }
        else { r with ioSockets := t', accum := r.accum.clear } := by
  unfold reworkIfNecessary at h
  split at h
  · rename_i hcurrent
    obtain ⟨t, ht, h⟩ := bind_eq_ok h
    obtain ⟨t', ht', h⟩ := bind_eq_ok h
    cases h
    exact ⟨hcurrent, t, t', ht, ht', rfl⟩
  · cases h

theorem endPass_eq_ok {f : EventQueue → EventQueue} (h : r.endPass q f = .ok r') :
    (r.queue q).batch = [] ∧ r.current = none ∧
      r' = { r with queue := Function.update r.queue q (f (r.queue q)) } := by
  unfold endPass at h
  split at h
  · rename_i hend
    cases h
    exact ⟨hend.1, hend.2, rfl⟩
  · cases h

theorem clear_eq_ok (h : (Op.clear q).run r = .ok r') :
    (r.queue q).active ∧ (r.queue q).batch = [] ∧ r.current = none ∧
      r' = { r with queue := Function.update r.queue q (r.queue q).clear } := by
  simp only [Op.run] at h
  split at h
  · rename_i hactive
    exact ⟨hactive, endPass_eq_ok h⟩
  · cases h

theorem take_eq_ok (h : (Op.take q).run r = .ok r') :
    ∃ ev rest, (r.queue q).batch = ev :: rest ∧ ¬(q = .close ∧ r.used ev.idx) ∧
      r' = { r with queue := Function.update r.queue q (r.queue q).take } := by
  simp only [Op.run, take] at h
  split at h
  · cases h
  rename_i ev rest hbatch
  split at h
  · cases h
  · rename_i hunused
    cases h
    exact ⟨ev, rest, hbatch, hunused, rfl⟩

theorem reworkIfNecessary_table (h : r.reworkIfNecessary = .ok r') :
    r.ioSockets.reworkIfNecessary = .ok r'.ioSockets := by
  obtain ⟨-, t, t', ht, ht', rfl⟩ := reworkIfNecessary_eq_ok h
  have hrework : r.ioSockets.reworkIfNecessary = .ok t' := by
    simp only [NetSockets.reworkIfNecessary, ht]
    exact ht'
  rw [hrework]
  split <;> rfl

end Registry

open Registry in
/-- Every operation of the registry has the effect on the table that `tableAct` names. -/
theorem Op.run_table {r r' : Registry} {op : Op} (h : op.run r = .ok r') :
    TableEffect r.ioSockets (op.tableAct r) r'.ioSockets := by
  have hop : ∀ {top : TableOp} {x : Except Failure NetSockets},
      tableOps.step r.ioSockets top = x.toOption → x = .ok r'.ioSockets →
        TableEffect r.ioSockets (.op top) r'.ioSockets := by
    rintro top x hstep rfl
    exact .op hstep
  have hsame : r'.ioSockets = r.ioSockets → TableEffect r.ioSockets .quiet r'.ioSockets := by
    intro heq
    rw [heq]
    exact .quiet (.refl _)
  cases op with
  -- the operations of the table itself
  | construct osSocket owner =>
    obtain ⟨t, ht, h⟩ := bind_eq_ok h
    cases h
    exact hop rfl ht
  | constructServer osSocket cnt =>
    obtain ⟨t, ht, h⟩ := bind_eq_ok h
    cases h
    exact hop rfl ht
  | destruct e =>
    obtain ⟨i, hi, ht⟩ := destruct_indexOf h
    exact hop rfl (by rwa [hi])
  | setAssociated idx | setSocketClosed idx | resetEntry idx =>
    obtain ⟨t, ht, rfl⟩ := onTable_eq_ok h
    exact hop rfl ht
  -- a flag of one entry: no slot changes hands
  | changePoll idx c =>
    obtain ⟨t, ht, rfl⟩ := onTable_eq_ok h
    exact .quiet (NetSockets.changePoll_quiet ht)
  | setRefed idx refed =>
    obtain ⟨t, ht, rfl⟩ := onTable_eq_ok h
    exact .quiet (NetSockets.setRefed_quiet ht)
  | poll ready =>
    cases h
    exact .poll ready
  | reworkIfNecessary => exact hop rfl (reworkIfNecessary_table h)
  -- a check: the table is as it was
  | check holds =>
    simp only [run] at h
    split at h
    · cases h
      exact hsame rfl
    · cases h
  | at' idx | client i | server i =>
    rw [map_const_eq_ok h]
    exact .quiet (.refl _)
  -- the data of the socket, and the poll flags of its entry
  | sock o c =>
    simp only [run, Registry.sock] at h
    split at h
    · cases h
    · exact .quiet (sockAt_quiet h)
  | entrySock i c =>
    obtain ⟨⟨o, obj⟩, -, h⟩ := bind_eq_ok h
    exact .quiet (sockAt_quiet h)
  | serverState s state =>
    simp only [run, Registry.serverState] at h
    split at h
    · cases h
    · cases h
      exact hsame rfl
  | listening i =>
    obtain ⟨s, -, h⟩ := bind_eq_ok h
    obtain ⟨⟨n, obj⟩, -, h⟩ := bind_eq_ok h
    cases h
    exact hsame rfl
  | queue q hq e =>
    simp only [run, Registry.queueEvent] at h
    split at h
    · cases h
    · cases h
      exact hsame rfl
  | queueServerError i =>
    simp only [run, Registry.queueServerError] at h
    split at h
    · cases h
    · cases h
      exact hsame rfl
  | start q =>
    cases h
    exact hsame rfl
  | clear q =>
    obtain ⟨-, -, -, rfl⟩ := clear_eq_ok h
    exact hsame rfl
  | finish q =>
    obtain ⟨-, -, rfl⟩ := endPass_eq_ok h
    exact hsame rfl
  | take q =>
    obtain ⟨ev, rest, -, -, rfl⟩ := take_eq_ok h
    exact hsame rfl
  -- the two halves of a close event are operations of the table again
  | beginClose =>
    obtain ⟨ev, rest, hbatch, ht⟩ := beginClose_table h
    simp only [tableAct, hbatch]
    exact hop rfl ht
  | endClose i =>
    simp only [run, Registry.endClose] at h
    split at h
    · obtain ⟨t, ht, h⟩ := bind_eq_ok h
      cases h
      exact hop rfl ht
    · cases h

theorem NetSockets.Framed.effect {t t' : NetSockets} (h : t.Framed)
    (heffect : TableEffect t act t') : t'.Framed := by
  cases heffect with
  | op hstep => exact h.tableOps hstep
  | poll ready => exact h.poll ready
  | quiet hq => exact h.quiet hq

/-! ## What a slot can become -/

/-- A slot after a step of the table: one that was there, with its state, emitter and descriptor,
an unused one, or the one the operation is about. -/
inductive SlotStep (t : NetSockets) (i : Nat) (s' : Slot) : TableAct → Prop
  | same {act : TableAct} {j : Nat} {s : Slot} (hs : t.slots[j]? = some s)
      (hstate : s'.entry.state = s.entry.state) (hemitter : s'.entry.emitter = s.entry.emitter)
      (hfd : s'.pfd.fd = s.pfd.fd) : SlotStep t i s' act
  | unused {act : TableAct} (hunused : s'.used = false) : SlotStep t i s' act
  | issued {e : Emitter} {osSocket : Nat} (hnew : s' = Slot.issued i e osSocket) :
      SlotStep t i s' (.op (.addEntry e osSocket))
  | associated (hassociated : s'.associated) (hfd : 0 < s'.pfd.fd) :
      SlotStep t i s' (.op (.setAssociated i))
  | closed (hclosed : s'.entry.state = .SockClosed) (hfd : s'.pfd.fd = invalidSocket) :
      SlotStep t i s' (.op (.setSocketClosed i))

section

open NetSockets

variable {t t' : NetSockets} {i : Nat} {s' : Slot}

theorem SlotStep.refl (act : TableAct) (hs : t.slots[i]? = some s') : SlotStep t i s' act :=
  .same hs rfl rfl rfl

theorem SlotStep.of_set {j : Nat} (hslots : t'.slots = t.slots.set j s)
    (hs' : t'.slots[i]? = some s') (hset : j = i → s = s' → SlotStep t i s' act) :
    SlotStep t i s' act := by
  rw [hslots, List.getElem?_set] at hs'
  split at hs'
  · rename_i hji
    split at hs'
    · exact hset hji (Option.some.inj hs')
    · cases hs'
  · exact .refl act hs'

theorem SlotStep.rework (h : t.reworkIfNecessary = .ok t') (hs' : t'.slots[i]? = some s') :
    SlotStep t i s' (.op .reworkIfNecessary) := by
  obtain ⟨t₁, hmerge, hcompact⟩ := bind_eq_ok h
  obtain ⟨b, c, rfl, -⟩ := mergeAccum_eq_ok hmerge
  obtain ⟨-, rfl⟩ | ⟨-, c', rfl⟩ := makeCompactIfNecessary_eq_ok hcompact
  · exact .refl _ hs'
  · rcases List.mem_append.mp (List.mem_of_getElem? hs') with hinit | hkept
    · rw [List.eq_of_mem_replicate hinit]
      exact .unused rfl
    · obtain ⟨⟨s, j⟩, hmem, rfl⟩ := List.mem_map.mp hkept
      have hin := (List.mem_filter.mp (List.fst_mem_of_mem_zipIdx hmem)).1
      obtain ⟨m, hm⟩ := List.mem_iff_getElem?.mp (List.mem_of_mem_drop hin)
      exact .same hm rfl rfl rfl

theorem TableEffect.slot (h : TableEffect t act t') (hs' : t'.slots[i]? = some s') :
    SlotStep t i s' act := by
  cases h with
  | poll ready =>
    simp only [NetSockets.poll, List.getElem?_mapIdx, Option.map_eq_some_iff] at hs'
    obtain ⟨s, hs, rfl⟩ := hs'
    split <;> exact .same hs rfl rfl rfl
  | quiet hq =>
    have hmap := hq.map_slot (g := fun s => (s.entry.state, s.entry.emitter, s.pfd.fd))
      (fun _ => rfl) i
    rw [hs', Option.map_some] at hmap
    obtain ⟨s, hs, heq⟩ := Option.map_eq_some_iff.mp hmap.symm
    simp only [Prod.mk.injEq] at heq
    exact .same hs heq.1.symm heq.2.1.symm heq.2.2.symm
  | op hstep =>
    cases tableOps_cases hstep with
    | writes count hres hs hwrites =>
      refine .of_set rfl hs' ?_
      rintro rfl rfl
      cases hwrites with
      | issued e osSocket => exact .issued rfl
      | associated hissued hfd => exact .associated rfl hfd
      | closed => exact .closed rfl rfl
      | freed | reset => exact .unused rfl
    | grows e osSocket hbase hroom =>
      rcases eq_or_ne i t.slots.length with rfl | hi
      · rw [List.getElem?_concat_length] at hs'
        exact .issued (Option.some.inj hs').symm
      · rw [getElem?_concat_of_ne hi] at hs'
        exact .refl _ hs'
    | awaker sock => exact .refl _ hs'
    | reworks hrework => exact .rework hrework hs'

end

end NodeCpp
