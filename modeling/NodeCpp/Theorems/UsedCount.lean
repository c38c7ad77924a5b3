import Mathlib.Data.Finset.Card
import NodeCpp.Loop.Runs

/-!
# usedCount

`addEntry` and `setUnused` are the only operations that adjust `usedCount`, and they
belong to the constructors and the destructors: in every run `usedCount` is the
number of live objects, and one more with an installed awaker socket
(`Registry.Counted`). The entries that are used are another matter, as the end of a
close event resets an entry and leaves the counter alone.
-/

namespace NodeCpp

open Lib

/-! ## Live objects come and go with the constructors and destructors -/

/-- The objects a step brings, and those it takes away. -/
def ViewOp.births : ViewOp → Nat
  | .issue .. => 1
  | _ => 0

def ViewOp.deaths : ViewOp → Nat
  | .release .. => 1
  | _ => 0

namespace View

variable {v v' : View}

def Live (v : View) (live : Finset Emitter) : Prop := ∀ e, e ∈ live ↔ v.index e ≠ none

theorem Renumbered.index_eq_none (hc : v.Consistent) (h : v.Renumbered v') (e : Emitter) :
    v'.index e = none ↔ v.index e = none := by
  by_cases hheld : ∃ i s, v.slot i = some s ∧ s.used ∧ s.emitter = some e
  · obtain ⟨i, s, hs, hused, he⟩ := hheld
    have hindex := hc.index_of_holder (holder_eq_some.mpr ⟨s, hs, hused, he⟩)
    obtain ⟨j, hj⟩ := h.kept i s hs hused
    rw [h.told j _ e hj hused he (by simp [hindex]), hindex]
    simp
  · rw [h.untold e fun i s hs hused he => hheld ⟨i, s, hs, hused, he⟩]

theorem Step.live (hc : v.Consistent) {op : ViewOp} (hstep : v.Step op v') {live : Finset Emitter}
    (hlive : v.Live live) :
    ∃ live', v'.Live live' ∧ live'.card + op.deaths = live.card + op.births := by
  cases hstep with
  | @issue e i hfresh hstate hcloses hfree =>
    -- an object that was not known is not among the live ones
    have hnew : e ∉ live := by
      intro hmem
      obtain ⟨j, hj⟩ := Option.ne_none_iff_exists'.mp ((hlive e).mp hmem)
      rw [hc.live_known e j hj] at hfresh
      cases hfresh
    refine ⟨insert e live, fun e' => ?_, Finset.card_insert_of_notMem hnew⟩
    show e' ∈ insert e live ↔ Function.update v.index e (some i) e' ≠ none
    rw [Finset.mem_insert, hlive e', Function.update_apply]
    split <;> simp_all
  | @release e i s hindex hslot =>
    have hmem : e ∈ live := (hlive e).mpr (by simp [hindex])
    refine ⟨live.erase e, fun e' => ?_, Finset.card_erase_add_one hmem⟩
    show e' ∈ live.erase e ↔ Function.update v.index e none e' ≠ none
    rw [Finset.mem_erase, hlive e', Function.update_apply]
    split <;> simp_all
  | @reindex e i s hslot hused hemitter =>
    -- the object remembers that index already
    have hindex := hc.index_of_holder (holder_eq_some.mpr ⟨s, hslot, hused, hemitter⟩)
    refine ⟨live, fun e' => ?_, rfl⟩
    rw [setIndex_self hindex]
    exact hlive e'
  | renumber hcurrent hrenum =>
    exact ⟨live, fun e => (hlive e).trans (not_congr (hrenum.index_eq_none hc e)).symm, rfl⟩
  | _ => exact ⟨live, hlive, rfl⟩

end View

/-! ## The counter follows them -/

namespace TableAct

/-- What is added to `usedCount`, and what is taken from it. -/
def births : TableAct → Nat
  | .op (.addEntry ..) => 1
  | _ => 0

def deaths : TableAct → Nat
  | .op (.setUnused _) => 1
  | _ => 0

end TableAct

theorem Op.births_eq (r : Registry) (op : Op) : (op.abs r).births = (op.tableAct r).births ∧
    (op.abs r).deaths = (op.tableAct r).deaths := by
  cases op with
  | reworkIfNecessary | sock o c | entrySock i c | listening i | queueServerError i =>
    simp only [abs, tableAct]
    split <;> exact ⟨rfl, rfl⟩
  | beginClose =>
    cases hbatch : (r.queue .close).batch with
    | nil => simp only [abs, tableAct, hbatch]; exact ⟨rfl, rfl⟩
    | cons ev rest =>
      simp only [abs, tableAct, hbatch]
      split <;> exact ⟨rfl, rfl⟩
  | _ => exact ⟨rfl, rfl⟩

theorem Op.tableAct_ne_setAwakerSocket (r : Registry) (op : Op) (sock : Nat) :
    op.tableAct r ≠ .op (.setAwakerSocket sock) := by
  cases op with
  | beginClose =>
    simp only [tableAct]
    split <;> simp
  | _ => simp [tableAct]

namespace NetSockets

variable {t t' : NetSockets}

structure Tallied (t : NetSockets) (act : TableAct) (t' : NetSockets) : Prop where
  count : t'.usedCount + UInt64.ofNat act.deaths = t.usedCount + UInt64.ofNat act.births
  awakers : t'.awakers = t.awakers
  bound : t.slots.length < maxSize → t'.slots.length < maxSize

theorem Tallied.rework (h : t.reworkIfNecessary = .ok t') (hframed : t.Framed) :
    t.Tallied (.op .reworkIfNecessary) t' := by
  obtain ⟨t₁, hmerge, hcompact⟩ := bind_eq_ok h
  obtain ⟨b, c, rfl, -⟩ := mergeAccum_eq_ok hmerge
  obtain ⟨-, rfl⟩ | ⟨-, c', rfl⟩ := makeCompactIfNecessary_eq_ok hcompact
  · exact ⟨rfl, rfl, fun h => h⟩
  · refine ⟨rfl, rfl, fun hlt => lt_of_le_of_lt ?_ hlt⟩
    have hlen : (init t.clustering).slots.length = t.reservedCapacity := List.length_replicate
    have hkept := List.length_filter_le Slot.used (t.slots.drop t.reservedCapacity)
    have hres := hframed.reserved
    rw [List.length_drop] at hkept
    simp only [compactSlots, List.length_append, List.length_map, List.length_zipIdx, hlen]
    change _ + (List.filter Slot.used (t.slots.drop t.reservedCapacity)).length ≤ _
    omega

theorem TableEffect.tallied {act : TableAct} (hframed : t.Framed) (h : TableEffect t act t')
    (hact : ∀ sock, act ≠ .op (.setAwakerSocket sock)) : t.Tallied act t' := by
  cases h with
  | poll ready => exact ⟨rfl, rfl, fun h => by rwa [NetSockets.poll, List.length_mapIdx]⟩
  | quiet hq =>
    refine ⟨?_, ?_, fun h => ?_⟩
    · rw [hq.rest]; rfl
    · rw [hq.rest]; rfl
    · rwa [show t'.slots.length = t.slots.length by
        simpa using congrArg List.length hq.slots]
  | op hstep =>
    cases tableOps_cases hstep with
    | writes count hres hs hwrites =>
      refine ⟨?_, rfl, fun h => List.length_set.symm ▸ h⟩
      cases hwrites <;> simp [TableOp.tally, TableAct.births, TableAct.deaths]
    | grows e osSocket hbase hroom =>
      exact ⟨by simp [TableAct.births, TableAct.deaths], rfl, fun _ => by simpa using hroom⟩
    | awaker sock => exact absurd rfl (hact sock)
    | reworks hrework => exact .rework hrework hframed

end NetSockets

/-- `usedCount` counts the live objects. -/
structure Registry.Counted (r : Registry) : Prop where
  sound : r.Sound
  count : ∃ live, r.view.Live live ∧
    r.ioSockets.usedCount = UInt64.ofNat (live.card + r.ioSockets.awakers)
  bound : r.ioSockets.slots.length < NetSockets.maxSize

namespace Registry

/-- The registry at the start of a build with or without clustering; the former may have its awaker
socket installed. -/
def booted (clustering : Bool) (awaker : Option Nat) : Registry where
  ioSockets :=
    match clustering, awaker with
    | true, some sock => (NetSockets.init true).setAwakerSocket sock
    | _, _ => .init clustering

theorem booted_slots (clustering : Bool) (awaker : Option Nat) :
    (booted clustering awaker).ioSockets.slots = (NetSockets.init clustering).slots := by
  cases clustering <;> cases awaker <;> rfl

theorem Sound.booted (clustering : Bool) (awaker : Option Nat) :
    (booted clustering awaker).Sound := by
  have hblank : ∀ {i : Nat} {s : SlotView}, (Registry.booted clustering awaker).view.slot i = some s →
      s.used = false ∧ s.emitter = none := by
    intro i s hs
    obtain ⟨t, ht, rfl⟩ := view_slot_eq_some hs
    rw [booted_slots] at ht
    rw [List.eq_of_mem_replicate (List.mem_of_getElem? ht)]
    exact ⟨rfl, rfl⟩
  refine ⟨⟨?_, ?_, ?_, ?_⟩, ?_⟩
  · intro i s hs hused
    rw [(hblank hs).1] at hused
    cases hused
  · intro i s e j hs he
    rw [(hblank hs).2] at he
    cases he
  · intro i s e hs he
    rw [(hblank hs).2] at he
    cases he
  · intro e j hj
    cases e <;> cases hj
  · have hinit := NetSockets.Framed.init clustering
    cases clustering with
    | false => exact hinit
    | true => cases awaker <;> exact ⟨hinit.reserved, hinit.front, hinit.base⟩

theorem Counted.booted (clustering : Bool) (awaker : Option Nat) :
    (booted clustering awaker).Counted := by
  refine ⟨.booted clustering awaker, ⟨∅, ?_, ?_⟩, ?_⟩
  · intro e
    cases e <;> simp [view, Registry.booted, indexOf, liveSocket, liveServer]
  · cases clustering with
    | false => rfl
    | true =>
      cases awaker with
      | none => rfl
      | some sock =>
        have hsock : (sock : Int) ≠ invalidSocket := by unfold invalidSocket; omega
        simp [Registry.booted, NetSockets.setAwakerSocket, NetSockets.awakers, NetSockets.init,
          hsock]
  · rw [booted_slots]
    cases clustering <;> decide

/-- The step lemma of the counter. -/
theorem Counted.step {r r' : Registry} {op : Op} (h : r.Counted)
    (hstep : registry.step r op = some r') : r'.Counted := by
  have hrun := toOption_eq_some hstep
  obtain ⟨live, hlive, hcount⟩ := h.count
  obtain ⟨live', hlive', hcard⟩ := (op.run_step h.sound hrun).live h.sound.consistent hlive
  have htally := NetSockets.TableEffect.tallied h.sound.framed (op.run_table hrun)
    (op.tableAct_ne_setAwakerSocket r)
  -- births and deaths of the view are what the table has counted
  refine ⟨h.sound.step hstep, ⟨live', hlive', ?_⟩, htally.bound h.bound⟩
  obtain ⟨hbirths, hdeaths⟩ := op.births_eq r
  have hsum := htally.count
  rw [hcount, ← hbirths, ← hdeaths, ← UInt64.ofNat_add] at hsum
  refine (UInt64.add_left_inj (UInt64.ofNat (op.abs r).deaths)).mp ?_
  rw [hsum, htally.awakers, ← UInt64.ofNat_add]
  congr 1
  omega

end Registry

theorem Loop.counted {clustering : Bool} {awaker : Option Nat} {acts : List Action}
    {w : Ctl × Registry} (hrun : Loop.run ({}, .booted clustering awaker) acts = some w) :
    w.2.Counted :=
  runStandardLoop.base_kept (J := Registry.Counted) (fun _ _ _ hJ h => hJ.step h)
    (.booted clustering awaker) hrun

/-! ## Where every live object holds its slot -/

namespace Registry

def AllHeld (r : Registry) : Prop :=
  (∀ o < r.sockets.length, ∀ i ∈ r.indexOf (.client o), r.view.holder i = some (.client o)) ∧
    ∀ s < r.servers.length, ∀ i ∈ r.indexOf (.server s), r.view.holder i = some (.server s)

instance (r : Registry) : Decidable r.AllHeld :=
  inferInstanceAs (Decidable ((∀ o < _, ∀ i ∈ _, _) ∧ ∀ s < _, ∀ i ∈ _, _))

variable {r : Registry}

theorem AllHeld.holder (h : r.AllHeld) (hc : r.view.Consistent) {e : Emitter} {i : Nat}
    (hi : r.view.index e = some i) : r.view.holder i = some e := by
  have hknown := hc.live_known e i hi
  cases e with
  | client o => exact h.1 o (by simpa [view] using hknown) i hi
  | server s => exact h.2 s (by simpa [view] using hknown) i hi

end Registry

namespace NetSockets

def usedEntries (t : NetSockets) : Nat := t.slots.countP Slot.used

theorem awakers_le_one (t : NetSockets) : t.awakers ≤ 1 := by
  unfold awakers
  split <;> decide

theorem usedEntries_le_length (t : NetSockets) : t.usedEntries ≤ t.slots.length :=
  List.countP_le_length

def usedIndices (t : NetSockets) : Finset Nat :=
  (Finset.range t.slots.length).filter fun i => (t.slots[i]?).any Slot.used

theorem card_usedIndices (t : NetSockets) : t.usedIndices.card = t.usedEntries := by
  have hcount := Lib.countP_take (p := Slot.used) t.slots t.slots.length
  rw [List.take_length] at hcount
  rw [usedEntries, hcount, Lib.below, ← List.toFinset_card_of_nodup (List.nodup_range.filter _)]
  congr 1
  ext i
  simp [usedIndices]

theorem mem_usedIndices {t : NetSockets} {i : Nat} :
    i ∈ t.usedIndices ↔ ∃ s, t.slots[i]? = some s ∧ s.used := by
  simp only [usedIndices, Finset.mem_filter, Finset.mem_range, Option.any_eq_true]
  refine ⟨fun h => h.2, fun ⟨s, hs, hused⟩ => ⟨?_, s, hs, hused⟩⟩
  exact (List.getElem?_eq_some_iff.mp hs).1

/-- The compaction counts the used entries. -/
theorem Framed.length_compactSlots {t : NetSockets} (h : t.Framed) :
    t.compactSlots.length = t.usedEntries := by
  -- the reserved slots are not used
  have hfront : (t.slots.take t.reservedCapacity).countP Slot.used = 0 := by
    refine List.countP_eq_zero.mpr fun s hs => ?_
    obtain ⟨i, hi⟩ := List.mem_iff_getElem?.mp hs
    rw [List.getElem?_take] at hi
    split at hi
    · rename_i hlt
      simp [h.front i s hlt hi]
    · cases hi
  rw [usedEntries, ← List.take_append_drop t.reservedCapacity t.slots, List.countP_append, hfront,
    Nat.zero_add, List.countP_eq_length_filter]
  simp [compactSlots]

end NetSockets

theorem Registry.AllHeld.card {r : Registry} (h : r.AllHeld) (hc : r.view.Consistent)
    {live : Finset Emitter} (hlive : r.view.Live live) : live.card = r.ioSockets.usedEntries := by
  rw [← NetSockets.card_usedIndices]
  have hheld : ∀ e ∈ live, ∃ i, r.view.index e = some i ∧ r.view.holder i = some e := by
    intro e he
    obtain ⟨i, hi⟩ := Option.ne_none_iff_exists'.mp ((hlive e).mp he)
    exact ⟨i, hi, h.holder hc hi⟩
  -- the bijection takes an object to the index it remembers
  refine Finset.card_bij (fun e _ => (r.view.index e).getD 0) ?_ ?_ ?_
  · intro e he
    obtain ⟨i, hi, hholder⟩ := hheld e he
    obtain ⟨s, hs, hused, -⟩ := View.holder_eq_some.mp hholder
    obtain ⟨t, ht, rfl⟩ := view_slot_eq_some hs
    rw [hi]
    exact NetSockets.mem_usedIndices.mpr ⟨t, ht, hused⟩
  · -- a slot has one holder
    intro e₁ he₁ e₂ he₂ heq
    obtain ⟨i, hi, hholder₁⟩ := hheld e₁ he₁
    obtain ⟨j, hj, hholder₂⟩ := hheld e₂ he₂
    rw [hi, hj] at heq
    cases (show i = j from heq)
    exact Option.some.inj (hholder₁.symm.trans hholder₂)
  · intro i hi
    obtain ⟨s, hs, hused⟩ := NetSockets.mem_usedIndices.mp hi
    obtain ⟨-, e, -, hindex⟩ := hc.used i _ (view_slot hs) hused
    exact ⟨e, (hlive e).mpr (by simp [hindex]), by rw [hindex]; rfl⟩

/-- In every state in which every live object holds its slot, `usedCount` is the number of used
entries, and one more with an installed awaker socket, and the compaction finds that number. -/
theorem usedCount_exact {clustering : Bool} {awaker : Option Nat} {acts : List Action}
    {w : Ctl × Registry} (hrun : Loop.run ({}, .booted clustering awaker) acts = some w)
    (hheld : w.2.AllHeld) :
    w.2.ioSockets.usedCount.toNat = w.2.ioSockets.usedEntries + w.2.ioSockets.awakers ∧
      ∀ t, w.2.ioSockets.mergeAccum = .ok t → ∃ t', t.makeCompactIfNecessary = .ok t' := by
  have hcounted := Loop.counted hrun
  obtain ⟨live, hlive, hcount⟩ := hcounted.count
  rw [hheld.card hcounted.sound.consistent hlive] at hcount
  refine ⟨?_, fun t hmerge => ?_⟩
  · -- the count is far below 2 ^ 64
    have hle := w.2.ioSockets.usedEntries_le_length
    have hlt := hcounted.bound
    have haw := w.2.ioSockets.awakers_le_one
    rw [hcount, UInt64.toNat_ofNat', Nat.mod_eq_of_lt]
    simp only [NetSockets.maxSize] at hlt
    omega
  · -- the merge moves no slot, so the compaction counts the used entries of the table
    have hkept := (hcounted.sound.framed.merge hmerge).length_compactSlots
    obtain ⟨b, c, rfl, -⟩ := NetSockets.mergeAccum_eq_ok hmerge
    cases hcompacts : NetSockets.compacts { w.2.ioSockets with baseSz := b, capacity := c } with
    | false =>
      refine ⟨{ w.2.ioSockets with baseSz := b, capacity := c }, ?_⟩
      simp only [NetSockets.makeCompactIfNecessary, hcompacts, Bool.not_false, if_true]
    | true =>
      rw [NetSockets.makeCompactIfNecessary_compacts hcompacts, hkept]
      exact ⟨_, if_neg (not_not.mpr hcount.symm)⟩

/-- A connection is accepted, closed by its handler and destructed behind its close event, up to the
end of the iteration. -/
def acceptedAndClosed : List Action :=
  [Action.call (.createServer 5 0), .call (.listen 0), .ret, .infra {}, .infra {}, .ret, .infra {},
    .infra {}, .infra {}, .infra { ready := fun i => if i = 2 then { pollin := true } else {} },
    .infra { accepted := some 7 }, .call (.sock 0 .destroy), .ret, .infra {}, .ret, .infra {},
    .infra {}, .infra {}, .infra {}, .ret, .infra {}, .ret, .infra {}, .ret] ++
  List.replicate 5 (Action.infra {})

theorem usedCount_exact_accepted :
    ∃ w, Loop.run ({}, .booted true (some 9)) acceptedAndClosed = some w ∧
      w.1.phase = .reworkIfNecessary ∧ w.2.ioSockets.usedCount.toNat = 1 + 1 ∧
      ∀ t, w.2.ioSockets.mergeAccum = .ok t → ∃ t', t.makeCompactIfNecessary = .ok t' := by
  obtain ⟨w, hw, hphase, hheld, hused, haw⟩ :
      ∃ w, Loop.run ({}, .booted true (some 9)) acceptedAndClosed = some w ∧
        w.1.phase = .reworkIfNecessary ∧ w.2.AllHeld ∧ w.2.ioSockets.usedEntries = 1 ∧
        w.2.ioSockets.awakers = 1 := by decide +kernel
  obtain ⟨hcount, hcompact⟩ := usedCount_exact hw hheld
  exact ⟨w, hw, hphase, by rw [hcount, hused, haw], hcompact⟩

/-- A client socket is destroyed, and its object is still there behind its close event: at the end
of the iteration `usedCount` is 1, and no entry is used. -/
theorem usedCount_stale :
    ∃ w, Loop.run Loop.init ([.call (.createSocket 5), .call (.connect 0),
        .call (.sock 0 .destroy), .ret] ++ List.replicate 7 (.infra {}) ++
        [.ret, .infra {}, .ret, .infra {}, .ret] ++ List.replicate 4 (.infra {})) = some w ∧
      w.1.phase = .reworkIfNecessary ∧ w.1.aborted = false ∧
      w.2.ioSockets.usedCount.toNat = 1 ∧
      w.2.ioSockets.usedEntries + w.2.ioSockets.awakers = 0 := by
  decide +kernel

end NodeCpp
