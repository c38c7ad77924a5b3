import NodeCpp.Loop.Abstraction

/-!
# Compaction

`makeCompactIfNecessary` moves the used slots together, and `updateIndex` tells the
objects where they are now. Because no object holds two slots, each of them is told
the index of its own slot (`updateIndices_renumbered`).
-/

namespace NodeCpp

variable {e : Emitter} {j : Nat} {s : Slot}

def Slot.atIndex (s : Slot) (j : Nat) : Slot := { s with entry := { s.entry with index := j } }

namespace NetSockets

variable {t t' : NetSockets}

def compacted (t : NetSockets) : NetSockets :=
  let slots := (init t.clustering).slots ++ t.compactSlots
  { t with slots := slots
           baseSz := slots.length
           capacity := growTo slots.length slots.length (init t.clustering).capacity }

theorem makeCompactIfNecessary_compacts (h : t.compacts) :
    t.makeCompactIfNecessary =
      if UInt64.ofNat (t.compactSlots.length + t.awakers) ≠ t.usedCount then .error .assertion
      else .ok t.compacted := by
  simp only [makeCompactIfNecessary, h, Bool.not_true, Bool.false_eq_true, if_false]
  rfl

/-- The used slots behind the reserved ones: what the compaction keeps. -/
def keptSlots (t : NetSockets) : List Slot :=
  (t.slots.drop t.reservedCapacity).filter Slot.used

theorem compactSlots_getElem? (t : NetSockets) (k : Nat) :
    t.compactSlots[k]? = (t.keptSlots[k]?).map fun s => s.atIndex (t.reservedCapacity + k) := by
  simp only [compactSlots, keptSlots, List.getElem?_map, List.getElem?_zipIdx, Option.map_map]
  rfl

theorem mem_keptSlots (h : s ∈ t.keptSlots) : ∃ i : Nat, t.slots[i]? = some s ∧ s.used := by
  obtain ⟨hmem, hused⟩ := List.mem_filter.mp h
  obtain ⟨k, hk⟩ := List.mem_iff_getElem?.mp hmem
  rw [List.getElem?_drop] at hk
  exact ⟨_, hk, hused⟩

theorem Framed.mem_keptSlots (h : t.Framed) {i : Nat} (hs : t.slots[i]? = some s) (hused : s.used) :
    s ∈ t.keptSlots := by
  have hi : t.reservedCapacity ≤ i := by
    refine Nat.not_lt.mp fun hlt => ?_
    rw [h.front i s hlt hs] at hused
    cases hused
  refine List.mem_filter.mpr ⟨List.mem_iff_getElem?.mpr ⟨i - t.reservedCapacity, ?_⟩, hused⟩
  rw [List.getElem?_drop, Nat.add_sub_cancel' hi]
  exact hs

/-- A slot of the compacted table is a blank reserved one or a kept one at its new place. -/
theorem compacted_slot (hslots : t'.slots = (init t.clustering).slots ++ t.compactSlots)
    {s' : Slot} (h : t'.slots[j]? = some s') :
    s' = {} ∨ (t.reservedCapacity ≤ j ∧
      ∃ s, t.keptSlots[j - t.reservedCapacity]? = some s ∧ s' = s.atIndex j) := by
  have hlen : (init t.clustering).slots.length = t.reservedCapacity := List.length_replicate
  rw [hslots] at h
  by_cases hj : j < t.reservedCapacity
  · rw [List.getElem?_append_left (by omega)] at h
    exact .inl (List.eq_of_mem_replicate (List.mem_of_getElem? h))
  · rw [List.getElem?_append_right (by omega), hlen, compactSlots_getElem?] at h
    obtain ⟨s, hs, rfl⟩ := Option.map_eq_some_iff.mp h
    refine .inr ⟨by omega, s, hs, ?_⟩
    rw [Nat.add_sub_cancel' (by omega)]

theorem kept_slot (hslots : t'.slots = (init t.clustering).slots ++ t.compactSlots)
    (h : s ∈ t.keptSlots) : ∃ j : Nat, t'.slots[j]? = some (s.atIndex j) := by
  have hlen : (init t.clustering).slots.length = t.reservedCapacity := List.length_replicate
  obtain ⟨k, hk⟩ := List.mem_iff_getElem?.mp h
  refine ⟨t.reservedCapacity + k, ?_⟩
  rw [hslots, List.getElem?_append_right (by omega), hlen, Nat.add_sub_cancel_left,
    compactSlots_getElem?, hk]
  rfl

end NetSockets

namespace Registry

variable {r : Registry} {t t' : NetSockets}

theorem kept_unique (hc : r.view.Consistent) {i : Nat} {s₁ s₂ : Slot}
    (h₁ : r.ioSockets.keptSlots[i]? = some s₁) (h₂ : r.ioSockets.keptSlots[j]? = some s₂)
    (he₁ : s₁.entry.emitter = some e) (he₂ : s₂.entry.emitter = some e) : i = j := by
  have hindex : ∀ k s, (r.ioSockets.slots.drop r.ioSockets.reservedCapacity)[k]? = some s →
      s.used → s.entry.index = r.ioSockets.reservedCapacity + k := by
    intro k s hk hused
    rw [List.getElem?_drop] at hk
    exact (hc.used _ _ (view_slot hk) hused).1
  have hlive : ∀ {s : Slot}, s ∈ r.ioSockets.keptSlots → s.entry.emitter = some e →
      r.view.index e = some s.entry.index := by
    intro s hmem he
    obtain ⟨k, hk, hused⟩ := NetSockets.mem_keptSlots hmem
    obtain ⟨hi, e', he', hlive⟩ := hc.used k _ (view_slot hk) hused
    cases he'.symm.trans he
    rw [hlive, ← hi]
    rfl
  have hsame := (hlive (List.mem_of_getElem? h₁) he₁).symm.trans
    (hlive (List.mem_of_getElem? h₂) he₂)
  exact Lib.filter_position_inj hindex h₁ h₂ (Option.some.inj hsame)

theorem indexFor_compacted (hc : r.view.Consistent)
    (hslots : t'.slots = (NetSockets.init r.ioSockets.clustering).slots ++
      r.ioSockets.compactSlots) {s' : Slot} (hj : t'.slots[j]? = some s') (hused : s'.used)
    (he : s'.entry.emitter = some e) : t'.indexFor e = some j := by
  have hkept : ∀ {k s}, t'.slots[k]? = some s → s.used → s.entry.emitter = some e →
      ∃ s₀, r.ioSockets.reservedCapacity ≤ k ∧
        r.ioSockets.keptSlots[k - r.ioSockets.reservedCapacity]? = some s₀ ∧
          s₀.entry.emitter = some e := by
    intro k s hk hs hem
    rcases NetSockets.compacted_slot hslots hk with rfl | ⟨hres, s₀, hs₀, rfl⟩
    · cases hem
    · exact ⟨s₀, hres, hs₀, hem⟩
  obtain ⟨s₁, hres₁, hs₁, hem₁⟩ := hkept hj hused he
  cases hfind : t'.indexFor e with
  | none =>
    have hnone := List.findIdx?_eq_none_iff.mp hfind s' (List.mem_of_getElem? hj)
    simp [hused, he] at hnone
  | some i =>
    obtain ⟨hi, hp, -⟩ := List.findIdx?_eq_some_iff_getElem.mp hfind
    simp only [Bool.and_eq_true, decide_eq_true_eq] at hp
    obtain ⟨s₂, hres₂, hs₂, hem₂⟩ := hkept (List.getElem?_eq_getElem hi) hp.1 hp.2
    have := kept_unique hc hs₂ hs₁ hem₂ hem₁
    congr 1
    omega

theorem indexFor_none (hslots : t'.slots = (NetSockets.init r.ioSockets.clustering).slots ++
      r.ioSockets.compactSlots)
    (hnone : ∀ i s, r.view.slot i = some s → s.used → s.emitter ≠ some e) :
    t'.indexFor e = none := by
  refine List.findIdx?_eq_none_iff.mpr fun s' hs' => ?_
  obtain ⟨j, hj⟩ := List.mem_iff_getElem?.mp hs'
  rcases NetSockets.compacted_slot hslots hj with rfl | ⟨-, s, hs, rfl⟩
  · rfl
  · obtain ⟨i, hi, hused⟩ := NetSockets.mem_keptSlots (List.mem_of_getElem? hs)
    have hne := hnone i _ (view_slot hi) hused
    have hne' : (s.atIndex j).entry.emitter ≠ some e := hne
    simp [hne']

theorem indexOf_updateIndices (r : Registry) (t : NetSockets) (e : Emitter) :
    (r.updateIndices t).indexOf e = (r.indexOf e).map fun i => (t.indexFor e).getD i := by
  cases e with
  | client o =>
    cases hobj : r.sockets[o]? with
    | none => simp [indexOf, liveSocket, updateIndices, hobj]
    | some obj =>
      cases halive : obj.alive <;>
        simp [indexOf, liveSocket, updateIndices, hobj, Option.filter_some, halive]
  | server n =>
    cases hobj : r.servers[n]? with
    | none => simp [indexOf, liveServer, updateIndices, hobj]
    | some obj =>
      cases halive : obj.alive <;>
        simp [indexOf, liveServer, updateIndices, hobj, Option.filter_some, halive]

theorem updateIndices_renumbered (hc : r.view.Consistent) (hframed : r.ioSockets.Framed)
    (hslots : t'.slots = (NetSockets.init r.ioSockets.clustering).slots ++
      r.ioSockets.compactSlots) : r.view.Renumbered (r.updateIndices t').view where
  moved := by
    intro j s' hj hused
    obtain ⟨s₁, hs₁, rfl⟩ := view_slot_eq_some hj
    rcases NetSockets.compacted_slot hslots hs₁ with rfl | ⟨-, s, hs, rfl⟩
    · cases hused
    · obtain ⟨i, hi, hsused⟩ := NetSockets.mem_keptSlots (List.mem_of_getElem? hs)
      exact ⟨i, s.view, view_slot hi, hsused, rfl⟩
  kept := by
    intro i s hi hused
    obtain ⟨s₁, hs₁, rfl⟩ := view_slot_eq_some hi
    obtain ⟨j, hj⟩ := NetSockets.kept_slot hslots (hframed.mem_keptSlots hs₁ hused)
    exact ⟨j, view_slot (r := r.updateIndices t') hj⟩
  blank := by
    intro j s' hj hused
    obtain ⟨s₁, hs₁, rfl⟩ := view_slot_eq_some hj
    rcases NetSockets.compacted_slot hslots hs₁ with rfl | ⟨-, s, hs, rfl⟩
    · rfl
    · obtain ⟨-, -, hsused⟩ := NetSockets.mem_keptSlots (List.mem_of_getElem? hs)
      exact absurd hsused (by rw [show s.used = false from hused]; simp)
  told := by
    intro j s' e hj hused he hlive
    obtain ⟨s₁, hs₁, rfl⟩ := view_slot_eq_some hj
    -- `updateIndices` finds the slot of the emitter
    have hfor := indexFor_compacted hc hslots hs₁ hused he
    obtain ⟨i, hi⟩ := Option.ne_none_iff_exists'.mp hlive
    change r.indexOf e = some i at hi
    show (r.updateIndices t').indexOf e = some j
    rw [indexOf_updateIndices, hi, hfor]
    rfl
  untold := by
    intro e hnone
    show (r.updateIndices t').indexOf e = r.indexOf e
    rw [indexOf_updateIndices, indexFor_none hslots hnone]
    simp
  known := by
    funext e
    cases e <;> simp [view, updateIndices]
  state := by
    funext e
    cases e with
    | client o => cases hobj : r.sockets[o]? <;> simp [view, updateIndices, hobj]
    | server n => rfl
  closes := by
    funext e
    cases e with
    | client o => cases hobj : r.sockets[o]? <;> simp [view, updateIndices, hobj]
    | server n => rfl
  queue := rfl
  current := rfl

end Registry

end NodeCpp
