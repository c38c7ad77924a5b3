import Mathlib.Data.Finset.Image
import NodeCpp.Theorems.Compaction
import NodeCpp.Theorems.UsedCount

/-!
# How large the table stays

A table that has become sparse is what a compaction is there for. The condition of
`makeCompactIfNecessary` is the other way round: it returns where fewer than half of
the entries are used, and compacts where at least half are.
-/

namespace NodeCpp

open Lib

namespace Registry

variable {r r' : Registry}

def live (r : Registry) : Finset Emitter :=
  ((Finset.range r.sockets.length).image .client ∪
    (Finset.range r.servers.length).image .server).filter fun e => (r.indexOf e).isSome

theorem view_live (r : Registry) : r.view.Live r.live := by
  intro e
  have hindex : r.view.index e = r.indexOf e := rfl
  rw [hindex, live, Finset.mem_filter, ← Option.isSome_iff_ne_none]
  refine and_iff_right_of_imp fun hsome => ?_
  cases e with
  | client o =>
    refine Finset.mem_union_left _ (Finset.mem_image_of_mem _ (Finset.mem_range.mpr ?_))
    refine Nat.not_le.mp fun hge => ?_
    simp [indexOf, liveSocket, List.getElem?_eq_none hge] at hsome
  | server s =>
    refine Finset.mem_union_right _ (Finset.mem_image_of_mem _ (Finset.mem_range.mpr ?_))
    refine Nat.not_le.mp fun hge => ?_
    simp [indexOf, liveServer, List.getElem?_eq_none hge] at hsome

def usedTotal (r : Registry) : Nat := r.ioSockets.usedEntries + r.ioSockets.awakers

/-- The table is small or at least half used, and its size is bounded by the live objects. -/
def Dense (r : Registry) : Prop :=
  (r.ioSockets.slots.length ≤ NetSockets.compactionMinSize ∨
      r.ioSockets.slots.length ≤ 2 * r.usedTotal) ∧
    r.ioSockets.slots.length ≤ NetSockets.compactionMinSize + 2 * r.live.card

instance (r : Registry) : Decidable r.Dense := inferInstanceAs (Decidable ((_ ∨ _) ∧ _))

/-- The table is small, or `usedCount` says that at least half of it is used. -/
def CountsDense (r : Registry) : Prop :=
  r.ioSockets.slots.length ≤ NetSockets.compactionMinSize ∨
    r.ioSockets.slots.length / 2 ≤ r.ioSockets.usedCount.toNat

instance (r : Registry) : Decidable r.CountsDense := inferInstanceAs (Decidable (_ ∨ _))

theorem Sound.usedEntries_le (h : r.Sound) : r.ioSockets.usedEntries ≤ r.live.card := by
  rw [← NetSockets.card_usedIndices]
  have hsub : r.ioSockets.usedIndices ⊆ r.live.image fun e => (r.indexOf e).getD 0 := by
    intro i hi
    obtain ⟨s, hs, hused⟩ := NetSockets.mem_usedIndices.mp hi
    obtain ⟨-, e, -, hindex⟩ := h.consistent.used i _ (view_slot hs) hused
    refine Finset.mem_image.mpr ⟨e, (r.view_live e).mpr (by simp [hindex]), ?_⟩
    change r.indexOf e = some i at hindex
    rw [hindex]
    rfl
  exact (Finset.card_le_card hsub).trans Finset.card_image_le

end Registry

namespace NetSockets

variable {t : NetSockets}

theorem usedEntries_compacted (t : NetSockets) :
    t.compacted.usedEntries = t.compactSlots.length := by
  have hfront : ((init t.clustering).slots).countP Slot.used = 0 := by
    refine List.countP_eq_zero.mpr fun s hs => ?_
    rw [List.eq_of_mem_replicate hs]
    simp [Slot.used]
  have hback : t.compactSlots.countP Slot.used = t.compactSlots.length := by
    refine List.countP_eq_length.mpr fun s hs => ?_
    obtain ⟨k, hk⟩ := List.mem_iff_getElem?.mp hs
    rw [compactSlots_getElem?] at hk
    obtain ⟨s₀, hs₀, rfl⟩ := Option.map_eq_some_iff.mp hk
    obtain ⟨-, -, hused⟩ := mem_keptSlots (List.mem_of_getElem? hs₀)
    exact hused
  show ((init t.clustering).slots ++ t.compactSlots).countP Slot.used = _
  rw [List.countP_append, hfront, hback, Nat.zero_add]

theorem length_compacted (t : NetSockets) :
    t.compacted.slots.length = t.reservedCapacity + t.compactSlots.length := by
  show ((init t.clustering).slots ++ t.compactSlots).length = _
  rw [List.length_append]
  exact congrArg (· + _) List.length_replicate

/-- What a compaction that returns leaves; it has found as many used entries as `usedCount` says. -/
structure Shrunk (t t' : NetSockets) : Prop where
  size : t'.slots.length = t.reservedCapacity + t'.usedEntries
  awakers : t'.awakers = t.awakers
  count : t.usedCount.toNat = t'.usedEntries + t.awakers

theorem Shrunk.of_compacts {t' : NetSockets} (hcompacts : t.compacts) (hframed : t.Framed)
    (hbound : t.slots.length < maxSize) (h : t.makeCompactIfNecessary = .ok t') : t.Shrunk t' := by
  rw [makeCompactIfNecessary_compacts hcompacts] at h
  split at h
  · cases h
  rename_i hcount
  cases h
  rw [not_not, hframed.length_compactSlots] at hcount
  have hsame : t.compacted.usedEntries = t.usedEntries :=
    t.usedEntries_compacted.trans hframed.length_compactSlots
  refine ⟨?_, rfl, ?_⟩
  · rw [length_compacted, usedEntries_compacted]
  · have hle := t.usedEntries_le_length
    have haw := t.awakers_le_one
    rw [hsame, ← hcount, UInt64.toNat_ofNat', Nat.mod_eq_of_lt]
    simp only [maxSize] at hbound
    omega

theorem compacts_iff : t.compacts ↔
    compactionMinSize < t.slots.length ∧ t.slots.length / 2 ≤ t.usedCount.toNat := by
  simp [compacts]

theorem reworkIfNecessary_cases {t' : NetSockets} (hframed : t.Framed)
    (hbound : t.slots.length < maxSize) (h : t.reworkIfNecessary = .ok t') :
    (t.compacts ∧ t.Shrunk t') ∨
      (t.compacts = false ∧ t'.slots = t.slots ∧ t'.awakers = t.awakers) := by
  obtain ⟨t₁, hmerge, hcompact⟩ := bind_eq_ok h
  have hmerged := hframed.merge hmerge
  obtain ⟨b, c, rfl, -⟩ := mergeAccum_eq_ok hmerge
  cases hcompacts : t.compacts with
  | true =>
    have hyes : NetSockets.compacts { t with baseSz := b, capacity := c } := hcompacts
    obtain ⟨hsize, hawakers, hcount⟩ := Shrunk.of_compacts hyes hmerged hbound hcompact
    exact .inl ⟨rfl, hsize, hawakers, hcount⟩
  | false =>
    obtain ⟨-, rfl⟩ | ⟨hyes, -⟩ := makeCompactIfNecessary_eq_ok hcompact
    · exact .inr ⟨rfl, rfl, rfl⟩
    · rw [show NetSockets.compacts { t with baseSz := b, capacity := c } = false from hcompacts]
        at hyes
      cases hyes

end NetSockets

namespace Registry

variable {r r' : Registry}

/-- Up to wrapping, `usedCount` is the number of live objects, and one more with an installed awaker
socket. -/
theorem Counted.toNat_usedCount (h : r.Counted)
    (hlive : r.live.card + r.ioSockets.awakers < UInt64.size) :
    r.ioSockets.usedCount.toNat = r.live.card + r.ioSockets.awakers := by
  obtain ⟨live, hview, hcount⟩ := h.count
  have hsame : live = r.live := Finset.ext fun e => (hview e).trans (r.view_live e).symm
  rw [hcount, hsame, UInt64.toNat_ofNat', Nat.mod_eq_of_lt hlive]

theorem Counted.dense (h : r.Counted) (hdense : r.CountsDense)
    (hrework : r.reworkIfNecessary = .ok r') : r'.Dense := by
  have hstep : registry.step r .reworkIfNecessary = some r' := by
    show r.reworkIfNecessary.toOption = some r'
    rw [hrework]
    rfl
  have hlive := (h.sound.step hstep).usedEntries_le
  obtain ⟨hcompacts, hshrunk⟩ | ⟨hno, hslots, hawakers⟩ :=
    NetSockets.reworkIfNecessary_cases h.sound.framed h.bound (reworkIfNecessary_table hrework)
  · -- at least sixteen entries are used, and behind the reserved ones there is no other
    obtain ⟨hmin, hhalf⟩ := NetSockets.compacts_iff.mp hcompacts
    have hsize := hshrunk.size
    have hcount := hshrunk.count
    have hawakers := hshrunk.awakers
    have haw := r.ioSockets.awakers_le_one
    have hres : r.ioSockets.reservedCapacity ≤ 2 := by
      unfold NetSockets.reservedCapacity
      split <;> decide
    simp only [NetSockets.compactionMinSize] at hmin
    refine ⟨.inr ?_, ?_⟩
    · rw [usedTotal, hawakers]
      omega
    · simp only [NetSockets.compactionMinSize]
      omega
  · -- a dense table that is not compacted is small
    have hsmall : r.ioSockets.slots.length ≤ NetSockets.compactionMinSize := by
      refine Nat.not_lt.mp fun hmin => ?_
      rcases hdense with hle | hhalf
      · omega
      · rw [NetSockets.compacts_iff.mpr ⟨hmin, hhalf⟩] at hno
        cases hno
    rw [← hslots] at hsmall
    exact ⟨.inl hsmall, hsmall.trans (Nat.le_add_right _ _)⟩

/-- A call on a table that its counter says is sparse. The counter is at least the number of used
entries unless it has wrapped. -/
theorem Counted.not_dense (h : r.Counted)
    (hlive : r.live.card + r.ioSockets.awakers < UInt64.size) (hsparse : ¬r.CountsDense)
    (hrework : r.reworkIfNecessary = .ok r') : ¬r'.Dense := by
  obtain ⟨hmin, hhalf⟩ := not_or.mp hsparse
  have hcount := h.toNat_usedCount hlive
  have hused := h.sound.usedEntries_le
  obtain ⟨hcompacts, -⟩ | ⟨-, hslots, hawakers⟩ :=
    NetSockets.reworkIfNecessary_cases h.sound.framed h.bound (reworkIfNecessary_table hrework)
  · exact absurd (NetSockets.compacts_iff.mp hcompacts).2 hhalf
  · have hsame : r'.usedTotal = r.usedTotal := by
      simp only [usedTotal, NetSockets.usedEntries, hslots, hawakers]
    rintro ⟨hdense, -⟩
    rw [hslots, hsame, usedTotal] at hdense
    omega

end Registry

theorem Loop.rework_eq_ok {w w' : Ctl × Registry} {env : Env}
    (hphase : w.1.phase = .reworkIfNecessary)
    (hstep : runStandardLoop.machine.step w (.infra env) = some w')
    (hok : w'.1.aborted = false) : w.2.reworkIfNecessary = .ok w'.2 := by
  obtain ⟨-, -, p, hp, hcases⟩ := infra_cases hstep
  simp only [Loop.step, hphase, Option.some.injEq] at hp
  subst hp
  obtain ⟨r, hr, rfl⟩ | ⟨-, rfl⟩ := hcases
  · exact run_singleton hr
  · cases hok

/-- The table does not stay sparse where `reworkIfNecessary` finds it small or, by its counter, at
least half used: then it is small or at least half used afterwards, and its size is bounded by the
live objects. Where it finds it otherwise, it leaves it sparse; a counter that has wrapped may be
wrong about that. -/
theorem table_dense_when {clustering : Bool} {awaker : Option Nat} {acts : List Action}
    {w w' : Ctl × Registry} {env : Env}
    (hrun : Loop.run ({}, .booted clustering awaker) acts = some w)
    (hphase : w.1.phase = .reworkIfNecessary)
    (hstep : runStandardLoop.machine.step w (.infra env) = some w')
    (hok : w'.1.aborted = false) :
    (w.2.CountsDense → w'.2.Dense) ∧
      (w.2.live.card + w.2.ioSockets.awakers < UInt64.size → w'.2.Dense → w.2.CountsDense) := by
  have hcounted := Loop.counted hrun
  have hrework := Loop.rework_eq_ok hphase hstep hok
  refine ⟨fun hdense => hcounted.dense hdense hrework, fun hlive hdense => ?_⟩
  by_contra hsparse
  exact hcounted.not_dense hlive hsparse hrework hdense

/-- In the next iteration the handler of the timer destructs all sockets but the last. -/
def oneSocketLeft : List Action :=
  fortySockets ++ List.replicate 4 (Action.infra { now := 5000000 }) ++
    (List.range 39).map (fun o => Action.call (.destructSocket o)) ++
    [Action.timer .setInmediate, .ret] ++ List.replicate 3 (Action.infra {}) ++ [Action.ret] ++
    List.replicate 4 (Action.infra {})

theorem table_dense_forty :
    ∃ w w', Loop.run ({}, .booted false none) fortySockets = some w ∧
      runStandardLoop.machine.step w (.infra {}) = some w' ∧ w.2.CountsDense ∧ w'.2.Dense := by
  obtain ⟨w, hw, hphase, hdense, w', hstep, hok⟩ :
      ∃ w, Loop.run ({}, .booted false none) fortySockets = some w ∧
        w.1.phase = .reworkIfNecessary ∧ w.2.CountsDense ∧
        ∃ w', runStandardLoop.machine.step w (.infra {}) = some w' ∧ w'.1.aborted = false := by
    decide +kernel
  exact ⟨w, w', hw, hstep, hdense, (table_dense_when hw hphase hstep hok).1 hdense⟩

/-- Forty sockets, of which one is left: the table keeps its 41 entries. -/
theorem table_stays_sparse :
    ∃ w, Loop.run ({}, .booted false none) oneSocketLeft = some w ∧
      w.1.phase = .reworkIfNecessary ∧
      ∃ w', runStandardLoop.machine.step w (.infra {}) = some w' ∧ w'.1.aborted = false ∧
        w'.2.ioSockets.slots.length = 41 ∧ w'.2.usedTotal = 1 ∧ w'.2.live.card = 1 ∧
        ¬w'.2.Dense := by
  decide +kernel

end NodeCpp
