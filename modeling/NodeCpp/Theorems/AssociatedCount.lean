import NodeCpp.Lib.Machine
import NodeCpp.Lib.Position
import NodeCpp.Table.NetSockets

/-!
# associatedCount

`associatedCount` gates polling and the exit of the loop. Five operations adjust
it, and they tell an associated entry by different tests: `setSocketClosed` looks
at the state of the entry, `setUnused` at its descriptor. The two disagree on an
entry that has been issued but never associated, whose descriptor is negated and
so is not `INVALID_SOCKET` either.

* `NetSockets.Exact` -- the invariant: the count, and valid descriptors of
  associated entries.
* `associatedCount_step`, `associatedCount_exact` -- it holds in every run in
  which `setUnused` meets only associated entries or dropped descriptors, and the
  entry reset meets no associated entry.
* `associatedCount_wraps` -- freeing an issued entry makes the count wrap.
-/

namespace NodeCpp

open Lib

variable {idx : Nat} {s : Slot}

namespace NetSockets

/-- The entries of `ourSide` and `ourSideAccum` in state `SockAssociated`. -/
def associatedEntries (t : NetSockets) : Nat := t.slots.countP Slot.associated

/-- The invariant of `associatedCount`, up to the word size, with what it rests on. -/
structure Exact (t : NetSockets) : Prop where
  count : t.associatedCount = UInt64.ofNat (t.associatedEntries + t.awakers)
  fd : ∀ s ∈ t.slots, s.associated → s.pfd.fd ≠ invalidSocket
  reserved : t.reservedCapacity ≤ t.slots.length
  front : ∀ s ∈ t.slots.take t.reservedCapacity, s.associated = false
  bound : t.slots.length < maxSize

theorem Exact.init (clustering : Bool) : (init clustering).Exact := by
  cases clustering <;> exact ⟨by decide, by decide, by decide, by decide, by decide⟩

/-- The table is far too small for the count to wrap around. -/
theorem Exact.toNat {t : NetSockets} (h : t.Exact) :
    t.associatedCount.toNat = t.associatedEntries + t.awakers := by
  have hle : t.associatedEntries ≤ t.slots.length := List.countP_le_length
  have hlt := h.bound
  have haw : t.awakers ≤ 1 := by unfold awakers; split <;> omega
  rw [h.count, UInt64.toNat_ofNat', Nat.mod_eq_of_lt]
  simp only [maxSize] at hlt
  omega

theorem Exact.set {t : NetSockets} (h : t.Exact) {s' : Slot} (hres : t.reservedCapacity ≤ idx)
    (hs : t.slots[idx]? = some s) {c u : UInt64} (hc : c + UInt64.ofNat s.associated.toNat =
      t.associatedCount + UInt64.ofNat s'.associated.toNat)
    (hfd : s'.associated → s'.pfd.fd ≠ invalidSocket) :
    Exact { t with slots := t.slots.set idx s', associatedCount := c, usedCount := u } := by
  refine ⟨?_, ?_, ?_, ?_, ?_⟩
  · have hcount := Lib.countP_set_add (p := Slot.associated) (b := s') hs
    rw [h.count, ← UInt64.ofNat_add] at hc
    refine (UInt64.add_left_inj (UInt64.ofNat s.associated.toNat)).mp ?_
    rw [hc, ← UInt64.ofNat_add]
    congr 1
    simp only [associatedEntries, awakers] at hcount ⊢
    omega
  · intro x hx
    rcases List.mem_or_eq_of_mem_set hx with hx | rfl
    · exact h.fd x hx
    · exact hfd
  · exact le_of_le_of_eq h.reserved (List.length_set).symm
  · intro x hx
    refine h.front x ?_
    rwa [← List.take_set_of_le hres]
  · exact lt_of_eq_of_lt List.length_set h.bound

theorem Exact.append {t : NetSockets} (h : t.Exact) (hs : s.associated = false)
    (hroom : t.slots.length + 1 < maxSize) {b : Nat} {u : UInt64} :
    Exact { t with slots := t.slots ++ [s], baseSz := b, usedCount := u } := by
  refine ⟨?_, ?_, ?_, ?_, ?_⟩
  · simpa [associatedEntries, awakers, hs] using h.count
  · intro x hx hassoc
    rcases List.mem_append.mp hx with hx | hx
    · exact h.fd x hx hassoc
    · rw [List.mem_singleton.mp hx, hs] at hassoc
      cases hassoc
  · exact Nat.le_trans h.reserved (by simp)
  · intro x hx
    refine h.front x ?_
    rwa [← List.take_append_of_le_length h.reserved]
  · simpa using hroom

theorem countP_associated_compactSlots (t : NetSockets) :
    t.compactSlots.countP Slot.associated =
      (t.slots.drop t.reservedCapacity).countP Slot.associated := by
  have hrenumber : Slot.associated ∘ (fun x : Slot × Nat =>
      ({ x.1 with entry := { x.1.entry with index := x.2 } } : Slot)) =
        Slot.associated ∘ Prod.fst := rfl
  have hused : ∀ s : Slot, (s.associated && s.used) = s.associated := by
    intro s
    cases hs : s.associated with
    | false => rfl
    | true => exact Slot.used_of_associated hs
  unfold compactSlots
  rw [List.countP_map, hrenumber, ← List.countP_map, List.zipIdx_map_fst, List.countP_filter]
  simp only [hused]

theorem mem_compactSlots {t : NetSockets} (h : s ∈ t.compactSlots) :
    ∃ s' ∈ t.slots, s'.pfd.fd = s.pfd.fd ∧ s.entry.state = s'.entry.state := by
  obtain ⟨⟨s', i⟩, hx, rfl⟩ := List.mem_map.mp h
  have hmem := List.fst_mem_of_mem_zipIdx hx
  exact ⟨s', List.mem_of_mem_drop (List.mem_filter.mp hmem).1, rfl, rfl⟩

theorem Exact.compact {t : NetSockets} (h : t.Exact) {b c : Nat} :
    Exact { t with slots := (NetSockets.init t.clustering).slots ++ t.compactSlots
                   baseSz := b, capacity := c } := by
  have hinit := Exact.init t.clustering
  have hfront : (t.slots.take t.reservedCapacity).countP Slot.associated = 0 := by
    simpa [List.countP_eq_zero] using h.front
  have hsplit : t.slots.countP Slot.associated =
      (t.slots.drop t.reservedCapacity).countP Slot.associated := by
    conv_lhs => rw [← List.take_append_drop t.reservedCapacity t.slots]
    rw [List.countP_append, hfront, Nat.zero_add]
  have hlen : (NetSockets.init t.clustering).slots.length = t.reservedCapacity :=
    List.length_replicate
  have hnone : ∀ s ∈ (NetSockets.init t.clustering).slots, s.associated = false := by
    intro s hs
    rw [List.eq_of_mem_replicate hs]
    rfl
  have hkept : t.compactSlots.length ≤ t.slots.length - t.reservedCapacity := by
    simpa [compactSlots] using
      (List.length_filter_le Slot.used (t.slots.drop t.reservedCapacity))
  refine ⟨?_, ?_, ?_, ?_, ?_⟩
  · -- compaction keeps every associated slot
    have hzero : (NetSockets.init t.clustering).slots.countP Slot.associated = 0 := by
      simpa [List.countP_eq_zero] using hnone
    have hcount := h.count
    simp only [associatedEntries, awakers, List.countP_append, hzero,
      countP_associated_compactSlots, hsplit, Nat.zero_add] at hcount ⊢
    exact hcount
  · intro s hs hassoc
    rcases List.mem_append.mp hs with hs | hs
    · rw [hnone s hs] at hassoc
      cases hassoc
    · obtain ⟨s', hs', hfd, hst⟩ := mem_compactSlots hs
      refine hfd ▸ h.fd s' hs' ?_
      unfold Slot.associated at hassoc ⊢
      rwa [← hst]
  · show t.reservedCapacity ≤ ((NetSockets.init t.clustering).slots ++ t.compactSlots).length
    rw [List.length_append, hlen]
    omega
  · intro s hs
    change s ∈ List.take t.reservedCapacity _ at hs
    rw [← hlen, List.take_left] at hs
    exact hnone s hs
  · show ((NetSockets.init t.clustering).slots ++ t.compactSlots).length < maxSize
    have := h.bound
    have := h.reserved
    rw [List.length_append, hlen]
    omega

end NetSockets

/-! ## The operations keep it -/

namespace NetSockets

/-- An entry that may be freed: it is associated, or its descriptor is dropped already. -/
def freeable (t : NetSockets) (idx : Nat) : Bool :=
  match t.slots[idx]? with
  | some s => s.associated || s.pfd.fd == invalidSocket
  | none => true

/-- An entry that may be reset: it is not associated. -/
def resettable (t : NetSockets) (idx : Nat) : Bool :=
  match t.slots[idx]? with
  | some s => !s.associated
  | none => true

def KeepsCount (t : NetSockets) : TableOp → Prop
  | .setUnused idx => t.freeable idx
  | .resetEntry idx => t.resettable idx
  | _ => True

variable {t t' : NetSockets}

theorem Exact.addEntry (h : t.Exact) {emitter : Emitter} {osSocket : Nat}
    (hadd : t.addEntry emitter osSocket = .ok t') : t'.Exact := by
  obtain ⟨-, ⟨hlt, rfl⟩ | ⟨-, hroom, rfl⟩⟩ := addEntry_eq_ok hadd
  · rcases freeIndex_cases t with ⟨s, hs, hunused, hres, -⟩ | heq
    · exact h.set hres hs (by simp [Slot.associated_of_unused hunused]) (by simp)
    · omega
  · exact h.append rfl hroom

theorem Exact.setAwakerSocket (h : t.Exact) (hclus : t.clustering) (haw : t.awaker = invalidSocket)
    (sock : Nat) : (t.setAwakerSocket sock).Exact := by
  refine ⟨?_, h.fd, h.reserved, h.front, h.bound⟩
  have hsock : (sock : Int) ≠ invalidSocket := by unfold invalidSocket; omega
  have hcount := h.count
  simp only [awakers, haw, ne_eq, not_true_eq_false, and_false, if_false, Nat.add_zero] at hcount
  simp only [NetSockets.setAwakerSocket, associatedEntries, awakers, hclus, hsock, ne_eq,
    not_false_eq_true, and_self, if_true, hcount]
  rw [UInt64.ofNat_add]
  rfl

theorem Exact.setAssociated (h : t.Exact) (hset : t.setAssociated idx = .ok t') : t'.Exact := by
  obtain ⟨s, hres, hs, hissued, hfd, rfl⟩ := setAssociated_eq_ok hset
  refine h.set hres hs ?_ ?_
  · simp [Slot.associated, hissued]
  · intro _
    show -s.pfd.fd ≠ invalidSocket
    unfold invalidSocket
    omega

theorem Exact.setSocketClosed (h : t.Exact) (hset : t.setSocketClosed idx = .ok t') : t'.Exact := by
  obtain ⟨s, hres, hs, -, rfl⟩ := setSocketClosed_eq_ok hset
  refine h.set hres hs ?_ (by simp [Slot.associated])
  cases hassoc : s.associated <;> simp [Slot.associated]

theorem Exact.setUnused (h : t.Exact) (hfree : t.freeable idx) (hset : t.setUnused idx = .ok t') :
    t'.Exact := by
  obtain ⟨s, hres, hs, rfl⟩ := setUnused_eq_ok hset
  refine h.set hres hs ?_ (by simp [Slot.associated])
  simp only [freeable, hs, Bool.or_eq_true, beq_iff_eq] at hfree
  -- the two tests agree on a freeable entry
  cases hassoc : s.associated with
  | true =>
    have hfd := h.fd s (List.mem_of_getElem? hs) hassoc
    simp [Slot.associated, hfd]
  | false =>
    rw [hassoc] at hfree
    simp [Slot.associated, hfree.resolve_left (by simp)]

theorem Exact.resetEntry (h : t.Exact) (hreset : t.resettable idx)
    (hset : t.resetEntry idx = .ok t') : t'.Exact := by
  obtain ⟨s, hres, hs, rfl⟩ := resetEntry_eq_ok hset
  simp only [resettable, hs, Bool.not_eq_true'] at hreset
  refine h.set hres hs ?_ (by simp [Slot.associated])
  rw [hreset]
  rfl

theorem Exact.reworkIfNecessary (h : t.Exact) (hrework : t.reworkIfNecessary = .ok t') :
    t'.Exact := by
  obtain ⟨t₁, hmerge, hcompact⟩ := bind_eq_ok hrework
  obtain ⟨b, c, rfl, -⟩ := mergeAccum_eq_ok hmerge
  have h₁ : Exact { t with baseSz := b, capacity := c } :=
    ⟨h.count, h.fd, h.reserved, h.front, h.bound⟩
  obtain ⟨-, rfl⟩ | ⟨-, c', rfl⟩ := makeCompactIfNecessary_eq_ok hcompact
  · exact h₁
  · exact h₁.compact

end NetSockets

/-- The step lemma. -/
theorem associatedCount_step {t t' : NetSockets} {op : TableOp} (h : t.Exact)
    (hkeeps : t.KeepsCount op) (hstep : tableOps.step t op = some t') : t'.Exact := by
  cases op with
  | addEntry emitter osSocket => exact h.addEntry (toOption_eq_some hstep)
  | setAwakerSocket sock =>
    simp only [tableOps] at hstep
    split at hstep
    · rename_i hnew
      cases hstep
      exact h.setAwakerSocket hnew.1 hnew.2 sock
    · cases hstep
  | setAssociated idx => exact h.setAssociated (toOption_eq_some hstep)
  | setSocketClosed idx => exact h.setSocketClosed (toOption_eq_some hstep)
  | setUnused idx => exact h.setUnused hkeeps (toOption_eq_some hstep)
  | reworkIfNecessary => exact h.reworkIfNecessary (toOption_eq_some hstep)
  | resetEntry idx => exact h.resetEntry hkeeps (toOption_eq_some hstep)

/-- In every run in which only associated entries and dropped descriptors are freed and no
associated entry is reset, `associatedCount` is the number of associated entries, and one more
with an installed awaker socket. -/
theorem associatedCount_exact {clustering : Bool} {ops : List TableOp} {t : NetSockets}
    (hkeeps : tableOps.obeys NetSockets.KeepsCount (.init clustering) ops)
    (hrun : tableOps.run (.init clustering) ops = some t) :
    t.associatedCount.toNat = t.associatedEntries + t.awakers :=
  (tableOps.run_invariant (J := NetSockets.Exact)
    (fun _ _ _ h hG hstep => associatedCount_step h hG hstep)
    (NetSockets.Exact.init clustering) hkeeps hrun).toNat

instance (t : NetSockets) : DecidablePred t.KeepsCount
  | .setUnused idx => inferInstanceAs (Decidable (t.freeable idx = true))
  | .resetEntry idx => inferInstanceAs (Decidable (t.resettable idx = true))
  | .addEntry .. | .setAwakerSocket _ | .setAssociated _ | .setSocketClosed _
  | .reworkIfNecessary => isTrue trivial

/-- A socket is issued, associated, closed, reset and freed. -/
theorem associatedCount_exact_lifecycle :
    ∃ t, tableOps.run (.init false)
        [.addEntry (.client 0) 5, .setAssociated 1, .setSocketClosed 1, .resetEntry 1,
          .setUnused 1] = some t ∧
      t.associatedCount.toNat = t.associatedEntries + t.awakers := by
  obtain ⟨t, ht⟩ : ∃ t, tableOps.run (.init false)
      [.addEntry (.client 0) 5, .setAssociated 1, .setSocketClosed 1, .resetEntry 1,
        .setUnused 1] = some t := ⟨_, rfl⟩
  exact ⟨t, ht, associatedCount_exact (by decide) ht⟩

/-- A socket that never connects is destructed: `setUnused` takes its negated descriptor for
that of an associated entry. -/
theorem associatedCount_wraps :
    ∃ t, tableOps.run (.init false) [.addEntry (.client 0) 5, .setUnused 1] = some t ∧
      t.associatedEntries + t.awakers = 0 ∧ t.associatedCount.toNat = 2 ^ 64 - 1 :=
  ⟨_, rfl, by decide, by decide⟩

end NodeCpp
