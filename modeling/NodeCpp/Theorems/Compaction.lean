import NodeCpp.Loop.Runs
import NodeCpp.Table.Compaction

/-!
# What a compaction preserves

The loop of `makeCompactIfNecessary` against what it is for (`Sides.Compacted`): the
used entries stay in order, whole and without gaps, and every object is told its new
index.

The table of the registry has the closed form of the loop. Its two vectors are
`NetSockets.sides`.
-/

namespace NodeCpp

open Lib

namespace Sides

variable {ι : Type}

/-- What a compaction is for. `place` are the new positions of the used entries. -/
structure Compacted (s : Sides ι) (place : Nat → Nat) (s' : Sides ι) : Prop where
  order : ∀ i j, s.usedAt i → s.usedAt j → i < j → place i < place j
  kept : ∀ i e, s.usedAt i → s.ourSide[i]? = some e →
    s'.ourSide[place i]? = some { e with index := place i } ∧
      s'.osSide[place i]? = s.osSide[i]? ∧
      ∀ o, e.emitter.ptr = some o → s'.index o = some (place i)
  filled : ∀ k, s.reservedCapacity ≤ k → k < s'.ourSide.length →
    s'.usedAt k ∧ ∃ i, s.usedAt i ∧ place i = k
  others : ∀ o, (∀ i e, s.usedAt i → s.ourSide[i]? = some e → e.emitter.ptr ≠ some o) →
    s'.index o = s.index o
  awaker : s.clustering → s'.ourSide[awakerSockIdx]? = s.ourSide[awakerSockIdx]? ∧
    s'.osSide[awakerSockIdx]? = s.osSide[awakerSockIdx]?
  lengths : s'.ourSide.length = s'.osSide.length
  rest : s'.clustering = s.clustering ∧ s'.usedCount = s.usedCount

variable {s : Sides ι} {i : Nat} {e : Entry ι}

theorem lt_length_of_usedAt (h : s.usedAt i) : i < s.ourSide.length := by
  simp only [usedAt, Bool.and_eq_true, Option.any_eq_true] at h
  obtain ⟨-, e, he, -⟩ := h
  exact (List.getElem?_eq_some_iff.mp he).1

theorem exists_place {k : Nat} (hres : s.reservedCapacity ≤ k)
    (hk : k < s.place s.ourSide.length) : ∃ i, s.usedAt i ∧ s.place i = k := by
  have hrank : k - s.reservedCapacity < (below s.usedAt s.ourSide.length).length := by
    unfold place at hk
    omega
  obtain ⟨i, -, hused, hi⟩ := exists_length_below hrank
  refine ⟨i, hused, ?_⟩
  rw [place, hi]
  omega

theorem kept_place (hlengths : s.ourSide.length = s.osSide.length) (hi : s.usedAt i)
    (he : s.ourSide[i]? = some e) :
    ∃ k p, s.place i = s.reservedCapacity + k ∧ s.osSide[i]? = some p ∧
      s.kept[k]? = some (e, p) := by
  obtain ⟨p, hp⟩ : ∃ p, s.osSide[i]? = some p :=
    ⟨_, List.getElem?_eq_getElem (hlengths ▸ lt_length_of_usedAt hi)⟩
  simp only [usedAt, he, Option.any_some, Bool.and_eq_true, decide_eq_true_eq] at hi
  obtain ⟨j, rfl⟩ := Nat.exists_eq_add_of_le hi.1
  have hbody : s.body[j]? = some (e, p) := by
    rw [body, List.getElem?_drop, List.getElem?_zip_eq_some]
    exact ⟨he, hp⟩
  exact ⟨_, _, place_body hlengths j, hp, getElem?_filter_countP hbody hi.2⟩

theorem Wellformed.live_kept (hwf : s.Wellformed) :
    ∀ x ∈ s.kept, x.1.emitter.typed s.clustering ∧ x.1.emitter.isValid s.index := by
  intro x hx
  obtain ⟨k, he, -, hused⟩ := mem_kept hx
  exact hwf.live _ _ (by simp [usedAt, he, hused]) he

variable [DecidableEq ι]

theorem Wellformed.told (hwf : s.Wellformed) (hreserved : s.reservedCapacity ≤ s.ourSide.length)
    (hi : s.usedAt i) (he : s.ourSide[i]? = some e) {o : ι} (ho : e.emitter.ptr = some o) :
    s.packed.index o = some (s.place i) := by
  obtain ⟨k, p, hplace, -, hk⟩ := kept_place hwf.lengths hi he
  obtain ⟨hlt, hget⟩ := List.getElem?_eq_some_iff.mp hk
  have hsplit : s.kept = s.kept.take k ++ (e, p) :: s.kept.drop (k + 1) := by
    rw [← hget, List.getElem_cons_drop, List.take_append_drop]
  -- no entry behind it is one of the same object
  have hlast : ∀ y ∈ s.kept.drop (k + 1), y.1.emitter.ptr ≠ some o := by
    intro y hy ho'
    obtain ⟨m, hm⟩ := List.mem_iff_getElem?.mp hy
    rw [List.getElem?_drop] at hm
    obtain ⟨i', hi', hplace'⟩ := exists_place (s := s) (k := s.reservedCapacity + (k + 1 + m))
      (Nat.le_add_right _ _) (by
        rw [place_length hwf.lengths hreserved]
        exact Nat.add_lt_add_left (List.getElem?_eq_some_iff.mp hm).1 _)
    have he' := List.getElem?_eq_getElem (lt_length_of_usedAt hi')
    obtain ⟨k', p', hk', -, hkept'⟩ := kept_place hwf.lengths hi' he'
    obtain rfl : k' = k + 1 + m := by omega
    cases hm.symm.trans hkept'
    have hsame := hwf.distinct i i' _ _ hi hi' he he' (ho.trans ho'.symm)
    subst hsame
    omega
  rw [packed, hsplit, New.index_of_last _ ho hlast, List.length_take_of_le (Nat.le_of_lt hlt),
    (length_front hwf.lengths hreserved).1, hplace]

theorem Wellformed.compacted (hwf : s.Wellformed)
    (hreserved : s.reservedCapacity ≤ s.ourSide.length) :
    s.Compacted s.place { s with
      ourSide := s.packed.ourSideNew, osSide := s.packed.osSideNew, index := s.packed.index } where
  order := fun _ _ hi _ hij => place_lt hi hij
  kept := by
    intro i e hi he
    obtain ⟨k, p, hplace, hp, hk⟩ := kept_place hwf.lengths hi he
    obtain ⟨hour, hos⟩ := packed_kept hwf.lengths hreserved k
    rw [hk, ← hplace] at hour hos
    exact ⟨hour, hos.trans hp.symm, fun o ho => hwf.told hreserved hi he ho⟩
  filled := by
    intro k hres hk
    have hlen := (packed_lengths hwf.lengths hreserved).1
    rw [← place_length hwf.lengths hreserved] at hlen
    obtain ⟨i, hused, rfl⟩ := exists_place hres (hlen ▸ hk)
    refine ⟨?_, i, hused, rfl⟩
    have he := List.getElem?_eq_getElem (lt_length_of_usedAt hused)
    obtain ⟨k, p, hplace, -, hk⟩ := kept_place hwf.lengths hused he
    have hour := (packed_kept hwf.lengths hreserved k).1
    rw [hk, ← hplace] at hour
    simp only [usedAt, he, Option.any_some, Bool.and_eq_true] at hused
    simp only [usedAt, hour, Option.map_some, Option.any_some, Bool.and_eq_true]
    exact ⟨decide_eq_true hres, hused.2⟩
  others := by
    intro o ho
    refine New.index_of_none _ fun x hx hptr => ?_
    obtain ⟨k, he, -, hused⟩ := mem_kept hx
    exact ho _ _ (by simp [usedAt, he, hused]) he hptr
  awaker := packed_awaker hwf.lengths hreserved
  lengths := by
    obtain ⟨hour, hos⟩ := packed_lengths hwf.lengths hreserved
    exact hour.trans hos.symm
  rest := ⟨rfl, rfl⟩

end Sides

/-- Compaction preserves the table: where `usedCount` is the number of used entries it returns, and
every used entry is found at its new position, in order and with nothing in between. -/
theorem compaction_preserves {ι : Type} [DecidableEq ι] {s : Sides ι} (hwf : s.Wellformed)
    (hcount : s.usedCount.toNat = s.usedEntries) (hcompacts : s.compacts) :
    ∃ s', s.makeCompactIfNecessary = .ok s' ∧ s.Compacted s.place s' := by
  have hreserved := Sides.reserved_le_of_compacts hcompacts
  have hnumber : (below s.usedAt s.ourSide.length).length = s.kept.length :=
    Nat.add_left_cancel (Sides.place_length hwf.lengths hreserved)
  have hnew : s.packed.usedCountNew = s.usedCount := by
    rw [Sides.packed_count, ← UInt64.ofNat_toNat (x := s.usedCount), hcount, Sides.usedEntries,
      hnumber]
  refine ⟨_, ?_, hwf.compacted hreserved⟩
  rw [Sides.makeCompactIfNecessary_eq hwf.lengths hwf.live_kept hcompacts,
    if_neg (not_not.mpr hnew)]

/-- A table with a gap at every fourth position; its entries belong to client sockets, to a server
and to an agent. -/
def gappedEntry (i : Nat) : Sides.Entry Nat :=
  if i < 2 ∨ i % 4 = 3 then { index := i }
  else
    { state := .SockAssociated, index := i, refed := decide (i % 2 = 0)
      emitter :=
        { objectType :=
            if i = 5 then .ServerSocket else if i = 6 then .AgentServer else .ClientSocket
          ptr := some i } }

def gapped : Sides Nat where
  clustering := true
  ourSide := (List.range 40).map gappedEntry
  osSide := (List.range 40).map fun i => { fd := (i : Int), pollin := true }
  usedCount := 29
  index := fun o => if o < 40 then some o else none

theorem gapped_entry {i : Nat} {e : Sides.Entry Nat} (hused : gapped.usedAt i)
    (he : gapped.ourSide[i]? = some e) :
    i < 40 ∧ e.emitter.ptr = some i ∧ e.emitter.typed true := by
  have hlt : i < 40 := by simpa [gapped] using Sides.lt_length_of_usedAt hused
  have heq : e = gappedEntry i := by
    simp only [gapped, List.getElem?_map, List.getElem?_range hlt, Option.map_some,
      Option.some.injEq] at he
    exact he.symm
  simp only [Sides.usedAt, he, Option.any_some, Bool.and_eq_true] at hused
  refine ⟨hlt, ?_⟩
  subst heq
  have hstate := hused.2
  unfold gappedEntry at hstate ⊢
  split
  · rename_i hgap
    rw [if_pos hgap] at hstate
    cases hstate
  · refine ⟨rfl, ?_⟩
    unfold OpaqueEmitter.typed
    dsimp only
    split_ifs <;> rfl

theorem gapped_wellformed : gapped.Wellformed where
  lengths := by simp [gapped]
  live := by
    intro i e hused he
    obtain ⟨hlt, hptr, htyped⟩ := gapped_entry hused he
    refine ⟨htyped, ?_⟩
    simp [OpaqueEmitter.isValid, hptr, gapped, hlt]
  distinct := by
    intro i j e e' hi hj he he' hsame
    obtain ⟨-, hptr, -⟩ := gapped_entry hi he
    obtain ⟨-, hptr', -⟩ := gapped_entry hj he'
    rw [hptr, hptr'] at hsame
    exact Option.some.inj hsame

theorem compaction_preserves_gapped :
    ∃ s', gapped.makeCompactIfNecessary = .ok s' ∧ gapped.Compacted gapped.place s' ∧
      gapped.place 39 = 30 ∧ gapped.place 38 = 29 := by
  obtain ⟨s', heq, hcompacted⟩ :=
    compaction_preserves gapped_wellformed (by decide +kernel) (by decide +kernel)
  exact ⟨s', heq, hcompacted, by decide +kernel, by decide +kernel⟩

/-! ## The tables of the event loop -/

def Emitter.objectType : Emitter → OpaqueEmitter.ObjectType
  | .client _ => .ClientSocket
  | .server _ => .ServerSocket

def NetSocketEntry.side (e : NetSocketEntry) : Sides.Entry Emitter where
  state := e.state
  index := e.index
  refed := e.refed
  emitter := { objectType := (e.emitter.map Emitter.objectType).getD .Undefined, ptr := e.emitter }

namespace NetSockets

variable {t t' : NetSockets} {index : Emitter → Option Nat}

/-- The slots behind the reserved ones. -/
def body (t : NetSockets) : List Slot := t.slots.drop t.reservedCapacity

/-- `osSide` of the reserved part. The table keeps of the awaker socket its descriptor. -/
def reservedPollfds (t : NetSockets) : List Pollfd :=
  if t.clustering then
    [{}, { fd := t.awaker, pollin := decide (t.awaker ≠ invalidSocket) }]
  else [{}]

/-- The two vectors of a table without overflow entries. -/
def sides (t : NetSockets) (index : Emitter → Option Nat) : Sides Emitter where
  clustering := t.clustering
  ourSide := List.replicate t.reservedCapacity {} ++ t.body.map fun s => s.entry.side
  osSide := t.reservedPollfds ++ t.body.map Slot.pfd
  usedCount := t.usedCount
  index := index

theorem length_reservedPollfds (t : NetSockets) :
    t.reservedPollfds.length = t.reservedCapacity := by
  unfold reservedPollfds reservedCapacity
  split <;> rfl

theorem body_sides (t : NetSockets) (index : Emitter → Option Nat) :
    (t.sides index).body = t.body.map fun s => (s.entry.side, s.pfd) := by
  have hlen : (List.replicate t.reservedCapacity ({} : Sides.Entry Emitter)).length =
      t.reservedPollfds.length := by rw [List.length_replicate, length_reservedPollfds]
  have hdrop : ((List.replicate t.reservedCapacity ({} : Sides.Entry Emitter)).zip
      t.reservedPollfds).length = t.reservedCapacity := by
    rw [List.length_zip, ← hlen, Nat.min_self, List.length_replicate]
  rw [Sides.body, sides, List.zip_append hlen, List.zip_map']
  exact List.drop_left' hdrop

theorem kept_sides (t : NetSockets) (index : Emitter → Option Nat) :
    (t.sides index).kept = t.keptSlots.map fun s => (s.entry.side, s.pfd) := by
  rw [Sides.kept, body_sides, List.filter_map]
  rfl

theorem length_compactSlots (t : NetSockets) : t.compactSlots.length = t.keptSlots.length := by
  simp [compactSlots, keptSlots]

theorem Framed.length_sides (h : t.Framed) (index : Emitter → Option Nat) :
    (t.sides index).ourSide.length = t.slots.length := by
  have hres := h.reserved
  simp only [sides, body, List.length_append, List.length_replicate, List.length_map,
    List.length_drop]
  omega

theorem compacted_body (t : NetSockets) : t.compacted.body = t.compactSlots := by
  have hlen : (init t.clustering).slots.length = t.compacted.reservedCapacity :=
    List.length_replicate
  rw [body, ← hlen]
  exact List.drop_left

theorem awakers_sides (t : NetSockets) : (t.sides index).awakers = t.awakers := by
  unfold Sides.awakers awakers
  cases hclustering : t.clustering <;> simp [sides, reservedCapacity, reservedPollfds, hclustering,
    Sides.awakerSockIdx]

theorem front_sides (t : NetSockets) (index : Emitter → Option Nat) :
    (t.sides index).front.ourSideNew = List.replicate t.reservedCapacity {} ∧
      (t.sides index).front.osSideNew = t.reservedPollfds := by
  cases hclustering : t.clustering <;> simp [Sides.front, sides, Sides.reservedCapacity,
    reservedCapacity, reservedPollfds, hclustering, List.replicate_succ]

theorem packed_sides (t : NetSockets) (index : Emitter → Option Nat) :
    (t.sides index).packed.ourSideNew =
        List.replicate t.reservedCapacity ({} : Sides.Entry Emitter) ++
          t.compactSlots.map (fun s => s.entry.side) ∧
      (t.sides index).packed.osSideNew = t.reservedPollfds ++ t.compactSlots.map Slot.pfd := by
  obtain ⟨hour, hos, -⟩ := Sides.New.foldl_move (t.sides index).kept (t.sides index).front
  obtain ⟨hfront, hfront'⟩ := t.front_sides index
  refine ⟨?_, ?_⟩
  · rw [Sides.packed, hour, hfront, kept_sides, List.length_replicate]
    refine congrArg _ (List.ext_getElem? fun k => ?_)
    rw [List.getElem?_mapIdx, List.getElem?_map, List.getElem?_map, compactSlots_getElem?,
      Option.map_map, Option.map_map]
    rfl
  · rw [Sides.packed, hos, hfront', kept_sides, List.map_map]
    refine congrArg _ (List.ext_getElem? fun k => ?_)
    rw [List.getElem?_map, List.getElem?_map, compactSlots_getElem?, Option.map_map]
    rfl

end NetSockets

namespace Registry

open NetSockets

variable {r : Registry} {t t' : NetSockets}

theorem Sound.indexOf_kept (h : r.Sound) {s : Slot} (hs : s ∈ r.ioSockets.keptSlots) :
    ∃ o i, s.entry.emitter = some o ∧ r.indexOf o = some i := by
  obtain ⟨i, hi, hused⟩ := mem_keptSlots hs
  obtain ⟨-, o, ho, hindex⟩ := h.consistent.used _ _ (view_slot hi) hused
  exact ⟨o, i, ho, hindex⟩

/-- What the loop has told the objects is what the registry tells them. -/
theorem Sound.packed_index (h : r.Sound) :
    (r.ioSockets.sides r.indexOf).packed.index =
      (r.updateIndices r.ioSockets.compacted).indexOf := by
  have hslots : r.ioSockets.compacted.slots = (NetSockets.init r.ioSockets.clustering).slots ++
      r.ioSockets.compactSlots := rfl
  funext o
  rw [indexOf_updateIndices, Sides.packed, kept_sides]
  by_cases hheld : ∃ s ∈ r.ioSockets.keptSlots, s.entry.emitter = some o
  · obtain ⟨s, hmem, ho⟩ := hheld
    obtain ⟨o', i, ho', hi⟩ := h.indexOf_kept hmem
    cases ho.symm.trans ho'
    obtain ⟨l₁, l₂, hsplit⟩ := List.append_of_mem hmem
    have hk : r.ioSockets.keptSlots[l₁.length]? = some s := by simp [hsplit]
    -- the slot stands at its place in the compacted table, too
    have hj : r.ioSockets.compacted.slots[r.ioSockets.reservedCapacity + l₁.length]? =
        some (s.atIndex (r.ioSockets.reservedCapacity + l₁.length)) := by
      have hlen : (NetSockets.init r.ioSockets.clustering).slots.length =
          r.ioSockets.reservedCapacity := List.length_replicate
      rw [hslots, List.getElem?_append_right (by omega), hlen, Nat.add_sub_cancel_left,
        compactSlots_getElem?, hk]
      rfl
    have hlast : ∀ y ∈ l₂.map fun s => (s.entry.side, s.pfd), y.1.emitter.ptr ≠ some o := by
      intro y hy ho₂
      obtain ⟨s₂, hs₂, rfl⟩ := List.mem_map.mp hy
      obtain ⟨m, hm⟩ := List.mem_iff_getElem?.mp hs₂
      have hk₂ : r.ioSockets.keptSlots[l₁.length + 1 + m]? = some s₂ := by
        rw [hsplit, List.getElem?_append_right (by omega)]
        simpa [Nat.add_assoc, Nat.add_sub_cancel_left, Nat.add_comm 1] using hm
      have hsame := kept_unique h.consistent hk hk₂ ho ho₂
      omega
    rw [hsplit, List.map_append, List.map_cons, Sides.New.index_of_last _ ho hlast,
      indexFor_compacted h.consistent hslots hj (List.mem_filter.mp hmem).2 ho, hi,
      (r.ioSockets.front_sides r.indexOf).1, List.length_replicate, List.length_map]
    rfl
  · have hnone : ∀ i s, r.view.slot i = some s → s.used → s.emitter ≠ some o := by
      intro i s hs hused ho
      obtain ⟨s₁, hs₁, rfl⟩ := view_slot_eq_some hs
      exact hheld ⟨s₁, h.framed.mem_keptSlots hs₁ hused, ho⟩
    rw [indexFor_none hslots hnone, Sides.New.index_of_none]
    · simp [Sides.front, sides]
    · intro x hx ho
      obtain ⟨s, hs, rfl⟩ := List.mem_map.mp hx
      exact hheld ⟨s, hs, ho⟩

/-- The compaction of the two vectors is that of the table. -/
theorem Sound.makeCompactIfNecessary_sides (h : r.Sound) (hcompacts : r.ioSockets.compacts) :
    (r.ioSockets.sides r.indexOf).makeCompactIfNecessary =
      r.ioSockets.makeCompactIfNecessary.map fun t' => t'.sides (r.updateIndices t').indexOf := by
  have hsame : (r.ioSockets.sides r.indexOf).compacts := by
    rw [Sides.compacts, h.framed.length_sides]
    exact hcompacts
  have hlengths : (r.ioSockets.sides r.indexOf).ourSide.length =
      (r.ioSockets.sides r.indexOf).osSide.length := by simp [sides, length_reservedPollfds]
  have hlive : ∀ x ∈ (r.ioSockets.sides r.indexOf).kept,
      x.1.emitter.typed r.ioSockets.clustering ∧ x.1.emitter.isValid r.indexOf := by
    intro x hx
    rw [kept_sides] at hx
    obtain ⟨s, hs, rfl⟩ := List.mem_map.mp hx
    obtain ⟨o, i, ho, hi⟩ := h.indexOf_kept hs
    cases o <;> simp [NetSocketEntry.side, OpaqueEmitter.typed, OpaqueEmitter.isValid, ho, hi,
      Emitter.objectType]
  have hnew : (r.ioSockets.sides r.indexOf).packed.usedCountNew =
      UInt64.ofNat (r.ioSockets.compactSlots.length + r.ioSockets.awakers) := by
    rw [Sides.packed_count, awakers_sides, kept_sides, List.length_map, length_compactSlots]
  obtain ⟨hour, hos⟩ := r.ioSockets.packed_sides r.indexOf
  have husedCount : (r.ioSockets.sides r.indexOf).usedCount = r.ioSockets.usedCount := rfl
  rw [Sides.makeCompactIfNecessary_eq hlengths hlive hsame, hnew,
    makeCompactIfNecessary_compacts hcompacts, husedCount]
  split
  · rfl
  · rw [hour, hos, h.packed_index, ← compacted_body]
    rfl

/-- On the tables of the event loop the loop of `makeCompactIfNecessary` does what its closed form
does. -/
theorem reworkIfNecessary_sides (h : r.Sound) (hcurrent : r.current = none)
    (hmerge : r.ioSockets.mergeAccum = .ok t) :
    (t.sides r.indexOf).makeCompactIfNecessary =
      r.reworkIfNecessary.map fun r' => r'.ioSockets.sides r'.indexOf := by
  simp only [reworkIfNecessary, hcurrent, if_true, hmerge, bind, Except.bind]
  have hframed := h.framed.merge hmerge
  obtain ⟨b, c, rfl, -⟩ := mergeAccum_eq_ok hmerge
  -- the merge moves no slot
  have hmerged : Sound { r with ioSockets := { r.ioSockets with baseSz := b, capacity := c } } :=
    ⟨h.consistent, hframed⟩
  cases hcompacts : NetSockets.compacts { r.ioSockets with baseSz := b, capacity := c } with
  | false =>
    have hno : Sides.compacts
        (NetSockets.sides { r.ioSockets with baseSz := b, capacity := c } r.indexOf) = false := by
      rw [Sides.compacts, hmerged.framed.length_sides]
      exact hcompacts
    simp only [Sides.makeCompactIfNecessary, NetSockets.makeCompactIfNecessary, hno, hcompacts,
      Bool.not_false, if_true, Bool.false_eq_true, if_false]
    rfl
  | true =>
    refine (hmerged.makeCompactIfNecessary_sides hcompacts).trans ?_
    cases NetSockets.makeCompactIfNecessary { r.ioSockets with baseSz := b, capacity := c } with
    | error => rfl
    | ok => rfl

end Registry

/-- Forty sockets are created; an immediate and the timer it sets keep the loop going. The run ends
at the end of the first iteration. -/
def fortySockets : List Action :=
  (List.range 40).map (fun i => Action.call (.createSocket (i + 5))) ++
    [Action.timer .setInmediate, .ret] ++ List.replicate 5 (Action.infra {}) ++
    [Action.timer (.setTimeout 1 0), .ret] ++ List.replicate 4 (Action.infra {})

/-- At the end of `fortySockets` the overflow is merged and the table is compacted. -/
theorem reworkIfNecessary_sides_forty :
    ∃ w t, Loop.run Loop.init fortySockets = some w ∧ w.2.ioSockets.mergeAccum = .ok t ∧
      (t.sides w.2.indexOf).compacts = true ∧ t.slots.length = 41 ∧
      (t.sides w.2.indexOf).makeCompactIfNecessary =
        w.2.reworkIfNecessary.map fun r' => r'.ioSockets.sides r'.indexOf := by
  obtain ⟨w, hrun, hcurrent, t, hmerge, hcompacts, hlength⟩ :
      ∃ w, Loop.run Loop.init fortySockets = some w ∧ w.2.current = none ∧
        ∃ t, w.2.ioSockets.mergeAccum.toOption = some t ∧
          (t.sides w.2.indexOf).compacts = true ∧ t.slots.length = 41 := by
    decide +kernel
  have hmerge := toOption_eq_some hmerge
  exact ⟨w, t, hrun, hmerge, hcompacts, hlength,
    Registry.reworkIfNecessary_sides (Loop.sound hrun) hcurrent hmerge⟩

end NodeCpp
