import Mathlib.Logic.Function.Basic
import NodeCpp.Lib.Position
import NodeCpp.Table.NetSockets

/-!
# Compaction, vector by vector

`NetSockets::makeCompactIfNecessary` as the source has it: one pass over `ourSide` and
`osSide` that moves the used entries to two new vectors and tells every object its new
index on the way. The entries have all the object types of `OpaqueEmitter` here, and
the objects are of any type `ι`; an object is told through the soft pointer of its
entry. The indices the objects remember are a function, `none` where the object is
gone.

* `Sides.place` -- where the entry of a position goes: behind the entries before it.
* `Sides.New.move` -- one entry is moved, and its object told.
* `Sides.compactStep_eq`, `Sides.compactLoop_eq` -- an iteration moves its entry if it is used, and
  so the loop moves the used entries.
* `Sides.packed_front`, `Sides.packed_kept` -- the new vectors.
-/

namespace NodeCpp

open Lib

inductive OpaqueEmitter.ObjectType
  | Undefined
  | ClientSocket
  | ServerSocket
  | AgentServer
  deriving DecidableEq, Repr

/-- `OpaqueEmitter`, a tagged soft pointer. -/
structure OpaqueEmitter (ι : Type) where
  objectType : OpaqueEmitter.ObjectType := .Undefined
  ptr : Option ι := none
  deriving DecidableEq, Repr

namespace OpaqueEmitter

variable {ι : Type}

/-- `isValid()`: the object is there. -/
def isValid (index : ι → Option Nat) (e : OpaqueEmitter ι) : Bool :=
  e.ptr.any fun o => (index o).isSome

/-- The type is one of those the build knows; agents belong to clustering. -/
def typed (clustering : Bool) (e : OpaqueEmitter ι) : Bool :=
  match e.objectType with
  | .Undefined => false
  | .ClientSocket | .ServerSocket => true
  | .AgentServer => clustering

end OpaqueEmitter

/-- `NetSocketEntry`. -/
structure Sides.Entry (ι : Type) where
  state : EntryState := .Unused
  index : Nat := 0
  refed : Bool := false
  emitter : OpaqueEmitter ι := {}
  deriving DecidableEq, Repr

namespace Sides.Entry

variable {ι : Type} {clustering : Bool} {index : ι → Option Nat} {e : Entry ι}
  {o : ι}

def used (e : Entry ι) : Bool := decide (e.state ≠ .Unused)

/-- `isUsed()`, with the assertion that the object of a used entry is there. -/
def isUsed (index : ι → Option Nat) (e : Entry ι) : Except Failure Bool :=
  if e.state = .Unused ∨ (e.state ≠ .Unused ∧ e.emitter.isValid index) then
    .ok (decide (e.state ≠ .Unused))
  else .error .assertion

/-- The body shared by `getClientSocketData`, `getServerSocketData` and `getAgentServerData`. -/
def getData (index : ι → Option Nat) (e : Entry ι) (objectType : OpaqueEmitter.ObjectType) :
    Except Failure (Option ι) :=
  if !e.emitter.isValid index then .error .assertion
  else if e.emitter.objectType ≠ objectType then .error .assertion
  else .ok e.emitter.ptr

/-- One case of `updateIndex`. -/
def tell [DecidableEq ι] (index : ι → Option Nat) (e : Entry ι) (idx : Nat)
    (objectType : OpaqueEmitter.ObjectType) : Except Failure (Entry ι × (ι → Option Nat)) := do
  let pdata ← e.getData index objectType
  match pdata with
  | none => .ok ({ e with index := idx }, index)
  | some o => .ok ({ e with index := idx }, Function.update index o (some idx))

/-- `updateIndex( idx )`: the entry and its object are told. -/
def updateIndex [DecidableEq ι] (clustering : Bool) (index : ι → Option Nat) (e : Entry ι)
    (idx : Nat) : Except Failure (Entry ι × (ι → Option Nat)) :=
  match e.emitter.objectType with
  | .ClientSocket => e.tell index idx .ClientSocket
  | .ServerSocket => e.tell index idx .ServerSocket
  | .AgentServer => if clustering then e.tell index idx .AgentServer else .error .assertion
  | .Undefined => .error .assertion

theorem isUsed_of_unused (index : ι → Option Nat) (h : e.used = false) :
    e.isUsed index = .ok false := by
  have hstate : e.state = .Unused := by simpa [used] using h
  simp [isUsed, hstate]

theorem isUsed_of_valid (h : e.used) (hvalid : e.emitter.isValid index) :
    e.isUsed index = .ok true := by
  have hstate : e.state ≠ .Unused := by simpa [used] using h
  simp [isUsed, hstate, hvalid]

variable [DecidableEq ι]

theorem tell_of_valid (ho : e.emitter.ptr = some o) (hvalid : e.emitter.isValid index) (idx : Nat) :
    e.tell index idx e.emitter.objectType =
      .ok ({ e with index := idx }, Function.update index o (some idx)) := by
  simp only [tell, getData, hvalid, Bool.not_true, Bool.false_eq_true, if_false, ne_eq,
    not_true_eq_false, bind, Except.bind, ho]

theorem updateIndex_of_valid (htyped : e.emitter.typed clustering) (ho : e.emitter.ptr = some o)
    (hvalid : e.emitter.isValid index) (idx : Nat) :
    e.updateIndex clustering index idx =
      .ok ({ e with index := idx }, Function.update index o (some idx)) := by
  rw [← tell_of_valid ho hvalid idx]
  unfold OpaqueEmitter.typed at htyped
  cases htype : e.emitter.objectType with
  | Undefined => simp [htype] at htyped
  | ClientSocket | ServerSocket => simp only [updateIndex, htype]
  | AgentServer =>
    simp only [htype] at htyped
    simp only [updateIndex, htype, htyped, if_true]

end Sides.Entry

/-- `ourSide` and `osSide` with `usedCount`, and the indices the objects remember. -/
structure Sides (ι : Type) where
  clustering : Bool
  ourSide : List (Sides.Entry ι)
  osSide : List Pollfd
  usedCount : UInt64
  index : ι → Option Nat

namespace Sides

variable {ι : Type}

def reservedCapacity (s : Sides ι) : Nat := if s.clustering then 2 else 1

def awakerSockIdx : Nat := 1

/-- The local variables of `makeCompactIfNecessary`, and the indices told so far. -/
structure New (ι : Type) where
  ourSideNew : List (Entry ι)
  osSideNew : List Pollfd
  usedCountNew : UInt64
  index : ι → Option Nat

def copyReserved (s : Sides ι) : Except Failure (New ι) :=
  if s.clustering then
    match s.ourSide[awakerSockIdx]?, s.osSide[awakerSockIdx]? with
    | some entry, some pfd =>
        .ok { ourSideNew := [{}, entry]
              osSideNew := [{}, pfd]
              usedCountNew := if pfd.fd ≠ invalidSocket then 1 else 0
              index := s.index }
    | _, _ => .error .assertion
  else .ok { ourSideNew := [{}], osSideNew := [{}], usedCountNew := 0, index := s.index }

def compactStep [DecidableEq ι] (s : Sides ι) (i : Nat) (c : New ι) : Except Failure (New ι) :=
  match s.ourSide[i]?, s.osSide[i]? with
  | some entry, some pfd => do
      let used ← entry.isUsed c.index
      if used then do
        let (entry, index) ← entry.updateIndex s.clustering c.index c.ourSideNew.length
        .ok { ourSideNew := c.ourSideNew ++ [entry]
              osSideNew := c.osSideNew ++ [pfd]
              usedCountNew := c.usedCountNew + 1
              index := index }
      else .ok c
  | _, _ => .error .assertion

/-- The loop over the next `n` positions from `i`. -/
def compactLoop [DecidableEq ι] (s : Sides ι) : Nat → Nat → New ι → Except Failure (New ι)
  | 0, _, c => .ok c
  | n + 1, i, c => do
      let c ← s.compactStep i c
      s.compactLoop n (i + 1) c

/-- The condition of `makeCompactIfNecessary`. -/
def compacts (s : Sides ι) : Bool :=
  !(decide (s.ourSide.length ≤ NetSockets.compactionMinSize) ||
    decide (s.usedCount.toNat < s.ourSide.length / 2))

def makeCompactIfNecessary [DecidableEq ι] (s : Sides ι) : Except Failure (Sides ι) :=
  if !s.compacts then .ok s
  else do
    let c ← s.copyReserved
    let c ← s.compactLoop (s.ourSide.length - s.reservedCapacity) s.reservedCapacity c
    if c.usedCountNew ≠ s.usedCount then .error .assertion
    else .ok { s with ourSide := c.ourSideNew, osSide := c.osSideNew, index := c.index }

/-! ## Positions -/

def usedAt (s : Sides ι) (i : Nat) : Bool :=
  decide (s.reservedCapacity ≤ i) && (s.ourSide[i]?).any Entry.used

/-- Where the entry of a position goes. -/
def place (s : Sides ι) (i : Nat) : Nat := s.reservedCapacity + (below s.usedAt i).length

/-- One for an installed awaker socket. -/
def awakers (s : Sides ι) : Nat :=
  if s.clustering ∧ (s.osSide[awakerSockIdx]?).any fun p => decide (p.fd ≠ invalidSocket) then 1
  else 0

/-- The number of used entries, the one of the awaker socket included. -/
def usedEntries (s : Sides ι) : Nat := (below s.usedAt s.ourSide.length).length + s.awakers

/-- The two vectors belong together, every used entry has an object, and no object has two. -/
structure Wellformed (s : Sides ι) : Prop where
  lengths : s.ourSide.length = s.osSide.length
  live : ∀ i e, s.usedAt i → s.ourSide[i]? = some e →
    e.emitter.typed s.clustering ∧ e.emitter.isValid s.index
  distinct : ∀ i j e e', s.usedAt i → s.usedAt j → s.ourSide[i]? = some e →
    s.ourSide[j]? = some e' → e.emitter.ptr = e'.emitter.ptr → i = j

variable {s : Sides ι} {i : Nat} {c : New ι}

theorem reserved_le_of_compacts (h : s.compacts) : s.reservedCapacity ≤ s.ourSide.length := by
  have hsize : NetSockets.compactionMinSize < s.ourSide.length := by
    simp only [compacts, Bool.not_eq_true', Bool.or_eq_false_iff, decide_eq_false_iff_not] at h
    exact Nat.not_le.mp h.1
  have hcap : s.reservedCapacity ≤ 2 := by
    unfold reservedCapacity
    split <;> decide
  simp only [NetSockets.compactionMinSize] at hsize
  omega

theorem place_lt {j : Nat} (hi : s.usedAt i) (h : i < j) : s.place i < s.place j := by
  have := length_below_lt hi h
  simp only [place]
  omega

def body (s : Sides ι) : List (Entry ι × Pollfd) :=
  (s.ourSide.zip s.osSide).drop s.reservedCapacity

def kept (s : Sides ι) : List (Entry ι × Pollfd) := s.body.filter fun x => x.1.used

theorem length_body (hlengths : s.ourSide.length = s.osSide.length) :
    s.body.length = s.ourSide.length - s.reservedCapacity := by
  rw [body, List.length_drop, List.length_zip, hlengths, Nat.min_self]

theorem mem_kept {x : Entry ι × Pollfd} (hx : x ∈ s.kept) :
    ∃ k, s.ourSide[s.reservedCapacity + k]? = some x.1 ∧
      s.osSide[s.reservedCapacity + k]? = some x.2 ∧ x.1.used := by
  obtain ⟨hmem, hused⟩ := List.mem_filter.mp hx
  obtain ⟨k, hk⟩ := List.mem_iff_getElem?.mp hmem
  rw [body, List.getElem?_drop, List.getElem?_zip_eq_some] at hk
  exact ⟨k, hk.1, hk.2, hused⟩

theorem usedAt_body (hlengths : s.ourSide.length = s.osSide.length) (k : Nat) :
    s.usedAt (s.reservedCapacity + k) = (s.body[k]?).any fun x => x.1.used := by
  have hres : decide (s.reservedCapacity ≤ s.reservedCapacity + k) = true := by simp
  rw [usedAt, hres, Bool.true_and, body, List.getElem?_drop]
  rcases Nat.lt_or_ge (s.reservedCapacity + k) s.ourSide.length with hlt | hge
  · rw [List.getElem?_eq_getElem (l := s.ourSide.zip s.osSide) (by simpa [hlengths] using hlt),
      List.getElem?_eq_getElem hlt, List.getElem_zip]
    rfl
  · rw [List.getElem?_eq_none hge, List.getElem?_eq_none (by simp [hlengths.symm, hge])]
    rfl

/-- The place of an entry is told by the used entries before it. -/
theorem place_body (hlengths : s.ourSide.length = s.osSide.length) (k : Nat) :
    s.place (s.reservedCapacity + k) =
      s.reservedCapacity + (s.body.take k).countP fun x => x.1.used := by
  have hreserved : ∀ j < s.reservedCapacity, s.usedAt j = false := by
    intro j hj
    simp [usedAt, Nat.not_le.mpr hj]
  rw [place, length_below_add hreserved, countP_take, funext (usedAt_body hlengths)]

theorem place_length (hlengths : s.ourSide.length = s.osSide.length)
    (hreserved : s.reservedCapacity ≤ s.ourSide.length) :
    s.place s.ourSide.length = s.reservedCapacity + s.kept.length := by
  have hlen := place_body hlengths s.body.length
  rw [List.take_length, List.countP_eq_length_filter, length_body hlengths,
    Nat.add_sub_cancel' hreserved] at hlen
  exact hlen

/-! ## The loop -/

/-- The reserved part of the new vectors. -/
def front (s : Sides ι) : New ι where
  ourSideNew := {} :: (s.ourSide.take s.reservedCapacity).drop 1
  osSideNew := {} :: (s.osSide.take s.reservedCapacity).drop 1
  usedCountNew := UInt64.ofNat s.awakers
  index := s.index

theorem copyReserved_eq (hlengths : s.ourSide.length = s.osSide.length)
    (hreserved : s.reservedCapacity ≤ s.ourSide.length) : s.copyReserved = .ok s.front := by
  unfold copyReserved front
  cases hclustering : s.clustering with
  | false => simp [reservedCapacity, awakers, hclustering]
  | true =>
    have htwo : s.reservedCapacity = 2 := by simp [reservedCapacity, hclustering]
    rw [htwo] at hreserved
    match hour : s.ourSide, hos : s.osSide with
    | _ :: e :: _, _ :: p :: _ =>
      by_cases hfd : p.fd = invalidSocket <;>
        simp [awakerSockIdx, htwo, awakers, hclustering, hos, hfd]
    | [], _ | [_], _ => simp [hour] at hreserved
    | _ :: _ :: _, [] | _ :: _ :: _, [_] => simp [hour, hos] at hlengths

theorem length_front (hlengths : s.ourSide.length = s.osSide.length)
    (hreserved : s.reservedCapacity ≤ s.ourSide.length) :
    s.front.ourSideNew.length = s.reservedCapacity ∧
      s.front.osSideNew.length = s.reservedCapacity := by
  have hpos : 0 < s.reservedCapacity := by
    unfold reservedCapacity
    split <;> decide
  simp only [front, List.length_cons, List.length_drop, List.length_take]
  omega

variable [DecidableEq ι]

/-- An entry goes behind those moved before, and its object is told. -/
def New.move (c : New ι) (x : Entry ι × Pollfd) : New ι where
  ourSideNew := c.ourSideNew ++ [{ x.1 with index := c.ourSideNew.length }]
  osSideNew := c.osSideNew ++ [x.2]
  usedCountNew := c.usedCountNew + 1
  index :=
    match x.1.emitter.ptr with
    | some o => Function.update c.index o (some c.ourSideNew.length)
    | none => c.index

theorem New.foldl_move (l : List (Entry ι × Pollfd)) (c : New ι) :
    (l.foldl move c).ourSideNew = c.ourSideNew ++
        l.mapIdx (fun k x => { x.1 with index := c.ourSideNew.length + k }) ∧
      (l.foldl move c).osSideNew = c.osSideNew ++ l.map Prod.snd ∧
      (l.foldl move c).usedCountNew = c.usedCountNew + UInt64.ofNat l.length := by
  induction l generalizing c with
  | nil => simp
  | cons x l ih =>
    obtain ⟨hour, hos, hcount⟩ := ih (c.move x)
    refine ⟨?_, ?_, ?_⟩
    · rw [List.foldl_cons, hour]
      simp [move, Nat.add_assoc, Nat.add_comm 1]
    · rw [List.foldl_cons, hos]
      simp [move]
    · rw [List.foldl_cons, hcount, List.length_cons, Nat.add_comm l.length, UInt64.ofNat_add,
        ← UInt64.add_assoc]
      rfl

theorem New.isSome_move (c : New ι) (x : Entry ι × Pollfd) {o : ι} (h : (c.index o).isSome) :
    ((c.move x).index o).isSome := by
  cases hptr : x.1.emitter.ptr with
  | none => simpa only [move, hptr] using h
  | some o' =>
    simp only [move, hptr, Function.update_apply]
    split
    · rfl
    · exact h

theorem New.index_of_none {l : List (Entry ι × Pollfd)} (c : New ι) {o : ι}
    (h : ∀ x ∈ l, x.1.emitter.ptr ≠ some o) : (l.foldl move c).index o = c.index o := by
  refine List.foldlRecOn (motive := fun c' => c'.index o = c.index o) l move rfl ?_
  intro c' h' x hx
  cases hptr : x.1.emitter.ptr with
  | none => simpa only [move, hptr] using h'
  | some o' =>
    have hne : o ≠ o' := by
      rintro rfl
      exact h x hx hptr
    simp only [move, hptr, Function.update_of_ne hne, h']

/-- An object is told the place of its last entry. -/
theorem New.index_of_last {l₁ l₂ : List (Entry ι × Pollfd)} {x : Entry ι × Pollfd} (c : New ι)
    {o : ι} (hx : x.1.emitter.ptr = some o) (h : ∀ y ∈ l₂, y.1.emitter.ptr ≠ some o) :
    ((l₁ ++ x :: l₂).foldl move c).index o = some (c.ourSideNew.length + l₁.length) := by
  rw [List.foldl_append, List.foldl_cons, index_of_none _ h]
  simp only [move, hx, Function.update_self, (foldl_move l₁ c).1, List.length_append,
    List.length_mapIdx]

/-- One iteration moves a used entry, and leaves an unused one behind. -/
theorem compactStep_eq {x : Entry ι × Pollfd} (he : s.ourSide[i]? = some x.1)
    (hp : s.osSide[i]? = some x.2)
    (hlive : x.1.used → x.1.emitter.typed s.clustering ∧ x.1.emitter.isValid c.index) :
    s.compactStep i c = .ok (if x.1.used then c.move x else c) := by
  cases hused : x.1.used with
  | false => simp [compactStep, he, hp, Entry.isUsed_of_unused c.index hused, bind, Except.bind]
  | true =>
    obtain ⟨htyped, hvalid⟩ := hlive hused
    obtain ⟨o, ho, -⟩ := (Option.any_eq_true _ _).mp hvalid
    simp only [compactStep, he, hp, Entry.isUsed_of_valid hused hvalid, bind, Except.bind, if_true,
      Entry.updateIndex_of_valid htyped ho hvalid, New.move, ho]

theorem compactLoop_eq {l : List (Entry ι × Pollfd)} (hl : (s.ourSide.zip s.osSide).drop i = l)
    (hlive : ∀ x ∈ l, x.1.used → x.1.emitter.typed s.clustering ∧ x.1.emitter.isValid c.index) :
    s.compactLoop l.length i c = .ok ((l.filter fun x => x.1.used).foldl New.move c) := by
  induction l generalizing i c with
  | nil => rfl
  | cons x l ih =>
    have hx : (s.ourSide.zip s.osSide)[i]? = some x := by
      rw [← Nat.add_zero i, ← List.getElem?_drop, hl]
      rfl
    obtain ⟨he, hp⟩ := List.getElem?_zip_eq_some.mp hx
    have hrest : (s.ourSide.zip s.osSide).drop (i + 1) = l := by
      rw [← List.drop_drop, hl]
      rfl
    -- the objects of the entries to come are still there
    have hlive' : ∀ y ∈ l, y.1.used → y.1.emitter.typed s.clustering ∧
        y.1.emitter.isValid (if x.1.used then c.move x else c).index := by
      intro y hy hused
      obtain ⟨htyped, hvalid⟩ := hlive y (List.mem_cons_of_mem x hy) hused
      refine ⟨htyped, ?_⟩
      split
      · obtain ⟨o, ho, hindex⟩ := (Option.any_eq_true _ _).mp hvalid
        exact (Option.any_eq_true _ _).mpr ⟨o, ho, c.isSome_move x hindex⟩
      · exact hvalid
    rw [List.length_cons, compactLoop, compactStep_eq he hp (hlive x List.mem_cons_self),
      ok_bind, ih hrest hlive', List.filter_cons]
    split <;> rfl

def packed (s : Sides ι) : New ι := s.kept.foldl New.move s.front

theorem makeCompactIfNecessary_eq (hlengths : s.ourSide.length = s.osSide.length)
    (hlive : ∀ x ∈ s.kept, x.1.emitter.typed s.clustering ∧ x.1.emitter.isValid s.index)
    (hcompacts : s.compacts) :
    s.makeCompactIfNecessary =
      if s.packed.usedCountNew ≠ s.usedCount then .error .assertion
      else .ok { s with
        ourSide := s.packed.ourSideNew, osSide := s.packed.osSideNew,
        index := s.packed.index } := by
  have hreserved := reserved_le_of_compacts hcompacts
  have hloop := compactLoop_eq (s := s) (c := s.front) rfl fun x hx hused =>
    hlive x (List.mem_filter.mpr ⟨hx, hused⟩)
  rw [← body, length_body hlengths] at hloop
  rw [makeCompactIfNecessary, hcompacts, copyReserved_eq hlengths hreserved]
  simp only [Bool.not_true, Bool.false_eq_true, if_false, ok_bind, hloop]
  rfl

theorem packed_count (s : Sides ι) :
    s.packed.usedCountNew = UInt64.ofNat (s.kept.length + s.awakers) := by
  rw [packed, (New.foldl_move s.kept s.front).2.2, Nat.add_comm, UInt64.ofNat_add]
  rfl

theorem packed_front (hlengths : s.ourSide.length = s.osSide.length)
    (hreserved : s.reservedCapacity ≤ s.ourSide.length) {k : Nat} (hk : k < s.reservedCapacity) :
    s.packed.ourSideNew[k]? = s.front.ourSideNew[k]? ∧
      s.packed.osSideNew[k]? = s.front.osSideNew[k]? := by
  obtain ⟨hour, hos⟩ := length_front hlengths hreserved
  rw [packed, (New.foldl_move s.kept s.front).1, (New.foldl_move s.kept s.front).2.1]
  exact ⟨List.getElem?_append_left (hour ▸ hk), List.getElem?_append_left (hos ▸ hk)⟩

theorem packed_awaker (hlengths : s.ourSide.length = s.osSide.length)
    (hreserved : s.reservedCapacity ≤ s.ourSide.length) (hclustering : s.clustering) :
    s.packed.ourSideNew[awakerSockIdx]? = s.ourSide[awakerSockIdx]? ∧
      s.packed.osSideNew[awakerSockIdx]? = s.osSide[awakerSockIdx]? := by
  have htwo : s.reservedCapacity = 2 := by simp [reservedCapacity, hclustering]
  obtain ⟨hour, hos⟩ := packed_front hlengths hreserved (k := awakerSockIdx) (by rw [htwo]; decide)
  refine ⟨hour.trans ?_, hos.trans ?_⟩ <;> simp [front, htwo, awakerSockIdx]

theorem packed_lengths (hlengths : s.ourSide.length = s.osSide.length)
    (hreserved : s.reservedCapacity ≤ s.ourSide.length) :
    s.packed.ourSideNew.length = s.reservedCapacity + s.kept.length ∧
      s.packed.osSideNew.length = s.reservedCapacity + s.kept.length := by
  obtain ⟨hour, hos, -⟩ := New.foldl_move s.kept s.front
  obtain ⟨hfront, hfront'⟩ := length_front hlengths hreserved
  simp only [packed, hour, hos, List.length_append, List.length_mapIdx, List.length_map, hfront,
    hfront', and_self]

theorem packed_kept (hlengths : s.ourSide.length = s.osSide.length)
    (hreserved : s.reservedCapacity ≤ s.ourSide.length) (k : Nat) :
    s.packed.ourSideNew[s.reservedCapacity + k]? =
        (s.kept[k]?).map (fun x => { x.1 with index := s.reservedCapacity + k }) ∧
      s.packed.osSideNew[s.reservedCapacity + k]? = (s.kept[k]?).map Prod.snd := by
  obtain ⟨hour, hos⟩ := length_front hlengths hreserved
  rw [packed, (New.foldl_move s.kept s.front).1, (New.foldl_move s.kept s.front).2.1,
    List.getElem?_append_right (by omega), List.getElem?_append_right (by omega), hour, hos,
    Nat.add_sub_cancel_left, List.getElem?_mapIdx, List.getElem?_map]
  exact ⟨rfl, rfl⟩

end Sides

end NodeCpp
