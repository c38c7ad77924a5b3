import Mathlib.Tactic.Common
import NodeCpp.Lib.Machine
import NodeCpp.Net.Os

/-!
# NetSockets: the socket table

`ourSide` and `osSide`, with their overflow vectors `ourSideAccum` and
`osSideAccum`. The four vectors are one list of slots here: the entry and the
`pollfd` of an index belong together, and index `ourSide.size() + k` denotes the
`k`-th overflow entry (`baseSz` is `ourSide.size()`). The overflow vectors are
only used once `ourSide.size()` has reached `ourSide.capacity()`, so that the
code's `idx - ourSide.capacity()` is the position behind `baseSz`.

`isUsed()` and `isAssociated()` of an entry also assert that the emitter of a
used entry is alive. That always holds (`View.Consistent`), so the table
leaves it out.
-/

namespace NodeCpp

open Lib

/-- `NetSocketEntry::State`. -/
inductive EntryState
  | Unused
  | SockIssued
  | SockAssociated
  | SockClosed
  deriving DecidableEq, Repr

/-- `OpaqueEmitter`: a client socket or a server, named by the order of construction. -/
inductive Emitter
  | client (id : Nat)
  | server (id : Nat)
  deriving DecidableEq, Repr

structure NetSocketEntry where
  state : EntryState := .Unused
  index : Nat := 0
  refed : Bool := false
  emitter : Option Emitter := none
  deriving DecidableEq, Repr

/-- A `revents` mask; `err` stands for `POLLERR | POLLNVAL`. -/
structure Revents where
  err : Bool := false
  hup : Bool := false
  pollin : Bool := false
  pollout : Bool := false
  deriving DecidableEq, Repr

/-- `pollfd`, with the two event bits the code sets. -/
structure Pollfd where
  fd : Int := 0
  pollin : Bool := false
  pollout : Bool := false
  revents : Revents := {}
  deriving DecidableEq, Repr

structure Slot where
  entry : NetSocketEntry := {}
  pfd : Pollfd := {}
  deriving DecidableEq, Repr

def invalidSocket : Int := -1

namespace Slot

def used (s : Slot) : Bool := decide (s.entry.state ≠ .Unused)

def associated (s : Slot) : Bool := decide (s.entry.state = .SockAssociated)

/-- A freshly issued entry; the descriptor is negated so that `poll` skips it. -/
def issued (index : Nat) (emitter : Emitter) (osSocket : Nat) : Slot where
  entry := { state := .SockIssued, index := index, emitter := some emitter }
  pfd := { fd := -(osSocket : Int) }

@[simp] theorem used_issued (index : Nat) (emitter : Emitter) (osSocket : Nat) :
    (issued index emitter osSocket).used = true := rfl

@[simp] theorem associated_issued (index : Nat) (emitter : Emitter) (osSocket : Nat) :
    (issued index emitter osSocket).associated = false := rfl

theorem used_of_associated {s : Slot} (h : s.associated) : s.used := by
  simp_all [used, associated]

theorem associated_of_unused {s : Slot} (h : s.used = false) : s.associated = false := by
  simp_all [used, associated]

end Slot

structure NetSockets where
  clustering : Bool := false
  slots : List Slot
  baseSz : Nat
  capacity : Nat
  associatedCount : UInt64 := 0
  usedCount : UInt64 := 0
  awaker : Int := invalidSocket
  deriving DecidableEq, Repr

namespace NetSockets

def reservedCapacity (t : NetSockets) : Nat := if t.clustering then 2 else 1

def compactionMinSize : Nat := 32

/-- An upper bound of `max_size()` of the vectors. -/
def maxSize : Nat := 2 ^ 63

/-- `NetSockets()`. The descriptor of the awaker socket, kept in `osSide[awakerSockIdx]`, is
the field `awaker`. -/
def init (clustering : Bool) : NetSockets where
  clustering := clustering
  slots := List.replicate (if clustering then 2 else 1) {}
  baseSz := if clustering then 2 else 1
  capacity := 1 + if clustering then 2 else 1

/-- The capacity a vector reaches by doubling until it holds `need` elements. -/
def growTo (need : Nat) : Nat → Nat → Nat
  | 0, capacity => capacity
  | fuel + 1, capacity => if need ≤ capacity then capacity else growTo need fuel (2 * capacity)

/-- The bounds check shared by all accessors. -/
def slotAt (t : NetSockets) (idx : Nat) : Except Failure Slot :=
  if idx < t.reservedCapacity then .error .assertion
  else
    match t.slots[idx]? with
    | none => .error .assertion
    | some s => .ok s

def isUsed (t : NetSockets) (idx : Nat) : Except Failure Bool := do
  let s ← t.slotAt idx
  .ok s.used

def at' (t : NetSockets) (idx : Nat) : Except Failure Slot := do
  let s ← t.slotAt idx
  if s.used then .ok s else .error .assertion

def isValidId (t : NetSockets) (idx : Nat) : Bool :=
  decide (t.reservedCapacity ≤ idx) && decide (idx < t.slots.length)

def size (t : NetSockets) : Nat := t.baseSz - 1

def setSlot (t : NetSockets) (idx : Nat) (s : Slot) : NetSockets :=
  { t with slots := t.slots.set idx s }

@[simp] theorem setSlot_slots (t : NetSockets) (idx : Nat) (s : Slot) :
    (t.setSlot idx s).slots = t.slots.set idx s := rfl

@[simp] theorem setSlot_associatedCount (t : NetSockets) (idx : Nat) (s : Slot) :
    (t.setSlot idx s).associatedCount = t.associatedCount := rfl

/-- The index `addEntry` assigns: the first unused one of `ourSide`, or else a new one. -/
def freeIndex (t : NetSockets) : Nat :=
  match ((t.slots.take t.baseSz).drop t.reservedCapacity).findIdx? fun s => !s.used with
  | some k => t.reservedCapacity + k
  | none => t.slots.length

/-- `addEntry`. A vector at its maximal size throws. -/
def addEntry (t : NetSockets) (emitter : Emitter) (osSocket : Nat) : Except Failure NetSockets :=
  if osSocket = 0 then .error .assertion
  else
    let i := t.freeIndex
    let s := Slot.issued i emitter osSocket
    if i < t.slots.length then .ok { t.setSlot i s with usedCount := t.usedCount + 1 }
    else if maxSize ≤ t.slots.length + 1 then .error .error
    else
      .ok { t with slots := t.slots ++ [s]
                   baseSz := if t.baseSz < t.capacity then t.baseSz + 1 else t.baseSz
                   usedCount := t.usedCount + 1 }

def setAwakerSocket (t : NetSockets) (sock : Nat) : NetSockets :=
  { t with awaker := sock
           usedCount := t.usedCount + 1
           associatedCount := t.associatedCount + 1 }

def setAssociated (t : NetSockets) (idx : Nat) : Except Failure NetSockets := do
  let s ← t.slotAt idx
  if s.entry.state ≠ .SockIssued then .error .assertion
  else if s.pfd.pollin ∨ s.pfd.pollout ∨ s.pfd.revents ≠ {} ∨ ¬0 < -s.pfd.fd then
    .error .assertion
  else
    .ok { t.setSlot idx { entry := { s.entry with state := .SockAssociated }
                          pfd := { s.pfd with fd := -s.pfd.fd } } with
          associatedCount := t.associatedCount + 1 }

/-- The body shared by `setPollin`, `unsetPollin`, `setPollout` and `unsetPollout`. -/
def modifyEvents (t : NetSockets) (idx : Nat) (f : Pollfd → Pollfd) :
    Except Failure NetSockets := do
  let s ← t.slotAt idx
  .ok (t.setSlot idx { s with pfd := f s.pfd })

def setPollin (t : NetSockets) (idx : Nat) := t.modifyEvents idx ({ · with pollin := true })

def unsetPollin (t : NetSockets) (idx : Nat) := t.modifyEvents idx ({ · with pollin := false })

def setPollout (t : NetSockets) (idx : Nat) := t.modifyEvents idx ({ · with pollout := true })

def unsetPollout (t : NetSockets) (idx : Nat) := t.modifyEvents idx ({ · with pollout := false })

/-- `setRefed`. Only an entry of `ourSide` has to be used to be refed. -/
def setRefed (t : NetSockets) (idx : Nat) (refed : Bool) : Except Failure NetSockets := do
  let s ← t.slotAt idx
  if idx < t.baseSz ∧ refed ∧ !s.used then .error .assertion
  else .ok (t.setSlot idx { s with entry := { s.entry with refed := refed } })

/-- `setUnused`. Whether the entry was associated is told from the descriptor. -/
def setUnused (t : NetSockets) (idx : Nat) : Except Failure NetSockets := do
  let s ← t.slotAt idx
  .ok { t.setSlot idx { entry := { s.entry with state := .Unused, index := 0 }
                        pfd := { s.pfd with fd := invalidSocket } } with
        associatedCount :=
          if s.pfd.fd ≠ invalidSocket then t.associatedCount - 1 else t.associatedCount
        usedCount := t.usedCount - 1 }

/-- `setSocketClosed`. Whether the entry was associated is told from its state. -/
def setSocketClosed (t : NetSockets) (idx : Nat) : Except Failure NetSockets := do
  let s ← t.at' idx
  .ok { t.setSlot idx { entry := { s.entry with state := .SockClosed }
                        pfd := { s.pfd with fd := invalidSocket } } with
        associatedCount := if s.associated then t.associatedCount - 1 else t.associatedCount }

/-- The assignment `entry = NetSocketEntry( idx )` that ends the processing of a close event:
the counters and the `pollfd` stay as they are. -/
def resetEntry (t : NetSockets) (idx : Nat) : Except Failure NetSockets := do
  let s ← t.slotAt idx
  .ok (t.setSlot idx { s with entry := { index := idx } })

/-- The first half of `reworkIfNecessary`: the overflow entries join `ourSide`. -/
def mergeAccum (t : NetSockets) : Except Failure NetSockets :=
  if t.slots.length ≤ t.baseSz then .ok t
  else if t.baseSz ≠ t.capacity then .error .assertion
  else if ((t.slots.drop t.baseSz).zipIdx t.baseSz).all fun (s, i) => s.entry.index == i then
    .ok { t with baseSz := t.slots.length
                 capacity := growTo t.slots.length t.slots.length t.capacity }
  else .error .assertion

/-- One for an installed awaker socket. -/
def awakers (t : NetSockets) : Nat := if t.clustering ∧ t.awaker ≠ invalidSocket then 1 else 0

/-- `makeCompactIfNecessary` compacts the table. -/
def compacts (t : NetSockets) : Bool :=
  !(decide (t.slots.length ≤ compactionMinSize) ||
    decide (t.usedCount.toNat < t.slots.length / 2))

/-- The slots kept by the compaction, with their new indices. -/
def compactSlots (t : NetSockets) : List Slot :=
  (((t.slots.drop t.reservedCapacity).filter Slot.used).zipIdx t.reservedCapacity).map
    fun (s, i) => { s with entry := { s.entry with index := i } }

def makeCompactIfNecessary (t : NetSockets) : Except Failure NetSockets :=
  if !t.compacts then .ok t
  else
    let kept := t.compactSlots
    if UInt64.ofNat (kept.length + t.awakers) ≠ t.usedCount then .error .assertion
    else
      let slots := (NetSockets.init t.clustering).slots ++ kept
      .ok { t with slots := slots
                   baseSz := slots.length
                   capacity := growTo slots.length slots.length (init t.clustering).capacity }

def reworkIfNecessary (t : NetSockets) : Except Failure NetSockets := do
  let t ← t.mergeAccum
  t.makeCompactIfNecessary

/-- `poll` fills in `revents` of `osSide`; entries with a negative descriptor are skipped. -/
def poll (t : NetSockets) (ready : Nat → Revents) : NetSockets :=
  { t with slots := t.slots.mapIdx fun i s =>
      if i < t.baseSz then
        { s with pfd := { s.pfd with revents := if 0 < s.pfd.fd then ready i else {} } }
      else s }

/-! ## What the operations do to the slots -/

variable {t t' : NetSockets} {idx : Nat} {s : Slot}

theorem slotAt_eq_ok (h : t.slotAt idx = .ok s) :
    t.reservedCapacity ≤ idx ∧ t.slots[idx]? = some s := by
  unfold slotAt at h
  split at h
  · cases h
  rename_i hres
  split at h
  · cases h
  · rename_i hs
    cases h
    exact ⟨Nat.not_lt.mp hres, hs⟩

theorem slotAt_setSlot (h : t.slotAt idx = .ok s) (s' : Slot) :
    (t.setSlot idx s').slotAt idx = .ok s' := by
  obtain ⟨hres, hs⟩ := slotAt_eq_ok h
  obtain ⟨hlt, -⟩ := List.getElem?_eq_some_iff.mp hs
  have hres' : ¬idx < (t.setSlot idx s').reservedCapacity := Nat.not_lt.mpr hres
  have hs' : (t.setSlot idx s').slots[idx]? = some s' := List.getElem?_set_self hlt
  simp only [slotAt, hres', if_false, hs']

theorem at'_eq_ok (h : t.at' idx = .ok s) :
    t.reservedCapacity ≤ idx ∧ t.slots[idx]? = some s ∧ s.used := by
  obtain ⟨s', hs', h⟩ := bind_eq_ok h
  obtain ⟨hres, hs⟩ := slotAt_eq_ok hs'
  split at h
  · rename_i hused
    cases h
    exact ⟨hres, hs, hused⟩
  · cases h

theorem addEntry_eq_ok {emitter : Emitter} {osSocket : Nat}
    (h : t.addEntry emitter osSocket = .ok t') :
    0 < osSocket ∧
      ((t.freeIndex < t.slots.length ∧
          t' = { t.setSlot t.freeIndex (Slot.issued t.freeIndex emitter osSocket) with
                 usedCount := t.usedCount + 1 }) ∨
        (t.slots.length ≤ t.freeIndex ∧ t.slots.length + 1 < maxSize ∧
          t' = { t with slots := t.slots ++ [Slot.issued t.freeIndex emitter osSocket]
                        baseSz := if t.baseSz < t.capacity then t.baseSz + 1 else t.baseSz
                        usedCount := t.usedCount + 1 })) := by
  unfold addEntry at h
  split at h
  · cases h
  rename_i hpos
  refine ⟨Nat.pos_of_ne_zero hpos, ?_⟩
  dsimp only at h
  split at h
  · rename_i hlt
    cases h
    exact .inl ⟨hlt, rfl⟩
  · rename_i hge
    split at h
    · cases h
    · rename_i hroom
      cases h
      exact .inr ⟨Nat.not_lt.mp hge, Nat.not_le.mp hroom, rfl⟩

/-- The index assigned by `addEntry` is that of an unused slot, or a new one. -/
theorem freeIndex_cases (t : NetSockets) :
    (∃ s, t.slots[t.freeIndex]? = some s ∧ s.used = false ∧
      t.reservedCapacity ≤ t.freeIndex ∧ t.freeIndex < t.baseSz) ∨
      t.freeIndex = t.slots.length := by
  unfold freeIndex
  split
  · rename_i k hk
    obtain ⟨hlt, hunused, -⟩ := List.findIdx?_eq_some_iff_getElem.mp hk
    have hs := List.getElem?_eq_getElem hlt
    rw [List.getElem?_drop, List.getElem?_take] at hs
    split at hs
    · rename_i hbase
      exact .inl ⟨_, hs, by simpa using hunused, Nat.le_add_right _ _, hbase⟩
    · cases hs
  · exact .inr rfl

theorem setAssociated_eq_ok (h : t.setAssociated idx = .ok t') :
    ∃ s, t.reservedCapacity ≤ idx ∧ t.slots[idx]? = some s ∧ s.entry.state = .SockIssued ∧
      0 < -s.pfd.fd ∧
      t' = { t.setSlot idx { entry := { s.entry with state := .SockAssociated }
                             pfd := { s.pfd with fd := -s.pfd.fd } } with
             associatedCount := t.associatedCount + 1 } := by
  obtain ⟨s, hs, h⟩ := bind_eq_ok h
  obtain ⟨hres, hs⟩ := slotAt_eq_ok hs
  split at h
  · cases h
  rename_i hissued
  split at h
  · cases h
  rename_i hok
  cases h
  simp only [not_or, not_not] at hissued hok
  exact ⟨s, hres, hs, hissued, hok.2.2.2, rfl⟩

theorem modifyEvents_eq_ok {f : Pollfd → Pollfd} (h : t.modifyEvents idx f = .ok t') :
    ∃ s, t.reservedCapacity ≤ idx ∧ t.slots[idx]? = some s ∧
      t' = t.setSlot idx { s with pfd := f s.pfd } := by
  obtain ⟨s, hs, h⟩ := bind_eq_ok h
  obtain ⟨hres, hs⟩ := slotAt_eq_ok hs
  cases h
  exact ⟨s, hres, hs, rfl⟩

theorem modifyEvents_ok (h : t.slotAt idx = .ok s) (f : Pollfd → Pollfd) :
    t.modifyEvents idx f = .ok (t.setSlot idx { s with pfd := f s.pfd }) := by
  simp only [modifyEvents, h]
  rfl

theorem setRefed_eq_ok {refed : Bool} (h : t.setRefed idx refed = .ok t') :
    ∃ s, t.reservedCapacity ≤ idx ∧ t.slots[idx]? = some s ∧
      t' = t.setSlot idx { s with entry := { s.entry with refed := refed } } := by
  obtain ⟨s, hs, h⟩ := bind_eq_ok h
  obtain ⟨hres, hs⟩ := slotAt_eq_ok hs
  split at h
  · cases h
  · cases h
    exact ⟨s, hres, hs, rfl⟩

theorem setRefed_ok (h : t.slotAt idx = .ok s) (refed : Bool) (hrefed : refed → s.used) :
    t.setRefed idx refed = .ok (t.setSlot idx { s with entry := { s.entry with refed := refed } }) := by
  have hok : ¬(idx < t.baseSz ∧ refed ∧ !s.used) := by
    rintro ⟨-, hr, hunused⟩
    simp [hrefed hr] at hunused
  simp only [setRefed, h, bind, Except.bind, if_neg hok]

theorem setUnused_eq_ok (h : t.setUnused idx = .ok t') :
    ∃ s, t.reservedCapacity ≤ idx ∧ t.slots[idx]? = some s ∧
      t' = { t.setSlot idx { entry := { s.entry with state := .Unused, index := 0 }
                             pfd := { s.pfd with fd := invalidSocket } } with
             associatedCount :=
               if s.pfd.fd ≠ invalidSocket then t.associatedCount - 1 else t.associatedCount
             usedCount := t.usedCount - 1 } := by
  obtain ⟨s, hs, h⟩ := bind_eq_ok h
  obtain ⟨hres, hs⟩ := slotAt_eq_ok hs
  cases h
  exact ⟨s, hres, hs, rfl⟩

theorem setSocketClosed_eq_ok (h : t.setSocketClosed idx = .ok t') :
    ∃ s, t.reservedCapacity ≤ idx ∧ t.slots[idx]? = some s ∧ s.used ∧
      t' = { t.setSlot idx { entry := { s.entry with state := .SockClosed }
                             pfd := { s.pfd with fd := invalidSocket } } with
             associatedCount :=
               if s.associated then t.associatedCount - 1 else t.associatedCount } := by
  obtain ⟨s, hs, h⟩ := bind_eq_ok h
  obtain ⟨hres, hs, hused⟩ := at'_eq_ok hs
  cases h
  exact ⟨s, hres, hs, hused, rfl⟩

theorem resetEntry_eq_ok (h : t.resetEntry idx = .ok t') :
    ∃ s, t.reservedCapacity ≤ idx ∧ t.slots[idx]? = some s ∧
      t' = t.setSlot idx { s with entry := { index := idx } } := by
  obtain ⟨s, hs, h⟩ := bind_eq_ok h
  obtain ⟨hres, hs⟩ := slotAt_eq_ok hs
  cases h
  exact ⟨s, hres, hs, rfl⟩

theorem mergeAccum_eq_ok (h : t.mergeAccum = .ok t') :
    ∃ b c, t' = { t with baseSz := b, capacity := c } ∧
      (t.baseSz ≤ t.slots.length → b = t.slots.length) := by
  unfold mergeAccum at h
  split at h
  · rename_i hle
    cases h
    exact ⟨_, _, rfl, fun hge => Nat.le_antisymm hge hle⟩
  · split at h
    · cases h
    · split at h
      · cases h
        exact ⟨_, _, rfl, fun _ => rfl⟩
      · cases h

theorem makeCompactIfNecessary_eq_ok (h : t.makeCompactIfNecessary = .ok t') :
    (t.compacts = false ∧ t' = t) ∨
      (t.compacts ∧ ∃ c, t' = { t with
        slots := (init t.clustering).slots ++ t.compactSlots
        baseSz := ((init t.clustering).slots ++ t.compactSlots).length
        capacity := c }) := by
  unfold makeCompactIfNecessary at h
  split at h
  · rename_i hno
    cases h
    exact .inl ⟨by simpa using hno, rfl⟩
  · rename_i hyes
    dsimp only at h
    split at h
    · cases h
    · cases h
      exact .inr ⟨by simpa using hyes, _, rfl⟩

end NetSockets

/-! ## The table as a machine -/

/-- The operations that touch entries and counters. -/
inductive TableOp
  | addEntry (emitter : Emitter) (osSocket : Nat)
  | setAwakerSocket (sock : Nat)
  | setAssociated (idx : Nat)
  | setSocketClosed (idx : Nat)
  | setUnused (idx : Nat)
  | reworkIfNecessary
  | resetEntry (idx : Nat)
  deriving DecidableEq, Repr

/-- The table under its operations. The awaker socket is installed once, in clustering builds. -/
def tableOps : Lib.Machine NetSockets TableOp where
  step t
    | .addEntry emitter osSocket => (t.addEntry emitter osSocket).toOption
    | .setAwakerSocket sock =>
        if t.clustering ∧ t.awaker = invalidSocket then some (t.setAwakerSocket sock) else none
    | .setAssociated idx => (t.setAssociated idx).toOption
    | .setSocketClosed idx => (t.setSocketClosed idx).toOption
    | .setUnused idx => (t.setUnused idx).toOption
    | .reworkIfNecessary => t.reworkIfNecessary.toOption
    | .resetEntry idx => (t.resetEntry idx).toOption

def TableOp.tally (usedCount : UInt64) : TableOp → UInt64
  | .addEntry .. => usedCount + 1
  | .setUnused _ => usedCount - 1
  | _ => usedCount

inductive TableOp.Writes (i : Nat) (s : Slot) : TableOp → Slot → Prop
  | issued (e : Emitter) (osSocket : Nat) (hunused : s.used = false) :
      Writes i s (.addEntry e osSocket) (.issued i e osSocket)
  | associated (hissued : s.entry.state = .SockIssued) (hfd : 0 < -s.pfd.fd) :
      Writes i s (.setAssociated i) { entry := { s.entry with state := .SockAssociated }
                                      pfd := { s.pfd with fd := -s.pfd.fd } }
  | closed : Writes i s (.setSocketClosed i) { entry := { s.entry with state := .SockClosed }
                                               pfd := { s.pfd with fd := invalidSocket } }
  | freed : Writes i s (.setUnused i) { entry := { s.entry with state := .Unused, index := 0 }
                                        pfd := { s.pfd with fd := invalidSocket } }
  | reset : Writes i s (.resetEntry i) { s with entry := { index := i } }

/-- What a step can do: write one slot, add one behind the others, install the awaker socket, or
rework the table. -/
inductive TableStep (t : NetSockets) : TableOp → NetSockets → Prop
  | writes {op : TableOp} {i : Nat} {s s' : Slot} (count : UInt64) (hres : t.reservedCapacity ≤ i)
      (hs : t.slots[i]? = some s) (hwrites : op.Writes i s s') :
      TableStep t op { t.setSlot i s' with
        associatedCount := count, usedCount := op.tally t.usedCount }
  | grows {b : Nat} (e : Emitter) (osSocket : Nat) (hbase : t.baseSz ≤ b ∧ b ≤ t.baseSz + 1)
      (hroom : t.slots.length + 1 < NetSockets.maxSize) :
      TableStep t (.addEntry e osSocket) { t with
        slots := t.slots ++ [.issued t.slots.length e osSocket]
        baseSz := b
        usedCount := t.usedCount + 1 }
  | awaker (sock : Nat) : TableStep t (.setAwakerSocket sock) (t.setAwakerSocket sock)
  | reworks {t' : NetSockets} (h : t.reworkIfNecessary = .ok t') :
      TableStep t .reworkIfNecessary t'

open NetSockets in
theorem tableOps_cases {t t' : NetSockets} {op : TableOp} (h : tableOps.step t op = some t') :
    TableStep t op t' := by
  cases op with
  | addEntry e osSocket =>
    obtain ⟨-, ⟨hlt, rfl⟩ | ⟨hge, hroom, rfl⟩⟩ := addEntry_eq_ok (toOption_eq_some h)
    · obtain ⟨s, hs, hunused, hres, -⟩ | hnew := freeIndex_cases t
      · exact .writes _ hres hs (.issued e osSocket hunused)
      · omega
    · have hnew : t.freeIndex = t.slots.length := by
        obtain ⟨s, hs, -⟩ | hnew := freeIndex_cases t
        · exact absurd (List.getElem?_eq_some_iff.mp hs).1 (Nat.not_lt.mpr hge)
        · exact hnew
      rw [hnew]
      exact .grows e osSocket (by split <;> omega) hroom
  | setAwakerSocket sock =>
    obtain ⟨-, h⟩ := Option.ite_none_right_eq_some.mp h
    cases h
    exact .awaker sock
  | setAssociated idx =>
    obtain ⟨s, hres, hs, hissued, hfd, rfl⟩ := setAssociated_eq_ok (toOption_eq_some h)
    exact .writes _ hres hs (.associated hissued hfd)
  | setSocketClosed idx =>
    obtain ⟨s, hres, hs, -, rfl⟩ := setSocketClosed_eq_ok (toOption_eq_some h)
    exact .writes _ hres hs .closed
  | setUnused idx =>
    obtain ⟨s, hres, hs, rfl⟩ := setUnused_eq_ok (toOption_eq_some h)
    exact .writes _ hres hs .freed
  | reworkIfNecessary => exact .reworks (toOption_eq_some h)
  | resetEntry idx =>
    obtain ⟨s, hres, hs, rfl⟩ := resetEntry_eq_ok (toOption_eq_some h)
    exact .writes _ hres hs .reset

end NodeCpp
