import Mathlib.Data.List.ReduceOption
import NodeCpp.Lib.Machine
import NodeCpp.Net.Os

/-!
# MultiOwner

A server owns its sockets through a `MultiOwner`, and reports that it has been closed when
`getCount()` is 0. The items are owned as they should be, but `cnt` has no initialiser: it is off by
whatever was in its place until `clear()` sets it to 0.

`removeAndDelete` goes on comparing behind the slot it has emptied, with a soft pointer that is dead by
then. What a null pointer makes of that is a matter of the pointer library: `nullDead` tells whether
the two are equal.

* `MultiOwner.Tracks` -- the items of a run, and how far `cnt` is off.
* `count_iff` -- over any run, if null pointers do not equal dead ones.
-/

namespace NodeCpp

open Lib

/-- Items are known by the objects they point to; `none` is a null pointer. -/
structure MultiOwner (ι : Type) where
  items : List (Option ι) := []
  cnt : UInt64
  deriving DecidableEq, Repr

namespace MultiOwner

variable {ι : Type} [DecidableEq ι]

/-- The first free slot takes the item; without one there is a new slot. -/
def place (item : ι) : List (Option ι) → List (Option ι)
  | [] => [some item]
  | none :: items => some item :: items
  | some i :: items => some i :: place item items

def add (o : MultiOwner ι) : Option ι → Except Failure (MultiOwner ι × ι)
  | none => .error .assertion
  | some item => .ok (⟨place item o.items, o.cnt + 1⟩, item)

/-- The loop of `removeAndDelete`, with the number of slots that were equal to the item. It does not
stop at the first one; behind it the item is gone. -/
def sweep (nullDead : Bool) (item : ι) : Bool → List (Option ι) → List (Option ι) × Nat
  | _, [] => ([], 0)
  | gone, slot :: items =>
      if slot = some item ∨ (slot = none ∧ gone ∧ nullDead) then
        let (items, n) := sweep nullDead item true items
        (none :: items, n + 1)
      else
        let (items, n) := sweep nullDead item gone items
        (slot :: items, n)

def removeAndDelete (nullDead : Bool) (o : MultiOwner ι) :
    Option ι → Except Failure (MultiOwner ι)
  | none => .error .assertion
  | some item =>
      let (items, n) := sweep nullDead item false o.items
      .ok ⟨items, o.cnt - UInt64.ofNat n⟩

def clear (_ : MultiOwner ι) : MultiOwner ι := ⟨[], 0⟩

def getCount (o : MultiOwner ι) : UInt64 := o.cnt

def owned (o : MultiOwner ι) : List ι := o.items.reduceOption

inductive Call (ι : Type)
  | add (item : Option ι)
  | removeAndDelete (item : Option ι)
  | clear
  deriving DecidableEq, Repr

/-- What is added has had an owner elsewhere. A call that fails an assertion changes nothing. -/
def step (nullDead : Bool) (o : MultiOwner ι) : Call ι → Option (MultiOwner ι)
  | .add item =>
      if item.any (· ∈ o.owned) then none else some (((o.add item).map Prod.fst).toOption.getD o)
  | .removeAndDelete item => some ((o.removeAndDelete nullDead item).toOption.getD o)
  | .clear => some o.clear

def machine (nullDead : Bool) : Machine (MultiOwner ι) (Call ι) := ⟨step nullDead⟩

/-- Whether an item is owned behind a call. -/
def Call.keeps (i : ι) (held : Bool) : Call ι → Bool
  | .add item => held || item == some i
  | .removeAndDelete item => held && item != some i
  | .clear => false

/-- Behind a run, the items that were added and not removed since are owned, each one once. -/
def Owns (o : MultiOwner ι) (calls : List (Call ι)) : Prop :=
  o.owned.Nodup ∧ ∀ i, i ∈ o.owned ↔ calls.foldl (Call.keeps i) false = true

/-! ## The items and the counter -/

/-- The items owned are those of `held`, and the counter is off by `d`. -/
structure Tracks (o : MultiOwner ι) (held : ι → Bool) (d : UInt64) : Prop where
  nodup : o.owned.Nodup
  mem : ∀ i, i ∈ o.owned ↔ held i = true
  cnt : o.cnt = UInt64.ofNat o.owned.length + d

omit [DecidableEq ι] in
theorem reduceOption_place (item : ι) (items : List (Option ι)) :
    (place item items).reduceOption.Perm (item :: items.reduceOption) := by
  induction items with
  | nil => exact .refl _
  | cons slot items ih =>
    cases slot with
    | none => exact .refl _
    | some i =>
      rw [place, List.reduceOption_cons_of_some, List.reduceOption_cons_of_some]
      exact (ih.cons i).trans (.swap item i _)

theorem reduceOption_reset (item : ι) (items : List (Option ι)) :
    (items.map fun i => if i = some item then none else i).reduceOption =
      items.reduceOption.filter (· ≠ item) := by
  induction items with
  | nil => rfl
  | cons slot items ih =>
    cases slot with
    | none => simpa using ih
    | some i => by_cases hi : i = item <;> simp [hi, ih]

/-- Without equal null pointers only the slots with the item are emptied. -/
theorem sweep_eq (item : ι) (gone : Bool) (items : List (Option ι)) :
    sweep false item gone items =
      (items.map fun i => if i = some item then none else i, items.count (some item)) := by
  induction items generalizing gone with
  | nil => rfl
  | cons slot items ih =>
    by_cases hslot : slot = some item
    · simp [sweep, hslot, ih]
    · simp [sweep, hslot, ih]

theorem count_reduceOption (item : ι) (items : List (Option ι)) :
    items.count (some item) = items.reduceOption.count item := by
  induction items with
  | nil => rfl
  | cons slot items ih => cases slot <;> simp [List.count_cons, ih]

namespace Tracks

variable {o o' : MultiOwner ι} {held : ι → Bool} {d : UInt64}

theorem add {item : ι} (h : o.Tracks held d) (hnew : item ∉ o.owned) :
    Tracks ⟨place item o.items, o.cnt + 1⟩ (fun i => held i || some item == some i) d := by
  have hperm := reduceOption_place item o.items
  refine ⟨hperm.nodup_iff.mpr (List.nodup_cons.mpr ⟨hnew, h.nodup⟩), ?_, ?_⟩
  · intro i
    rw [owned, hperm.mem_iff, List.mem_cons, Bool.or_eq_true, ← h.mem i, beq_iff_eq,
      Option.some.injEq, or_comm, eq_comm]
    rfl
  · show o.cnt + 1 = _
    rw [owned, hperm.length_eq, List.length_cons, UInt64.ofNat_add, h.cnt]
    ac_rfl

theorem remove (h : o.Tracks held d) (item : ι) :
    Tracks ⟨o.items.map fun i => if i = some item then none else i,
      o.cnt - UInt64.ofNat (o.items.count (some item))⟩
      (fun i => held i && some item != some i) d := by
  have howned := reduceOption_reset item o.items
  refine ⟨?_, ?_, ?_⟩
  · rw [owned, howned]
    exact h.nodup.filter _
  · intro i
    rw [owned, howned, List.mem_filter, Bool.and_eq_true, ← h.mem i]
    simp [owned, eq_comm (a := i)]
  · have hlen : o.owned.length =
        (o.owned.filter (· ≠ item)).length + o.owned.count item := by
      rw [List.length_eq_countP_add_countP (· == item), List.countP_eq_length_filter,
        Nat.add_comm, List.count_eq_countP]
      simp [List.countP_eq_length_filter]
    show o.cnt - _ = _
    rw [owned, howned, h.cnt, count_reduceOption]
    change UInt64.ofNat o.owned.length + d - UInt64.ofNat (o.owned.count item) = _
    rw [hlen, UInt64.ofNat_add, UInt64.add_assoc, UInt64.add_comm (UInt64.ofNat _) d,
      ← UInt64.add_assoc]
    exact UInt64.add_sub_cancel ..

theorem step {c : Call ι} (h : o.Tracks held d) (hstep : (machine false).step o c = some o') :
    o'.Tracks (fun i => c.keeps i (held i)) (if c = .clear then 0 else d) := by
  cases c with
  | add item =>
    simp only [machine, MultiOwner.step] at hstep
    split at hstep
    · cases hstep
    · next hnew =>
      cases hstep
      cases item with
      | none =>
        show o.Tracks (fun i => held i || none == some i) d
        simpa using h
      | some item => exact h.add (by simpa using hnew)
  | removeAndDelete item =>
    cases hstep
    cases item with
    | none =>
      show o.Tracks (fun i => held i && none != some i) d
      simpa [bne] using h
    | some item =>
      simp only [removeAndDelete, sweep_eq, Except.toOption, Option.getD_some]
      exact h.remove item
  | clear =>
    cases hstep
    exact ⟨.nil, by simp [Call.keeps, owned, MultiOwner.clear], rfl⟩

theorem run {calls : List (Call ι)} (h : o.Tracks held d)
    (hrun : (machine false).run o calls = some o') :
    o'.Tracks (fun i => calls.foldl (Call.keeps i) (held i)) (if .clear ∈ calls then 0 else d) := by
  induction calls generalizing o held d with
  | nil =>
    cases hrun
    simpa using h
  | cons c calls ih =>
    obtain ⟨s, hstep, hrun⟩ := (machine false).run_cons hrun
    have hnext := ih (h.step hstep) hrun
    by_cases hc : c = .clear
    · simpa [hc] using hnext
    · simpa [hc, Ne.symm hc] using hnext

end Tracks

/-- From any initial value of the counter: the count is right if that value is 0, and behind
`clear()`. -/
theorem count_iff {nullDead : Bool} (hnull : nullDead = false) (cnt : UInt64)
    {calls : List (Call ι)} {o : MultiOwner ι}
    (hrun : (machine nullDead).run ⟨[], cnt⟩ calls = some o) :
    (o.getCount = UInt64.ofNat o.owned.length ∧ o.Owns calls) ↔ cnt = 0 ∨ .clear ∈ calls := by
  subst hnull
  have hfresh : Tracks ⟨[], cnt⟩ (fun _ : ι => false) cnt :=
    ⟨.nil, by simp [owned], (UInt64.zero_add cnt).symm⟩
  have h := hfresh.run hrun
  have howns : o.Owns calls := ⟨h.nodup, h.mem⟩
  have hcnt : o.getCount = UInt64.ofNat o.owned.length ↔
      (if .clear ∈ calls then 0 else cnt) = (0 : UInt64) := by
    rw [getCount, h.cnt]
    exact UInt64.add_eq_left
  rw [and_iff_left howns, hcnt]
  split
  · next hclear => simp [hclear]
  · next hclear => simp [hclear]

/-- An item comes into the place of another one. -/
def reusedSlot : List (Call Nat) :=
  [.add (some 1), .add (some 2), .removeAndDelete (some 1), .add (some 3)]

theorem count_reusedSlot :
    ∃ o, (machine false).run ⟨[], 0⟩ reusedSlot = some o ∧ o.items = [some 3, some 2] ∧
      o.getCount = UInt64.ofNat o.owned.length ∧ o.Owns reusedSlot :=
  ⟨⟨[some 3, some 2], 2⟩, by decide, rfl, (count_iff rfl 0 (by decide)).mpr (.inl rfl)⟩

/-- With equal null pointers, emptied slots count against the counter. -/
example : ((machine true).run ⟨[], 0⟩ [.add (some 1), .add (some 2), .removeAndDelete (some 2),
    .removeAndDelete (some 1)]).map getCount = some (-1) := by decide

/-- A socket is added, and removed. -/
theorem count_uninitialised :
    ∃ o, (machine false).run ⟨[], 5⟩ [.add (some 1), .removeAndDelete (some 1)] = some o ∧
      o.owned = [] ∧ o.getCount = 5 :=
  ⟨⟨[none], 5⟩, by decide, rfl, rfl⟩

end MultiOwner

end NodeCpp
