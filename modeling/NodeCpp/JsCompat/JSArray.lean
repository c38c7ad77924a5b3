import Mathlib.Data.Rat.Floor
import NodeCpp.Lib.Machine

/-!
# JSArray

The elements are in a vector, and properties in a map that the array has as any object. Indexing
behind the end fills the vector up to its capacity, not to the index, and `has` looks at the map
only.

`indexOf` takes a negative start from the end. If it is still negative then, the comparison with the
unsigned size ends the search before it begins.
-/

namespace NodeCpp

open Lib

/-- `JSVar`, with numbers in `ν` and objects in `ω`. Functions are known by the number of their
arguments. -/
inductive JSVar (ν ω : Type)
  | undefined
  | boolean (b : Bool)
  | num (x : ν)
  | string (s : List UInt8)
  | softptr (p : ω)
  | fn (arity : Fin 11)
  deriving DecidableEq, Repr

inductive JSVarOrOwn (ν ω : Type)
  | undefined
  | obj (p : ω)
  | var (v : JSVar ν ω)
  deriving DecidableEq, Repr

/-- `capacity` is that of `arrayValues`; of `keyValuePairs` only the names matter. -/
structure JSArray (ν ω : Type) where
  arrayValues : List (JSVarOrOwn ν ω) := []
  capacity : Nat := 0
  keyValuePairs : List String := []
  deriving DecidableEq, Repr

namespace JSArray

variable {ν ω : Type}

/-! ## Indices and the length -/

def length (a : JSArray ν ω) : Nat := a.arrayValues.length

def has (a : JSArray ν ω) (idx : Nat) : Bool := a.keyValuePairs.contains (toString idx)

/-- What the standard allows for the capacity of a vector that gets room for `n` elements. -/
def grows (old n new : Nat) : Bool := if n ≤ old then new = old else n ≤ new

def pushSingle (a : JSArray ν ω) (v : JSVarOrOwn ν ω) (capacity : Nat) : JSArray ν ω :=
  { a with arrayValues := a.arrayValues ++ [v], capacity }

/-- `setLength`, of a length that it does not refuse. -/
def setLength (a : JSArray ν ω) (ln : ℚ) (capacity : Nat) : JSArray ν ω :=
  if ln < a.length then { a with arrayValues := a.arrayValues.take ⌊ln⌋₊ }
  else
    { a with
      arrayValues := a.arrayValues ++ List.replicate (⌊ln⌋₊ - a.length) (.var .undefined)
      capacity }

/-- `operator []`, of an index; `capacity` is what `reserve( idx + 1 )` leaves. -/
def index (a : JSArray ν ω) (idx capacity : Nat) : JSArray ν ω :=
  if idx < a.length then a
  else
    { a with
      arrayValues := a.arrayValues ++ List.replicate (capacity - a.length) .undefined
      capacity }

def findOrAdd (a : JSArray ν ω) (s : String) : JSArray ν ω :=
  if s ∈ a.keyValuePairs then a else { a with keyValuePairs := s :: a.keyValuePairs }

inductive Call (ν ω : Type)
  | push (v : JSVarOrOwn ν ω) (capacity : Nat)
  | setLength (ln : ℚ) (capacity : Nat)
  | index (idx capacity : Nat)
  /-- `operator []`, of a `JSVar` with a string: the name is not looked at as a number. -/
  | name (s : String)
  deriving DecidableEq

def step (a : JSArray ν ω) : Call ν ω → Option (JSArray ν ω)
  | .push v capacity =>
      if grows a.capacity (a.length + 1) capacity then some (a.pushSingle v capacity) else none
  | .setLength ln capacity =>
      if 0 ≤ ln ∧ ln ≤ 0xffffffff ∧ grows a.capacity ⌊ln⌋₊ capacity then
        some (a.setLength ln capacity)
      else none
  | .index idx capacity =>
      if grows a.capacity (idx + 1) capacity then some (a.index idx capacity) else none
  | .name s => some (a.findOrAdd s)

def machine : Machine (JSArray ν ω) (Call ν ω) := ⟨step⟩

/-- Indexing leaves the elements as they are and adds what is missing up to the index. -/
structure Indexes (a : JSArray ν ω) (idx capacity : Nat) : Prop where
  kept : ∀ k < a.length, (a.index idx capacity).arrayValues[k]? = a.arrayValues[k]?
  length : (a.index idx capacity).length = max a.length (idx + 1)
  gap : ∀ k ≤ idx, a.length ≤ k → (a.index idx capacity).arrayValues[k]? = some .undefined

/-- `has` finds the elements and the properties. -/
def HasAll (a : JSArray ν ω) : Prop :=
  ∀ j, a.has j = true ↔ j < a.length ∨ toString j ∈ a.keyValuePairs

/-- What is expected of a call and of the array it finds. -/
def Agrees (a : JSArray ν ω) (c : Call ν ω) : Prop :=
  (∀ idx capacity, c = .index idx capacity → a.Indexes idx capacity) ∧ a.HasAll

/-- Only what is there is indexed, or the vector gets no more room than it needs; and for every
element there is a property of that name. -/
def Exact (a : JSArray ν ω) (c : Call ν ω) : Prop :=
  (∀ idx capacity, c = .index idx capacity → idx < a.length ∨ capacity = idx + 1) ∧
    ∀ j < a.length, toString j ∈ a.keyValuePairs

theorem indexes_iff (a : JSArray ν ω) (idx capacity : Nat) :
    a.Indexes idx capacity ↔ idx < a.length ∨ capacity = idx + 1 := by
  by_cases hidx : idx < a.length
  · have hindex : a.index idx capacity = a := if_pos hidx
    refine iff_of_true ⟨?_, ?_, ?_⟩ (.inl hidx)
    · intro k _
      rw [hindex]
    · rw [hindex, Nat.max_eq_left hidx]
    · intro k hk hlen
      omega
  · have hindex : (a.index idx capacity).arrayValues =
        a.arrayValues ++ List.replicate (capacity - a.length) .undefined := by
      rw [index, if_neg hidx]
    have hlength : (a.index idx capacity).length = a.length + (capacity - a.length) := by
      rw [length, hindex, List.length_append, List.length_replicate]
      rfl
    rw [or_iff_right hidx]
    constructor
    · intro h
      have := h.length
      omega
    · intro hcap
      refine ⟨?_, by omega, ?_⟩
      · intro k hk
        rw [hindex, List.getElem?_append_left hk]
      · intro k hk hlen
        rw [hindex, List.getElem?_append_right hlen, List.getElem?_replicate_of_lt]
        show k - a.length < _
        omega

theorem hasAll_iff (a : JSArray ν ω) : a.HasAll ↔ ∀ j < a.length, toString j ∈ a.keyValuePairs := by
  simp only [HasAll, has, List.contains_iff_mem]
  exact forall_congr' fun j => ⟨fun h hj => h.mpr (.inl hj),
    fun h => ⟨.inr, fun h' => h'.elim h id⟩⟩

/-- Over any history, indices and the length agree exactly where the condition is met. -/
theorem indices_iff (calls : List (Call ν ω)) :
    machine.obeys Agrees {} calls ↔ machine.obeys Exact {} calls := by
  refine machine.obeys_congr (J := fun _ => True) ?_ (fun _ _ _ _ _ _ => trivial) trivial calls
  intro a c _
  simp only [Agrees, Exact, indexes_iff, hasAll_iff]

/-- Five elements, for which the vector has doubled its capacity three times. -/
def fivePushes : List (Call Nat Nat) :=
  [.push .undefined 1, .push .undefined 2, .push .undefined 4, .push .undefined 4,
  .push .undefined 8]

/-- There is no element 0 for `has`, and indexing 5 makes the array 8 elements long. -/
theorem fivePushes_disagree :
    ∃ a : JSArray Nat Nat, machine.run {} fivePushes = some a ∧ a.length = 5 ∧ a.has 0 = false ∧
      machine.step a (.index 5 8) = some (a.index 5 8) ∧ (a.index 5 8).length = 8 :=
  ⟨_, rfl, rfl, rfl, rfl, rfl⟩

/-! ## indexOf -/

end JSArray

/-- Functions are never the same, not even as themselves. -/
def JSVar.isStrictlyTheSame {ν ω : Type} [BEq ν] [BEq ω] : JSVar ν ω → JSVar ν ω → Bool
  | .undefined, .undefined => true
  | .boolean b, .boolean b' => b == b'
  | .num x, .num y => x == y
  | .string s, .string t => s == t
  | .softptr p, .softptr q => p == q
  | _, _ => false

/-- The three cases of the loop in `indexof_impl`. -/
def JSVar.sameAs {ν ω : Type} [BEq ν] [BEq ω] (v : JSVar ν ω) : JSVarOrOwn ν ω → Bool
  | .var w => v.isStrictlyTheSame w
  | .obj p => v.isStrictlyTheSame (.softptr p)
  | .undefined => v matches .undefined

namespace JSArray

variable {ν ω : Type} [BEq ν] [BEq ω]

def indexofLoop (v : JSVar ν ω) (idx : Nat) : List (JSVarOrOwn ν ω) → Int
  | [] => -1
  | x :: xs => if v.sameAs x then idx else indexofLoop v (idx + 1) xs

/-- `idx` is compared with the size as a `size_t`. -/
def indexofImpl (a : JSArray ν ω) (v : JSVar ν ω) (idx : Int) : Int :=
  let idx := (idx % 2 ^ 64).toNat
  indexofLoop v idx (a.arrayValues.drop idx)

/-- The sum is a `size_t`, and becomes an `int` again. -/
def indexOf (a : JSArray ν ω) (v : JSVar ν ω) (idx : Int) : Int :=
  a.indexofImpl v (if idx < 0 then Int.bmod (idx + a.length) (2 ^ 32) else idx)

def start (a : JSArray ν ω) (s : Int) : Nat := (if 0 ≤ s then s else a.length + s).toNat

/-- `r` is the first index from `i` on with an element that matches, or -1. -/
def IsFirst (a : JSArray ν ω) (v : JSVar ν ω) (i : Nat) (r : Int) : Prop :=
  (∃ j : Nat, r = j ∧ i ≤ j ∧ (a.arrayValues[j]?).any v.sameAs ∧
    ∀ k < j, i ≤ k → ¬ (a.arrayValues[k]?).any v.sameAs) ∨
  r = -1 ∧ ∀ k, i ≤ k → ¬ (a.arrayValues[k]?).any v.sameAs

theorem IsFirst.of_succ {a : JSArray ν ω} {v : JSVar ν ω} {i : Nat} {r : Int}
    (hi : ¬ (a.arrayValues[i]?).any v.sameAs) (h : a.IsFirst v (i + 1) r) : a.IsFirst v i r := by
  rcases h with ⟨j, hr, hle, hj, hbefore⟩ | ⟨hr, hnone⟩
  · refine .inl ⟨j, hr, Nat.le_of_succ_le hle, hj, ?_⟩
    intro k hk hik
    rcases Nat.eq_or_lt_of_le hik with rfl | hlt
    · exact hi
    · exact hbefore k hk hlt
  · refine .inr ⟨hr, ?_⟩
    intro k hik
    rcases Nat.eq_or_lt_of_le hik with rfl | hlt
    · exact hi
    · exact hnone k hlt

theorem indexofLoop_isFirst {a : JSArray ν ω} {i : Nat} {xs : List (JSVarOrOwn ν ω)}
    (v : JSVar ν ω) (hxs : a.arrayValues.drop i = xs) : a.IsFirst v i (indexofLoop v i xs) := by
  induction xs generalizing i with
  | nil =>
    refine .inr ⟨rfl, ?_⟩
    intro k hk
    have hlen : a.arrayValues.length ≤ k := Nat.le_trans (List.drop_eq_nil_iff.mp hxs) hk
    simp [List.getElem?_eq_none hlen]
  | cons x xs ih =>
    have hx : a.arrayValues[i]? = some x := by
      rw [← List.head?_drop, hxs]
      rfl
    have htail : a.arrayValues.drop (i + 1) = xs := by
      rw [← List.tail_drop, hxs]
      rfl
    rw [indexofLoop]
    split
    · next hsame =>
      refine .inl ⟨i, rfl, Nat.le_refl i, by simpa [hx] using hsame, ?_⟩
      intro k hk hle
      omega
    · next hsame => exact (ih htail).of_succ (by simpa [hx] using hsame)

/-- The search is right unless the start lies before the array and there is something to find. -/
theorem indexOf_iff {a : JSArray ν ω} {s : Int} (v : JSVar ν ω) (hlen : a.length < 2 ^ 31)
    (hmin : -2 ^ 31 ≤ s) (hmax : s < 2 ^ 31) :
    a.IsFirst v (a.start s) (a.indexOf v s) ↔
      -a.length ≤ s ∨ ∀ x ∈ a.arrayValues, ¬ v.sameAs x := by
  by_cases hs : -a.length ≤ s
  · refine iff_of_true ?_ (.inl hs)
    have hstart : ((if s < 0 then Int.bmod (s + a.length) (2 ^ 32) else s) % 2 ^ 64).toNat =
        a.start s := by
      rw [start, Int.bmod_def]
      omega
    rw [indexOf, indexofImpl, hstart]
    exact indexofLoop_isFirst v rfl
  · have hstart : a.start s = 0 := by
      rw [start]
      omega
    have hend : a.length ≤
        ((if s < 0 then Int.bmod (s + a.length) (2 ^ 32) else s) % 2 ^ 64).toNat := by
      rw [Int.bmod_def]
      omega
    rw [indexOf, indexofImpl, List.drop_eq_nil_iff.mpr hend, hstart, or_iff_right hs]
    constructor
    · rintro (⟨j, hj, -⟩ | ⟨-, hnone⟩)
      · exact absurd hj (by simp [indexofLoop])
      · intro x hx
        obtain ⟨k, hk⟩ := List.mem_iff_getElem?.mp hx
        simpa [hk] using hnone k (Nat.zero_le k)
    · intro hnone
      refine .inr ⟨rfl, ?_⟩
      intro k _ hsame
      cases hk : a.arrayValues[k]? with
      | none => simp [hk] at hsame
      | some x => exact hnone x (List.mem_of_getElem? hk) (by simpa [hk] using hsame)

/-- The second of three elements, from the end. -/
theorem indexOf_minus_two :
    (⟨[.undefined, .var (.num 7), .undefined], 3, []⟩ : JSArray Nat Nat).IsFirst (.num 7) 1 1 :=
  (indexOf_iff (s := -2) (.num 7) (by decide) (by decide) (by decide)).mpr (.inl (by decide))

/-- With the start before the array, the element is not found. -/
theorem indexOf_minus_four :
    (⟨[.undefined, .var (.num 7), .undefined], 3, []⟩ : JSArray Nat Nat).indexOf
      (.num 7) (-4) = -1 := by
  decide

end JSArray

end NodeCpp
