import NodeCpp.JsCompat.JSArray
import NodeCpp.Net.Os

/-!
# Equality of JSVar

`operator ==` is a `switch` on one type inside a `switch` on the other, and the branches for a pair
of types and for the same pair the other way round do not always agree: `undefined` looks for a
pointer in itself instead of the other value, a boolean that is false is equal to `undefined` from
one side only, a boolean tests its address instead of its value against a string, and an object is
compared with a string from one side only.
-/

namespace NodeCpp

/-- A `double` as `==` sees it: there is one zero, and NaN is not equal to itself. -/
inductive Double
  | nan
  | infinity (negative : Bool)
  | finite (x : ℚ)
  deriving DecidableEq, Repr

namespace Double

def eq : Double → Double → Bool
  | .nan, _ | _, .nan => false
  | x, y => x = y

theorem eq_comm (x y : Double) : x.eq y = y.eq x := by
  cases x <;> cases y <;> simp only [eq, decide_eq_decide]
  all_goals exact ⟨Eq.symm, Eq.symm⟩

end Double

namespace JSVar

variable {ω : Type}

/-! The accessors cast the memory of the value, whatever it contains; a value of another type must not
be read. -/

def asBool : JSVar Double (Option ω) → Except Failure Bool
  | .boolean b => .ok b
  | _ => .error .error

def asNum : JSVar Double (Option ω) → Except Failure Double
  | .num x => .ok x
  | _ => .error .error

def asStr : JSVar Double (Option ω) → Except Failure (List UInt8)
  | .string s => .ok s
  | _ => .error .error

/-- Null pointers are `none`. -/
def asSoft : JSVar Double (Option ω) → Except Failure (Option ω)
  | .softptr p => .ok p
  | _ => .error .error

/-- `b ? 1 : 0`. -/
def ofBool (b : Bool) : Double := .finite (if b then 1 else 0)

variable (strToNumber : List UInt8 → Double) (objToString : ω → List UInt8)

def toNumber : JSVar Double (Option ω) → Double
  | .num x => x
  | .boolean b => ofBool b
  | .string s => strToNumber s
  | .undefined | .softptr _ | .fn _ => .nan

/-- `operator ==`. -/
def looseEq [DecidableEq ω] (a other : JSVar Double (Option ω)) : Except Failure Bool :=
  match a with
  | .undefined =>
      match other with
      | .undefined => .ok true
      -- the pointer is looked for in `a`
      | .softptr _ => do return (← a.asSoft).isNone
      | _ => .ok false
  | .boolean _ =>
      match other with
      | .undefined => do return !(← a.asBool)
      | .boolean _ => do return (← a.asBool) = (← other.asBool)
      | .num _ => do return (ofBool (← a.asBool)).eq (← other.asNum)
      -- `_asBool()` without `*` is a pointer, and not null
      | .string _ => .ok ((other.toNumber strToNumber).eq (ofBool true))
      | _ => .ok false
  | .num _ =>
      match other with
      | .boolean _ => do return (← a.asNum).eq (ofBool (← other.asBool))
      | .num _ => do return (← a.asNum).eq (← other.asNum)
      | .string _ => do return (← a.asNum).eq (other.toNumber strToNumber)
      | _ => .ok false
  | .string _ =>
      match other with
      | .string _ => do return (← a.asStr) = (← other.asStr)
      | .boolean _ => do return (a.toNumber strToNumber).eq (ofBool (← other.asBool))
      | .num _ => do return (a.toNumber strToNumber).eq (← other.asNum)
      | .softptr _ => do
          match ← other.asSoft with
          | none => return false
          | some p => return (← a.asStr) = objToString p
      | _ => .ok false
  | .softptr _ =>
      match other with
      | .undefined => do return (← a.asSoft).isNone
      | .softptr _ => do return (← a.asSoft) = (← other.asSoft)
      | _ => .ok false
  | .fn _ => .ok false

/-- The pairs on which the two sides of `operator ==` agree. -/
def Comparable (a b : JSVar Double (Option ω)) : Prop :=
  match a, b with
  | .undefined, .softptr _ | .softptr _, .undefined => False
  | .undefined, .boolean b | .boolean b, .undefined => b = true
  | .boolean b, .string s | .string s, .boolean b =>
      b = true ∨ strToNumber s ≠ .finite 0 ∧ strToNumber s ≠ .finite 1
  | .string s, .softptr (some p) | .softptr (some p), .string s => s ≠ objToString p
  | _, _ => True

variable {strToNumber objToString}

/-- A string against a boolean: one side compares with 1, the other with the value. -/
theorem eq_ofBool_iff (x : Double) (b : Bool) :
    x.eq (ofBool b) = x.eq (ofBool true) ↔ b = true ∨ x ≠ .finite 0 ∧ x ≠ .finite 1 := by
  cases b with
  | true => simp
  | false =>
    cases x with
    | finite x =>
      by_cases h0 : x = 0
      · simp [Double.eq, ofBool, h0]
      · by_cases h1 : x = 1 <;> simp [Double.eq, ofBool, h0, h1]
    | _ => simp [Double.eq, ofBool]

theorem exists_ok_iff {r r' : Bool} :
    (∃ x, (.ok r : Except Failure Bool) = .ok x ∧ (.ok r' : Except Failure Bool) = .ok x) ↔
      r' = r := by
  simp

/-- Equality gives the same result from both sides, and reads no value under another type, exactly
on the pairs of `Comparable`. -/
theorem looseEq_symm_iff [DecidableEq ω] (a b : JSVar Double (Option ω)) :
    (∃ r, a.looseEq strToNumber objToString b = .ok r ∧
      b.looseEq strToNumber objToString a = .ok r) ↔ a.Comparable strToNumber objToString b := by
  have hdecide : ∀ {α : Type} [DecidableEq α] (x y : α), decide (x = y) = decide (y = x) :=
    fun x y => decide_eq_decide.mpr ⟨Eq.symm, Eq.symm⟩
  cases a with
  | undefined =>
    cases b with
    | boolean b => cases b <;> exact exists_ok_iff.trans (by simp [Comparable])
    | softptr p => exact iff_of_false (fun ⟨_, h, _⟩ => nomatch h) id
    | _ => exact iff_of_true ⟨_, rfl, rfl⟩ trivial
  | boolean b₁ =>
    cases b with
    | undefined => cases b₁ <;> exact exists_ok_iff.trans (by simp [Comparable])
    | boolean b₂ => exact iff_of_true (exists_ok_iff.mpr (hdecide b₂ b₁)) trivial
    | num x => exact iff_of_true (exists_ok_iff.mpr (Double.eq_comm _ _)) trivial
    | string s => exact exists_ok_iff.trans (eq_ofBool_iff _ _)
    | _ => exact iff_of_true ⟨_, rfl, rfl⟩ trivial
  | num x =>
    cases b with
    | boolean _ | num _ | string _ =>
      exact iff_of_true (exists_ok_iff.mpr (Double.eq_comm _ _)) trivial
    | _ => exact iff_of_true ⟨_, rfl, rfl⟩ trivial
  | string s =>
    cases b with
    | boolean b => exact exists_ok_iff.trans (Eq.comm.trans (eq_ofBool_iff _ _))
    | num x => exact iff_of_true (exists_ok_iff.mpr (Double.eq_comm _ _)) trivial
    | string s' => exact iff_of_true (exists_ok_iff.mpr (hdecide s' s)) trivial
    | softptr p =>
      cases p with
      | none => exact iff_of_true ⟨_, rfl, rfl⟩ trivial
      | some p => exact exists_ok_iff.trans (by simp [Comparable])
    | _ => exact iff_of_true ⟨_, rfl, rfl⟩ trivial
  | softptr p =>
    cases b with
    | undefined => exact iff_of_false (fun ⟨_, _, h⟩ => nomatch h) id
    | string s =>
      cases p with
      | none => exact iff_of_true ⟨_, rfl, rfl⟩ trivial
      | some p => exact exists_ok_iff.trans (by simp [Comparable])
    | softptr q => exact iff_of_true (exists_ok_iff.mpr (hdecide q p)) trivial
    | _ => exact iff_of_true ⟨_, rfl, rfl⟩ trivial
  | fn n => cases b <;> exact iff_of_true ⟨_, rfl, rfl⟩ trivial

/-- "0" as a number, and other strings as none. -/
def zeroOnly (s : List UInt8) : Double := if s = [0x30] then .finite 0 else .nan

/-- `false` and "0", `false` and `undefined`, "o" and an object that becomes "o"; and `undefined` and a
pointer, where a pointer is read that is not there. -/
theorem looseEq_one_sided :
    let eq : JSVar Double (Option Nat) → JSVar Double (Option Nat) → Except Failure Bool :=
      looseEq zeroOnly fun _ => [0x6F]
    (eq (.boolean false) (.string [0x30]) = .ok false ∧
      eq (.string [0x30]) (.boolean false) = .ok true) ∧
    (eq (.boolean false) .undefined = .ok true ∧ eq .undefined (.boolean false) = .ok false) ∧
    (eq (.string [0x6F]) (.softptr (some 1)) = .ok true ∧
      eq (.softptr (some 1)) (.string [0x6F]) = .ok false) ∧
    eq .undefined (.softptr none) = .error .error ∧ eq (.softptr none) .undefined = .ok true := by
  decide

end JSVar

end NodeCpp
