import NodeCpp.Lib.Machine
import NodeCpp.Net.Os

/-!
# Storage of handlers

Handlers for a class of sockets are collected in a pattern (`UserDefHandlers`). For each socket the
pattern is copied, with a default object for the handlers that have none. `UserDefHandlersBase` copies
a vector; `UserDefHandlersWithOptimizedStorage` has a representation of its own for none, one and two
handlers.

* `HandlerPattern.run_eq` -- what a pattern contains behind any calls.
* `handlers_transparent` -- all representations call the handlers of the pattern.
-/

namespace NodeCpp

open Lib

/-- `none` is a null pointer. -/
@[ext] structure HandlerInstance (φ ω : Type) where
  handler : φ
  object : Option ω := none
  deriving DecidableEq, Repr

/-- `UserDefHandlers`: its vector. -/
abbrev HandlerPattern (φ ω : Type) := List (HandlerInstance φ ω)

namespace HandlerPattern

variable {φ ω : Type} [DecidableEq φ] [DecidableEq ω]

/-- `add`; without an object the pointer is null. -/
def add (p : HandlerPattern φ ω) (inst : HandlerInstance φ ω) :
    Except Failure (HandlerPattern φ ω) :=
  if ∀ h ∈ p, h.handler ≠ inst.handler ∨ h.object ≠ inst.object then .ok (p ++ [inst])
  else .error .assertion

/-- `remove`: the first one found. -/
def remove (p : HandlerPattern φ ω) (inst : HandlerInstance φ ω) : HandlerPattern φ ω :=
  p.eraseP fun h => h.handler = inst.handler ∧ h.object = inst.object

inductive Call (φ ω : Type)
  | add (inst : HandlerInstance φ ω)
  | remove (inst : HandlerInstance φ ω)
  deriving DecidableEq, Repr

def machine : Machine (HandlerPattern φ ω) (Call φ ω) where
  step p
    | .add inst => (p.add inst).toOption
    | .remove inst => some (p.remove inst)

/-- What has been added and not removed since, in the order in which it was added. -/
def live : List (Call φ ω) → HandlerPattern φ ω
  | [] => []
  | .add inst :: calls => if .remove inst ∈ calls then live calls else inst :: live calls
  | .remove _ :: calls => live calls

theorem add_eq_ok {p p' : HandlerPattern φ ω} {inst : HandlerInstance φ ω}
    (h : p.add inst = .ok p') : inst ∉ p ∧ p' = p ++ [inst] := by
  unfold add at h
  split at h
  · next hnew =>
    cases h
    refine ⟨fun hmem => ?_, rfl⟩
    rcases hnew inst hmem with hne | hne <;> exact hne rfl
  · cases h

theorem remove_eq_filter {p : HandlerPattern φ ω} (h : p.Nodup) (inst : HandlerInstance φ ω) :
    p.remove inst = p.filter (· != inst) := by
  have herase : p.remove inst = p.erase inst := by
    rw [List.erase_eq_eraseP', remove]
    congr 1
    funext x
    rw [Bool.eq_iff_iff, beq_iff_eq, HandlerInstance.ext_iff, decide_eq_true_eq]
  rw [herase, h.erase_eq_filter]

/-- Behind any calls there is what was there before and has not been removed, and what has been added
and not removed since. -/
theorem run_eq {p p' : HandlerPattern φ ω} {calls : List (Call φ ω)} (hp : p.Nodup)
    (hrun : machine.run p calls = some p') :
    p' = p.filter (.remove · ∉ calls) ++ live calls := by
  induction calls generalizing p with
  | nil =>
    cases hrun
    rw [List.filter_eq_self.mpr (by simp), live, List.append_nil]
  | cons c calls ih =>
    obtain ⟨p₁, hstep, hrun⟩ := machine.run_cons hrun
    cases c with
    | add inst =>
      obtain ⟨hnew, rfl⟩ := add_eq_ok (toOption_eq_some hstep)
      have hp₁ : (p ++ [inst]).Nodup := by
        rw [List.nodup_append]
        exact ⟨hp, List.pairwise_singleton .., by
          simpa using fun x hx => ne_of_mem_of_not_mem hx hnew⟩
      rw [ih hp₁ hrun, List.filter_append, List.append_assoc, live]
      by_cases hgone : Call.remove inst ∈ calls <;> simp [hgone]
    | remove inst =>
      cases hstep
      rw [ih (by rw [remove_eq_filter hp]; exact hp.filter _) hrun, remove_eq_filter hp,
        List.filter_filter, live]
      congr 1
      refine List.filter_congr fun x _ => ?_
      rw [Bool.eq_iff_iff]
      simp [and_comm]

end HandlerPattern

/-! ## The copies -/

namespace HandlerInstance

variable {φ ω : Type}

/-- The object of a handler, or the default object. -/
def withDefault (inst : HandlerInstance φ ω) (defaultObj : Option ω) : HandlerInstance φ ω :=
  ⟨inst.handler, if inst.object = none then defaultObj else inst.object⟩

theorem withDefault_some (inst : HandlerInstance φ ω) (obj : ω) :
    inst.withDefault (some obj) = ⟨inst.handler, some (inst.object.getD obj)⟩ := by
  cases hobj : inst.object <;> simp [withDefault, hobj]

end HandlerInstance

variable {φ ω : Type}

def UserDefHandlersBase.from' (handlers pattern : HandlerPattern φ ω) (defaultObj : Option ω) :
    Except Failure (HandlerPattern φ ω) :=
  if handlers.length = 0 then .ok (pattern.map (·.withDefault defaultObj)) else .error .assertion

/-- `UserDefHandlersWithOptimizedStorage`, by its `type`. -/
inductive HandlerStorage (φ ω : Type)
  | uninitialized
  | zero
  | one (h₀ : HandlerInstance φ ω)
  | two (h₀ h₁ : HandlerInstance φ ω)
  | many (handlers : List (HandlerInstance φ ω))
  deriving DecidableEq, Repr

namespace HandlerStorage

def willHandle : HandlerStorage φ ω → Bool
  | .uninitialized | .zero => false
  | _ => true

def from' (s : HandlerStorage φ ω) (pattern : HandlerPattern φ ω) (defaultObj : Option ω) :
    Except Failure (HandlerStorage φ ω) :=
  match s with
  | .uninitialized =>
      match pattern with
      | [] => .ok .zero
      | [h₀] => .ok (.one (h₀.withDefault defaultObj))
      | [h₀, h₁] => .ok (.two (h₀.withDefault defaultObj) (h₁.withDefault defaultObj))
      | handlers => .ok (.many (handlers.map (·.withDefault defaultObj)))
  | _ => .error .assertion

/-- Calls of handlers one behind the other, each one after the assertion that it has an object. -/
def callAll : List (HandlerInstance φ ω) → List (φ × ω) × Except Failure Unit
  | [] => ([], .ok ())
  | h :: handlers =>
      match h.object with
      | none => ([], .error .assertion)
      | some object =>
          let (calls, outcome) := callAll handlers
          ((h.handler, object) :: calls, outcome)

/-- `execute`: the calls, with their objects, and whether all assertions are met. -/
def execute : HandlerStorage φ ω → List (φ × ω) × Except Failure Unit
  | .uninitialized | .zero => ([], .error .assertion)
  | .one h₀ => callAll [h₀]
  | .two h₀ h₁ => callAll [h₀, h₁]
  | .many handlers => callAll handlers

theorem callAll_withDefault (pattern : HandlerPattern φ ω) (obj : ω) :
    callAll (pattern.map (·.withDefault (some obj))) =
      (pattern.map fun h => (h.handler, h.object.getD obj), .ok ()) := by
  induction pattern with
  | nil => rfl
  | cons h pattern ih =>
    rw [List.map_cons, HandlerInstance.withDefault_some, callAll, ih]
    rfl

theorem execute_from (pattern : HandlerPattern φ ω) (obj : ω) :
    ∃ s, HandlerStorage.uninitialized.from' pattern (some obj) = .ok s ∧
      (s.willHandle = true ↔ pattern ≠ []) ∧
      s.execute = (pattern.map fun h => (h.handler, h.object.getD obj),
        if pattern = [] then .error .assertion else .ok ()) := by
  match pattern with
  | [] => exact ⟨.zero, rfl, by simp [willHandle], rfl⟩
  | [h₀] => exact ⟨_, rfl, by simp [willHandle], callAll_withDefault [h₀] obj⟩
  | [h₀, h₁] => exact ⟨_, rfl, by simp [willHandle], callAll_withDefault [h₀, h₁] obj⟩
  | h₀ :: h₁ :: h₂ :: hs =>
    exact ⟨_, rfl, by simp [willHandle], callAll_withDefault (h₀ :: h₁ :: h₂ :: hs) obj⟩

end HandlerStorage

/-- Handler storage is transparent. Whatever was added to a pattern and removed: a copy handles
something exactly if the pattern is not empty, and executes what has been added and not removed since,
in that order, each handler once, with its own object or the default object. `UserDefHandlersBase`
arranges the same. Without handlers, `execute` calls nothing and fails its assertion. -/
theorem handlers_transparent [DecidableEq φ] [DecidableEq ω]
    {calls : List (HandlerPattern.Call φ ω)} {pattern : HandlerPattern φ ω}
    (hrun : HandlerPattern.machine.run [] calls = some pattern) (obj : ω) :
    pattern = HandlerPattern.live calls ∧
      ∃ s base, HandlerStorage.uninitialized.from' pattern (some obj) = .ok s ∧
        UserDefHandlersBase.from' [] pattern (some obj) = .ok base ∧
        (s.willHandle = true ↔ pattern ≠ []) ∧
        base.map (fun h => (h.handler, h.object)) =
          pattern.map (fun h => (h.handler, some (h.object.getD obj))) ∧
        s.execute = (pattern.map fun h => (h.handler, h.object.getD obj),
          if pattern = [] then .error .assertion else .ok ()) := by
  have hlive := HandlerPattern.run_eq List.nodup_nil hrun
  obtain ⟨s, hfrom, hwill, hexecute⟩ := HandlerStorage.execute_from pattern obj
  refine ⟨hlive, s, _, hfrom, rfl, hwill, ?_, hexecute⟩
  rw [List.map_map]
  refine List.map_congr_left fun h _ => ?_
  rw [Function.comp_apply, h.withDefault_some]

/-- The second of three handlers is removed; the third has no object. -/
theorem handlers_transparent_two :
    ∃ s, HandlerStorage.uninitialized.from' [⟨1, some 5⟩, ⟨3, none⟩] (some 9) = .ok s ∧
      s.execute = ([(1, 5), (3, 9)], .ok ()) := by
  obtain ⟨-, s, -, hfrom, -, -, -, hexecute⟩ := @handlers_transparent Nat Nat _ _
    [.add ⟨1, some 5⟩, .add ⟨2, some 6⟩, .add ⟨3, none⟩, .remove ⟨2, some 6⟩]
    [⟨1, some 5⟩, ⟨3, none⟩] (by decide) 9
  exact ⟨s, hfrom, hexecute⟩

end NodeCpp
