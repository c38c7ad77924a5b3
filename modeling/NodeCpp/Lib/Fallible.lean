import Mathlib.Algebra.Order.Ring.Nat

/-!
# Computations that may fail

A computation that returns has returned at every step of it. `Succeeds r c Q` says that `r`
returns exactly if `c` holds, and that what it returns satisfies `Q`: a postcondition together with
the weakest condition for it. The rules follow the computation from one call to the next and collect
the conditions.
-/

namespace NodeCpp.Lib

variable {ε α β : Type}

@[simp] theorem ok_bind (x : α) (f : α → Except ε β) : (.ok x >>= f) = f x := rfl

@[simp] theorem error_bind (e : ε) (f : α → Except ε β) : (.error e >>= f) = .error e := rfl

theorem bind_eq_ok {x : Except ε α} {f : α → Except ε β} {b : β}
    (h : (x >>= f) = .ok b) : ∃ a, x = .ok a ∧ f a = .ok b := by
  cases x with
  | error e => cases h
  | ok a => exact ⟨a, rfl, h⟩

theorem map_eq_ok {x : Except ε α} {f : α → β} {b : β}
    (h : x.map f = .ok b) : ∃ a, x = .ok a ∧ f a = b := by
  cases x with
  | error e => cases h
  | ok a =>
    cases h
    exact ⟨a, rfl, rfl⟩

theorem toOption_eq_some {x : Except ε α} {a : α} (h : x.toOption = some a) :
    x = .ok a := by
  cases x with
  | error e => cases h
  | ok b => cases h; rfl

variable {r : Except ε α} {c c' : Prop} {Q Q' : α → Prop}

def Succeeds (r : Except ε α) (c : Prop) (Q : α → Prop) : Prop :=
  match r with
  | .ok x => c ∧ Q x
  | .error _ => ¬c

namespace Succeeds

theorem of_ok {x : α} (h : Succeeds r c Q) (hr : r = .ok x) : c ∧ Q x := by
  subst hr
  exact h

theorem of_cond (h : Succeeds r c Q) (hc : c) : ∃ x, r = .ok x ∧ Q x := by
  cases r with
  | ok x => exact ⟨x, rfl, h.2⟩
  | error e => exact absurd hc h

theorem congr (h : Succeeds r c Q) (hc : c ↔ c') (hQ : ∀ x, c → Q x → Q' x) :
    Succeeds r c' Q' := by
  cases r with
  | ok x => exact ⟨hc.mp h.1, hQ x h.1 h.2⟩
  | error e => exact fun h' => h (hc.mpr h')

theorem bind {f : α → Except ε β} {R : β → Prop} (h : Succeeds r c Q)
    (hf : ∀ x, c → Q x → Succeeds (f x) c' R) : Succeeds (r >>= f) (c ∧ c') R := by
  cases r with
  | error e => exact fun hc => h hc.1
  | ok x =>
    have hx := hf x h.1 h.2
    show Succeeds (f x) (c ∧ c') R
    apply hx.congr
    · exact ⟨fun hc' => ⟨h.1, hc'⟩, And.right⟩
    · exact fun _ _ hR => hR

theorem bind_of_not {f : α → Except ε β} (h : Succeeds r c Q) (hc : ¬c) :
    Succeeds (r >>= f) False fun _ => True := by
  cases r with
  | ok x => exact absurd h.1 hc
  | error e => exact id

theorem map {f : α → β} {R : β → Prop} (h : Succeeds r c Q) (hf : ∀ x, Q x → R (f x)) :
    Succeeds (r.map f) c R := by
  cases r with
  | error e => exact h
  | ok x => exact ⟨h.1, hf x h.2⟩

theorem ite [Decidable c] {x : α} {e : ε} :
    Succeeds (if c then .ok x else .error e) c (· = x) := by
  by_cases hc : c
  · rw [if_pos hc]
    exact ⟨hc, rfl⟩
  · rw [if_neg hc]
    exact hc

theorem of_ite [Decidable c'] {e : ε} (h : Succeeds r c Q) :
    Succeeds (if c' then r else .error e) (c' ∧ c) Q := by
  by_cases hc : c'
  · rw [if_pos hc]
    exact h.congr (and_iff_right hc).symm fun _ _ hQ => hQ
  · rw [if_neg hc]
    exact fun h' => hc h'.1

end Succeeds

end NodeCpp.Lib
