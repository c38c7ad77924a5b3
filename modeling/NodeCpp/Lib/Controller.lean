import NodeCpp.Lib.Machine

/-!
# Programs over a base machine

A controller turns each of its actions into a short program of the base machine,
chosen from its own state and the base state, and picks its next state when the
program has run. If the base machine refuses the program, the controller gets
stuck and the base state stays as it was.

A guard on the actions of the base machine becomes a guard on the actions of the
controller (`Meets`), and an invariant of the guarded base machine is one of the
guarded controller (`base_invariant`).
-/

namespace NodeCpp.Lib

universe u v w x

structure Controller (κ : Type u) (ρ : Type v) (ℓ : Type w) (α : Type x) where
  base : Machine ρ ℓ
  plan : κ → ρ → α → Option (List ℓ × (ρ → κ))
  stuck : κ → κ

namespace Controller

variable {κ : Type u} {ρ : Type v} {ℓ : Type w} {α : Type x} (c : Controller κ ρ ℓ α)

def machine : Machine (κ × ρ) α where
  step s a := (c.plan s.1 s.2 a).map fun p =>
    match c.base.run s.2 p.1 with
    | some r => (p.2 r, r)
    | none => (c.stuck s.1, s.2)

/-- The program planned for an action meets the guard at every step. -/
def Meets (G : κ → ρ → ℓ → Prop) (s : κ × ρ) (a : α) : Prop :=
  ∀ p ∈ c.plan s.1 s.2 a, c.base.obeys (G s.1) s.2 p.1

instance (G : κ → ρ → ℓ → Prop) [∀ k r l, Decidable (G k r l)] (s : κ × ρ) (a : α) :
    Decidable (c.Meets G s a) :=
  match h : c.plan s.1 s.2 a with
  | none => isTrue (by simp [Meets, h])
  | some p => decidable_of_iff (c.base.obeys (G s.1) s.2 p.1) (by simp [Meets, h])

/-- A step runs its program or gets stuck. -/
theorem step_cases {s t : κ × ρ} {a : α} (h : c.machine.step s a = some t) :
    ∃ p, c.plan s.1 s.2 a = some p ∧
      ((∃ r, c.base.run s.2 p.1 = some r ∧ t = (p.2 r, r)) ∨
        (c.base.run s.2 p.1 = none ∧ t = (c.stuck s.1, s.2))) := by
  obtain ⟨p, hp, ht⟩ := Option.map_eq_some_iff.mp h
  refine ⟨p, hp, ?_⟩
  cases hrun : c.base.run s.2 p.1 with
  | none =>
    rw [hrun] at ht
    exact .inr ⟨rfl, ht.symm⟩
  | some r =>
    rw [hrun] at ht
    exact .inl ⟨r, rfl, ht.symm⟩

/-- What a guarded step of the base machine keeps, a guarded step of the controller keeps. -/
theorem base_step_invariant {G : κ → ρ → ℓ → Prop} {J : ρ → Prop}
    (hstep : ∀ k r l r', J r → G k r l → c.base.step r l = some r' → J r')
    {s t : κ × ρ} {a : α} (hJ : J s.2) (hmeets : c.Meets G s a)
    (h : c.machine.step s a = some t) : J t.2 := by
  obtain ⟨p, hp, ⟨r, hrun, rfl⟩ | ⟨-, rfl⟩⟩ := c.step_cases h
  · exact c.base.run_invariant (hstep s.1) hJ (hmeets p hp) hrun
  · exact hJ

/-- The run rule for invariants of the base machine. -/
theorem base_invariant {G : κ → ρ → ℓ → Prop} {J : ρ → Prop}
    (hstep : ∀ k r l r', J r → G k r l → c.base.step r l = some r' → J r')
    {s t : κ × ρ} {as : List α} (hJ : J s.2) (hobeys : c.machine.obeys (c.Meets G) s as)
    (hrun : c.machine.run s as = some t) : J t.2 :=
  c.machine.run_invariant (J := fun s => J s.2)
    (fun _ _ _ hJ hG h => c.base_step_invariant hstep hJ hG h) hJ hobeys hrun

/-- The run rule for what every step of the base machine keeps. -/
theorem base_kept {J : ρ → Prop} (hstep : ∀ r l r', J r → c.base.step r l = some r' → J r')
    {s t : κ × ρ} {as : List α} (hJ : J s.2) (hrun : c.machine.run s as = some t) : J t.2 :=
  c.base_invariant (G := fun _ _ _ => True) (fun _ r l r' h _ hs => hstep r l r' h hs) hJ
    (c.machine.obeys_of_forall
      (fun _ _ _ _ => c.base.obeys_of_forall (fun _ _ => trivial) _ _) _ _) hrun

/-- The run rule for relations between the base states before and after. -/
theorem base_relation {G : κ → ρ → ℓ → Prop} {J : ρ → Prop} {R : ρ → ρ → Prop}
    (hrefl : ∀ r, R r r) (htrans : ∀ r₁ r₂ r₃, R r₁ r₂ → R r₂ r₃ → R r₁ r₃)
    (hinv : ∀ k r l r', J r → G k r l → c.base.step r l = some r' → J r')
    (hrel : ∀ k r l r', J r → G k r l → c.base.step r l = some r' → R r r')
    {s t : κ × ρ} {as : List α} (hJ : J s.2) (hobeys : c.machine.obeys (c.Meets G) s as)
    (hrun : c.machine.run s as = some t) : R s.2 t.2 := by
  refine c.machine.run_relation (J := fun s => J s.2) (R := fun s t => R s.2 t.2)
    (fun _ => hrefl _) (fun _ _ _ => htrans _ _ _)
    (fun _ _ _ hJ hG h => c.base_step_invariant hinv hJ hG h) ?_ hJ hobeys hrun
  intro s a t hJ hmeets h
  obtain ⟨p, hp, ⟨r, hrun, rfl⟩ | ⟨-, rfl⟩⟩ := c.step_cases h
  · exact c.base.run_relation hrefl htrans (hinv s.1) (hrel s.1) hJ (hmeets p hp) hrun
  · exact hrefl _

end Controller

end NodeCpp.Lib
