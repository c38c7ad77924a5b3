import Mathlib.Algebra.Order.Ring.Nat
import Mathlib.Logic.Basic

/-!
# Step machines and guarded runs

A machine is a partial step function: an action either leads to a next state or
is refused (it is not enabled, or the step ends in a failed assertion). Runs are
finite action lists, so that a concrete run can be evaluated.

A *guard* is a condition on a state and the action about to be taken there.
`obeys` says that every step a run takes meets the guard; `run_invariant` is the
induction all run-level results go through: what holds at the start and is kept
by every guarded step holds at the end of every guarded run.
-/

namespace NodeCpp.Lib

universe u v

/-- A partial step function over states `σ` and actions `α`. -/
structure Machine (σ : Type u) (α : Type v) where
  step : σ → α → Option σ

namespace Machine

variable {σ : Type u} {α : Type v} (m : Machine σ α)

/-- The state after a list of actions, if none of them is refused. -/
def run : σ → List α → Option σ
  | s, [] => some s
  | s, a :: as => (m.step s a).bind fun s' => run s' as

/-- Every step the run takes from `s` meets the guard `G`. -/
def obeys (G : σ → α → Prop) : σ → List α → Prop
  | _, [] => True
  | s, a :: as => G s a ∧ ∀ s', m.step s a = some s' → obeys G s' as

@[simp] theorem run_nil (s : σ) : m.run s [] = some s := rfl

@[simp] theorem obeys_nil (G : σ → α → Prop) (s : σ) : m.obeys G s [] := trivial

@[simp] theorem run_singleton (s : σ) (a : α) : m.run s [a] = m.step s a := by
  simp only [run]
  exact Option.bind_fun_some ..

theorem run_cons {s t : σ} {a : α} {as : List α} (h : m.run s (a :: as) = some t) :
    ∃ s', m.step s a = some s' ∧ m.run s' as = some t := by
  simpa only [run, Option.bind_eq_some_iff] using h

theorem obeys_cons {G : σ → α → Prop} {s s' : σ} {a : α} {as : List α}
    (h : m.step s a = some s') : m.obeys G s (a :: as) ↔ G s a ∧ m.obeys G s' as := by
  simp only [obeys, h, Option.some.injEq, forall_eq']

/-- Guards that can be evaluated can be evaluated along a run. -/
instance decidableObeys (G : σ → α → Prop) [∀ s a, Decidable (G s a)] :
    ∀ s as, Decidable (m.obeys G s as)
  | _, [] => isTrue trivial
  | s, a :: as =>
      match h : m.step s a with
      | none => decidable_of_iff (G s a) (by simp [obeys, h])
      | some s' =>
          have := decidableObeys G s' as
          decidable_of_iff _ (m.obeys_cons h).symm

theorem run_append (s : σ) (as bs : List α) :
    m.run s (as ++ bs) = (m.run s as).bind fun t => m.run t bs := by
  induction as generalizing s with
  | nil => rfl
  | cons a as ih =>
    simp only [List.cons_append, run]
    cases m.step s a with
    | none => rfl
    | some s' => exact ih s'

/-- A guarded run splits at every point into two guarded runs. -/
theorem obeys_append {G : σ → α → Prop} {s t : σ} {as bs : List α}
    (hrun : m.run s as = some t) :
    m.obeys G s (as ++ bs) ↔ m.obeys G s as ∧ m.obeys G t bs := by
  induction as generalizing s with
  | nil => cases hrun; simp
  | cons a as ih =>
    obtain ⟨s', hstep, hrest⟩ := m.run_cons hrun
    rw [List.cons_append, m.obeys_cons hstep, m.obeys_cons hstep, ih hrest, and_assoc]

theorem guarded_append {G : σ → α → Prop} {s t : σ} {as bs : List α}
    (hobeys : m.obeys G s (as ++ bs)) (hrun : m.run s (as ++ bs) = some t) :
    ∃ u, m.obeys G s as ∧ m.run s as = some u ∧ m.obeys G u bs ∧ m.run u bs = some t := by
  rw [run_append] at hrun
  obtain ⟨u, hfirst, hrest⟩ := Option.bind_eq_some_iff.mp hrun
  obtain ⟨hobeys₁, hobeys₂⟩ := (m.obeys_append hfirst).mp hobeys
  exact ⟨u, hobeys₁, hfirst, hobeys₂, hrest⟩

theorem guarded_cons {G : σ → α → Prop} {s t : σ} {a : α} {as : List α}
    (hobeys : m.obeys G s (a :: as)) (hrun : m.run s (a :: as) = some t) :
    ∃ u, G s a ∧ m.step s a = some u ∧ m.obeys G u as ∧ m.run u as = some t := by
  obtain ⟨u, hstep, hrest⟩ := m.run_cons hrun
  exact ⟨u, hobeys.1, hstep, hobeys.2 u hstep, hrest⟩

theorem obeys_mono {G H : σ → α → Prop} (hGH : ∀ s a, G s a → H s a) {s : σ} {as : List α}
    (h : m.obeys G s as) : m.obeys H s as := by
  induction as generalizing s with
  | nil => trivial
  | cons a as ih => exact ⟨hGH s a h.1, fun s' hs => ih (h.2 s' hs)⟩

/-- A condition on the actions alone joins the guard. -/
theorem obeys_and_mem {G : σ → α → Prop} {P : α → Prop} {s : σ} {as : List α}
    (h : m.obeys G s as) (hP : ∀ a ∈ as, P a) : m.obeys (fun s a => G s a ∧ P a) s as := by
  induction as generalizing s with
  | nil => trivial
  | cons a as ih =>
    exact ⟨⟨h.1, hP a (List.mem_cons_self ..)⟩,
      fun s' hs => ih (h.2 s' hs) fun b hb => hP b (List.mem_cons_of_mem _ hb)⟩

theorem obeys_of_forall {G : σ → α → Prop} (h : ∀ s a, G s a) (s : σ) (as : List α) :
    m.obeys G s as := by
  induction as generalizing s with
  | nil => trivial
  | cons a as ih => exact ⟨h s a, fun s' _ => ih s'⟩

/-- A run obeys what its actions have in common. -/
theorem obeys_of_mem {P : α → Prop} {s : σ} {as : List α} (h : ∀ a ∈ as, P a) :
    m.obeys (fun _ => P) s as :=
  m.obeys_mono (fun _ _ hand => hand.2)
    (m.obeys_and_mem (m.obeys_of_forall (fun _ _ => trivial) s as) h)

/-- Two guards that agree wherever an invariant holds are obeyed by the same runs; the invariant
has to be kept by the guarded steps only. -/
theorem obeys_congr {G H : σ → α → Prop} {J : σ → Prop} (hiff : ∀ s a, J s → (G s a ↔ H s a))
    (hstep : ∀ s a s', J s → G s a → m.step s a = some s' → J s') {s : σ} (hJ : J s)
    (as : List α) : m.obeys G s as ↔ m.obeys H s as := by
  induction as generalizing s with
  | nil => exact Iff.rfl
  | cons a as ih =>
    constructor
    · rintro ⟨hG, hrest⟩
      exact ⟨(hiff s a hJ).mp hG, fun s' hs => (ih (hstep s a s' hJ hG hs)).mp (hrest s' hs)⟩
    · rintro ⟨hH, hrest⟩
      have hG := (hiff s a hJ).mpr hH
      exact ⟨hG, fun s' hs => (ih (hstep s a s' hJ hG hs)).mpr (hrest s' hs)⟩

/-- Some run of actions that satisfy `P` leads from `s` to `t`. -/
def Reaches (P : α → Prop) (s t : σ) : Prop := ∃ as, (∀ a ∈ as, P a) ∧ m.run s as = some t

namespace Reaches

variable {m} {P : α → Prop} {s t u : σ}

theorem refl (s : σ) : m.Reaches P s s := ⟨[], nofun, rfl⟩

theorem single {a : α} (ha : P a) (hs : m.step s a = some t) : m.Reaches P s t := by
  refine ⟨[a], ?_, ?_⟩
  · intro b hb
    exact List.mem_singleton.mp hb ▸ ha
  · rw [m.run_singleton, hs]

theorem trans (h : m.Reaches P s t) (h' : m.Reaches P t u) : m.Reaches P s u := by
  obtain ⟨as, has, hrun⟩ := h
  obtain ⟨bs, hbs, hrun'⟩ := h'
  refine ⟨as ++ bs, ?_, ?_⟩
  · intro a ha
    exact (List.mem_append.mp ha).elim (has a) (hbs a)
  · rw [m.run_append, hrun]
    exact hrun'

end Reaches

/-- What is said about the end of a run can be evaluated with the run. -/
instance decidableExistsSome {β : Type*} (P : β → Prop) [DecidablePred P] :
    ∀ o : Option β, Decidable (∃ b, o = some b ∧ P b)
  | none => isFalse fun ⟨_, h, _⟩ => nomatch h
  | some b => decidable_of_iff (P b) ⟨fun h => ⟨b, rfl, h⟩, fun ⟨_, h, hP⟩ => by cases h; exact hP⟩

/-- The run rule: an invariant of the guarded steps holds after every guarded run. -/
theorem run_invariant {G : σ → α → Prop} {J : σ → Prop}
    (hstep : ∀ s a s', J s → G s a → m.step s a = some s' → J s')
    {s t : σ} {as : List α} (hJ : J s) (hobeys : m.obeys G s as)
    (hrun : m.run s as = some t) : J t := by
  induction as generalizing s with
  | nil => cases hrun; exact hJ
  | cons a as ih =>
    obtain ⟨s', hs, hrest⟩ := m.run_cons hrun
    exact ih (hstep s a s' hJ hobeys.1 hs) (hobeys.2 s' hs) hrest

/-- The run rule without a guard. -/
theorem run_kept {J : σ → Prop} (hstep : ∀ s a s', J s → m.step s a = some s' → J s')
    {s t : σ} {as : List α} (hJ : J s) (hrun : m.run s as = some t) : J t :=
  m.run_invariant (G := fun _ _ => True) (fun s a s' h _ hs => hstep s a s' h hs) hJ
    (m.obeys_of_forall (fun _ _ => trivial) s as) hrun

/-- The run rule for runs whose actions have something in common. -/
theorem run_kept_of_mem {P : α → Prop} {J : σ → Prop}
    (hstep : ∀ s a s', J s → P a → m.step s a = some s' → J s')
    {s t : σ} {as : List α} (hJ : J s) (hP : ∀ a ∈ as, P a) (hrun : m.run s as = some t) : J t :=
  m.run_invariant hstep hJ (m.obeys_of_mem hP) hrun

/-- The relational run rule: a reflexive and transitive relation between the states before
and after a guarded step (under an invariant) relates the ends of every guarded run. -/
theorem run_relation {G : σ → α → Prop} {J : σ → Prop} {R : σ → σ → Prop}
    (hrefl : ∀ s, R s s) (htrans : ∀ s t u, R s t → R t u → R s u)
    (hinv : ∀ s a s', J s → G s a → m.step s a = some s' → J s')
    (hrel : ∀ s a s', J s → G s a → m.step s a = some s' → R s s')
    {s t : σ} {as : List α} (hJ : J s) (hobeys : m.obeys G s as)
    (hrun : m.run s as = some t) : R s t := by
  induction as generalizing s with
  | nil => cases hrun; exact hrefl _
  | cons a as ih =>
    obtain ⟨s', hs, hrest⟩ := m.run_cons hrun
    exact htrans _ _ _ (hrel s a s' hJ hobeys.1 hs)
      (ih (hinv s a s' hJ hobeys.1 hs) (hobeys.2 s' hs) hrest)

end Machine

end NodeCpp.Lib
