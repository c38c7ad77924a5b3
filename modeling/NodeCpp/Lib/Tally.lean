import NodeCpp.Lib.Controller

/-!
# Tallies

A weight gives every step of a machine a number, and the tally of a run is the sum
of the weights of its steps. If every guarded step balances a quantity of the state
against two weights, every guarded run balances it against the two tallies
(`run_tally`). For a controller the steps are those of the programs it has run.
-/

namespace NodeCpp.Lib

universe u v w x

namespace Machine

variable {σ : Type u} {α : Type v} (m : Machine σ α)

/-- The sum of the weights of the steps of a run. -/
def tally (c : σ → α → Nat) : σ → List α → Nat
  | _, [] => 0
  | s, a :: as => c s a + (m.step s a).elim 0 fun s' => tally c s' as

@[simp] theorem tally_nil (c : σ → α → Nat) (s : σ) : m.tally c s [] = 0 := rfl

theorem tally_cons (c : σ → α → Nat) {s s' : σ} {a : α} (h : m.step s a = some s')
    (as : List α) : m.tally c s (a :: as) = c s a + m.tally c s' as := by
  simp only [tally, h, Option.elim_some]

theorem tally_add (c d : σ → α → Nat) (s : σ) (as : List α) :
    m.tally (fun s a => c s a + d s a) s as = m.tally c s as + m.tally d s as := by
  induction as generalizing s with
  | nil => rfl
  | cons a as ih =>
    simp only [tally]
    cases m.step s a with
    | none => rfl
    | some s' =>
      simp only [Option.elim_some, ih s']
      omega

/-- Steps without weight. -/
theorem tally_eq_zero {c : σ → α → Nat} {as : List α} (h : ∀ a ∈ as, ∀ s, c s a = 0) (s : σ) :
    m.tally c s as = 0 := by
  induction as generalizing s with
  | nil => rfl
  | cons a as ih =>
    have hrest := ih fun b hb => h b (List.mem_cons_of_mem _ hb)
    simp only [tally, h a List.mem_cons_self s]
    cases m.step s a with
    | none => rfl
    | some s' => simp only [Option.elim_some, hrest s']

theorem tally_zero (s : σ) (as : List α) : m.tally (fun _ _ => 0) s as = 0 :=
  m.tally_eq_zero (fun _ _ _ => rfl) s

/-- A weight of the actions alone is summed up without the run. -/
theorem tally_eq_sum (c : α → Nat) {s t : σ} {as : List α} (h : m.run s as = some t) :
    m.tally (fun _ => c) s as = (as.map c).sum := by
  induction as generalizing s with
  | nil => rfl
  | cons a as ih =>
    obtain ⟨s', hs, hrest⟩ := m.run_cons h
    rw [m.tally_cons _ hs, ih hrest, List.map_cons, List.sum_cons]

theorem tally_append (c : σ → α → Nat) {s t : σ} {as : List α} (h : m.run s as = some t)
    (bs : List α) : m.tally c s (as ++ bs) = m.tally c s as + m.tally c t bs := by
  induction as generalizing s with
  | nil =>
    cases h
    exact (Nat.zero_add _).symm
  | cons a as ih =>
    obtain ⟨s', hs, hrest⟩ := m.run_cons h
    rw [List.cons_append, m.tally_cons c hs, m.tally_cons c hs, ih hrest, Nat.add_assoc]

section

variable {G : σ → α → Prop} {J : σ → Prop} {μ : σ → Nat} {c d : σ → α → Nat} {s t : σ} {as : List α}
  (hinv : ∀ s a s', J s → G s a → m.step s a = some s' → J s')

include hinv

/-- The balance rule for inequalities. -/
theorem run_tally_le
    (hstep : ∀ s a s', J s → G s a → m.step s a = some s' → μ s' + c s a ≤ μ s + d s a)
    (hJ : J s) (hobeys : m.obeys G s as) (hrun : m.run s as = some t) :
    μ t + m.tally c s as ≤ μ s + m.tally d s as := by
  induction as generalizing s with
  | nil =>
    cases hrun
    exact Nat.le_refl _
  | cons a as ih =>
    obtain ⟨s', hs, hrest⟩ := m.run_cons hrun
    have hhead := hstep s a s' hJ hobeys.1 hs
    have htail := ih (hinv s a s' hJ hobeys.1 hs) (hobeys.2 s' hs) hrest
    rw [m.tally_cons c hs, m.tally_cons d hs]
    omega

/-- The balance rule. -/
theorem run_tally
    (hstep : ∀ s a s', J s → G s a → m.step s a = some s' → μ s' + c s a = μ s + d s a)
    (hJ : J s) (hobeys : m.obeys G s as) (hrun : m.run s as = some t) :
    μ t + m.tally c s as = μ s + m.tally d s as := by
  induction as generalizing s with
  | nil =>
    cases hrun
    rfl
  | cons a as ih =>
    obtain ⟨s', hs, hrest⟩ := m.run_cons hrun
    have hhead := hstep s a s' hJ hobeys.1 hs
    have htail := ih (hinv s a s' hJ hobeys.1 hs) (hobeys.2 s' hs) hrest
    rw [m.tally_cons c hs, m.tally_cons d hs]
    omega

/-- The counting rule: a quantity that every step moves by its weight. -/
theorem run_count
    (hstep : ∀ s a s', J s → G s a → m.step s a = some s' → μ s' = μ s + d s a)
    (hJ : J s) (hobeys : m.obeys G s as) (hrun : m.run s as = some t) :
    μ t = μ s + m.tally d s as := by
  have hbalance := m.run_tally (μ := μ) (c := fun _ _ => 0) hinv hstep hJ hobeys hrun
  rwa [m.tally_zero] at hbalance

end

end Machine

namespace Controller

variable {κ : Type u} {ρ : Type v} {ℓ : Type w} {α : Type x} (c : Controller κ ρ ℓ α)

/-- The tally of the program an action runs. -/
def weigh (e : ρ → ℓ → Nat) (s : κ × ρ) (a : α) : Nat :=
  match c.plan s.1 s.2 a with
  | none => 0
  | some p =>
      match c.base.run s.2 p.1 with
      | none => 0
      | some _ => c.base.tally e s.2 p.1

/-- The sum of the weights of the steps of all programs that have been run. -/
def tally (e : ρ → ℓ → Nat) (s : κ × ρ) (as : List α) : Nat := c.machine.tally (c.weigh e) s as

theorem tally_add (e f : ρ → ℓ → Nat) (s : κ × ρ) (as : List α) :
    c.tally (fun r l => e r l + f r l) s as = c.tally e s as + c.tally f s as := by
  unfold tally
  rw [← Machine.tally_add]
  congr 1
  funext s a
  unfold weigh
  split
  · rfl
  · split
    · rfl
    · exact c.base.tally_add e f _ _

variable {G : κ × ρ → α → Prop} {J : κ × ρ → Prop} {μ : ρ → Nat} {e f : ρ → ℓ → Nat} {s t : κ × ρ}
  {as : List α} (hinv : ∀ s a t, J s → G s a → c.machine.step s a = some t → J t)

include hinv

/-- The balance rule for inequalities, with the step rule in terms of the programs. -/
theorem run_tally_le
    (hstep : ∀ s a p r, J s → G s a → c.plan s.1 s.2 a = some p → c.base.run s.2 p.1 = some r →
      μ r + c.base.tally e s.2 p.1 ≤ μ s.2 + c.base.tally f s.2 p.1)
    (hJ : J s) (hobeys : c.machine.obeys G s as)
    (hrun : c.machine.run s as = some t) : μ t.2 + c.tally e s as ≤ μ s.2 + c.tally f s as := by
  refine c.machine.run_tally_le (μ := fun s => μ s.2) hinv (fun s a t hJ hG h => ?_) hJ hobeys hrun
  obtain ⟨p, hp, ⟨r, hr, rfl⟩ | ⟨hr, rfl⟩⟩ := c.step_cases h
  · simp only [weigh, hp, hr]
    exact hstep s a p r hJ hG hp hr
  · simp only [weigh, hp, hr]
    exact Nat.le_refl _

/-- The balance rule, with the step rule in terms of the programs. -/
theorem run_tally
    (hstep : ∀ s a p r, J s → G s a → c.plan s.1 s.2 a = some p → c.base.run s.2 p.1 = some r →
      μ r + c.base.tally e s.2 p.1 = μ s.2 + c.base.tally f s.2 p.1)
    (hJ : J s) (hobeys : c.machine.obeys G s as)
    (hrun : c.machine.run s as = some t) : μ t.2 + c.tally e s as = μ s.2 + c.tally f s as := by
  refine c.machine.run_tally (μ := fun s => μ s.2) hinv (fun s a t hJ hG h => ?_) hJ hobeys hrun
  obtain ⟨p, hp, ⟨r, hr, rfl⟩ | ⟨hr, rfl⟩⟩ := c.step_cases h
  · simp only [weigh, hp, hr]
    exact hstep s a p r hJ hG hp hr
  · simp only [weigh, hp, hr]

/-- The counting rule: a quantity that every program moves by its tally. -/
theorem run_count
    (hstep : ∀ s a p r, J s → G s a → c.plan s.1 s.2 a = some p → c.base.run s.2 p.1 = some r →
      μ r = μ s.2 + c.base.tally f s.2 p.1)
    (hJ : J s) (hobeys : c.machine.obeys G s as)
    (hrun : c.machine.run s as = some t) : μ t.2 = μ s.2 + c.tally f s as := by
  have hzero : c.tally (fun _ _ => 0) s as = 0 := by
    have hweigh : c.weigh (fun _ _ => 0) = fun _ _ => 0 := by
      funext s a
      unfold weigh
      split
      · rfl
      · split
        · rfl
        · exact c.base.tally_zero _ _
    rw [tally, hweigh, Machine.tally_zero]
  have hbalance := c.run_tally (μ := μ) (e := fun _ _ => 0) (f := f) hinv
    (fun s a p r hJ hG hp hr => by
      rw [c.base.tally_zero]
      exact hstep s a p r hJ hG hp hr) hJ hobeys hrun
  rwa [hzero] at hbalance

end Controller

end NodeCpp.Lib
