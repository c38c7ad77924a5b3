import NodeCpp.Lib.Machine

/-!
# Traces

An observation gives every step of a machine what it shows, and the trace of a run
lists what its steps show, in order. A relation between the state and what has been
shown so far that every guarded step keeps is kept by every guarded run (`run_trace`, or
`run_exec` where one function gives the state and what is shown), and a machine that accepts
what the steps show accepts the trace (`run_simulates`).
-/

namespace NodeCpp.Lib

universe u v w x

namespace Machine

variable {σ : Type u} {α : Type v} {β : Type w} (m : Machine σ α)

/-- What the steps of a run show, in order. -/
def trace (o : σ → α → List β) : σ → List α → List β
  | _, [] => []
  | s, a :: as => o s a ++ (m.step s a).elim [] fun s' => trace o s' as

@[simp] theorem trace_nil (o : σ → α → List β) (s : σ) : m.trace o s [] = [] := rfl

theorem trace_cons (o : σ → α → List β) {s s' : σ} {a : α} (h : m.step s a = some s')
    (as : List α) : m.trace o s (a :: as) = o s a ++ m.trace o s' as := by
  simp only [trace, h, Option.elim_some]

/-- The trace rule. -/
theorem run_trace {G : σ → α → Prop} {o : σ → α → List β} {J : σ → List β → Prop}
    (hstep : ∀ s a s' l, J s l → G s a → m.step s a = some s' → J s' (l ++ o s a))
    {s t : σ} {as : List α} {l : List β} (hJ : J s l) (hobeys : m.obeys G s as)
    (hrun : m.run s as = some t) : J t (l ++ m.trace o s as) := by
  induction as generalizing s l with
  | nil =>
    cases hrun
    simpa using hJ
  | cons a as ih =>
    obtain ⟨s', hs, hrest⟩ := m.run_cons hrun
    rw [m.trace_cons o hs, ← List.append_assoc]
    apply ih (hstep s a s' l hJ hobeys.1 hs) (hobeys.2 s' hs) hrest

/-- The trace rule for a machine whose steps come with what they show. -/
theorem run_exec {G : σ → α → Prop} {o : σ → α → List β} {J : σ → List β → Prop}
    {exec : σ → α → Option (σ × List β)} (hm : ∀ s a, m.step s a = (exec s a).map Prod.fst)
    (ho : ∀ s a, o s a = (exec s a).elim [] Prod.snd)
    (hexec : ∀ s a s' l ev, J s l → G s a → exec s a = some (s', ev) → J s' (l ++ ev))
    {s t : σ} {as : List α} (hJ : J s []) (hobeys : m.obeys G s as) (hrun : m.run s as = some t) :
    J t (m.trace o s as) := by
  have h := m.run_trace (J := J) (o := o) ?_ hJ hobeys hrun
  · exact h
  · intro s a s' l hJ hG hs
    rw [hm] at hs
    obtain ⟨⟨s₁, ev⟩, hstep, rfl⟩ := Option.map_eq_some_iff.mp hs
    rw [ho, hstep]
    exact hexec s a s₁ l ev hJ hG hstep

/-- The simulation rule: if a machine accepts what every guarded step shows, in a state related
to that step's, it accepts the trace of every guarded run. -/
theorem run_simulates {τ : Type x} {n : Machine τ β} {G : σ → α → Prop} {o : σ → α → List β}
    {R : σ → τ → Prop}
    (hstep : ∀ s a s' t, R s t → G s a → m.step s a = some s' →
      ∃ t', n.run t (o s a) = some t' ∧ R s' t')
    {s s' : σ} {t : τ} {as : List α} (hR : R s t) (hobeys : m.obeys G s as)
    (hrun : m.run s as = some s') : ∃ t', n.run t (m.trace o s as) = some t' ∧ R s' t' := by
  induction as generalizing s t with
  | nil =>
    cases hrun
    exact ⟨t, rfl, hR⟩
  | cons a as ih =>
    obtain ⟨s₁, hs, hrest⟩ := m.run_cons hrun
    obtain ⟨t₁, ht, hR₁⟩ := hstep s a s₁ t hR hobeys.1 hs
    obtain ⟨t', ht', hR'⟩ := ih hR₁ (hobeys.2 s₁ hs) hrest
    refine ⟨t', ?_, hR'⟩
    rw [m.trace_cons o hs, n.run_append, ht]
    exact ht'

end Machine

end NodeCpp.Lib
