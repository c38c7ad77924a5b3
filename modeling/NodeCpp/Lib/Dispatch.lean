import Mathlib.Data.List.Induction
import Mathlib.Data.List.Nodup
import NodeCpp.Lib.Trace

/-!
# Snapshot dispatch

Handlers are registered for an event, for good or for one emission, and every emission
calls those that are registered when it starts, in order. Handlers may register others
and start further emissions while they run.

A log tells what has happened, with registrations and emissions numbered as they come.
`dispatcher` is the machine that accepts the logs of snapshot dispatch: an emission
takes the handlers that are registered with it when it starts, and those for one
emission are not registered any more. `Law` says what a log is to satisfy on its own
terms, and `Law.of_run` that every log the machine accepts does.
-/

namespace NodeCpp.Lib

/-- How a handler is registered: behind the others, for one emission, or before the others. -/
inductive Registration
  | on
  | once
  | prepend
  deriving DecidableEq, Repr

inductive EmitEvent
  | registers (kind : Registration) (r : Nat)
  | starts (e : Nat)
  | invokes (e r : Nat)
  | returns (e : Nat)
  deriving DecidableEq, Repr

namespace EmitEvent

/-- The handlers that are registered, and whether for one emission, after one more event. -/
def note (handlers : List (Bool × Nat)) : EmitEvent → List (Bool × Nat)
  | .registers .on r => handlers ++ [(false, r)]
  | .registers .once r => handlers ++ [(true, r)]
  | .registers .prepend r => (false, r) :: handlers
  | .starts _ => handlers.filter fun p => !p.1
  | .invokes _ _ | .returns _ => handlers

def registered (log : List EmitEvent) : List (Bool × Nat) := log.foldl note []

def invokedBy (e : Nat) : EmitEvent → Option Nat
  | .invokes e' r => if e' = e then some r else none
  | _ => none

/-- The handlers that the emission `e` has invoked. -/
def invocations (e : Nat) (log : List EmitEvent) : List Nat := log.filterMap (invokedBy e)

def isInvocationOf (r : Nat) : EmitEvent → Bool
  | .invokes _ r' => decide (r' = r)
  | _ => false

/-- What a log of emissions is to satisfy. -/
structure Law (log : List EmitEvent) : Prop where
  /-- Handlers are invoked by emissions that have started. -/
  known : ∀ e r, .invokes e r ∈ log → .starts e ∈ log
  /-- An emission invokes handlers that were registered when it started, in their order. -/
  snapshot : ∀ e pre post, log = pre ++ EmitEvent.starts e :: post →
    invocations e log <+: (registered pre).map Prod.snd
  /-- When it returns, it has invoked all of them. -/
  complete : ∀ e pre post, log = pre ++ EmitEvent.starts e :: post → .returns e ∈ log →
    invocations e log = (registered pre).map Prod.snd
  /-- A handler is invoked by emissions that start after its registration; if it is registered
  for one emission, by the first of them. -/
  since : ∀ e pre post r, log = pre ++ EmitEvent.starts e :: post → r ∈ invocations e log →
    ∃ l₁ kind l₂, pre = l₁ ++ EmitEvent.registers kind r :: l₂ ∧
      (kind = .once → ∀ e', .starts e' ∉ l₂)
  /-- Those emissions do invoke it. -/
  reached : ∀ e l₁ kind r l₂ post,
    log = (l₁ ++ EmitEvent.registers kind r :: l₂) ++ EmitEvent.starts e :: post →
    (kind = .once → ∀ e', .starts e' ∉ l₂) → .returns e ∈ log → r ∈ invocations e log
  /-- A handler that is registered for one emission is invoked at most once. -/
  once : ∀ r, .registers .once r ∈ log → log.countP (isInvocationOf r) ≤ 1

@[simp] theorem registered_append (log : List EmitEvent) (ev : EmitEvent) :
    registered (log ++ [ev]) = note (registered log) ev := by
  simp [registered, List.foldl_append]

@[simp] theorem invocations_append (e : Nat) (log : List EmitEvent) (ev : EmitEvent) :
    invocations e (log ++ [ev]) = invocations e log ++ (invokedBy e ev).toList := by
  unfold invocations
  rw [List.filterMap_append]
  cases h : invokedBy e ev <;> simp [h]

theorem mem_invocations {e r : Nat} {log : List EmitEvent} :
    r ∈ invocations e log ↔ .invokes e r ∈ log := by
  unfold invocations
  rw [List.mem_filterMap]
  constructor
  · rintro ⟨ev, hev, hr⟩
    cases ev with
    | invokes e' r' =>
      simp only [invokedBy] at hr
      split at hr
      · rename_i he
        cases hr
        exact he ▸ hev
      · cases hr
    | _ => cases hr
  · intro h
    exact ⟨_, h, if_pos rfl⟩

/-- What is registered has been registered, and since then no emission has started if it was for
one emission. -/
theorem mem_registered {p : Bool × Nat} {log : List EmitEvent} (h : p ∈ registered log) :
    ∃ l₁ kind l₂, log = l₁ ++ EmitEvent.registers kind p.2 :: l₂ ∧ (p.1 = true ↔ kind = .once) ∧
      (kind = .once → ∀ e, .starts e ∉ l₂) := by
  induction log using List.reverseRecOn with
  | nil => cases h
  | append_singleton log ev ih =>
    rw [registered_append] at h
    -- an older registration, with one more event behind it
    have hold : p ∈ registered log → (p.1 = true → ∀ e, ev ≠ .starts e) →
        ∃ l₁ kind l₂, log ++ [ev] = l₁ ++ EmitEvent.registers kind p.2 :: l₂ ∧
          (p.1 = true ↔ kind = .once) ∧ (kind = .once → ∀ e, .starts e ∉ l₂) := by
      intro hmem hev
      obtain ⟨l₁, kind, l₂, rfl, hkind, hl₂⟩ := ih hmem
      refine ⟨l₁, kind, l₂ ++ [ev], by simp, hkind, fun hk e hmem => ?_⟩
      rcases List.mem_append.mp hmem with hmem | hmem
      · exact hl₂ hk e hmem
      · exact hev (hkind.mpr hk) e (List.mem_singleton.mp hmem).symm
    cases ev with
    | registers kind r =>
      have hnew : p = (decide (kind = .once), r) →
          ∃ l₁ k l₂, log ++ [EmitEvent.registers kind r] = l₁ ++ EmitEvent.registers k p.2 :: l₂ ∧
            (p.1 = true ↔ k = .once) ∧ (k = .once → ∀ e, .starts e ∉ l₂) := by
        rintro rfl
        exact ⟨log, kind, [], rfl, by simp, fun _ _ => List.not_mem_nil⟩
      cases kind with
      | on | once =>
        rcases List.mem_append.mp h with hmem | hmem
        · exact hold hmem nofun
        · exact hnew (List.mem_singleton.mp hmem)
      | prepend =>
        rcases List.mem_cons.mp h with rfl | hmem
        · exact hnew rfl
        · exact hold hmem nofun
    | starts e =>
      obtain ⟨hmem, hfalse⟩ := List.mem_filter.mp h
      refine hold hmem fun htrue => ?_
      rw [htrue] at hfalse
      cases hfalse
    | invokes e r => exact hold h nofun
    | returns e => exact hold h nofun

theorem mem_registered_of (l₁ : List EmitEvent) (kind : Registration) (r : Nat)
    (l₂ : List EmitEvent) (h : kind = .once → ∀ e, .starts e ∉ l₂) :
    (decide (kind = .once), r) ∈ registered (l₁ ++ EmitEvent.registers kind r :: l₂) := by
  induction l₂ using List.reverseRecOn with
  | nil =>
    rw [registered_append]
    cases kind <;> simp [note]
  | append_singleton l₂ ev ih =>
    have hmem := ih fun hk e he => h hk e (List.mem_append_left _ he)
    rw [← List.cons_append, ← List.append_assoc, registered_append]
    cases ev with
    | registers kind' r' => cases kind' <;> simp [note, hmem]
    | starts e =>
      have hkind : kind ≠ .once := fun hk => h hk e (by simp)
      simp only [note, List.mem_filter]
      exact ⟨hmem, by simp [hkind]⟩
    | invokes e r' | returns e => exact hmem

def Below (registrations emissions : Nat) : EmitEvent → Prop
  | .registers _ r => r < registrations
  | .starts e | .returns e => e < emissions
  | .invokes e r => e < emissions ∧ r < registrations

theorem Below.mono {m m' n n' : Nat} {ev : EmitEvent} (h : ev.Below m n) (hm : m ≤ m')
    (hn : n ≤ n') : ev.Below m' n' := by
  cases ev with
  | registers kind r => exact Nat.lt_of_lt_of_le h hm
  | starts e | returns e => exact Nat.lt_of_lt_of_le h hn
  | invokes e r => exact ⟨Nat.lt_of_lt_of_le h.1 hn, Nat.lt_of_lt_of_le h.2 hm⟩

theorem mem_of_ne {log : List EmitEvent} {ev x : EmitEvent} (h : x ∈ log ++ [ev]) (hne : x ≠ ev) :
    x ∈ log := by
  rcases List.mem_append.mp h with h | h
  · exact h
  · exact absurd (List.mem_singleton.mp h) hne

/-- A log with one more event, cut at an event: at the new one or before. -/
theorem append_eq_cut {log pre post : List EmitEvent} {ev x : EmitEvent}
    (h : log ++ [ev] = pre ++ x :: post) :
    (pre = log ∧ x = ev) ∨ ∃ post', log = pre ++ x :: post' := by
  rcases List.eq_nil_or_concat post with rfl | ⟨post', last, rfl⟩
  · obtain ⟨rfl, hev⟩ := List.append_inj' h rfl
    cases hev
    exact .inl ⟨rfl, rfl⟩
  · rw [List.concat_eq_append, ← List.cons_append, ← List.append_assoc] at h
    exact .inr ⟨post', (List.append_inj' h rfl).1⟩

theorem cut_of_ne {log pre post : List EmitEvent} {ev x : EmitEvent}
    (h : log ++ [ev] = pre ++ x :: post) (hne : x ≠ ev) : ∃ post', log = pre ++ x :: post' := by
  rcases append_eq_cut h with ⟨-, heq⟩ | hcut
  · exact absurd heq hne
  · exact hcut

end EmitEvent

/-- The handlers that are registered, and the emissions that have started and not returned, the
last one first, with the handlers they are still to call. -/
@[ext]
structure Dispatcher where
  registered : List (Bool × Nat) := []
  registrations : Nat := 0
  emissions : Nat := 0
  running : List (Nat × List Nat) := []
  deriving DecidableEq, Repr

def Dispatcher.step (d : Dispatcher) : EmitEvent → Option Dispatcher
  | .registers kind r =>
      if r = d.registrations then
        some { d with registered := EmitEvent.note d.registered (.registers kind r)
                      registrations := d.registrations + 1 }
      else none
  | .starts e =>
      if e = d.emissions then
        some { d with registered := EmitEvent.note d.registered (.starts e)
                      emissions := d.emissions + 1
                      running := (e, d.registered.map Prod.snd) :: d.running }
      else none
  | .invokes e r =>
      match d.running with
      | (e', r' :: rest) :: running =>
          if e' = e ∧ r' = r then some { d with running := (e, rest) :: running } else none
      | _ => none
  | .returns e =>
      match d.running with
      | (e', []) :: running => if e' = e then some { d with running := running } else none
      | _ => none

def dispatcher : Machine Dispatcher EmitEvent where
  step := Dispatcher.step

namespace Dispatcher

open EmitEvent

variable {d d' : Dispatcher} {log : List EmitEvent} {ev : EmitEvent}

theorem step_cases (h : d.step ev = some d') :
    (∃ kind, ev = .registers kind d.registrations ∧
      d' = { d with registered := note d.registered ev, registrations := d.registrations + 1 }) ∨
    (ev = .starts d.emissions ∧
      d' = { d with registered := note d.registered ev, emissions := d.emissions + 1
                    running := (d.emissions, d.registered.map Prod.snd) :: d.running }) ∨
    (∃ e r rest running, ev = .invokes e r ∧ d.running = (e, r :: rest) :: running ∧
      d' = { d with running := (e, rest) :: running }) ∨
    (∃ e running, ev = .returns e ∧ d.running = (e, []) :: running ∧
      d' = { d with running := running }) := by
  cases ev with
  | registers kind r =>
    simp only [step] at h
    split at h
    · rename_i hr
      subst hr
      cases h
      exact .inl ⟨kind, rfl, rfl⟩
    · cases h
  | starts e =>
    simp only [step] at h
    split at h
    · rename_i he
      subst he
      cases h
      exact .inr (.inl ⟨rfl, rfl⟩)
    · cases h
  | invokes e r =>
    simp only [step] at h
    split at h
    · rename_i e' r' rest running hrunning
      split at h
      · rename_i heq
        obtain ⟨rfl, rfl⟩ := heq
        cases h
        exact .inr (.inr (.inl ⟨_, _, rest, running, rfl, hrunning, rfl⟩))
      · cases h
    · cases h
  | returns e =>
    simp only [step] at h
    split at h
    · rename_i e' running hrunning
      split at h
      · rename_i heq
        subst heq
        cases h
        exact .inr (.inr (.inr ⟨_, running, rfl, hrunning, rfl⟩))
      · cases h
    · cases h

/-- Numbers are given out in order. -/
structure Numbered (d : Dispatcher) (log : List EmitEvent) : Prop where
  registered : d.registered = EmitEvent.registered log
  below : ∀ x ∈ log, x.Below d.registrations d.emissions
  running : ∀ o ∈ d.running, o.1 < d.emissions ∧ ∀ r ∈ o.2, r < d.registrations
  distinct : (d.running.map Prod.fst).Nodup

theorem Numbered.init : Numbered {} [] := ⟨rfl, nofun, nofun, .nil⟩

theorem Numbered.handler (h : d.Numbered log) {p : Bool × Nat} (hp : p ∈ d.registered) :
    p.2 < d.registrations := by
  rw [h.registered] at hp
  obtain ⟨l₁, kind, l₂, rfl, -⟩ := mem_registered hp
  exact h.below (.registers kind p.2) (by simp)

/-- The step lemma for the numbers. -/
theorem Numbered.step (h : d.Numbered log) (hstep : d.step ev = some d') :
    d'.Numbered (log ++ [ev]) := by
  have hbelow : d.registrations ≤ d'.registrations → d.emissions ≤ d'.emissions →
      ev.Below d'.registrations d'.emissions →
      ∀ x ∈ log ++ [ev], x.Below d'.registrations d'.emissions := by
    intro hr he hev x hx
    rcases List.mem_append.mp hx with hx | hx
    · exact (h.below x hx).mono hr he
    · exact List.mem_singleton.mp hx ▸ hev
  have hrunning := h.running
  have hdistinct := h.distinct
  obtain ⟨kind, rfl, rfl⟩ | ⟨rfl, rfl⟩ | ⟨e, r, rest, running, rfl, heq, rfl⟩ |
    ⟨e, running, rfl, heq, rfl⟩ := step_cases hstep
  · refine ⟨by rw [registered_append, h.registered],
      hbelow (Nat.le_succ _) (Nat.le_refl _) (Nat.lt_succ_self _), fun o ho => ?_, hdistinct⟩
    exact ⟨(hrunning o ho).1, fun r hr => Nat.lt_succ_of_lt ((hrunning o ho).2 r hr)⟩
  · refine ⟨by rw [registered_append, h.registered],
      hbelow (Nat.le_refl _) (Nat.le_succ _) (Nat.lt_succ_self _), fun o ho => ?_, ?_⟩
    · rcases List.mem_cons.mp ho with rfl | ho
      · refine ⟨Nat.lt_succ_self _, fun r hr => ?_⟩
        obtain ⟨p, hp, rfl⟩ := List.mem_map.mp hr
        exact h.handler hp
      · exact ⟨Nat.lt_succ_of_lt (hrunning o ho).1, (hrunning o ho).2⟩
    · refine List.nodup_cons.mpr ⟨fun hin => ?_, hdistinct⟩
      obtain ⟨o, ho, hfst⟩ := List.mem_map.mp hin
      have hlt := (hrunning o ho).1
      omega
  · rw [heq] at hrunning hdistinct
    obtain ⟨⟨he, hnames⟩, hrest⟩ := List.forall_mem_cons.mp hrunning
    obtain ⟨hr, hnames⟩ := List.forall_mem_cons.mp hnames
    exact ⟨by rw [registered_append, h.registered]; rfl,
      hbelow (Nat.le_refl _) (Nat.le_refl _) ⟨he, hr⟩,
      List.forall_mem_cons.mpr ⟨⟨he, hnames⟩, hrest⟩, hdistinct⟩
  · rw [heq] at hrunning hdistinct
    obtain ⟨⟨he, -⟩, hrest⟩ := List.forall_mem_cons.mp hrunning
    exact ⟨by rw [registered_append, h.registered]; rfl,
      hbelow (Nat.le_refl _) (Nat.le_refl _) he, hrest, (List.nodup_cons.mp hdistinct).2⟩

/-- The emissions and what they are still to call. -/
structure Dispatched (d : Dispatcher) (log : List EmitEvent) : Prop extends d.Numbered log where
  started : ∀ o ∈ d.running, .starts o.1 ∈ log
  known : ∀ e r, .invokes e r ∈ log → .starts e ∈ log
  returned : ∀ e, .returns e ∈ log → d.running.lookup e = none
  emitted : ∀ e pre post, log = pre ++ EmitEvent.starts e :: post →
    invocations e log ++ (d.running.lookup e).getD [] = (EmitEvent.registered pre).map Prod.snd

theorem Dispatched.init : Dispatched {} [] where
  toNumbered := .init
  started := nofun
  known := nofun
  returned := nofun
  emitted _ pre _ h := by
    cases pre <;> cases h

theorem lookup_eq_none {e : Nat} {running : List (Nat × List Nat)}
    (h : e ∉ running.map Prod.fst) : running.lookup e = none := by
  rw [List.lookup_eq_none_iff]
  intro o ho
  rw [bne_iff_ne]
  rintro rfl
  exact h (List.mem_map_of_mem ho)

/-- The step lemma. -/
theorem Dispatched.step (h : d.Dispatched log) (hstep : d.step ev = some d') :
    d'.Dispatched (log ++ [ev]) := by
  have hnumbered := h.toNumbered.step hstep
  have hsub : ∀ x ∈ log, x ∈ log ++ [ev] := fun x hx => List.mem_append_left _ hx
  have hstarted := h.started
  have hreturned := h.returned
  have hemitted := h.emitted
  obtain ⟨kind, rfl, rfl⟩ | ⟨rfl, rfl⟩ | ⟨e, r, rest, running, rfl, heq, rfl⟩ |
    ⟨e, running, rfl, heq, rfl⟩ := step_cases hstep
  · -- a registration: what runs keeps its snapshot
    refine ⟨hnumbered, fun o ho => hsub _ (hstarted o ho),
      fun e r her => hsub _ (h.known e r (mem_of_ne her nofun)),
      fun e he => hreturned e (mem_of_ne he nofun), ?_⟩
    intro e pre post hcut
    obtain ⟨post', hlog⟩ := cut_of_ne hcut nofun
    rw [invocations_append]
    simpa [invokedBy] using hemitted e pre post' hlog
  · -- a new emission, with a number not in use
    refine ⟨hnumbered, ?_, fun e r her => hsub _ (h.known e r (mem_of_ne her nofun)), ?_, ?_⟩
    · intro o ho
      rcases List.mem_cons.mp ho with rfl | ho
      · simp
      · exact hsub _ (hstarted o ho)
    · intro e he
      have he := mem_of_ne he nofun
      have hne : e ≠ d.emissions := Nat.ne_of_lt (h.below _ he)
      simp only [List.lookup_cons, beq_false_of_ne hne]
      exact hreturned e he
    · intro e pre post hcut
      rw [invocations_append]
      obtain ⟨rfl, heq⟩ | ⟨post', hlog⟩ := append_eq_cut hcut
      · -- the new emission has called nobody
        cases heq
        have hnone : invocations d.emissions pre = [] := by
          rw [List.eq_nil_iff_forall_not_mem]
          intro r hr
          exact Nat.lt_irrefl _ (h.below _ (mem_invocations.mp hr)).1
        simp [hnone, invokedBy, h.registered]
      · have hne : e ≠ d.emissions :=
          Nat.ne_of_lt (h.below (.starts e) (by rw [hlog]; simp))
        simp only [List.lookup_cons, beq_false_of_ne hne, invokedBy, Option.toList_none,
          List.append_nil]
        exact hemitted e pre post' hlog
  · -- the innermost emission calls the next of its snapshot
    rw [heq] at hstarted hreturned hemitted
    obtain ⟨hhead, htail⟩ := List.forall_mem_cons.mp hstarted
    refine ⟨hnumbered, ?_, ?_, ?_, ?_⟩
    · exact List.forall_mem_cons.mpr ⟨hsub _ hhead, fun o ho => hsub _ (htail o ho)⟩
    · intro e' r' her
      rcases List.mem_append.mp her with her | her
      · exact hsub _ (h.known e' r' her)
      · cases List.mem_singleton.mp her
        exact hsub _ hhead
    · intro e' he
      have hold := hreturned e' (mem_of_ne he nofun)
      simp only [List.lookup_cons] at hold ⊢
      split at hold
      · cases hold
      · exact hold
    · intro e' pre post hcut
      obtain ⟨post', hlog⟩ := cut_of_ne hcut nofun
      have hold := hemitted e' pre post' hlog
      rw [invocations_append]
      by_cases he : e' = e
      · subst he
        simpa [invokedBy] using hold
      · have hne : (e' == e) = false := beq_false_of_ne he
        have hne' : ¬e = e' := fun heq => he heq.symm
        simpa [invokedBy, List.lookup_cons, hne, hne'] using hold
  · -- the innermost emission returns, its snapshot used up
    have hdistinct := h.distinct
    rw [heq] at hstarted hreturned hemitted hdistinct
    have hgone : running.lookup e = none := lookup_eq_none (List.nodup_cons.mp hdistinct).1
    have hlookup : ∀ e', (running.lookup e').getD [] =
        (List.lookup e' ((e, []) :: running)).getD [] := by
      intro e'
      by_cases he : e' = e
      · subst he
        simp [hgone]
      · simp only [List.lookup_cons, beq_false_of_ne he]
    refine ⟨hnumbered, fun o ho => hsub _ (hstarted o (List.mem_cons_of_mem _ ho)),
      fun e' r' her => hsub _ (h.known e' r' (mem_of_ne her nofun)), ?_, ?_⟩
    · intro e' he
      rcases List.mem_append.mp he with he | he
      · have hold := hreturned e' he
        simp only [List.lookup_cons] at hold
        split at hold
        · cases hold
        · exact hold
      · cases List.mem_singleton.mp he
        exact hgone
    · intro e' pre post hcut
      obtain ⟨post', hlog⟩ := cut_of_ne hcut nofun
      rw [invocations_append, hlookup]
      simpa [invokedBy] using hemitted e' pre post' hlog

/-- How often the handler is still to be called, by the emissions that run and by the next
one. -/
def pending (d : Dispatcher) (r : Nat) : Nat :=
  (d.registered.map Prod.snd).count r + (d.running.map fun o => o.2.count r).sum

theorem Numbered.pending_registrations (h : d.Numbered log) : d.pending d.registrations = 0 := by
  have hregistered : (d.registered.map Prod.snd).count d.registrations = 0 := by
    rw [List.count_eq_zero]
    intro hmem
    obtain ⟨p, hp, heq⟩ := List.mem_map.mp hmem
    have hlt := h.handler hp
    omega
  have hrunning : (d.running.map fun o => o.2.count d.registrations).sum = 0 := by
    rw [List.sum_eq_zero_iff_forall_eq_nat]
    intro n hn
    obtain ⟨o, ho, rfl⟩ := List.mem_map.mp hn
    rw [List.count_eq_zero]
    intro hmem
    exact Nat.lt_irrefl _ ((h.running o ho).2 _ hmem)
  rw [pending, hregistered, hrunning]

theorem Numbered.not_invoked (h : d.Numbered log) :
    log.countP (isInvocationOf d.registrations) = 0 := by
  rw [List.countP_eq_zero]
  intro x hx hof
  cases x with
  | invokes e r => exact Nat.ne_of_lt (h.below _ hx).2 (of_decide_eq_true hof)
  | _ => cases hof

theorem count_note (handlers : List (Bool × Nat)) (kind : Registration) (r r' : Nat) :
    ((note handlers (.registers kind r')).map Prod.snd).count r =
      (handlers.map Prod.snd).count r + if r' = r then 1 else 0 := by
  cases kind <;> simp [note, List.count_cons, List.count_append]

/-- A handler for one emission has one call, that it has had, that a running emission owes it or
that the next one will. -/
structure Conserved (d : Dispatcher) (log : List EmitEvent) : Prop where
  kinds : ∀ r kind, .registers .once r ∈ log → .registers kind r ∈ log → kind = .once
  called : ∀ r, .registers .once r ∈ log → log.countP (isInvocationOf r) + d.pending r ≤ 1

theorem Conserved.init : Conserved {} [] := ⟨nofun, nofun⟩

/-- A handler for one emission is not registered any more when an emission has started. -/
theorem Conserved.count_starts (h : d.Conserved log) (hn : d.Numbered log) {r e : Nat}
    (hr : .registers .once r ∈ log) :
    ((note d.registered (.starts e)).map Prod.snd).count r = 0 := by
  rw [List.count_eq_zero]
  intro hmem
  obtain ⟨p, hp, rfl⟩ := List.mem_map.mp hmem
  obtain ⟨hp, hnot⟩ := List.mem_filter.mp hp
  rw [hn.registered] at hp
  obtain ⟨l₁, kind, l₂, hlog, hkind, -⟩ := mem_registered hp
  have honce : kind = .once := h.kinds p.2 kind hr (by rw [hlog]; simp)
  rw [hkind.mpr honce] at hnot
  cases hnot

/-- The step lemma for the handlers for one emission. -/
theorem Conserved.step (h : d.Conserved log) (hn : d.Numbered log)
    (hstep : d.step ev = some d') : d'.Conserved (log ++ [ev]) := by
  obtain ⟨kind, rfl, rfl⟩ | ⟨rfl, rfl⟩ | ⟨e, r, rest, running, rfl, heq, rfl⟩ |
    ⟨e, running, rfl, heq, rfl⟩ := step_cases hstep
  · have hfresh : ∀ kind, .registers kind d.registrations ∉ log := by
      intro kind hmem
      exact Nat.lt_irrefl d.registrations (hn.below _ hmem)
    refine ⟨fun r k honce hk => ?_, fun r honce => ?_⟩
    · rcases List.mem_append.mp honce with hold | hnew <;>
        rcases List.mem_append.mp hk with hold' | hnew'
      · exact h.kinds r k hold hold'
      · cases List.mem_singleton.mp hnew'
        exact absurd hold (hfresh _)
      · cases List.mem_singleton.mp hnew
        exact absurd hold' (hfresh _)
      · cases List.mem_singleton.mp hnew
        cases List.mem_singleton.mp hnew'
        rfl
    · simp only [pending, List.countP_append, List.countP_singleton, isInvocationOf, count_note,
        Bool.false_eq_true, if_false]
      by_cases hr : d.registrations = r
      · subst hr
        have hinvoked := hn.not_invoked
        have hpending := hn.pending_registrations
        unfold pending at hpending
        rw [if_pos rfl]
        omega
      · have hold : .registers .once r ∈ log :=
          mem_of_ne honce (fun heq => hr (by cases heq; rfl))
        have hcalled := h.called r hold
        unfold pending at hcalled
        rw [if_neg hr]
        omega
  · refine ⟨fun r k honce hk => h.kinds r k (mem_of_ne honce nofun) (mem_of_ne hk nofun),
      fun r honce => ?_⟩
    -- its registration becomes what the new emission owes
    have hold := mem_of_ne honce nofun
    have hcalled := h.called r hold
    simp only [pending] at hcalled
    simp only [pending, List.countP_append, List.countP_singleton, isInvocationOf,
      h.count_starts hn hold, List.map_cons, List.sum_cons, Bool.false_eq_true, if_false]
    omega
  · refine ⟨fun r k honce hk => h.kinds r k (mem_of_ne honce nofun) (mem_of_ne hk nofun),
      fun r' honce => ?_⟩
    have hcalled := h.called r' (mem_of_ne honce nofun)
    simp only [pending, heq, List.map_cons, List.sum_cons, List.count_cons] at hcalled
    simp only [pending, List.countP_append, List.countP_singleton, isInvocationOf, List.map_cons,
      List.sum_cons, decide_eq_true_eq]
    by_cases hr : r = r'
    · simp only [hr, beq_self_eq_true, if_true] at hcalled ⊢
      omega
    · simp only [beq_false_of_ne hr, hr, if_false, Bool.false_eq_true] at hcalled ⊢
      omega
  · refine ⟨fun r k honce hk => h.kinds r k (mem_of_ne honce nofun) (mem_of_ne hk nofun),
      fun r honce => ?_⟩
    have hcalled := h.called r (mem_of_ne honce nofun)
    simp only [pending, heq, List.map_cons, List.sum_cons, List.count_nil] at hcalled
    simp only [pending, List.countP_append, List.countP_singleton, isInvocationOf,
      Bool.false_eq_true, if_false]
    omega

/-! ## Accepted logs -/

/-- The run lemma. -/
theorem run_facts (hrun : dispatcher.run {} log = some d) : d.Dispatched log ∧ d.Conserved log := by
  induction log using List.reverseRecOn generalizing d with
  | nil =>
    cases hrun
    exact ⟨.init, .init⟩
  | append_singleton log ev ih =>
    rw [dispatcher.run_append] at hrun
    obtain ⟨d₁, hlog, hlast⟩ := Option.bind_eq_some_iff.mp hrun
    obtain ⟨d₂, hstep, hend⟩ := dispatcher.run_cons hlast
    cases hend
    obtain ⟨hd, hc⟩ := ih hlog
    exact ⟨hd.step hstep, hc.step hd.toNumbered hstep⟩

end Dispatcher

/-- Every log that the machine accepts satisfies the law. -/
theorem EmitEvent.Law.of_run {log : List EmitEvent} {d : Dispatcher}
    (hrun : dispatcher.run {} log = some d) : Law log := by
  obtain ⟨hd, hc⟩ := Dispatcher.run_facts hrun
  have hsnapshot : ∀ e pre post, log = pre ++ EmitEvent.starts e :: post →
      invocations e log <+: (registered pre).map Prod.snd := by
    intro e pre post hlog
    exact ⟨_, hd.emitted e pre post hlog⟩
  have hcomplete : ∀ e pre post, log = pre ++ EmitEvent.starts e :: post → .returns e ∈ log →
      invocations e log = (registered pre).map Prod.snd := by
    intro e pre post hlog hreturned
    have hemitted := hd.emitted e pre post hlog
    rw [hd.returned e hreturned, Option.getD_none, List.append_nil] at hemitted
    exact hemitted
  refine ⟨hd.known, hsnapshot, hcomplete, ?_, ?_, ?_⟩
  · intro e pre post r hlog hr
    obtain ⟨p, hp, rfl⟩ := List.mem_map.mp ((hsnapshot e pre post hlog).subset hr)
    obtain ⟨l₁, kind, l₂, hpre, -, hl₂⟩ := mem_registered hp
    exact ⟨l₁, kind, l₂, hpre, hl₂⟩
  · intro e l₁ kind r l₂ post hlog hl₂ hreturned
    rw [hcomplete e _ post hlog hreturned]
    exact List.mem_map.mpr ⟨_, mem_registered_of l₁ kind r l₂ hl₂, rfl⟩
  · intro r hr
    exact Nat.le_of_add_right_le (hc.called r hr)

end NodeCpp.Lib
