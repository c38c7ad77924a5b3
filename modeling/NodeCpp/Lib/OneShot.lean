import Mathlib.Algebra.Order.Ring.Nat
import Mathlib.Data.List.Nodup
import Mathlib.Logic.Function.Basic

/-!
# One-shot callbacks

A slot holds at most one callback. A pass goes over some of the slots in a fixed order: a slot that
holds a callback is emptied, and the callback is run. A callback may fill slots again: its own, one
the pass has left behind, or one it has still to come to, where it displaces what is there.

* `fireAll_empty_iff` -- the pass leaves all slots empty exactly if it goes over all slots in use and
  no callback that it runs fills one that it has reached.
* `fireAll_fires_iff` -- the pass runs everything that was there at its start, exactly if it goes
  over all slots in use and no callback displaces one of them.
-/

namespace NodeCpp.Lib.OneShot

universe u v w

/-- A callback in a slot; `late` tells one that was put there during the pass. -/
structure Waiter (η : Type v) where
  handle : η
  late : Bool := false
  deriving DecidableEq, Repr

/-- The slots, everything else callbacks work on, and what the pass has run so far. -/
structure Pass (φ : Type u) (η : Type v) (σ : Type w) where
  slot : φ → Option (Waiter η)
  world : σ
  fired : List (φ × Waiter η) := []

/-- What a callback does when it is run from a slot: the callbacks it puts into slots, one after the
other, and the rest. -/
abbrev Reaction (φ : Type u) (η : Type v) (σ : Type w) := φ → η → σ → List (φ × η) × σ

variable {φ : Type u} {η : Type v} {σ : Type w} [DecidableEq φ]

def fill (slot : φ → Option (Waiter η)) (fills : List (φ × η)) : φ → Option (Waiter η) :=
  fills.foldl (fun slot p => Function.update slot p.1 (some ⟨p.2, true⟩)) slot

def fire (react : Reaction φ η σ) (s : Pass φ η σ) (f : φ) : Pass φ η σ :=
  match s.slot f with
  | none => s
  | some w =>
      { slot := fill (Function.update s.slot f none) (react f w.handle s.world).1
        world := (react f w.handle s.world).2
        fired := s.fired ++ [(f, w)] }

def fireAll (react : Reaction φ η σ) : List φ → Pass φ η σ → Pass φ η σ
  | [], s => s
  | f :: fs, s => fireAll react fs (fire react s f)

/-! ## One turn -/

theorem fill_of_not_mem {slot : φ → Option (Waiter η)} {fills : List (φ × η)} {f : φ}
    (h : ∀ p ∈ fills, p.1 ≠ f) : fill slot fills f = slot f := by
  induction fills generalizing slot with
  | nil => rfl
  | cons p fills ih =>
    have hne : f ≠ p.1 := (h p (List.mem_cons_self ..)).symm
    refine (ih fun q hq => h q (List.mem_cons_of_mem _ hq)).trans ?_
    exact Function.update_of_ne hne _ _

theorem fill_of_mem (slot : φ → Option (Waiter η)) {fills : List (φ × η)} {f : φ}
    (h : ∃ p ∈ fills, p.1 = f) : ∃ handle, fill slot fills f = some ⟨handle, true⟩ := by
  induction fills generalizing slot with
  | nil =>
    obtain ⟨p, hp, -⟩ := h
    cases hp
  | cons p fills ih =>
    by_cases hlater : ∃ q ∈ fills, q.1 = f
    · exact ih _ hlater
    · -- the first one is the last for this slot
      obtain ⟨q, hq, hqf⟩ := h
      have hp : p.1 = f := by
        rcases List.mem_cons.mp hq with rfl | hq
        · exact hqf
        · exact absurd ⟨q, hq, hqf⟩ hlater
      refine ⟨p.2, ?_⟩
      rw [← hp, fill, List.foldl_cons]
      refine (fill_of_not_mem fun q hq hqp => hlater ⟨q, hq, hqp.trans hp⟩).trans ?_
      exact Function.update_self ..

variable {react : Reaction φ η σ} {s : Pass φ η σ} {f g : φ} {w : Waiter η}

theorem fire_of_empty (h : s.slot f = none) : fire react s f = s := by
  simp only [fire, h]

theorem fire_of_waiter (h : s.slot f = some w) :
    fire react s f =
      { slot := fill (Function.update s.slot f none) (react f w.handle s.world).1
        world := (react f w.handle s.world).2
        fired := s.fired ++ [(f, w)] } := by
  simp only [fire, h]

theorem fire_slot (react : Reaction φ η σ) (s : Pass φ η σ) (hg : g ≠ f) :
    (fire react s f).slot g = s.slot g ∨ ∃ handle, (fire react s f).slot g = some ⟨handle, true⟩ := by
  cases hf : s.slot f with
  | none => exact .inl (by rw [fire_of_empty hf])
  | some w =>
    rw [fire_of_waiter hf]
    by_cases hfilled : ∃ p ∈ (react f w.handle s.world).1, p.1 = g
    · exact .inr (fill_of_mem _ hfilled)
    · refine .inl ((fill_of_not_mem fun p hp hpg => hfilled ⟨p, hp, hpg⟩).trans ?_)
      exact Function.update_of_ne hg _ _

/-- The slot is empty after its turn, or a late callback is in it. -/
theorem fire_slot_self (react : Reaction φ η σ) (s : Pass φ η σ) (f : φ) (handle : η) :
    (fire react s f).slot f ≠ some ⟨handle, false⟩ := by
  cases hf : s.slot f with
  | none =>
    rw [fire_of_empty hf, hf]
    nofun
  | some w =>
    rw [fire_of_waiter hf]
    by_cases hfilled : ∃ p ∈ (react f w.handle s.world).1, p.1 = f
    · obtain ⟨handle', hlate⟩ := fill_of_mem (Function.update s.slot f none) hfilled
      dsimp only
      rw [hlate]
      nofun
    · dsimp only
      rw [fill_of_not_mem fun p hp hpf => hfilled ⟨p, hp, hpf⟩, Function.update_self]
      nofun

/-! ## Empty slots -/

/-- The callbacks that are run fill only slots the pass has still to come to. -/
def FillsAhead (react : Reaction φ η σ) : List φ → Pass φ η σ → Prop
  | [], _ => True
  | f :: fs, s =>
      (∀ w, s.slot f = some w → ∀ p ∈ (react f w.handle s.world).1, p.1 ∈ fs) ∧
        FillsAhead react fs (fire react s f)

theorem fill_eq_none_iff {slot : φ → Option (Waiter η)} {fills : List (φ × η)} {g : φ} :
    fill slot fills g = none ↔ (∀ p ∈ fills, p.1 ≠ g) ∧ slot g = none := by
  by_cases hfilled : ∃ p ∈ fills, p.1 = g
  · obtain ⟨handle, hlate⟩ := fill_of_mem slot hfilled
    obtain ⟨p, hp, hpg⟩ := hfilled
    rw [hlate]
    exact iff_of_false nofun fun h => h.1 p hp hpg
  · have hnot : ∀ p ∈ fills, p.1 ≠ g := fun p hp hpg => hfilled ⟨p, hp, hpg⟩
    rw [fill_of_not_mem hnot, and_iff_right hnot]

/-- The slots that are not among `fs`, before and after a turn. -/
theorem fire_empty_iff (f : φ) (fs : List φ) :
    (∀ g ∉ fs, (fire react s f).slot g = none) ↔
      (∀ g ∉ f :: fs, s.slot g = none) ∧
        ∀ w, s.slot f = some w → ∀ p ∈ (react f w.handle s.world).1, p.1 ∈ fs := by
  cases hf : s.slot f with
  | none =>
    rw [fire_of_empty hf]
    constructor
    · intro h
      exact ⟨fun g hg => h g fun hmem => hg (List.mem_cons_of_mem f hmem), nofun⟩
    · rintro ⟨h, -⟩ g hg
      by_cases hgf : g = f
      · rw [hgf, hf]
      · exact h g (List.not_mem_cons_of_ne_of_not_mem hgf hg)
  | some w =>
    rw [fire_of_waiter hf]
    simp only [fill_eq_none_iff]
    constructor
    · intro h
      refine ⟨fun g hg => ?_, ?_⟩
      · obtain ⟨hgf, hg⟩ := List.ne_and_not_mem_of_not_mem_cons hg
        rw [← Function.update_of_ne hgf none s.slot]
        exact (h g hg).2
      · rintro w' ⟨⟩ p hp
        by_contra hmem
        exact (h p.1 hmem).1 p hp rfl
    · rintro ⟨h, hahead⟩ g hg
      refine ⟨fun p hp hpg => hg (hpg ▸ hahead w rfl p hp), ?_⟩
      by_cases hgf : g = f
      · rw [hgf, Function.update_self]
      · rw [Function.update_of_ne hgf]
        exact h g (List.not_mem_cons_of_ne_of_not_mem hgf hg)

theorem fireAll_empty_iff (fs : List φ) (s : Pass φ η σ) :
    (∀ g, (fireAll react fs s).slot g = none) ↔
      (∀ g ∉ fs, s.slot g = none) ∧ FillsAhead react fs s := by
  induction fs generalizing s with
  | nil =>
    rw [FillsAhead, and_true]
    exact forall_congr' fun g => (imp_iff_right List.not_mem_nil).symm
  | cons f fs ih => rw [fireAll, ih, fire_empty_iff, FillsAhead, and_assoc]

/-! ## Everything that was there at the start -/

def Left (s : Pass φ η σ) (g : φ) : Prop := ∀ handle, s.slot g ≠ some ⟨handle, false⟩

omit [DecidableEq φ] in
theorem Left.of_late {handle : η} (h : s.slot g = some ⟨handle, true⟩) : Left s g := by
  intro handle'
  rw [h]
  nofun

theorem Left.fire (h : Left s g) (f : φ) : Left (fire react s f) g := by
  by_cases hg : g = f
  · subst hg
    exact fire_slot_self react s g
  · rcases fire_slot react s hg with hsame | ⟨handle, hlate⟩
    · intro handle
      rw [hsame]
      exact h handle
    · exact .of_late hlate

theorem Left.fireAll (h : Left s g) (fs : List φ) : Left (fireAll react fs s) g := by
  induction fs generalizing s with
  | nil => exact h
  | cons f fs ih => exact ih (h.fire f)

theorem left_of_mem {fs : List φ} (hg : g ∈ fs) : Left (fireAll react fs s) g := by
  induction fs generalizing s with
  | nil => cases hg
  | cons f fs ih =>
    rcases List.mem_cons.mp hg with rfl | hg
    · exact Left.fireAll (fire_slot_self react s g) fs
    · exact ih hg

theorem mem_fire_fired {p : φ × Waiter η} (h : p ∈ (fire react s f).fired) :
    p ∈ s.fired ∨ (p.1 = f ∧ s.slot f = some p.2) := by
  cases hf : s.slot f with
  | none =>
    rw [fire_of_empty hf] at h
    exact .inl h
  | some w =>
    rw [fire_of_waiter hf] at h
    rcases List.mem_append.mp h with h | h
    · exact .inl h
    · cases List.mem_singleton.mp h
      exact .inr ⟨rfl, rfl⟩

theorem fired_mono {p : φ × Waiter η} (h : p ∈ s.fired) (fs : List φ) :
    p ∈ (fireAll react fs s).fired := by
  induction fs generalizing s with
  | nil => exact h
  | cons f fs ih =>
    refine ih ?_
    cases hf : s.slot f with
    | none =>
      rw [fire_of_empty hf]
      exact h
    | some w =>
      rw [fire_of_waiter hf]
      exact List.mem_append_left _ h

theorem mem_fired {p : φ × Waiter η} {fs : List φ} (h : p ∈ (fireAll react fs s).fired) :
    p ∈ s.fired ∨ p.1 ∈ fs := by
  induction fs generalizing s with
  | nil => exact .inl h
  | cons f fs ih =>
    rcases ih h with h | h
    · rcases mem_fire_fired h with h | ⟨rfl, -⟩
      · exact .inl h
      · exact .inr (List.mem_cons_self ..)
    · exact .inr (List.mem_cons_of_mem _ h)

/-- A callback from the start that is gone has been run or is lost. -/
theorem Left.fired (h : Left s g) {handle : η} {fs : List φ}
    (hfired : (g, ⟨handle, false⟩) ∈ (OneShot.fireAll react fs s).fired) :
    (g, ⟨handle, false⟩) ∈ s.fired := by
  induction fs generalizing s with
  | nil => exact hfired
  | cons f fs ih =>
    rcases mem_fire_fired (ih (h.fire f) hfired) with hbefore | ⟨rfl, hslot⟩
    · exact hbefore
    · exact absurd hslot (h handle)

/-- No callback displaces one that has been in its slot since the start and waits for its turn. -/
def Undisturbed (react : Reaction φ η σ) (start : φ → Option (Waiter η)) :
    List φ → Pass φ η σ → Prop
  | [], _ => True
  | f :: fs, s =>
      (∀ w, s.slot f = some w → ∀ p ∈ (react f w.handle s.world).1, p.1 ∈ fs → start p.1 = none) ∧
        Undisturbed react start fs (fire react s f)

theorem fire_slot_kept (hg : g ≠ f)
    (h : ∀ w, s.slot f = some w → ∀ p ∈ (react f w.handle s.world).1, p.1 ≠ g) :
    (fire react s f).slot g = s.slot g := by
  cases hf : s.slot f with
  | none => rw [fire_of_empty hf]
  | some w =>
    rw [fire_of_waiter hf]
    exact (fill_of_not_mem (h w hf)).trans (Function.update_of_ne hg _ _)

theorem fires_iff_undisturbed {start : φ → Option (Waiter η)} {fs : List φ} (hnodup : fs.Nodup)
    (htimely : ∀ g w, start g = some w → w.late = false)
    (hwaiting : ∀ g ∈ fs, ∀ w, start g = some w → s.slot g = some w)
    (hfresh : ∀ g ∈ fs, ∀ w, (g, w) ∉ s.fired) :
    (∀ g ∈ fs, ∀ w, start g = some w → (g, w) ∈ (fireAll react fs s).fired) ↔
      Undisturbed react start fs s := by
  induction fs generalizing s with
  | nil => exact iff_of_true nofun trivial
  | cons f fs ih =>
    obtain ⟨hf, hnodup⟩ := List.nodup_cons.mp hnodup
    have hne : ∀ g ∈ fs, g ≠ f := fun g hg hgf => hf (hgf ▸ hg)
    have hfresh' : ∀ g ∈ fs, ∀ w, (g, w) ∉ (fire react s f).fired := by
      intro g hg w hmem
      rcases mem_fire_fired hmem with hmem | ⟨hgf, -⟩
      · exact hfresh g (List.mem_cons_of_mem _ hg) w hmem
      · exact hne g hg hgf
    have hrest : (∀ w, s.slot f = some w → ∀ p ∈ (react f w.handle s.world).1, p.1 ∈ fs →
        start p.1 = none) →
        ((∀ g ∈ fs, ∀ w, start g = some w → (g, w) ∈ (fireAll react fs (fire react s f)).fired) ↔
          Undisturbed react start fs (fire react s f)) := by
      intro hahead
      refine ih hnodup ?_ hfresh'
      intro g hg w hw
      rw [fire_slot_kept (hne g hg)]
      · exact hwaiting g (List.mem_cons_of_mem _ hg) w hw
      · intro w' hw' p hp hpg
        have hnone := hahead w' hw' p hp (hpg ▸ hg)
        rw [hpg, hw] at hnone
        cases hnone
    constructor
    · intro hfires
      have hahead : ∀ w, s.slot f = some w → ∀ p ∈ (react f w.handle s.world).1, p.1 ∈ fs →
          start p.1 = none := by
        intro w hw p hp hmem
        by_contra hstart
        obtain ⟨⟨handle, late⟩, hwas⟩ := Option.ne_none_iff_exists'.mp hstart
        cases htimely _ _ hwas
        -- the one that was there is displaced, and so it is not run any more
        obtain ⟨handle', hlate⟩ := fill_of_mem (Function.update s.slot f none) ⟨p, hp, rfl⟩
        have hslot : (fire react s f).slot p.1 = some ⟨handle', true⟩ := by
          rw [fire_of_waiter hw]
          exact hlate
        exact hfresh' p.1 hmem _
          ((Left.of_late hslot).fired (hfires p.1 (List.mem_cons_of_mem _ hmem) _ hwas))
      exact ⟨hahead, (hrest hahead).mp fun g hg => hfires g (List.mem_cons_of_mem _ hg)⟩
    · rintro ⟨hahead, hundisturbed⟩ g hg w hw
      rcases List.mem_cons.mp hg with rfl | hg
      · have hslot := hwaiting g (List.mem_cons_self ..) w hw
        refine fired_mono ?_ fs
        rw [fire_of_waiter hslot]
        exact List.mem_append_right _ (List.mem_singleton.mpr rfl)
      · exact (hrest hahead).mpr hundisturbed g hg w hw

def Pass.start (callbacks : φ → Option η) (world : σ) : Pass φ η σ where
  slot f := (callbacks f).map fun handle => { handle := handle }
  world := world

theorem fireAll_fires_iff {fs : List φ} (hnodup : fs.Nodup) (callbacks : φ → Option η) (world : σ) :
    (∀ g handle, callbacks g = some handle →
        (g, { handle := handle }) ∈ (fireAll react fs (.start callbacks world)).fired ∧
          (fireAll react fs (.start callbacks world)).slot g ≠ some { handle := handle }) ↔
      (∀ g, g ∉ fs → callbacks g = none) ∧
        Undisturbed react (Pass.start callbacks world).slot fs (.start callbacks world) := by
  have hslot : ∀ {g handle}, callbacks g = some handle →
      (Pass.start callbacks world).slot g = some { handle := handle } := by
    intro g handle hg
    simp only [Pass.start, hg, Option.map_some]
  have hstart : ∀ {g w}, (Pass.start callbacks world).slot g = some w →
      callbacks g = some w.handle ∧ w.late = false := by
    intro g w hw
    obtain ⟨handle, hg, rfl⟩ := Option.map_eq_some_iff.mp hw
    exact ⟨hg, rfl⟩
  have hfires : (∀ g ∈ fs, ∀ w, (Pass.start callbacks world).slot g = some w →
      (g, w) ∈ (fireAll react fs (.start callbacks world)).fired) ↔
      Undisturbed react (Pass.start callbacks world).slot fs (.start callbacks world) :=
    fires_iff_undisturbed hnodup (fun _ _ hw => (hstart hw).2) (fun _ _ _ hw => hw)
      fun _ _ _ hmem => nomatch hmem
  constructor
  · intro hall
    refine ⟨fun g hg => ?_, hfires.mp ?_⟩
    · by_contra hne
      obtain ⟨handle, hhandle⟩ := Option.ne_none_iff_exists'.mp hne
      rcases mem_fired (hall g handle hhandle).1 with hmem | hmem
      · cases hmem
      · exact hg hmem
    · rintro g - ⟨handle, late⟩ hw
      obtain ⟨hhandle, hlate⟩ := hstart hw
      cases hlate
      exact (hall g handle hhandle).1
  · rintro ⟨houtside, hundisturbed⟩ g handle hhandle
    have hg : g ∈ fs := by
      by_contra hg
      rw [houtside g hg] at hhandle
      cases hhandle
    exact ⟨hfires.mpr hundisturbed g hg _ (hslot hhandle), left_of_mem hg handle⟩

end NodeCpp.Lib.OneShot
