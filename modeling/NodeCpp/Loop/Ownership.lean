import Mathlib.Tactic.Simps.Basic
import NodeCpp.Loop.Registry

/-!
# Who holds which slot

The abstract model of the registry: a map from slots to what they hold, a map
from objects to the index each of them remembers, the states of the sockets and
the event vectors. It has no counters, no descriptors, no buffers and no overflow
vectors; a step says what changes hands and which assertions the code relies on.

* `View.Step` -- the steps, with their enabling conditions.
* `View.Consistent` -- a used slot belongs to a live object that remembers it,
  and an object remembers no other slot it was given; every step keeps it.

`Loop.Refinement` shows that the registry takes these steps.
-/

namespace NodeCpp

variable {e : Emitter} {i : Nat} {op : ViewOp} {s : SlotView}

structure SlotView where
  state : EntryState := .Unused
  emitter : Option Emitter := none
  index : Nat := 0
  deriving DecidableEq, Repr

namespace SlotView

def used (s : SlotView) : Bool := decide (s.state ≠ .Unused)

def associated (s : SlotView) : Bool := decide (s.state = .SockAssociated)

end SlotView

/-- `index` is that of live objects; `state` and `closes` are those of sockets. -/
@[ext]
structure View where
  slot : Nat → Option SlotView
  index : Emitter → Option Nat
  known : Emitter → Bool
  state : Emitter → SockState
  closes : Emitter → Nat
  queue : QueueId → EventQueue
  current : Option Pending

namespace View

def holder (v : View) (i : Nat) : Option Emitter :=
  ((v.slot i).filter SlotView.used).bind SlotView.emitter

def closing (v : View) : Option Nat := v.current.map Pending.idx

@[simps]
def setSlot (v : View) (i : Nat) (s : SlotView) : View :=
  { v with slot := Function.update v.slot i (some s) }

@[simps]
def setIndex (v : View) (e : Emitter) (x : Option Nat) : View :=
  { v with index := Function.update v.index e x }

@[simps]
def setState (v : View) (e : Emitter) (st : SockState) : View :=
  { v with state := Function.update v.state e st }

@[simps]
def setCloses (v : View) (e : Emitter) (n : Nat) : View :=
  { v with closes := Function.update v.closes e n }

@[simps]
def onQueue (v : View) (q : QueueId) (f : EventQueue → EventQueue) : View :=
  { v with queue := Function.update v.queue q (f (v.queue q)) }

@[simps]
def setCurrent (v : View) (c : Option Pending) : View := { v with current := c }

/-- A new object, with the index it is given. -/
@[simps]
def born (v : View) (e : Emitter) (i : Nat) : View :=
  { v with index := Function.update v.index e (some i)
           known := Function.update v.known e true }

/-- An event carries the index its owner remembers, or that of an entry of its owner. -/
def Denotes (v : View) (ev : Pending) : Prop :=
  v.index ev.owner = some ev.idx ∨
    ∃ i s, v.slot i = some s ∧ s.emitter = some ev.owner ∧ s.index = ev.idx

/-- The compaction moves the used slots together; the objects are told their new index. -/
structure Renumbered (v v' : View) : Prop where
  moved : ∀ j s', v'.slot j = some s' → s'.used →
    ∃ i s, v.slot i = some s ∧ s.used ∧ s' = { s with index := j }
  kept : ∀ i s, v.slot i = some s → s.used → ∃ j, v'.slot j = some { s with index := j }
  blank : ∀ j s', v'.slot j = some s' → s'.used = false → s'.emitter = none
  told : ∀ j s' e, v'.slot j = some s' → s'.used → s'.emitter = some e → v.index e ≠ none →
    v'.index e = some j
  untold : ∀ e, (∀ i s, v.slot i = some s → s.used → s.emitter ≠ some e) → v'.index e = v.index e
  known : v'.known = v.known
  state : v'.state = v.state
  closes : v'.closes = v.closes
  queue : v'.queue = v.queue
  current : v'.current = v.current

end View

inductive ViewOp
  | skip
  | issue (e : Emitter) (i : Nat)
  | release (e : Emitter) (i : Nat)
  | associate (i : Nat)
  | shut (i : Nat)
  | wipe (i : Nat)
  | reindex (e : Emitter) (i : Nat)
  | move (e : Emitter) (st : SockState) (evs : List Pending)
  | push (q : QueueId) (ev : Pending)
  | start (q : QueueId)
  | take (q : QueueId)
  | clear (q : QueueId)
  | finish (q : QueueId)
  | beginClose (e : Emitter) (i : Nat)
  | endClose (i : Nat)
  | renumber
  deriving DecidableEq, Repr

def ViewOp.Frees (i : Nat) : ViewOp → Prop
  | .release _ j | .wipe j | .endClose j => j = i
  | _ => False

def ViewOp.pushed (q : QueueId) : ViewOp → List Pending
  | .move _ _ evs => if q = .close then evs else []
  | .push q' ev => if q = q' then [ev] else []
  | _ => []

namespace View

inductive Step (v : View) : ViewOp → View → Prop
  | skip : Step v .skip v
  | issue {e : Emitter} {i : Nat} (hfresh : v.known e = false)
      (hstate : v.state e = .Uninitialized) (hcloses : v.closes e = 0)
      (hfree : ∀ s, v.slot i = some s → s.used = false) :
      Step v (.issue e i)
        ((v.born e i).setSlot i { state := .SockIssued, emitter := some e, index := i })
  | release {e : Emitter} {i : Nat} {s : SlotView} (hindex : v.index e = some i)
      (hslot : v.slot i = some s) :
      Step v (.release e i)
        ((v.setSlot i { s with state := .Unused, index := 0 }).setIndex e none)
  | associate {i : Nat} {s : SlotView} (hslot : v.slot i = some s)
      (hissued : s.state = .SockIssued) :
      Step v (.associate i) (v.setSlot i { s with state := .SockAssociated })
  | shut {i : Nat} {s : SlotView} (hslot : v.slot i = some s) (hused : s.used) :
      Step v (.shut i) (v.setSlot i { s with state := .SockClosed })
  | wipe {i : Nat} {s : SlotView} (hslot : v.slot i = some s) :
      Step v (.wipe i) (v.setSlot i { index := i })
  | reindex {e : Emitter} {i : Nat} {s : SlotView} (hslot : v.slot i = some s) (hused : s.used)
      (hemitter : s.emitter = some e) :
      Step v (.reindex e i) (v.setIndex e (some i))
  | move {e : Emitter} {st : SockState} {evs : List Pending} (hlive : v.index e ≠ none)
      (hmove : StateMove (v.state e) st (evs.map Pending.err))
      (hevs : ∀ ev ∈ evs, ev.owner = e ∧ v.Denotes ev) :
      Step v (.move e st evs) ((v.setState e st).onQueue .close (·.pushAll evs))
  | push {q : QueueId} {ev : Pending} (hq : q ≠ .close) (hev : v.Denotes ev) :
      Step v (.push q ev) (v.onQueue q (·.pushAll [ev]))
  | start {q : QueueId} : Step v (.start q) (v.onQueue q .start)
  | take {q : QueueId} {ev : Pending} {rest : List Pending}
      (hbatch : (v.queue q).batch = ev :: rest)
      (hclose : q = .close → ∀ s, v.slot ev.idx = some s → s.used = false) :
      Step v (.take q) (v.onQueue q .take)
  | clear {q : QueueId} (hactive : (v.queue q).active) (hbatch : (v.queue q).batch = [])
      (hcurrent : v.current = none) : Step v (.clear q) (v.onQueue q .clear)
  | finish {q : QueueId} (hbatch : (v.queue q).batch = []) (hcurrent : v.current = none) :
      Step v (.finish q) (v.onQueue q .finish)
  | beginClose {e : Emitter} {ev : Pending} {rest : List Pending} {s s' : SlotView}
      (hbatch : (v.queue .close).batch = ev :: rest) (hcurrent : v.current = none)
      (hslot : v.slot ev.idx = some s) (hused : s.used) (hemitter : s.emitter = some e)
      (hlive : v.index e ≠ none) (hslot' : v.slot s.index = some s') :
      Step v (.beginClose e ev.idx)
        ((((v.setSlot s.index { s' with state := .SockClosed }).onQueue .close .take).setCloses e
          (v.closes e + 1)).setCurrent (some ev))
  | endClose {i : Nat} {s : SlotView} (hclosing : v.closing = some i) (hslot : v.slot i = some s) :
      Step v (.endClose i) ((v.setSlot i { index := i }).setCurrent none)
  | renumber {v' : View} (hcurrent : v.current = none) (hrenum : v.Renumbered v') :
      Step v .renumber v'

structure Consistent (v : View) : Prop where
  used : ∀ i s, v.slot i = some s → s.used → s.index = i ∧ ∃ e, s.emitter = some e ∧
    v.index e = some i
  remembered : ∀ i s e j, v.slot i = some s → s.emitter = some e → v.index e = some j → j = i
  slots_known : ∀ i s e, v.slot i = some s → s.emitter = some e → v.known e
  live_known : ∀ e j, v.index e = some j → v.known e

/-! ## Every step keeps slots and objects in agreement -/

variable {v v' : View}

theorem setSlot_slot_apply (i k : Nat) (s : SlotView) :
    (v.setSlot i s).slot k = if k = i then some s else v.slot k := by
  rw [setSlot_slot, Function.update_apply]

theorem Consistent.setSlot (h : v.Consistent) {s' : SlotView} (hslot : v.slot i = some s)
    (hemitter : ∀ e, s'.emitter = some e → s.emitter = some e)
    (hused : s'.used → s.used ∧ s'.index = s.index ∧ s'.emitter = s.emitter) :
    (v.setSlot i s').Consistent := by
  refine ⟨?_, ?_, ?_, h.live_known⟩
  · intro k t hk ht
    rw [setSlot_slot_apply] at hk
    split at hk
    · cases hk
      subst k
      obtain ⟨hs, hindex, hem⟩ := hused ht
      obtain ⟨hi, e, he, hlive⟩ := h.used i s hslot hs
      exact ⟨hindex.trans hi, e, hem.trans he, hlive⟩
    · exact h.used k t hk ht
  · intro k t e j hk he hj
    rw [setSlot_slot_apply] at hk
    split at hk
    · cases hk
      subst k
      exact h.remembered i s e j hslot (hemitter e he) hj
    · exact h.remembered k t e j hk he hj
  · intro k t e hk he
    rw [setSlot_slot_apply] at hk
    split at hk
    · cases hk
      exact h.slots_known i s e hslot (hemitter e he)
    · exact h.slots_known k t e hk he

theorem Consistent.congr (h : v.Consistent) (hslot : v'.slot = v.slot) (hindex : v'.index = v.index)
    (hknown : v'.known = v.known) : v'.Consistent := by
  refine ⟨?_, ?_, ?_, ?_⟩
  · rw [hslot, hindex]; exact h.used
  · rw [hslot, hindex]; exact h.remembered
  · rw [hslot, hknown]; exact h.slots_known
  · rw [hindex, hknown]; exact h.live_known

theorem Consistent.issue (h : v.Consistent) (hfresh : v.known e = false) :
    ((v.born e i).setSlot i { state := .SockIssued, emitter := some e, index := i }).Consistent := by
  have hne : ∀ {e' : Emitter}, v.known e' → e' ≠ e := by
    rintro e' hknown rfl
    rw [hfresh] at hknown
    cases hknown
  refine ⟨?_, ?_, ?_, ?_⟩ <;> simp only [setSlot_slot_apply, setSlot_index, setSlot_known,
    born_slot, born_index, born_known]
  · intro k t hk ht
    split at hk
    · cases hk
      subst k
      exact ⟨rfl, e, rfl, Function.update_self ..⟩
    · obtain ⟨hi, e', he', hlive⟩ := h.used k t hk ht
      refine ⟨hi, e', he', ?_⟩
      rwa [Function.update_of_ne (hne (h.live_known e' k hlive))]
  · intro k t e' j hk he' hj
    split at hk
    · cases hk
      cases he'
      rw [Function.update_self] at hj
      cases hj
      exact Eq.symm ‹k = i›
    · rw [Function.update_of_ne (hne (h.slots_known k t e' hk he'))] at hj
      exact h.remembered k t e' j hk he' hj
  · intro k t e' hk he'
    split at hk
    · cases hk
      cases he'
      exact Function.update_self ..
    · have hknown := h.slots_known k t e' hk he'
      rwa [Function.update_of_ne (hne hknown)]
  · intro e' j hj
    by_cases heq : e' = e
    · subst heq
      exact Function.update_self ..
    · rw [Function.update_of_ne heq] at hj ⊢
      exact h.live_known e' j hj

/-- A destructed object holds no slot: the one it could hold is the one it remembers. -/
theorem Consistent.release (h : v.Consistent) (hindex : v.index e = some i)
    (hslot : v.slot i = some s) :
    ((v.setSlot i { s with state := .Unused, index := 0 }).setIndex e none).Consistent := by
  have hset : (v.setSlot i { s with state := .Unused, index := 0 }).Consistent :=
    h.setSlot hslot (fun _ he => he) (by simp [SlotView.used])
  have hlive : ∀ {e' j}, Function.update v.index e none e' = some j → v.index e' = some j := by
    intro e' j hj
    rw [Function.update_apply] at hj
    split at hj
    · cases hj
    · exact hj
  refine ⟨?_, ?_, hset.slots_known, fun e' j hj => h.live_known e' j (hlive hj)⟩
  · intro k t hk ht
    obtain ⟨hi, e', he', hlive'⟩ := hset.used k t hk ht
    refine ⟨hi, e', he', ?_⟩
    have hne : e' ≠ e := by
      rintro rfl
      have hki : i = k := hset.remembered k t e' i hk he' hindex
      subst hki
      rw [setIndex_slot, setSlot_slot, Function.update_self] at hk
      cases hk
      simp [SlotView.used] at ht
    rwa [setIndex_index, Function.update_of_ne hne]
  · intro k t e' j hk he' hj
    exact hset.remembered k t e' j hk he' (hlive hj)

theorem Consistent.renumber (h : v.Consistent) (hrenum : v.Renumbered v') : v'.Consistent := by
  have hheld : ∀ {j s' e}, v'.slot j = some s' → s'.used → s'.emitter = some e →
      v.index e ≠ none ∧ v.known e := by
    intro j s' e hj hs' he
    obtain ⟨i, s, hi, hs, rfl⟩ := hrenum.moved j s' hj hs'
    obtain ⟨-, e', he', hlive⟩ := h.used i s hi hs
    cases he'.symm.trans he
    exact ⟨by simp [hlive], h.live_known _ _ hlive⟩
  refine ⟨?_, ?_, ?_, ?_⟩
  · intro j s' hj hs'
    obtain ⟨i, s, hi, hs, rfl⟩ := hrenum.moved j s' hj hs'
    obtain ⟨-, e, he, hlive⟩ := h.used i s hi hs
    exact ⟨rfl, e, he, hrenum.told j _ e hj hs' he (by simp [hlive])⟩
  · intro j s' e k hj he hk
    cases hs' : s'.used with
    | true =>
      rw [hrenum.told j s' e hj hs' he (hheld hj hs' he).1] at hk
      exact (Option.some.inj hk).symm
    | false =>
      rw [hrenum.blank j s' hj hs'] at he
      cases he
  · intro j s' e hj he
    rw [hrenum.known]
    cases hs' : s'.used with
    | true => exact (hheld hj hs' he).2
    | false =>
      rw [hrenum.blank j s' hj hs'] at he
      cases he
  · intro e k hk
    rw [hrenum.known]
    by_cases hold : ∃ i s, v.slot i = some s ∧ s.used ∧ s.emitter = some e
    · obtain ⟨i, s, hi, hs, he⟩ := hold
      exact h.slots_known i s e hi he
    · rw [hrenum.untold e fun i s hi hs he => hold ⟨i, s, hi, hs, he⟩] at hk
      exact h.live_known e k hk

/-- The step lemma of consistency. -/
theorem Consistent.step (h : v.Consistent) (hstep : v.Step op v') : v'.Consistent := by
  cases hstep with
  | skip => exact h
  | issue hfresh hstate hcloses hfree => exact h.issue hfresh
  | release hindex hslot => exact h.release hindex hslot
  | associate hslot hissued =>
    exact h.setSlot hslot (fun _ he => he) fun _ => ⟨by simp [SlotView.used, hissued], rfl, rfl⟩
  | shut hslot hused => exact h.setSlot hslot (fun _ he => he) fun _ => ⟨hused, rfl, rfl⟩
  | wipe hslot => exact h.setSlot hslot (by simp) (by simp [SlotView.used])
  | @reindex e i s hslot hused hemitter =>
    -- the object remembers the slot already
    obtain ⟨-, e', he', hlive⟩ := h.used i s hslot hused
    cases he'.symm.trans hemitter
    exact h.congr rfl (Function.update_eq_self_iff.mpr hlive.symm) rfl
  | move hlive hmove hevs => exact h.congr rfl rfl rfl
  | push hq hev => exact h.congr rfl rfl rfl
  | start => exact h.congr rfl rfl rfl
  | take hbatch hclose => exact h.congr rfl rfl rfl
  | clear hactive hbatch hcurrent => exact h.congr rfl rfl rfl
  | finish hbatch hcurrent => exact h.congr rfl rfl rfl
  | @beginClose e ev rest s s' hbatch hcurrent hslot hused hemitter hlive hslot' =>
    have hset : (v.setSlot s.index { s' with state := .SockClosed }).Consistent := by
      have hi := (h.used ev.idx s hslot hused).1
      rw [hi] at hslot' ⊢
      cases hslot.symm.trans hslot'
      exact h.setSlot hslot (fun _ he => he) fun _ => ⟨hused, rfl, rfl⟩
    exact hset.congr rfl rfl rfl
  | @endClose i s hclosing hslot =>
    have hset : (v.setSlot i { index := i }).Consistent :=
      h.setSlot hslot (by simp) (by simp [SlotView.used])
    exact hset.congr rfl rfl rfl
  | renumber hcurrent hrenum => exact h.renumber hrenum

/-! ## Who holds a slot after a step -/

theorem closing_eq_none (h : v.current = none) : v.closing = none := by
  rw [closing, h]
  rfl

theorem holder_eq_some :
    v.holder i = some e ↔ ∃ s, v.slot i = some s ∧ s.used ∧ s.emitter = some e := by
  simp only [holder, Option.bind_eq_some_iff, Option.filter_eq_some_iff, and_assoc]

theorem setSlot_holder (i k : Nat) (s : SlotView) :
    (v.setSlot i s).holder k =
      if k = i then (if s.used then s.emitter else none) else v.holder k := by
  simp only [holder, setSlot_slot_apply]
  split
  · cases hs : s.used <;> simp [Option.filter_some, hs]
  · rfl

theorem setSlot_holder_state {st : EntryState} (hslot : v.slot i = some s) (hused : s.used)
    (hst : st ≠ .Unused) (k : Nat) :
    (v.setSlot i { s with state := st }).holder k = v.holder k := by
  rw [setSlot_holder]
  split
  · subst k
    rw [holder, hslot, Option.filter_some, if_pos hused]
    exact if_pos (by simpa [SlotView.used] using hst)
  · rfl

theorem setSlot_holder_free (hunused : s.used = false) (k : Nat) :
    (v.setSlot i s).holder k = if k = i then none else v.holder k := by
  rw [setSlot_holder, hunused]
  rfl

theorem Consistent.index_of_holder (h : v.Consistent) (hi : v.holder i = some e) :
    v.index e = some i := by
  obtain ⟨s, hs, hused, he⟩ := holder_eq_some.mp hi
  obtain ⟨-, e', he', hindex⟩ := h.used i s hs hused
  cases he'.symm.trans he
  exact hindex

theorem Consistent.holder_inj (h : v.Consistent) {j : Nat} (hi : v.holder i = some e)
    (hj : v.holder j = some e) : i = j :=
  Option.some.inj ((h.index_of_holder hi).symm.trans (h.index_of_holder hj))

theorem Renumbered.holder (h : v.Renumbered v') {j : Nat} (hj : v'.holder j = some e) :
    ∃ i, v.holder i = some e := by
  obtain ⟨s', hs', hused', he⟩ := holder_eq_some.mp hj
  obtain ⟨i, s, hs, hused, rfl⟩ := h.moved j s' hs' hused'
  exact ⟨i, holder_eq_some.mpr ⟨s, hs, hused, he⟩⟩

/-- The slots are taken by new objects, given up, and renumbered; otherwise they stay with the
objects that hold them. -/
theorem Step.holder_cases (hc : v.Consistent) (hstep : v.Step op v') (i : Nat) :
    v'.holder i = v.holder i ∨
      (∃ e, op = .issue e i ∧ v.holder i = none ∧ v'.holder i = some e ∧
        v.state e = .Uninitialized ∧ v.closes e = 0) ∨
      (op.Frees i ∧ v'.holder i = none) ∨ op = .renumber := by
  have hfree : ∀ {j : Nat} {s : SlotView}, s.used = false → op.Frees j →
      v'.holder i = (v.setSlot j s).holder i →
      v'.holder i = v.holder i ∨
        (∃ e, op = .issue e i ∧ v.holder i = none ∧ v'.holder i = some e ∧
          v.state e = .Uninitialized ∧ v.closes e = 0) ∨
        (op.Frees i ∧ v'.holder i = none) ∨ op = .renumber := by
    intro j s hunused hfrees heq
    rw [heq, setSlot_holder_free hunused]
    split
    · subst j
      exact .inr (.inr (.inl ⟨hfrees, rfl⟩))
    · exact .inl rfl
  cases hstep with
  | @issue e j hfresh hstate hcloses hunused =>
    have hnone : v.holder j = none := by
      refine Option.eq_none_iff_forall_ne_some.mpr fun e' he' => ?_
      obtain ⟨s, hs, hused, -⟩ := holder_eq_some.mp he'
      rw [hunused s hs] at hused
      cases hused
    rw [setSlot_holder]
    split
    · subst j
      exact .inr (.inl ⟨e, rfl, hnone, rfl, hstate, hcloses⟩)
    · exact .inl rfl
  | @release e j s hindex hslot => exact hfree rfl rfl rfl
  | associate hslot hissued =>
    exact .inl (setSlot_holder_state hslot (by simp [SlotView.used, hissued]) (by decide) i)
  | shut hslot hused => exact .inl (setSlot_holder_state hslot hused (by decide) i)
  | wipe hslot => exact hfree rfl rfl rfl
  | @beginClose e ev rest s s' hbatch hcurrent hslot hused hemitter hlive hslot' =>
    have hi := (hc.used ev.idx s hslot hused).1
    rw [hi] at hslot' ⊢
    cases hslot.symm.trans hslot'
    exact .inl (setSlot_holder_state hslot hused (by decide) i)
  | endClose hclosing hslot => exact hfree rfl rfl rfl
  | renumber hcurrent hrenum => exact .inr (.inr (.inr rfl))
  | _ => exact .inl rfl

theorem Step.holder_of_holder (hc : v.Consistent) (hstep : v.Step op v')
    (hissue : ∀ e i, op ≠ .issue e i) (hrenum : op ≠ .renumber) (h : v'.holder i = some e) :
    v.holder i = some e := by
  obtain hsame | ⟨e', hop, -⟩ | ⟨-, hnone⟩ | hop := hstep.holder_cases hc i
  · exact hsame ▸ h
  · exact absurd hop (hissue e' i)
  · rw [hnone] at h
    cases h
  · exact absurd hop hrenum

theorem Step.release_index (hstep : v.Step (.release e i) v') : v'.index e = none := by
  cases hstep
  exact Function.update_self ..

theorem Step.issue_known (hstep : v.Step (.issue e i) v') : v.known e = false := by
  cases hstep
  assumption

/-- An object that holds a slot holds one after every step that does not give up its slot. -/
theorem Step.held_kept (hc : v.Consistent) (hstep : v.Step op v') (h : v.holder i = some e)
    (hfrees : ¬op.Frees i) : ∃ j, v'.holder j = some e := by
  obtain hsame | ⟨e', -, hnone, -⟩ | ⟨hf, -⟩ | rfl := hstep.holder_cases hc i
  · exact ⟨i, hsame ▸ h⟩
  · rw [h] at hnone
    cases hnone
  · exact absurd hf hfrees
  · cases hstep with
    | renumber hcurrent hrenum =>
      obtain ⟨s, hs, hused, he⟩ := holder_eq_some.mp h
      obtain ⟨j, hj⟩ := hrenum.kept i s hs hused
      exact ⟨j, holder_eq_some.mpr ⟨_, hj, hused, he⟩⟩

theorem Consistent.denotes_idx (hc : v.Consistent) {ev : Pending} (hev : v.Denotes ev)
    (hi : v.holder i = some ev.owner) : ev.idx = i := by
  have hindex := hc.index_of_holder hi
  rcases hev with hev | ⟨k, s, hs, he, hidx⟩
  · exact Option.some.inj (hev.symm.trans hindex)
  · obtain ⟨s', hs', hused, -⟩ := holder_eq_some.mp hi
    cases hc.remembered k s ev.owner i hs he hindex
    cases hs.symm.trans hs'
    rw [← hidx]
    exact (hc.used i s hs hused).1

/-! ## What a step does to the processed event and to the states -/

theorem Step.current_cases (hstep : v.Step op v') {ev : Pending} (h : v'.current = some ev) :
    v.current = some ev ∨ ev ∈ (v.queue .close).events := by
  cases hstep with
  | beginClose hbatch hcurrent hslot hused hemitter hlive hslot' =>
    cases h
    rw [EventQueue.events_of_batch hbatch]
    exact .inr (List.mem_cons_self ..)
  | endClose hclosing hslot => cases h
  | renumber hcurrent hrenum => exact .inl (hrenum.current ▸ h)
  | _ => exact .inl h

theorem Step.current_eq (hstep : v.Step op v') (hbegin : ∀ e i, op ≠ .beginClose e i)
    (hend : ∀ i, op ≠ .endClose i) : v'.current = v.current := by
  cases hstep with
  | beginClose => exact absurd rfl (hbegin _ _)
  | endClose => exact absurd rfl (hend _)
  | renumber hcurrent hrenum => exact hrenum.current
  | _ => rfl

theorem Step.state_cases (hstep : v.Step op v') :
    (op.pushed .close = [] ∧ v'.state = v.state) ∨
      ∃ e st evs, op = .move e st evs ∧ StateMove (v.state e) st (evs.map Pending.err) ∧
        (∀ ev ∈ evs, ev.owner = e) ∧ v'.state = Function.update v.state e st := by
  cases hstep with
  | move hlive hmove hevs => exact .inr ⟨_, _, _, rfl, hmove, fun ev h => (hevs ev h).1, rfl⟩
  | push hq hev => exact .inl ⟨if_neg hq.symm, rfl⟩
  | renumber hcurrent hrenum => exact .inl ⟨rfl, hrenum.state⟩
  | _ => exact .inl ⟨rfl, rfl⟩

/-! ## Closed slots -/

/-- A slot that is closed after a step other than a renumbering was so before, or is closed now. -/
theorem Step.closed_at (hc : v.Consistent) (hstep : v.Step op v') (hop : op ≠ .renumber)
    (hs : v'.slot i = some s) (hclosed : s.state = .SockClosed) :
    (∃ s₀, v.slot i = some s₀ ∧ s₀.state = .SockClosed ∧ s₀.emitter = s.emitter) ∨
      (op = .shut i ∧ v.holder i = s.emitter) ∨ ∃ e, op = .beginClose e i ∧ s.emitter = some e := by
  have hold : ∀ {j s'}, (v.setSlot j s').slot i = some s → s'.state ≠ .SockClosed →
      ∃ s₀, v.slot i = some s₀ ∧ s₀.state = .SockClosed ∧ s₀.emitter = s.emitter := by
    intro j s' h hne
    rw [setSlot_slot_apply] at h
    split at h
    · cases h
      exact absurd hclosed hne
    · exact ⟨s, h, hclosed, rfl⟩
  cases hstep with
  | issue hfresh hstate hcloses hfree => exact .inl (hold hs (by simp))
  | release hindex hslot => exact .inl (hold hs (by simp))
  | associate hslot hissued => exact .inl (hold hs (by simp))
  | @shut j s' hslot hused =>
    rw [setSlot_slot_apply] at hs
    split at hs
    · subst j
      cases hs
      refine .inr (.inl ⟨rfl, ?_⟩)
      rw [holder, hslot, Option.filter_some, if_pos hused]
      rfl
    · exact .inl ⟨s, hs, hclosed, rfl⟩
  | wipe hslot => exact .inl (hold hs (by simp))
  | @beginClose e ev rest s₁ s' hbatch hcurrent hslot hused hemitter hlive hslot' =>
    rw [(hc.used ev.idx s₁ hslot hused).1] at hs hslot'
    cases hslot.symm.trans hslot'
    replace hs : (v.setSlot ev.idx { s₁ with state := .SockClosed }).slot i = some s := hs
    rw [setSlot_slot_apply] at hs
    split at hs
    · subst i
      cases hs
      exact .inr (.inr ⟨e, rfl, hemitter⟩)
    · exact .inl ⟨s, hs, hclosed, rfl⟩
  | endClose hclosing hslot => exact .inl (hold hs (by simp))
  | renumber hcurrent hrenum => exact absurd rfl hop
  | _ => exact .inl ⟨s, hs, hclosed, rfl⟩

/-- A closed slot stays closed, under its index or a new one, until it is given up. -/
theorem Step.closed_kept (hstep : v.Step op v') (hs : v.slot i = some s)
    (hclosed : s.state = .SockClosed) (hfrees : ¬op.Frees i) :
    ∃ j s', v'.slot j = some s' ∧ s'.state = .SockClosed ∧ s'.emitter = s.emitter := by
  have hused : s.used := by simp [SlotView.used, hclosed]
  have hset : ∀ {j s'}, (j = i → s'.state = .SockClosed ∧ s'.emitter = s.emitter) →
      ∃ k t, (v.setSlot j s').slot k = some t ∧ t.state = .SockClosed ∧ t.emitter = s.emitter := by
    intro j s' h
    by_cases hj : j = i
    · subst hj
      exact ⟨j, s', by rw [setSlot_slot_apply, if_pos rfl], h rfl⟩
    · exact ⟨i, s, by rw [setSlot_slot_apply, if_neg (Ne.symm hj), hs], hclosed, rfl⟩
  cases hstep with
  | @issue e j hfresh hstate hcloses hfree =>
    refine hset fun hj => ?_
    subst hj
    rw [hfree s hs] at hused
    cases hused
  | release hindex hslot => exact hset fun hj => absurd hj hfrees
  | @associate j s' hslot hissued =>
    refine hset fun hj => ?_
    subst hj
    cases hs.symm.trans hslot
    rw [hclosed] at hissued
    cases hissued
  | @shut j s' hslot hused' =>
    refine hset fun hj => ?_
    subst hj
    cases hs.symm.trans hslot
    exact ⟨rfl, rfl⟩
  | wipe hslot => exact hset fun hj => absurd hj hfrees
  | @beginClose e ev rest s₁ s' hbatch hcurrent hslot hused' hemitter hlive hslot' =>
    refine hset fun hj => ?_
    rw [hj, hs] at hslot'
    cases hslot'
    exact ⟨rfl, rfl⟩
  | endClose hclosing hslot => exact hset fun hj => absurd hj hfrees
  | renumber hcurrent hrenum =>
    obtain ⟨j, hj⟩ := hrenum.kept i s hs hused
    exact ⟨j, _, hj, hclosed, rfl⟩
  | _ => exact ⟨i, s, hs, hclosed, rfl⟩

end View

end NodeCpp
