import NodeCpp.Loop.Ownership

/-!
# The events of a vector

What a step of the ownership model does to a vector of pending events (`Step.queue`),
what it takes and what it pushes (`Step.events_eq`), and the index the events carry: as
long as the table is not compacted, it is the index their object remembers (`View.IndexKept`).
-/

namespace NodeCpp

variable {e : Emitter} {q : QueueId}

/-- A vector to which nothing has been pushed during the pass over it. -/
structure EventQueue.Still (x : EventQueue) : Prop where
  waiting : x.active → x.waiting = []
  moved : x.active → x.storage.moved = false
  active : x.batch ≠ [] → x.active

def ViewOp.taken (v : View) (q : QueueId) : ViewOp → List Pending
  | .take q' => if q = q' then (v.queue q).batch.take 1 else []
  | .beginClose .. => if q = .close then (v.queue q).batch.take 1 else []
  | _ => []

namespace View

variable {v v' : View} {op : ViewOp}

theorem onQueue_of_ne {q' : QueueId} (h : q ≠ q') (f : EventQueue → EventQueue) :
    (v.onQueue q' f).queue q = v.queue q := by
  rw [onQueue_queue, Function.update_of_ne h]

theorem onQueue_self (q : QueueId) (f : EventQueue → EventQueue) :
    (v.onQueue q f).queue q = f (v.queue q) := by
  rw [onQueue_queue, Function.update_self]

inductive QueueStep (v : View) (op : ViewOp) (q : QueueId) : EventQueue → Prop
  | same (htaken : op.taken v q = []) (hpushed : op.pushed q = []) : QueueStep v op q (v.queue q)
  | pushed (htaken : op.taken v q = []) : QueueStep v op q ((v.queue q).pushAll (op.pushed q))
  | started (hop : op = .start q) : QueueStep v op q (v.queue q).start
  | taken {ev : Pending} {rest : List Pending} (hbatch : (v.queue q).batch = ev :: rest)
      (htaken : op.taken v q = [ev]) (hpushed : op.pushed q = []) :
        QueueStep v op q (v.queue q).take
  | cleared (hop : op = .clear q) (hactive : (v.queue q).active) (hbatch : (v.queue q).batch = []) :
      QueueStep v op q (v.queue q).clear
  | finished (hop : op = .finish q) (hbatch : (v.queue q).batch = []) :
      QueueStep v op q (v.queue q).finish

theorem Step.queue (hstep : v.Step op v') (q : QueueId) : QueueStep v op q (v'.queue q) := by
  have hother : ∀ {q' : QueueId} {f : EventQueue → EventQueue}, q ≠ q' → op.taken v q = [] →
      op.pushed q = [] → QueueStep v op q ((v.onQueue q' f).queue q) := by
    intro q' f hq htaken hpushed
    rw [onQueue_of_ne hq]
    exact .same htaken hpushed
  have htake : ∀ {ev : Pending} {rest : List Pending}, (v.queue q).batch = ev :: rest →
      (v.queue q).batch.take 1 = [ev] := fun h => by rw [h]; rfl
  cases hstep with
  | @move e st evs hlive hmove hevs =>
    -- only the vector of close events may get events
    by_cases hq : q = .close
    · subst hq
      exact onQueue_self (v := v) .close (·.pushAll evs) ▸ .pushed rfl
    · exact hother (f := (·.pushAll evs)) hq rfl (if_neg hq)
  | @push q' ev hq' hev =>
    by_cases hq : q = q'
    · subst hq
      have hpushed : ViewOp.pushed q (.push q ev) = [ev] := if_pos rfl
      rw [onQueue_self, ← hpushed]
      exact .pushed rfl
    · exact hother hq rfl (if_neg hq)
  | @start q' =>
    by_cases hq : q = q'
    · subst hq
      rw [onQueue_self]
      exact .started rfl
    · exact hother hq rfl rfl
  | @take q' ev rest hbatch hclose =>
    by_cases hq : q = q'
    · subst hq
      rw [onQueue_self]
      exact .taken hbatch ((if_pos rfl).trans (htake hbatch)) rfl
    · exact hother hq (if_neg hq) rfl
  | @clear q' hactive hbatch hcurrent =>
    by_cases hq : q = q'
    · subst hq
      rw [onQueue_self]
      exact .cleared rfl hactive hbatch
    · exact hother hq rfl rfl
  | @finish q' hbatch hcurrent =>
    by_cases hq : q = q'
    · subst hq
      rw [onQueue_self]
      exact .finished rfl hbatch
    · exact hother hq rfl rfl
  | @beginClose e ev rest s s' hbatch hcurrent hslot hused hemitter hlive hslot' =>
    show QueueStep v _ q ((v.onQueue .close .take).queue q)
    by_cases hq : q = .close
    · subst hq
      rw [onQueue_self]
      exact .taken hbatch (htake hbatch) rfl
    · exact hother hq (if_neg hq) rfl
  | renumber hcurrent hrenum =>
    rw [hrenum.queue]
    exact .same rfl rfl
  | _ => exact .same rfl rfl

/-- A vector loses what is taken and gains what is pushed, unless it is cleared. -/
theorem Step.events_eq (hstep : v.Step op v') (hclear : op ≠ .clear q) :
    op.taken v q ++ (v'.queue q).events = (v.queue q).events ++ op.pushed q := by
  have hqueue := hstep.queue q
  generalize v'.queue q = x at hqueue
  cases hqueue with
  | same htaken hpushed => rw [htaken, hpushed, List.nil_append, List.append_nil]
  | pushed htaken => rw [htaken, List.nil_append, EventQueue.events_pushAll]
  | started hop =>
    subst hop
    rw [EventQueue.events_start]
    exact (List.append_nil _).symm
  | taken hbatch htaken hpushed =>
    rw [htaken, hpushed, List.append_nil, EventQueue.events_of_batch hbatch]
    rfl
  | cleared hop => exact absurd hop hclear
  | finished hop hbatch =>
    subst hop
    rw [EventQueue.events_finish hbatch]
    exact (List.append_nil _).symm

theorem Step.events_sublist (hstep : v.Step op v') (q : QueueId) :
    (v'.queue q).events.Sublist ((v.queue q).events ++ op.pushed q) := by
  by_cases hop : op = .clear q
  · subst hop
    cases hstep with
    | clear hactive hbatch hcurrent =>
      rw [onQueue_self, EventQueue.events_clear]
      exact List.nil_sublist _
  · rw [← hstep.events_eq hop]
    exact List.sublist_append_right ..

/-- A pass goes on with the same events, unless one is taken or another pass starts. -/
theorem Step.batch_eq (hstep : v.Step op v') (htaken : op.taken v q = []) (hstart : op ≠ .start q) :
    (v'.queue q).batch = (v.queue q).batch := by
  have hqueue := hstep.queue q
  generalize v'.queue q = x at hqueue
  cases hqueue with
  | started hop => exact absurd hop hstart
  | taken hbatch htaken' =>
    rw [htaken] at htaken'
    cases htaken'
  | cleared hop hactive hbatch | finished hop hbatch => exact hbatch.symm
  | same | pushed => rfl

/-! ## The events pushed during a pass -/

theorem Step.waiting_nil (hstep : v.Step op v') (hpush : op.pushed q = [])
    (h : (v.queue q).waiting = []) : (v'.queue q).waiting = [] := by
  have hqueue := hstep.queue q
  generalize v'.queue q = x at hqueue
  cases hqueue with
  | pushed htaken =>
    rw [hpush]
    exact (List.append_nil _).trans h
  | started hop | cleared hop => rfl
  | same | taken | finished => exact h

/-- Nothing is pushed during a pass. -/
theorem Step.still (hstep : v.Step op v') (hpush : op.pushed q ≠ [] → (v.queue q).active = false)
    (h : (v.queue q).Still) : (v'.queue q).Still := by
  have hqueue := hstep.queue q
  generalize v'.queue q = x at hqueue
  cases hqueue with
  | pushed htaken =>
    by_cases hnil : op.pushed q = []
    · rw [hnil]
      exact ⟨fun hactive => (List.append_nil _).trans (h.waiting hactive), h.moved, h.active⟩
    · have hidle := hpush hnil
      exact ⟨fun hactive => absurd hactive (by simp [EventQueue.pushAll, hidle]),
        fun hactive => absurd hactive (by simp [EventQueue.pushAll, hidle]), h.active⟩
  | started hop => exact ⟨fun _ => rfl, fun _ => rfl, fun _ => rfl⟩
  | same => exact h
  | taken hbatch => exact ⟨h.waiting, h.moved, fun _ => h.active (by simp [hbatch])⟩
  | cleared hop | finished hop => exact ⟨nofun, nofun, fun hne => absurd rfl hne⟩

/-! ## The index an event carries -/

theorem Step.known_mono (hstep : v.Step op v') (h : v.known e) : v'.known e := by
  cases hstep with
  | @issue e' i hfresh hstate hcloses hfree =>
    show Function.update v.known e' true e = true
    rw [Function.update_apply]
    split
    · rfl
    · exact h
  | renumber hcurrent hrenum => rwa [hrenum.known]
  | _ => exact h

/-- A live object was alive before the step, or it is new and holds the slot it was given. -/
theorem Step.live_cases (hstep : v.Step op v') (h : v'.index e ≠ none) :
    v.index e ≠ none ∨ ∃ i, v'.holder i = some e := by
  cases hstep with
  | @issue e' i hfresh hstate hcloses hfree =>
    by_cases he : e = e'
    · subst he
      exact .inr ⟨i, (setSlot_holder ..).trans (if_pos rfl)⟩
    · replace h : Function.update v.index e' (some i) e ≠ none := h
      rw [Function.update_of_ne he] at h
      exact .inl h
  | @release e' i s hindex hslot =>
    replace h : Function.update v.index e' none e ≠ none := h
    rw [Function.update_apply] at h
    split at h
    · exact absurd rfl h
    · exact .inl h
  | @reindex e' i s hslot hused hemitter =>
    by_cases he : e = e'
    · subst he
      exact .inr ⟨i, holder_eq_some.mpr ⟨s, hslot, hused, hemitter⟩⟩
    · replace h : Function.update v.index e' (some i) e ≠ none := h
      rw [Function.update_of_ne he] at h
      exact .inl h
  | @renumber v' hcurrent hrenum =>
    by_cases hheld : ∃ i s, v.slot i = some s ∧ s.used ∧ s.emitter = some e
    · obtain ⟨i, s, hs, hused, he⟩ := hheld
      obtain ⟨j, hj⟩ := hrenum.kept i s hs hused
      exact .inr ⟨j, holder_eq_some.mpr ⟨_, hj, hused, he⟩⟩
    · rw [hrenum.untold e fun i s hs hused he => hheld ⟨i, s, hs, hused, he⟩] at h
      exact .inl h
  | _ => exact .inl h

theorem Step.index_of_index (hc : v.Consistent) (hstep : v.Step op v') (hop : op ≠ .renumber)
    {j : Nat} (hknown : v.known e) (h : v'.index e = some j) : v.index e = some j := by
  cases hstep with
  | @issue e' i hfresh hstate hcloses hfree =>
    replace h : Function.update v.index e' (some i) e = some j := h
    rw [Function.update_apply] at h
    split at h
    · subst e'
      rw [hknown] at hfresh
      cases hfresh
    · exact h
  | @release e' i s hindex hslot =>
    replace h : Function.update v.index e' none e = some j := h
    rw [Function.update_apply] at h
    split at h
    · cases h
    · exact h
  | @reindex e' i s hslot hused hemitter =>
    have hindex := hc.index_of_holder (holder_eq_some.mpr ⟨s, hslot, hused, hemitter⟩)
    rw [setIndex_index, Function.update_eq_self_iff.mpr hindex.symm] at h
    exact h
  | renumber hcurrent hrenum => exact absurd rfl hop
  | _ => exact h

/-- The events of a vector are for known objects and carry the index a live one remembers. -/
def IndexKept (v : View) (q : QueueId) : Prop :=
  ∀ ev ∈ (v.queue q).events, v.known ev.owner ∧ ∀ j, v.index ev.owner = some j → j = ev.idx

/-- The step lemma. -/
theorem IndexKept.step (h : v.IndexKept q) (hc : v.Consistent) (hstep : v.Step op v')
    (hpush : ∀ ev ∈ op.pushed q, v.index ev.owner = some ev.idx)
    (hrenum : op = .renumber → (v.queue q).events = []) : v'.IndexKept q := by
  intro ev hev
  have hold : v.known ev.owner ∧ ∀ j, v.index ev.owner = some j → j = ev.idx := by
    rcases List.mem_append.mp ((hstep.events_sublist q).subset hev) with hev | hev
    · exact h ev hev
    · have hindex := hpush ev hev
      exact ⟨hc.live_known _ _ hindex, fun j hj => Option.some.inj (hj.symm.trans hindex)⟩
  refine ⟨hstep.known_mono hold.1, fun j hj => ?_⟩
  by_cases hop : op = .renumber
  · subst hop
    rcases List.mem_append.mp ((hstep.events_sublist q).subset hev) with hev | hev
    · rw [hrenum rfl] at hev
      cases hev
    · cases hev
  · exact hold.2 j (hstep.index_of_index hc hop hold.1 hj)

end View

end NodeCpp
