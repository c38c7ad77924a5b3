import NodeCpp.Cluster.QueueThreads
import NodeCpp.Lib.Position

/-!
# The queue between threads loses nothing

Every item that is pushed is popped once, in the order of the pushes, and no thread sleeps for
good while there is work for it. A pop may free many places and notifies one writer only; the
others are notified by later pops, and a pop that leaves the queue empty is always followed by a
notification.

* `QueueWorld.Inv` -- a reader that sleeps beside an item, or a writer that sleeps beside an empty
  queue, has a notification or a running operation to wait for.
* `QueueWorld.Inv.exec` -- the step lemma.
* `bounded_queue_correct` -- the queue after every run.
-/

namespace NodeCpp

open Lib

variable {α : Type} {maxszBits : Nat}

namespace QueueEvent

def pushed? : QueueEvent α → Option α
  | pushed it => some it
  | _ => none

def popped? : QueueEvent α → Option α
  | popped it => some it
  | _ => none

end QueueEvent

def pushedItems (l : List (QueueEvent α)) : List α := l.filterMap QueueEvent.pushed?

def poppedItems (l : List (QueueEvent α)) : List α := l.filterMap QueueEvent.popped?

@[simp] theorem pushedItems_append (l l' : List (QueueEvent α)) :
    pushedItems (l ++ l') = pushedItems l ++ pushedItems l' := List.filterMap_append

@[simp] theorem poppedItems_append (l l' : List (QueueEvent α)) :
    poppedItems (l ++ l') = poppedItems l ++ poppedItems l' := List.filterMap_append

@[simp] theorem pushedItems_popped (items : List α) :
    pushedItems (items.map QueueEvent.popped) = [] := by
  induction items with
  | nil => rfl
  | cons it items ih => exact ih

@[simp] theorem poppedItems_popped (items : List α) :
    poppedItems (items.map QueueEvent.popped) = items := by
  induction items with
  | nil => rfl
  | cons it items ih =>
    show it :: poppedItems (items.map QueueEvent.popped) = it :: items
    rw [ih]

/-- What holds of the queue and its threads after a run that has shown `l`. -/
structure QueueCorrect (w : QueueWorld α maxszBits) (l : List (QueueEvent α)) : Prop where
  /-- What has been popped is what has been pushed, in order, up to what is in the queue. -/
  fifo : ∃ items, w.queue.Holds items ∧ pushedItems l = poppedItems l ++ items
  /-- No assertion fails in a section under the mutex. -/
  lockPush_ok : ∀ i it, w.writers[i]? = some (.entering it) →
    ((queueThreads α maxszBits).step w (.lockPush i)).isSome
  lockPop_ok : ∀ call expired, w.reader = .entering call expired →
    ((queueThreads α maxszBits).step w .lockPop).isSome
  /-- A reader that sleeps beside an item is about to be notified. -/
  reader : ∀ call, w.reader = .sleeping call → w.queue.coll.size ≠ 0 → .notifying ∈ w.writers
  /-- If a writer sleeps beside an empty queue, the reader is about to notify one, or another
  writer is at work. -/
  writers : ∀ it, .sleeping it ∈ w.writers → w.queue.coll.size = 0 →
    w.reader = .notifying ∨ ∃ it', .entering it' ∈ w.writers

namespace QueueWorld

variable {w w' : QueueWorld α maxszBits} {l ev : List (QueueEvent α)} {items : List α}
variable {s s' : WriterState α} {i : Nat}

/-- Nobody sleeps beside work without hope. -/
structure Attended (w : QueueWorld α maxszBits) (items : List α) : Prop where
  reader : ∀ call, w.reader = .sleeping call → items ≠ [] → .notifying ∈ w.writers
  writers : ∀ it, .sleeping it ∈ w.writers → items = [] →
    w.reader = .notifying ∨ ∃ it', .entering it' ∈ w.writers

structure Inv (w : QueueWorld α maxszBits) (l : List (QueueEvent α)) (items : List α) : Prop where
  holds : w.queue.Holds items
  fifo : pushedItems l = poppedItems l ++ items
  attended : w.Attended items

theorem Inv.initial (n : Nat) : (QueueWorld.initial α maxszBits n).Inv [] [] where
  holds := MWSRQueue.Holds.empty
  fifo := rfl
  attended := by
    refine ⟨nofun, ?_⟩
    intro it hit
    cases List.eq_of_mem_replicate hit

/-! ## What a step does to the wait sets -/

namespace Attended

/-- A writer that was not asleep gets into another state, and does not fall asleep. -/
theorem setWriter (h : w.Attended items) (hi : w.writers[i]? = some s)
    (hsleep : s'.isSleeping = false) (hnotify : s = .notifying → ∀ call, w.reader ≠ .sleeping call)
    (henter : ∀ it, s = .entering it → items ≠ []) : (w.setWriter i s').Attended items := by
  refine ⟨?_, ?_⟩
  · intro call hcall hne
    have hmem := h.reader call hcall hne
    apply mem_set_of_ne hi hmem
    rintro rfl
    exact hnotify rfl call hcall
  · intro it hit hempty
    rcases List.mem_or_eq_of_mem_set hit with hit | rfl
    · rcases h.writers it hit hempty with hreader | ⟨it', hit'⟩
      · exact .inl hreader
      · refine .inr ⟨it', mem_set_of_ne hi hit' ?_⟩
        rintro rfl
        exact henter it' rfl hempty
    · cases hsleep

theorem enters (h : w.Attended items) (hi : w.writers[i]? = some s) (hs : s ≠ .notifying)
    (it : α) : (w.setWriter i (.entering it)).Attended items := by
  refine ⟨?_, ?_⟩
  · intro call hcall hne
    exact mem_set_of_ne hi (h.reader call hcall hne) fun heq => hs heq.symm
  · intro _ _ _
    exact .inr ⟨it, mem_set_self hi⟩

/-- The reader gets into another state, in which it does not sleep; it was not about to notify. -/
theorem setReader (h : w.Attended items) {r : ReaderState} (hr : ∀ call, r ≠ .sleeping call)
    (hold : w.reader ≠ .notifying) : Attended { w with reader := r } items := by
  refine ⟨?_, ?_⟩
  · intro call hcall
    exact absurd hcall (hr call)
  · intro it hit hempty
    exact .inr ((h.writers it hit hempty).resolve_left hold)

end Attended

/-! ## The sections -/

variable {it : α}

theorem wakeWriter_eq (hw : w.wakeWriter i = some w') :
    ∃ it, w.writers[i]? = some (.sleeping it) ∧ w' = w.setWriter i (.entering it) := by
  unfold wakeWriter at hw
  split at hw
  · rename_i it hi
    cases hw
    exact ⟨it, hi, rfl⟩
  · cases hw

namespace Inv

theorem full_ne_nil (h : w.Inv l items) (hbits : 0 < maxszBits)
    (hfull : w.queue.coll.isFull = true) : items ≠ [] := by
  have hlen := h.holds.isFull.mp hfull
  have htwo : 2 ≤ 2 ^ maxszBits := by
    calc 2 = 2 ^ 1 := rfl
      _ ≤ 2 ^ maxszBits := Nat.pow_le_pow_right (by decide) hbits
  rintro rfl
  unfold CircularBuffer.maxsz CircularBuffer.bufsz at hlen
  simp only [List.length_nil] at hlen
  omega

theorem lockPush (h : w.Inv l items) (hbits : 0 < maxszBits)
    (hi : w.writers[i]? = some (.entering it)) :
    ∃ w' ev items', w.lockPush i = some (w', ev) ∧ w'.Inv (l ++ ev) items' := by
  cases hfull : w.queue.coll.isFull with
  | true =>
    -- the writer falls asleep, but the queue is not empty
    have hne := h.full_ne_nil hbits hfull
    refine ⟨w.setWriter i (.sleeping it), [], items, ?_, h.holds, ?_, ?_, ?_⟩
    · simp only [QueueWorld.lockPush, hi, h.holds.lockedPush_full hfull]
    · rw [List.append_nil]
      exact h.fifo
    · intro call hcall hitems
      exact mem_set_of_ne hi (h.attended.reader call hcall hitems) nofun
    · intro _ _ hempty
      exact absurd hempty hne
  | false =>
    obtain ⟨queue, hpush, hholds⟩ := h.holds.lockedPush_room hfull it
    refine ⟨QueueWorld.setWriter { w with queue := queue } i .notifying, [.pushed it],
      items ++ [it], ?_, hholds, ?_, ?_, ?_⟩
    · simp only [QueueWorld.lockPush, hi, hpush]
    · rw [pushedItems_append, poppedItems_append, h.fifo]
      simp [pushedItems, poppedItems, QueueEvent.pushed?, QueueEvent.popped?]
    · intro _ _ _
      exact mem_set_self hi
    · intro _ _ hempty
      exact absurd hempty (List.append_ne_nil_of_right_ne_nil _ (List.cons_ne_nil it []))

theorem lockPop (h : w.Inv l items) {call : PopCall} {expired : Bool}
    (hr : w.reader = .entering call expired) :
    ∃ w' ev items', w.lockPop = some (w', ev) ∧ w'.Inv (l ++ ev) items' := by
  by_cases hready : MWSRQueue.Holds.ready items call expired
  · obtain ⟨queue, hpop, hholds⟩ := h.holds.lockedPop_ready hready
    refine ⟨{ w with queue := queue, reader := .notifying },
      (items.take (MWSRQueue.Holds.takes call)).map .popped,
      items.drop (MWSRQueue.Holds.takes call), ?_, hholds, ?_, nofun, ?_⟩
    · simp only [QueueWorld.lockPop, hr, hpop]
    · rw [pushedItems_append, poppedItems_append, h.fifo, pushedItems_popped, poppedItems_popped,
        List.append_nil, List.append_assoc, List.take_append_drop]
    · intro _ _ _
      exact .inl rfl
  · -- the reader falls asleep, and the queue is empty
    have hempty : items = [] := not_not.mp (not_or.mp hready).1
    refine ⟨{ w with reader := .sleeping call }, [], items, ?_, h.holds, ?_, ?_, ?_⟩
    · simp only [QueueWorld.lockPop, hr, h.holds.lockedPop_waits hready]
    · rw [List.append_nil]
      exact h.fifo
    · intro _ _ hne
      exact absurd hempty hne
    · intro it hit _
      have hother := h.attended.writers it hit hempty
      rw [hr] at hother
      exact .inr (hother.resolve_left nofun)

theorem quiet (h : w.Inv l items) (hq : w'.queue = w.queue) (ha : w'.Attended items) :
    w'.Inv (l ++ []) items := by
  refine ⟨hq ▸ h.holds, ?_, ha⟩
  rw [List.append_nil]
  exact h.fifo

/-- The step lemma. -/
theorem exec (h : w.Inv l items) (hbits : 0 < maxszBits) {a : QueueAct α}
    (hs : w.exec a = some (w', ev)) : ∃ items', w'.Inv (l ++ ev) items' := by
  cases a with
  | push i it =>
    simp only [QueueWorld.exec] at hs
    split at hs
    · rename_i hidle
      cases hs
      have hi : w.writers[i]? = some .idle := by
        revert hidle
        cases hw : w.writers[i]? with
        | none => simp
        | some s => cases s <;> simp
      exact ⟨items, h.quiet rfl (h.attended.enters hi nofun it)⟩
    · cases hs
  | lockPush i =>
    simp only [QueueWorld.exec] at hs
    cases hi : w.writers[i]? with
    | none =>
      rw [QueueWorld.lockPush, hi] at hs
      cases hs
    | some s =>
      cases s with
      | entering it =>
        obtain ⟨w₁, ev₁, items', hlock, hinv⟩ := h.lockPush hbits hi
        cases hs.symm.trans hlock
        exact ⟨items', hinv⟩
      | idle | sleeping | notifying =>
        rw [QueueWorld.lockPush, hi] at hs
        cases hs
  | notifyReader i =>
    simp only [QueueWorld.exec] at hs
    split at hs
    · rename_i hnotify
      cases hs
      have hi : w.writers[i]? = some .notifying := by
        revert hnotify
        cases hw : w.writers[i]? with
        | none => simp
        | some s => cases s <;> simp
      -- the reader is awake behind the notification
      cases hr : w.reader with
      | sleeping call =>
        have ha : Attended { w with reader := .entering call false } items :=
          h.attended.setReader nofun (by rw [hr]; nofun)
        have hset : (QueueWorld.setWriter { w with reader := .entering call false } i
            .idle).Attended items := ha.setWriter hi rfl nofun nofun
        refine ⟨items, h.quiet ?_ ?_⟩
        · simp [QueueWorld.notifyReader, QueueWorld.setWriter, hr]
        · simpa [QueueWorld.notifyReader, QueueWorld.setWriter, hr] using hset
      | idle | entering | notifying =>
        have hset : (w.setWriter i .idle).Attended items :=
          h.attended.setWriter hi rfl (by rw [hr]; nofun) nofun
        refine ⟨items, h.quiet ?_ ?_⟩
        · simp [QueueWorld.notifyReader, QueueWorld.setWriter, hr]
        · simpa [QueueWorld.notifyReader, QueueWorld.setWriter, hr] using hset
    · cases hs
  | wakeWriter i =>
    obtain ⟨w₁, hw, heq⟩ := Option.map_eq_some_iff.mp hs
    cases heq
    obtain ⟨it, hi, rfl⟩ := wakeWriter_eq hw
    exact ⟨items, h.quiet rfl (h.attended.enters hi nofun it)⟩
  | pop call =>
    obtain ⟨hr, hs⟩ := Option.ite_none_right_eq_some.mp hs
    cases hs
    exact ⟨items, h.quiet rfl (h.attended.setReader nofun (by rw [hr]; nofun))⟩
  | lockPop =>
    simp only [QueueWorld.exec] at hs
    cases hr : w.reader with
    | entering call expired =>
      obtain ⟨w₁, ev₁, items', hlock, hinv⟩ := h.lockPop hr
      cases hs.symm.trans hlock
      exact ⟨items', hinv⟩
    | idle | sleeping | notifying =>
      rw [QueueWorld.lockPop, hr] at hs
      cases hs
  | notifyWriter woken =>
    obtain ⟨hr, hs⟩ := Option.ite_none_right_eq_some.mp hs
    cases woken with
    | some i =>
      obtain ⟨w₁, hw, heq⟩ := Option.map_eq_some_iff.mp hs
      cases heq
      obtain ⟨it, hi, rfl⟩ := wakeWriter_eq hw
      refine ⟨items, h.quiet rfl ⟨nofun, ?_⟩⟩
      intro _ _ _
      exact .inr ⟨it, mem_set_self hi⟩
    | none =>
      obtain ⟨hnone, hs⟩ := Option.ite_none_left_eq_some.mp hs
      cases hs
      refine ⟨items, h.quiet rfl ⟨nofun, ?_⟩⟩
      intro it hit
      exact absurd (List.any_eq_true.mpr ⟨_, hit, rfl⟩) hnone
  | wakeReader =>
    simp only [QueueWorld.exec] at hs
    split at hs
    · rename_i call hr
      cases hs
      exact ⟨items, h.quiet rfl (h.attended.setReader nofun (by rw [hr]; nofun))⟩
    · cases hs
  | timeOut =>
    simp only [QueueWorld.exec] at hs
    split at hs
    · rename_i count hr
      cases hs
      exact ⟨items, h.quiet rfl (h.attended.setReader nofun (by rw [hr]; nofun))⟩
    · cases hs

/-- The run lemma. -/
theorem run (hbits : 0 < maxszBits) {n : Nat} {as : List (QueueAct α)}
    (hrun : (queueThreads α maxszBits).run (QueueWorld.initial α maxszBits n) as = some w) :
    ∃ items, w.Inv ((queueThreads α maxszBits).trace (fun w a => a.events w)
      (QueueWorld.initial α maxszBits n) as) items := by
  apply (queueThreads α maxszBits).run_exec (G := fun _ _ => True)
    (J := fun w l => ∃ items, w.Inv l items) (fun _ _ => rfl) (fun _ _ => rfl) ?_
    ⟨[], Inv.initial n⟩ (Machine.obeys_of_forall _ (fun _ _ => trivial) _ _) hrun
  rintro w a w' l ev ⟨items, h⟩ - hs
  exact h.exec hbits hs

end Inv

end QueueWorld

/-- For every type of items, every capacity, any number of writers and every run without `kill()`:
the queue is a queue, no assertion fails, and nobody sleeps un-notified beside work with no
notification or running operation outstanding. -/
theorem bounded_queue_correct (α : Type) (maxszBits : Nat) (hbits : 0 < maxszBits) (n : Nat)
    (as : List (QueueAct α)) (w : QueueWorld α maxszBits)
    (hrun : (queueThreads α maxszBits).run (QueueWorld.initial α maxszBits n) as = some w) :
    QueueCorrect w ((queueThreads α maxszBits).trace (fun w a => a.events w)
      (QueueWorld.initial α maxszBits n) as) := by
  obtain ⟨items, h⟩ := QueueWorld.Inv.run hbits hrun
  have hsize := h.holds.size
  refine ⟨⟨items, h.holds, h.fifo⟩, ?_, ?_, ?_, ?_⟩
  · intro i it hi
    obtain ⟨w', ev, items', hlock, -⟩ := h.lockPush hbits hi
    simp [queueThreads, QueueWorld.exec, hlock]
  · intro call expired hr
    obtain ⟨w', ev, items', hlock, -⟩ := h.lockPop hr
    simp [queueThreads, QueueWorld.exec, hlock]
  · intro call hcall hne
    apply h.attended.reader call hcall
    rintro rfl
    exact hne hsize
  · intro it hit hzero
    apply h.attended.writers it hit
    exact List.length_eq_zero_iff.mp (hsize.symm.trans hzero)

/-- A queue for one item and three writers, two of which sleep when the reader pops: it notifies
one of them, and the other one when it pops again. -/
def twoSleepers : List (QueueAct Nat) :=
  [.push 0 10, .push 1 11, .push 2 12, .lockPush 0, .lockPush 1, .lockPush 2, .notifyReader 0,
    .pop (.many 8), .lockPop, .notifyWriter (some 1), .lockPush 1, .notifyReader 1,
    .pop .one, .lockPop, .notifyWriter (some 2)]

theorem bounded_queue_correct_sleepers :
    0 < 1 ∧ ∃ w : QueueWorld Nat 1,
      (queueThreads Nat 1).run (QueueWorld.initial Nat 1 3) twoSleepers = some w ∧
        w.writers = [.idle, .idle, .entering 12] ∧
        QueueCorrect w ((queueThreads Nat 1).trace (fun w a => a.events w)
          (QueueWorld.initial Nat 1 3) twoSleepers) := by
  obtain ⟨w, hrun, hwriters⟩ : ∃ w : QueueWorld Nat 1,
      (queueThreads Nat 1).run (QueueWorld.initial Nat 1 3) twoSleepers = some w ∧
        w.writers = [.idle, .idle, .entering 12] := by decide +kernel
  exact ⟨by decide, w, hrun, hwriters,
    bounded_queue_correct Nat 1 (by decide) 3 twoSleepers w hrun⟩

end NodeCpp
