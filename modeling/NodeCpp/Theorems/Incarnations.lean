import NodeCpp.Cluster.ThreadSlot

/-!
# Messages and the reincarnations of a slot

A message is to be popped by the thread it was posted to only. What is left in the queue when a
slot is given up, or pushed into it afterwards by a thread that has compared reincarnations before,
is popped by the next thread of the slot.

* `SlotWorld.Inv` -- everything in the queue, or about to be pushed, is for the current thread.
* `messages_respect_incarnations` -- the runs in which a slot is given up with nothing on its way.
* `message_outlives_thread` -- a message that is left in the queue.
-/

namespace NodeCpp

open Lib

variable {μ : Type}

/-- The slot is given up only when its queue is empty and no post is behind its assertions. -/
def SlotWorld.settled (w : SlotWorld μ) : SlotAct μ → Bool
  | .setUnused => w.slot.queue.coll.size == 0 && w.posting.all Option.isNone
  | _ => true

namespace SlotWorld

variable {w w' : SlotWorld μ} {ev : List (SlotPop μ)} {msgs : List (AddressedMsg μ)}

structure Inv (w : SlotWorld μ) (msgs : List (AddressedMsg μ)) : Prop where
  holds : w.slot.queue.Holds msgs
  queued : ∀ m ∈ msgs, m.reincarnation = w.slot.reincarnation
  posting : ∀ m, some m ∈ w.posting → m.reincarnation = w.slot.reincarnation
  thread : ∀ r, w.thread = some r → r = w.slot.reincarnation
  /-- Nothing is on its way to a slot that is not used. -/
  unused : w.slot.status = .unused → msgs = [] ∧ ∀ m, some m ∉ w.posting

namespace Inv

theorem initial (n : Nat) : (SlotWorld.initial μ n).Inv [] where
  holds := MWSRQueue.Holds.empty
  queued := nofun
  posting := by
    intro m hm
    cases List.eq_of_mem_replicate hm
  thread := nofun
  unused := by
    refine fun _ => ⟨rfl, ?_⟩
    intro m hm
    cases List.eq_of_mem_replicate hm

theorem acquired (h : w.Inv msgs) (hunused : w.slot.status = .unused)
    {slot : InterThreadCommData μ} (hq : slot.queue = w.slot.queue)
    (hstatus : slot.status = .acquired) :
    Inv { w with slot := slot, thread := some slot.reincarnation } msgs := by
  obtain ⟨hempty, hidle⟩ := h.unused hunused
  refine ⟨hq ▸ h.holds, ?_, ?_, ?_, ?_⟩
  · intro m hm
    rw [hempty] at hm
    cases hm
  · intro m hm
    exact absurd hm (hidle m)
  · intro r hr
    exact (Option.some.inj hr).symm
  · intro heq
    exact nomatch hstatus.symm.trans heq

theorem acquireForReuse (h : w.Inv msgs) {writeHandle : Nat} {slot : InterThreadCommData μ}
    {r : UInt64} (hs : w.slot.acquireForReuse writeHandle = .ok (slot, some r)) :
    Inv { w with slot := slot, thread := some r } msgs := by
  unfold InterThreadCommData.acquireForReuse at hs
  split at hs
  · rename_i hunused
    split at hs
    · cases hs
    · cases hs
      exact h.acquired hunused rfl rfl
  · cases hs

theorem acquireForReuseWithPostman (h : w.Inv msgs) {postman : Nat} {slot : InterThreadCommData μ}
    {r : UInt64} (hs : w.slot.acquireForReuseWithPostman postman = (slot, some r)) :
    Inv { w with slot := slot, thread := some r } msgs := by
  unfold InterThreadCommData.acquireForReuseWithPostman at hs
  split at hs
  · rename_i hunused
    cases hs
    exact h.acquired hunused rfl rfl
  · cases hs

theorem firstUse (h : w.Inv msgs) (hfresh : w.slot.isFresh = true)
    {slot : InterThreadCommData μ} (hq : slot.queue = w.slot.queue)
    (hstatus : slot.status = .acquired) :
    Inv { w with slot := slot, thread := some slot.reincarnation } msgs := by
  refine h.acquired ?_ hq hstatus
  unfold InterThreadCommData.isFresh at hfresh
  exact beq_iff_eq.mp (Bool.and_eq_true_iff.mp hfresh).2

/-- A post that has passed its assertions is for the thread that has the slot. -/
theorem check (h : w.Inv msgs) {poster : Nat} {msg : AddressedMsg μ}
    (hs : w.slot.accepts msg.reincarnation = true) :
    Inv { w with posting := w.posting.set poster (some msg) } msgs := by
  unfold InterThreadCommData.accepts InterThreadCommData.getWriteHandleAndReincarnation at hs
  simp only [Bool.and_eq_true, decide_eq_true_eq, beq_iff_eq] at hs
  obtain ⟨⟨-, hused⟩, hsame⟩ := hs
  refine ⟨h.holds, h.queued, ?_, h.thread, ?_⟩
  · intro m hm
    rcases List.mem_or_eq_of_mem_set hm with hm | heq
    · exact h.posting m hm
    · cases heq
      exact hsame.symm
  · intro hunused
    exact absurd hunused hused

theorem push (h : w.Inv msgs) {poster : Nat} {msg : AddressedMsg μ}
    (hmem : w.posting[poster]? = some (some msg)) {queue : MsgQueue (AddressedMsg μ)}
    (hs : w.slot.queue.lockedPush msg = .ok (.done queue)) :
    ∃ msgs', Inv { w with
      slot := { w.slot with queue := queue }, posting := w.posting.set poster none } msgs' := by
  have hmem : some msg ∈ w.posting := List.mem_of_getElem? hmem
  cases hfull : w.slot.queue.coll.isFull with
  | true =>
    rw [h.holds.lockedPush_full hfull] at hs
    cases hs
  | false =>
    obtain ⟨queue', hpush, hholds⟩ := h.holds.lockedPush_room hfull msg
    cases hs.symm.trans hpush
    refine ⟨msgs ++ [msg], hholds, ?_, ?_, h.thread, ?_⟩
    · intro m hm
      rcases List.mem_append.mp hm with hm | hm
      · exact h.queued m hm
      · rw [List.mem_singleton.mp hm]
        exact h.posting msg hmem
    · intro m hm
      rcases List.mem_or_eq_of_mem_set hm with hm | heq
      · exact h.posting m hm
      · cases heq
    · intro hunused
      exact absurd hmem ((h.unused hunused).2 msg)

theorem pop (h : w.Inv msgs) {r : UInt64} (hr : w.thread = some r) {count : Nat}
    {queue : MsgQueue (AddressedMsg μ)} {popped : List (AddressedMsg μ)}
    (hs : w.slot.queue.lockedPop (.many count) false = .ok (.done (queue, popped))) :
    (∃ msgs', Inv { w with slot := { w.slot with queue := queue } } msgs') ∧
      ∀ m ∈ popped, m.reincarnation = r := by
  by_cases hready : MWSRQueue.Holds.ready msgs (.many count) false
  · obtain ⟨queue', hpop, hholds⟩ := h.holds.lockedPop_ready hready
    cases hs.symm.trans hpop
    refine ⟨⟨_, hholds, ?_, h.posting, h.thread, ?_⟩, ?_⟩
    · intro m hm
      exact h.queued m (List.mem_of_mem_drop hm)
    · intro hunused
      obtain ⟨hempty, hidle⟩ := h.unused hunused
      rw [hempty]
      exact ⟨List.drop_nil, hidle⟩
    · intro m hm
      rw [h.thread r hr]
      exact h.queued m (List.mem_of_mem_take hm)
  · rw [h.holds.lockedPop_waits hready] at hs
    cases hs

/-- The step lemma. -/
theorem exec (h : w.Inv msgs) {a : SlotAct μ} (ha : w.settled a = true)
    (hs : w.exec a = some (w', ev)) :
    (∃ msgs', w'.Inv msgs') ∧ ∀ p ∈ ev, p.msg.reincarnation = p.thread := by
  cases a with
  | check poster msg =>
    obtain ⟨-, hs⟩ := Option.ite_none_right_eq_some.mp hs
    obtain ⟨haccepts, hs⟩ := Option.ite_none_right_eq_some.mp hs
    cases hs
    exact ⟨⟨msgs, h.check haccepts⟩, nofun⟩
  | push poster =>
    simp only [SlotWorld.exec] at hs
    split at hs
    · rename_i msg hmem
      split at hs
      · rename_i queue hpush
        cases hs
        exact ⟨h.push hmem hpush, nofun⟩
      · cases hs
    · cases hs
  | pop count =>
    simp only [SlotWorld.exec] at hs
    split at hs
    · cases hs
    rename_i r hr
    split at hs
    · rename_i queue popped hpop
      cases hs
      obtain ⟨hinv, hown⟩ := h.pop hr hpop
      refine ⟨hinv, ?_⟩
      intro p hp
      obtain ⟨m, hm, rfl⟩ := List.mem_map.mp hp
      -- what the thread takes was posted to its own incarnation
      exact hown m hm
    · cases hs
  | setTerminating =>
    simp only [SlotWorld.exec, InterThreadCommData.setTerminating] at hs
    split at hs
    · cases hs
    rename_i slot hslot
    cases hs
    split at hslot
    · cases hslot
      exact ⟨⟨msgs, h.holds, h.queued, h.posting, h.thread, nofun⟩, nofun⟩
    · cases hslot
  | setUnused =>
    cases hs
    have ha : (w.slot.queue.coll.size == 0 && w.posting.all Option.isNone) = true := ha
    obtain ⟨hsize, hidle⟩ := Bool.and_eq_true_iff.mp ha
    -- a settled slot has an empty queue and no poster under way
    have hempty : msgs = [] := by
      apply List.length_eq_zero_iff.mp
      rw [← h.holds.size]
      exact beq_iff_eq.mp hsize
    refine ⟨⟨msgs, h.holds, h.queued, h.posting, nofun, ?_⟩, nofun⟩
    refine fun _ => ⟨hempty, ?_⟩
    intro m hm
    cases List.all_eq_true.mp hidle _ hm
  | acquireForReuse writeHandle =>
    simp only [SlotWorld.exec] at hs
    split at hs
    · rename_i slot r hslot
      cases hs
      exact ⟨⟨msgs, h.acquireForReuse hslot⟩, nofun⟩
    · cases hs
  | acquireForReuseWithPostman postman =>
    simp only [SlotWorld.exec] at hs
    split at hs
    · rename_i slot r hslot
      cases hs
      exact ⟨⟨msgs, h.acquireForReuseWithPostman hslot⟩, nofun⟩
    · cases hs
  | setWriteHandleForFirstUse writeHandle =>
    simp only [SlotWorld.exec, InterThreadCommData.setWriteHandleForFirstUse] at hs
    split at hs
    · cases hs
    rename_i slot hslot
    cases hs
    split at hslot
    · rename_i hfresh
      cases hslot
      exact ⟨⟨msgs, h.firstUse hfresh rfl rfl⟩, nofun⟩
    · cases hslot
  | setPostmanForFirstUse postman =>
    simp only [SlotWorld.exec, InterThreadCommData.setPostmanForFirstUse] at hs
    split at hs
    · cases hs
    rename_i slot hslot
    cases hs
    split at hslot
    · rename_i hfresh
      cases hslot
      exact ⟨⟨msgs, h.firstUse hfresh rfl rfl⟩, nofun⟩
    · cases hslot

end Inv

end SlotWorld

/-- In every run in which the slot is given up only with an empty queue and no post behind its
assertions, a message is popped only by the thread that has acquired the slot with the
reincarnation it was posted to. -/
theorem messages_respect_incarnations (μ : Type) (n : Nat) (as : List (SlotAct μ))
    (w : SlotWorld μ)
    (hobeys : (threadSlot μ).obeys (fun w a => w.settled a = true) (SlotWorld.initial μ n) as)
    (hrun : (threadSlot μ).run (SlotWorld.initial μ n) as = some w) :
    ∀ p ∈ (threadSlot μ).trace (fun w a => a.popped w) (SlotWorld.initial μ n) as,
      p.msg.reincarnation = p.thread := by
  have h := (threadSlot μ).run_exec
    (J := fun w l => (∃ msgs, w.Inv msgs) ∧ ∀ p ∈ l, p.msg.reincarnation = p.thread)
    (fun _ _ => rfl) (fun _ _ => rfl) ?_ ⟨⟨[], SlotWorld.Inv.initial n⟩, nofun⟩ hobeys hrun
  · exact h.2
  · rintro w a w' l ev ⟨⟨msgs, h⟩, hl⟩ ha hs
    obtain ⟨hinv, hev⟩ := h.exec ha hs
    refine ⟨hinv, ?_⟩
    intro p hp
    exact (List.mem_append.mp hp).elim (hl p) (hev p)

/-- The slot is used twice, and each thread pops its message. -/
def usedTwice : List (SlotAct Nat) :=
  [.acquireForReuse 5, .check 0 ⟨1, 10⟩, .push 0, .pop 8, .setUnused, .acquireForReuse 6,
    .check 0 ⟨2, 20⟩, .push 0, .pop 8]

theorem messages_respect_incarnations_twice :
    (threadSlot Nat).obeys (fun w a => w.settled a = true) (SlotWorld.initial Nat 1) usedTwice ∧
      ∃ w, (threadSlot Nat).run (SlotWorld.initial Nat 1) usedTwice = some w ∧
        ∀ p ∈ (threadSlot Nat).trace (fun w a => a.popped w) (SlotWorld.initial Nat 1) usedTwice,
          p.msg.reincarnation = p.thread := by
  have hobeys : (threadSlot Nat).obeys (fun w a => w.settled a = true) (SlotWorld.initial Nat 1)
      usedTwice := by decide +kernel
  obtain ⟨w, hrun⟩ : ∃ w, (threadSlot Nat).run (SlotWorld.initial Nat 1) usedTwice = some w :=
    Option.isSome_iff_exists.mp (by decide +kernel)
  exact ⟨hobeys, w, hrun, messages_respect_incarnations Nat 1 usedTwice w hobeys hrun⟩

/-- A message posted to reincarnation 1 is in the queue, and another one behind its assertions, when
the slot is given up: the thread that acquires the slot as reincarnation 2 pops both. -/
theorem message_outlives_thread :
    (threadSlot Nat).trace (fun w a => a.popped w) (SlotWorld.initial Nat 2)
        [.acquireForReuse 5, .check 0 ⟨1, 10⟩, .push 0, .check 1 ⟨1, 11⟩, .setUnused,
          .acquireForReuse 6, .push 1, .pop 8] =
      [⟨2, ⟨1, 10⟩⟩, ⟨2, ⟨1, 11⟩⟩] := by
  decide +kernel

end NodeCpp
