import Mathlib.Data.Set.Basic
import Mathlib.Order.WellFounded
import NodeCpp.Cluster.EventLoops

/-!
# Threads blocked in a circle

A thread that posts does not read its own queue meanwhile, and `push_back` waits for as long as the
queue it pushes into is full. Threads whose posts into full queues follow an order of the threads
cannot wait for each other in a circle; nothing in the code sees to such an order.

* `LoopsWorld.Descends` -- every blocked thread waits for one of lower rank.
* `no_cyclic_blocking` -- the runs in which pushes into full queues follow an order.
* `blocked_on_own_queue` -- a thread that posts to itself.
-/

namespace NodeCpp

open Lib

variable {μ : Type}

namespace LoopsWorld

variable {w w' : LoopsWorld μ} {rank : Nat → Nat}

/-- Some threads are blocked on full queues of threads among them. -/
def CyclicallyBlocked (w : LoopsWorld μ) : Prop :=
  ∃ S : Set Nat, S.Nonempty ∧ ∀ t ∈ S, ∃ u ∈ S, ∃ msg,
    w.threads[t]? = some (.blocked u msg) ∧ w.isFull u = true

/-- A thread posts into a full queue only if that is the queue of a thread of lower rank. -/
def Ordered (rank : Nat → Nat) (w : LoopsWorld μ) : LoopsAct μ → Prop
  | .post t u _ => w.isFull u = true → rank u < rank t
  | _ => True

instance (rank : Nat → Nat) (w : LoopsWorld μ) : ∀ a, Decidable (Ordered rank w a)
  | .post t u _ => inferInstanceAs (Decidable (w.isFull u = true → rank u < rank t))
  | .take _ _ | .retry _ | .finish _ => isTrue trivial

def Descends (rank : Nat → Nat) (w : LoopsWorld μ) : Prop :=
  ∀ t u msg, w.threads[t]? = some (.blocked u msg) → rank u < rank t

theorem descends_initial (n : Nat) : (initial μ n).Descends rank := by
  intro t u msg ht
  cases List.eq_of_mem_replicate (List.mem_of_getElem? ht)

theorem Descends.setThread (h : w.Descends rank) (t : Nat) (s : LoopThread μ)
    (hs : ∀ u msg, s = .blocked u msg → rank u < rank t) : (w.setThread t s).Descends rank := by
  intro t' u msg ht
  replace ht : (w.threads.set t s)[t']? = some (.blocked u msg) := ht
  rw [List.getElem?_set] at ht
  split at ht
  · rename_i heq
    subst heq
    split at ht
    · exact hs u msg (Option.some.inj ht)
    · cases ht
  · exact h t' u msg ht

theorem push_waits {t u : Nat} {msg : μ} (hs : w.push t u msg = some w') :
    (w.isFull u = true ∧ w' = w.setThread t (.blocked u msg)) ∨
      ∃ queues, w' = setThread { w with queues := queues } t .handling := by
  unfold push at hs
  split at hs
  · cases hs
  rename_i q hq
  split at hs
  · cases hs
  · rename_i hwaits
    cases hs
    refine .inl ⟨?_, rfl⟩
    have hfull : q.coll.isFull = true := by
      unfold MWSRQueue.lockedPush at hwaits
      split at hwaits
      · rename_i hcond
        exact (Bool.and_eq_true_iff.mp hcond).1
      · split at hwaits
        · cases hwaits
        · split at hwaits
          · cases hwaits
          · obtain ⟨coll, -, hdone⟩ := bind_eq_ok hwaits
            cases hdone
    simp [isFull, hq, hfull]
  · cases hs
    exact .inr ⟨w.queues, rfl⟩
  · cases hs
    exact .inr ⟨_, rfl⟩

theorem Descends.push (h : w.Descends rank) {t u : Nat} {msg : μ}
    (hrank : w.isFull u = true → rank u < rank t) (hs : w.push t u msg = some w') :
    w'.Descends rank := by
  rcases push_waits hs with ⟨hfull, rfl⟩ | ⟨queues, rfl⟩
  · apply h.setThread t
    intro u' msg' heq
    cases heq
    exact hrank hfull
  · have h' : ({ w with queues := queues } : LoopsWorld μ).Descends rank := h
    exact h'.setThread t _ nofun

/-- The step lemma. -/
theorem Descends.step (h : w.Descends rank) {a : LoopsAct μ} (ha : Ordered rank w a)
    (hs : w.step a = some w') : w'.Descends rank := by
  cases a with
  | take t count =>
    simp only [LoopsWorld.step] at hs
    split at hs
    · split at hs
      · cases hs
        apply Descends.setThread _ t _ nofun
        exact h
      · cases hs
    · cases hs
  | post t u msg =>
    simp only [LoopsWorld.step] at hs
    split at hs
    · exact h.push ha hs
    · cases hs
  | retry t =>
    simp only [LoopsWorld.step] at hs
    split at hs
    · rename_i u msg ht
      apply h.push ?_ hs
      intro _
      exact h t u msg ht
    · cases hs
  | finish t =>
    simp only [LoopsWorld.step] at hs
    split at hs
    · cases hs
      exact h.setThread t _ nofun
    · cases hs

/-- Whoever waits for one of lower rank does not wait in a circle. -/
theorem Descends.not_cyclicallyBlocked (h : w.Descends rank) : ¬w.CyclicallyBlocked := by
  rintro ⟨S, hne, hS⟩
  obtain ⟨t, ht, hmin⟩ := (measure rank).wf.has_min S hne
  obtain ⟨u, hu, msg, hblocked, -⟩ := hS t ht
  exact hmin u hu (h t u msg hblocked)

end LoopsWorld

/-- In every run in which pushes into full queues follow an order of the threads, no threads are
ever blocked in a circle. -/
theorem no_cyclic_blocking (μ : Type) (n : Nat) (rank : Nat → Nat) (as : List (LoopsAct μ))
    (w : LoopsWorld μ)
    (hobeys : (eventLoops μ).obeys (LoopsWorld.Ordered rank) (LoopsWorld.initial μ n) as)
    (hrun : (eventLoops μ).run (LoopsWorld.initial μ n) as = some w) : ¬w.CyclicallyBlocked := by
  have hdescends : w.Descends rank := by
    apply (eventLoops μ).run_invariant ?_ (LoopsWorld.descends_initial n) hobeys hrun
    intro w a w' h ha hs
    exact h.step ha hs
  exact hdescends.not_cyclicallyBlocked

/-- Thread 1 fills the queue of thread 0 and is blocked; thread 0 takes messages, and thread 1 goes
on. -/
def fillsAndWaits : List (LoopsAct Nat) :=
  (List.range 16).map (.post 1 0) ++ [.finish 0, .take 0 8, .retry 1]

theorem no_cyclic_blocking_two :
    (eventLoops Nat).obeys (LoopsWorld.Ordered id) (LoopsWorld.initial Nat 2) fillsAndWaits ∧
      ∃ w, (eventLoops Nat).run (LoopsWorld.initial Nat 2) fillsAndWaits = some w ∧
        ¬w.CyclicallyBlocked := by
  have hobeys : (eventLoops Nat).obeys (LoopsWorld.Ordered id) (LoopsWorld.initial Nat 2)
      fillsAndWaits := by decide +kernel
  obtain ⟨w, hrun⟩ : ∃ w, (eventLoops Nat).run (LoopsWorld.initial Nat 2) fillsAndWaits = some w :=
    Option.isSome_iff_exists.mp (by decide +kernel)
  exact ⟨hobeys, w, hrun, no_cyclic_blocking Nat 2 id fillsAndWaits w hobeys hrun⟩

/-- A single thread posts a message to itself and, while it handles that message, sixteen more. -/
def postsToItself : List (LoopsAct Nat) :=
  [.post 0 0 0, .finish 0, .take 0 8] ++ (List.range 16).map (.post 0 0)

/-- The thread is blocked for good on its own queue. -/
theorem blocked_on_own_queue :
    ∃ w, (eventLoops Nat).run (LoopsWorld.initial Nat 1) postsToItself = some w ∧
      w.CyclicallyBlocked := by
  obtain ⟨w, hrun, hblocked, hfull⟩ : ∃ w,
      (eventLoops Nat).run (LoopsWorld.initial Nat 1) postsToItself = some w ∧
        w.threads[0]? = some (.blocked 0 15) ∧ w.isFull 0 = true := by decide +kernel
  refine ⟨w, hrun, {0}, Set.singleton_nonempty 0, ?_⟩
  intro t ht
  obtain rfl : t = 0 := ht
  exact ⟨0, rfl, 15, hblocked, hfull⟩

end NodeCpp
