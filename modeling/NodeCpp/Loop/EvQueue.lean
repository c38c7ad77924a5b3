import NodeCpp.Lib.Trace

/-!
# EvQueue

The vector of callbacks behind `setInmediate`. `emit` walks over it with iterators
taken at its start, calls one callback after the other, and clears the vector. A
callback may call `add`: the new callback lies behind the end that was taken, and if
the vector has to be moved to a larger buffer, the iterators point into the old one,
so that going on is undefined.

Callbacks are named by the number of the `add` they were passed to.

* `EvQueue.Settled` -- as long as nothing is added during `emit`, the callbacks
  invoked so far and those in the vector behind them are all that were added.
-/

namespace NodeCpp

/-- The loop of `emit`: the current position, the end taken at its start, and whether the vector
has moved since. -/
structure Traversal where
  current : Nat
  stop : Nat
  dangling : Bool := false
  deriving DecidableEq, Repr

structure EvQueue where
  evQueue : List Nat := []
  added : Nat := 0
  capacity : Nat := 0
  emitting : Option Traversal := none
  deriving DecidableEq, Repr

inductive EvAct
  | add
  | emit
  /-- `emit` calls the next callback, or is through and clears the vector. -/
  | next
  deriving DecidableEq, Repr

namespace EvQueue

/-- The capacity after `push_back` on a full vector: twice as much. -/
def grow (capacity : Nat) : Nat := if capacity = 0 then 1 else 2 * capacity

def add (q : EvQueue) : EvQueue :=
  let full := decide (q.evQueue.length = q.capacity)
  { q with
    evQueue := q.evQueue ++ [q.added]
    added := q.added + 1
    capacity := if full then grow q.capacity else q.capacity
    emitting := q.emitting.map fun t => { t with dangling := t.dangling || full } }

def emit (q : EvQueue) : Option EvQueue :=
  match q.emitting with
  | some _ => none
  | none => some { q with emitting := some { current := 0, stop := q.evQueue.length } }

def next (q : EvQueue) : Option EvQueue :=
  match q.emitting with
  | none => none
  | some t =>
      if t.dangling then none
      else if t.current < t.stop then
        some { q with emitting := some { t with current := t.current + 1 } }
      else some { q with evQueue := [], emitting := none }

end EvQueue

/-- The queue under its operations; what is undefined is refused. -/
def inmediateQueue : Lib.Machine EvQueue EvAct where
  step q
    | .add => some q.add
    | .emit => q.emit
    | .next => q.next

def EvAct.invoked (q : EvQueue) : EvAct → List Nat
  | .next =>
      match q.emitting with
      | some t => if t.current < t.stop then (q.evQueue[t.current]?).toList else []
      | none => []
  | _ => []

namespace EvQueue

variable {q q' : EvQueue} {l : List Nat}

def outstanding (q : EvQueue) : List Nat :=
  match q.emitting with
  | none => q.evQueue
  | some t => q.evQueue.drop t.current

def AddsOutside (q : EvQueue) (a : EvAct) : Prop := a = .add → q.emitting = none

instance (q : EvQueue) (a : EvAct) : Decidable (q.AddsOutside a) :=
  inferInstanceAs (Decidable (_ → _))

/-- The callbacks invoked so far and those outstanding are all that were added, in order, and the
loop of `emit` covers the whole vector. -/
structure Settled (q : EvQueue) (l : List Nat) : Prop where
  all : l ++ q.outstanding = List.range q.added
  covers : ∀ t ∈ q.emitting, t.stop = q.evQueue.length ∧ t.current ≤ t.stop ∧ t.dangling = false

theorem Settled.init : Settled {} [] := ⟨rfl, nofun⟩

/-- The step lemma. -/
theorem Settled.step {a : EvAct} (h : q.Settled l) (hadds : q.AddsOutside a)
    (hstep : inmediateQueue.step q a = some q') : q'.Settled (l ++ a.invoked q) := by
  have hall := h.all
  cases a with
  | add =>
    -- no iterator is live
    have hnone := hadds rfl
    cases hstep
    refine ⟨?_, ?_⟩
    · simp only [outstanding, hnone] at hall
      simp only [EvAct.invoked, outstanding, add, hnone, Option.map_none, List.append_nil,
        List.range_succ, ← hall, List.append_assoc]
    · intro t ht
      simp only [add, hnone, Option.map_none] at ht
      cases ht
  | emit =>
    simp only [inmediateQueue, emit] at hstep
    split at hstep
    · cases hstep
    rename_i hnone
    cases hstep
    refine ⟨?_, ?_⟩
    · simpa [EvAct.invoked, outstanding, hnone] using hall
    · rintro t ⟨⟩
      exact ⟨rfl, Nat.zero_le _, rfl⟩
  | next =>
    simp only [inmediateQueue, next] at hstep
    cases ht : q.emitting with
    | none =>
      rw [ht] at hstep
      cases hstep
    | some t =>
      obtain ⟨hstop, hle, hvalid⟩ := h.covers t ht
      rw [ht] at hstep
      simp only [hvalid, Bool.false_eq_true, if_false] at hstep
      simp only [outstanding, ht] at hall
      split at hstep
      · -- the callback at `current` is invoked
        rename_i hlt
        cases hstep
        refine ⟨?_, ?_⟩
        · have hlt' : t.current < q.evQueue.length := by omega
          rw [List.drop_eq_getElem_cons hlt'] at hall
          simp only [EvAct.invoked, ht, hlt, if_true, outstanding,
            List.getElem?_eq_getElem hlt', Option.toList_some, List.append_assoc,
            List.singleton_append]
          exact hall
        · rintro t' ⟨⟩
          exact ⟨hstop, hlt, rfl⟩
      · -- all have been, and the vector is cleared
        rename_i hge
        cases hstep
        refine ⟨?_, nofun⟩
        rw [List.drop_eq_nil_of_le (by omega), List.append_nil] at hall
        simpa [EvAct.invoked, ht, hge, outstanding] using hall

/-- The run lemma. -/
theorem settled_run {acts : List EvAct} (hadds : inmediateQueue.obeys AddsOutside {} acts)
    (hrun : inmediateQueue.run {} acts = some q) :
    q.Settled (inmediateQueue.trace EvAct.invoked {} acts) :=
  inmediateQueue.run_trace (J := Settled) (l := []) (fun _ _ _ _ hJ hG hstep => hJ.step hG hstep) .init
    hadds hrun

theorem added_run {acts : List EvAct} (hrun : inmediateQueue.run q acts = some q') :
    q'.added = q.added + acts.count .add := by
  induction acts generalizing q with
  | nil =>
    cases hrun
    rfl
  | cons a acts ih =>
    obtain ⟨q₁, hstep, hrest⟩ := inmediateQueue.run_cons hrun
    rw [ih hrest, List.count_cons]
    cases a with
    | add =>
      cases hstep
      simp only [add, beq_self_eq_true, if_true]
      omega
    | emit =>
      simp only [inmediateQueue, emit] at hstep
      split at hstep
      · cases hstep
      · cases hstep
        rfl
    | next =>
      simp only [inmediateQueue, next] at hstep
      split at hstep
      · cases hstep
      · split at hstep
        · cases hstep
        · split at hstep <;> cases hstep <;> rfl

end EvQueue

end NodeCpp
