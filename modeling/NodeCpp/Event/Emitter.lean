import NodeCpp.Lib.Dispatch

/-!
# EventEmitter

A vector of callbacks, each marked with whether it is registered by `once`. `emit` copies
the others into a second vector, swaps the two, and calls the callbacks of the one that it
has now for itself. Callbacks may register others and call `emit`, so that emissions nest:
`EmitterWorld` keeps the local vectors of those that run, the innermost first.

Callbacks are named by the number of their registration.

* `EmitterWorld.run_simulates` -- what is seen of a run is snapshot dispatch.
* `EmitterWorld.run_returns` -- callbacks that return let every emission return.
-/

namespace NodeCpp

open Lib

structure EventEmitter (κ : Type) where
  callbacks : List (Bool × κ) := []
  deriving DecidableEq, Repr

namespace EventEmitter

variable {κ : Type}

def on (em : EventEmitter κ) (cb : κ) : EventEmitter κ :=
  { em with callbacks := em.callbacks ++ [(false, cb)] }

def once (em : EventEmitter κ) (cb : κ) : EventEmitter κ :=
  { em with callbacks := em.callbacks ++ [(true, cb)] }

def prependListener (em : EventEmitter κ) (cb : κ) : EventEmitter κ :=
  { em with callbacks := (false, cb) :: em.callbacks }

/-- What `emit` does before it calls anyone: the emitter with its copies, and the vector that
`emit` is going to iterate. -/
def emit (em : EventEmitter κ) : EventEmitter κ × List (Bool × κ) :=
  let other := em.callbacks.foldl
    (fun other current => if !current.1 then other ++ [current] else other) []
  ({ em with callbacks := other }, em.callbacks)

theorem foldl_copies (cbs other : List (Bool × κ)) :
    cbs.foldl (fun other current => if !current.1 then other ++ [current] else other) other =
      other ++ cbs.filter fun current => !current.1 := by
  induction cbs generalizing other with
  | nil => simp
  | cons current cbs ih =>
    rw [List.foldl_cons, ih]
    cases h : current.1 <;> simp [h]

theorem emit_fst_callbacks (em : EventEmitter κ) :
    em.emit.1.callbacks = em.callbacks.filter fun current => !current.1 :=
  foldl_copies em.callbacks []

end EventEmitter

/-- The emitter, and the emissions that run. Code of the user runs while no emission does, and
between the call of a callback and its return. -/
structure EmitterWorld where
  emitter : EventEmitter Nat := {}
  registered : Nat := 0
  emits : Nat := 0
  /-- The number of each emission and what is left of its vector. -/
  frames : List (Nat × List (Bool × Nat)) := []
  user : Bool := true
  deriving DecidableEq, Repr

inductive EmitterAct
  | on
  | once
  | prependListener
  | emit
  /-- The innermost emission calls its next callback, or returns to the code that called it. -/
  | next
  /-- The callback returns. -/
  | ret
  deriving DecidableEq, Repr

namespace EmitterWorld

def acts (w : EmitterWorld) (w' : EmitterWorld) : Option EmitterWorld :=
  if w.user then some w' else none

def emit (w : EmitterWorld) : EmitterWorld :=
  let (emitter, other) := w.emitter.emit
  { w with
    emitter := emitter
    emits := w.emits + 1
    frames := (w.emits, other) :: w.frames
    user := false }

def next (w : EmitterWorld) : Option EmitterWorld :=
  if w.user then none
  else
    match w.frames with
    | [] => none
    | (_, []) :: frames => some { w with frames := frames, user := true }
    | (e, _ :: rest) :: frames => some { w with frames := (e, rest) :: frames, user := true }

def ret (w : EmitterWorld) : Option EmitterWorld :=
  if w.frames = [] then none else w.acts { w with user := false }

end EmitterWorld

def emitterWorld : Machine EmitterWorld EmitterAct where
  step w
    | .on => w.acts { w with emitter := w.emitter.on w.registered
                             registered := w.registered + 1 }
    | .once => w.acts { w with emitter := w.emitter.once w.registered
                               registered := w.registered + 1 }
    | .prependListener => w.acts { w with emitter := w.emitter.prependListener w.registered
                                          registered := w.registered + 1 }
    | .emit => w.acts w.emit
    | .next => w.next
    | .ret => w.ret

def EmitterAct.events (w : EmitterWorld) : EmitterAct → List EmitEvent
  | .on => [.registers .on w.registered]
  | .once => [.registers .once w.registered]
  | .prependListener => [.registers .prepend w.registered]
  | .emit => [.starts w.emits]
  | .next =>
      match w.frames with
      | [] => []
      | (e, []) :: _ => [.returns e]
      | (e, (_, r) :: _) :: _ => [.invokes e r]
  | .ret => []

namespace EmitterWorld

variable {w w' : EmitterWorld} {acts : List EmitterAct}

def toDispatcher (w : EmitterWorld) : Dispatcher where
  registered := w.emitter.callbacks
  registrations := w.registered
  emissions := w.emits
  running := w.frames.map fun f => (f.1, f.2.map Prod.snd)

theorem acts_eq_some {v : EmitterWorld} (h : w.acts v = some w') : w.user = true ∧ w' = v := by
  unfold EmitterWorld.acts at h
  split at h
  · rename_i huser
    cases h
    exact ⟨huser, rfl⟩
  · cases h

theorem next_eq_some (h : w.next = some w') : w.user = false ∧
    ((∃ e frames, w.frames = (e, []) :: frames ∧ w' = { w with frames := frames, user := true }) ∨
      ∃ e r rest frames, w.frames = (e, r :: rest) :: frames ∧
        w' = { w with frames := (e, rest) :: frames, user := true }) := by
  unfold next at h
  split at h
  · cases h
  rename_i huser
  refine ⟨Bool.eq_false_iff.mpr huser, ?_⟩
  split at h
  · cases h
  · rename_i e frames hframes
    cases h
    exact .inl ⟨e, frames, hframes, rfl⟩
  · rename_i e r rest frames hframes
    cases h
    exact .inr ⟨e, r, rest, frames, hframes, rfl⟩

theorem ret_eq_some (h : w.ret = some w') :
    w.frames ≠ [] ∧ w.user = true ∧ w' = { w with user := false } := by
  unfold ret at h
  split at h
  · cases h
  · rename_i hframes
    exact ⟨hframes, acts_eq_some h⟩

/-- The step lemma of the simulation. -/
theorem step_simulates {a : EmitterAct} (h : emitterWorld.step w a = some w') :
    dispatcher.run w.toDispatcher (a.events w) = some w'.toDispatcher := by
  cases a with
  | on | once | prependListener =>
    obtain ⟨-, rfl⟩ := acts_eq_some h
    rw [EmitterAct.events, Machine.run_singleton]
    exact if_pos rfl
  | emit =>
    obtain ⟨-, rfl⟩ := acts_eq_some h
    rw [EmitterAct.events, Machine.run_singleton]
    show Dispatcher.step w.toDispatcher (.starts w.emits) = _
    simp only [Dispatcher.step, toDispatcher, EmitterWorld.emit, if_true,
      EventEmitter.emit_fst_callbacks]
    rfl
  | next =>
    obtain ⟨-, ⟨e, frames, hframes, rfl⟩ | ⟨e, r, rest, frames, hframes, rfl⟩⟩ := next_eq_some h
    · simp only [EmitterAct.events, hframes, Machine.run_singleton]
      show Dispatcher.step w.toDispatcher (.returns e) = _
      simp [Dispatcher.step, toDispatcher, hframes]
    · simp only [EmitterAct.events, hframes, Machine.run_singleton]
      show Dispatcher.step w.toDispatcher (.invokes e r.2) = _
      simp [Dispatcher.step, toDispatcher, hframes]
  | ret =>
    obtain ⟨-, -, rfl⟩ := ret_eq_some h
    rfl

/-- Snapshot dispatch accepts what is seen of every run. -/
theorem run_simulates (hrun : emitterWorld.run {} acts = some w) :
    dispatcher.run {} (emitterWorld.trace EmitterAct.events {} acts) =
      some w.toDispatcher := by
  obtain ⟨d, hd, hw⟩ := emitterWorld.run_simulates
    (G := fun _ _ => True) (R := fun w d => d = w.toDispatcher) (n := dispatcher)
    (fun _ _ _ _ hR _ hs => ⟨_, hR ▸ step_simulates hs, rfl⟩) rfl
    (emitterWorld.obeys_of_forall (fun _ _ => trivial) _ _) hrun
  rw [← hw]
  exact hd

theorem user_of_frames (hrun : emitterWorld.run {} acts = some w) (hframes : w.frames = []) :
    w.user = true := by
  refine emitterWorld.run_kept (J := fun w => w.frames = [] → w.user = true) ?_ (fun _ => rfl)
    hrun hframes
  intro w a w' _ hs hnil
  cases a with
  | on | once | prependListener =>
    obtain ⟨huser, rfl⟩ := acts_eq_some hs
    exact huser
  | emit =>
    obtain ⟨-, rfl⟩ := acts_eq_some hs
    cases hnil
  | next =>
    obtain ⟨-, ⟨e, frames, -, rfl⟩ | ⟨e, r, rest, frames, -, rfl⟩⟩ := next_eq_some hs <;> rfl
  | ret =>
    obtain ⟨hne, -, rfl⟩ := ret_eq_some hs
    exact absurd hnil hne

theorem gives_back (hframes : w.frames ≠ []) :
    emitterWorld.Reaches (· ∈ [.next, .ret]) w { w with user := false } := by
  cases huser : w.user with
  | true =>
    apply Machine.Reaches.single (a := .ret) (by simp)
    show w.ret = _
    rw [ret, if_neg hframes, EmitterWorld.acts, if_pos huser]
  | false =>
    rw [← huser]
    apply Machine.Reaches.refl

theorem frame_returns {e : Nat} {frames : List (Nat × List (Bool × Nat))}
    (rest : List (Bool × Nat)) (hframes : w.frames = (e, rest) :: frames) :
    emitterWorld.Reaches (· ∈ [.next, .ret]) w { w with frames := frames, user := true } := by
  have hback := gives_back (w := w) (by simp [hframes])
  induction rest generalizing w with
  | nil =>
    apply hback.trans
    apply Machine.Reaches.single (a := .next) (by simp)
    simp [emitterWorld, next, hframes]
  | cons r rest ih =>
    apply hback.trans
    -- the callback is called, and what is left is for the induction
    have hnext : emitterWorld.step { w with user := false } .next =
        some { w with frames := (e, rest) :: frames, user := true } := by
      simp [emitterWorld, next, hframes]
    apply (Machine.Reaches.single (by simp) hnext).trans
    exact ih (w := { w with frames := (e, rest) :: frames, user := true }) rfl
      (gives_back (by simp))

/-- Callbacks that return let every emission return. -/
theorem frames_return (frames : List (Nat × List (Bool × Nat))) (hframes : w.frames = frames)
    (huser : w.frames = [] → w.user = true) :
    emitterWorld.Reaches (· ∈ [.next, .ret]) w { w with frames := [], user := true } := by
  induction frames generalizing w with
  | nil =>
    rw [← huser hframes, ← hframes]
    apply Machine.Reaches.refl
  | cons f frames ih =>
    apply (frame_returns f.2 hframes).trans
    exact ih (w := { w with frames := frames, user := true }) rfl fun _ => rfl

theorem run_returns (hrun : emitterWorld.run {} acts = some w) :
    emitterWorld.Reaches (· ∈ [.next, .ret]) w { w with frames := [], user := true } :=
  frames_return w.frames rfl (user_of_frames hrun)

end EmitterWorld

end NodeCpp
