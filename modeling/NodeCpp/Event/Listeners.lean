import NodeCpp.Event.Emitter
import NodeCpp.Loop.EvQueue

/-!
# EventEmitterSupportingListeners

The emitter whose handlers are lambdas or listeners. Its `emit` also copies the handlers
that are not registered by `once` and swaps the copy in, but then iterates the member and
not the vector that was swapped out. So `once` handlers are dropped before anyone calls
them, and the buffer under the loop is the one that `on`, `once` and a nested `emit` work
on: a registration may move it, and a nested `emit` swaps it out and frees it.

How the capacity of a full vector grows is up to the standard library, and a parameter here.

* `ListenersWorld.Undisturbed` -- the calls that do no harm.
* `ListenersWorld.run_simulates` -- with those alone, what is seen of a run is snapshot
  dispatch.
* `ListenersWorld.Sound.returns` -- then handlers that return let every emission return.
-/

namespace NodeCpp

open Lib

/-- A vector, with the size of its buffer. -/
structure GrowingVector (α : Type) where
  elements : List α := []
  capacity : Nat := 0
  deriving DecidableEq, Repr

namespace GrowingVector

variable {α : Type}

/-- The next element does not fit into the buffer. -/
def full (v : GrowingVector α) : Bool := decide (v.capacity ≤ v.elements.length)

def pushBack (grow : Nat → Nat) (v : GrowingVector α) (a : α) : GrowingVector α where
  elements := v.elements ++ [a]
  capacity := if v.full then grow v.capacity else v.capacity

end GrowingVector

/-- A handler: the callback `cb` if `isLambda`, else a pointer to a listener. -/
structure Element (κ ℓ : Type) where
  once : Bool
  isLambda : Bool
  cb : Option κ
  listener : Option ℓ
  deriving DecidableEq, Repr

namespace Element

variable {κ ℓ : Type}

def ofCallback (once : Bool) (cb : κ) : Element κ ℓ := ⟨once, true, some cb, none⟩

def ofListener (once : Bool) (listener : Option ℓ) : Element κ ℓ := ⟨once, false, none, listener⟩

end Element

structure EventEmitterSupportingListeners (κ ℓ : Type) where
  callbacks : GrowingVector (Element κ ℓ) := {}
  deriving DecidableEq, Repr

namespace EventEmitterSupportingListeners

variable {κ ℓ : Type} (grow : Nat → Nat)

def emplaceBack (em : EventEmitterSupportingListeners κ ℓ) (el : Element κ ℓ) :
    EventEmitterSupportingListeners κ ℓ :=
  { em with callbacks := em.callbacks.pushBack grow el }

def on (em : EventEmitterSupportingListeners κ ℓ) (cb : κ) :=
  em.emplaceBack grow (.ofCallback false cb)

def once (em : EventEmitterSupportingListeners κ ℓ) (cb : κ) :=
  em.emplaceBack grow (.ofCallback true cb)

/-- `on` for a listener, with its assertion that there is one. -/
def onListener (em : EventEmitterSupportingListeners κ ℓ) (listener : Option ℓ) :
    Option (EventEmitterSupportingListeners κ ℓ) :=
  if listener.isNone then none else some (em.emplaceBack grow (.ofListener false listener))

def onceListener (em : EventEmitterSupportingListeners κ ℓ) (listener : Option ℓ) :
    Option (EventEmitterSupportingListeners κ ℓ) :=
  if listener.isNone then none else some (em.emplaceBack grow (.ofListener true listener))

/-- The loop of `emit` that copies the handlers. -/
def copies (other : GrowingVector (Element κ ℓ)) :
    List (Element κ ℓ) → Option (GrowingVector (Element κ ℓ))
  | [] => some other
  | current :: rest =>
      if !current.once then
        if !(current.isLambda || current.listener.isSome) then none
        else copies (other.pushBack grow current) rest
      else copies other rest

theorem copies_of_not_once (els : List (Element κ ℓ)) (other : GrowingVector (Element κ ℓ))
    (honce : ∀ el ∈ els, el.once = false)
    (hcallable : ∀ el ∈ els, (el.isLambda || el.listener.isSome) = true) :
    ∃ v, copies grow other els = some v ∧ v.elements = other.elements ++ els := by
  induction els generalizing other with
  | nil => exact ⟨other, rfl, by simp⟩
  | cons current rest ih =>
    obtain ⟨hcurrent, hrest⟩ := List.forall_mem_cons.mp honce
    obtain ⟨hcall, hcalls⟩ := List.forall_mem_cons.mp hcallable
    obtain ⟨v, hv, hels⟩ := ih (other.pushBack grow current) hrest hcalls
    refine ⟨v, ?_, ?_⟩
    · simpa [copies, hcurrent, hcall] using hv
    · rw [hels, GrowingVector.pushBack, List.append_assoc]
      rfl

/-- What `emit` does before it calls anyone. It iterates the vector that it has swapped in. -/
def emit (em : EventEmitterSupportingListeners κ ℓ) :
    Option (EventEmitterSupportingListeners κ ℓ) := do
  let other ← copies grow {} em.callbacks.elements
  return { em with callbacks := other }

end EventEmitterSupportingListeners

def Element.handler (el : Element Nat Nat) : Option Nat :=
  if el.isLambda then el.cb else el.listener

/-- The emitter, and the loops of the emissions that run, the innermost first. -/
structure ListenersWorld where
  emitter : EventEmitterSupportingListeners Nat Nat := {}
  registered : Nat := 0
  emits : Nat := 0
  frames : List (Nat × Traversal) := []
  user : Bool := true
  deriving DecidableEq, Repr

inductive ListenersAct
  | on
  | once
  /-- `on` with a listener, or with a null pointer. -/
  | onListener (given : Bool)
  | onceListener (given : Bool)
  | emit
  /-- The innermost emission calls its next handler, or returns to the code that called it. -/
  | next
  /-- The handler returns. -/
  | ret
  deriving DecidableEq, Repr

namespace ListenersWorld

variable (grow : Nat → Nat)

def dangle (frames : List (Nat × Traversal)) : List (Nat × Traversal) :=
  frames.map fun f => (f.1, { f.2 with dangling := true })

/-- A registration: if the buffer is full, it moves away under the loops that run. -/
def register (w : ListenersWorld) (emitter : EventEmitterSupportingListeners Nat Nat) :
    Option ListenersWorld :=
  if w.user then
    some { w with
      emitter := emitter
      registered := w.registered + 1
      frames := if w.emitter.callbacks.full then dangle w.frames else w.frames }
  else none

/-- The loops that run are left with the vector that is swapped out, which goes at the end of
this call, before they continue. -/
def emit (w : ListenersWorld) : Option ListenersWorld :=
  if w.user then do
    let emitter ← w.emitter.emit grow
    return { w with
      emitter := emitter
      emits := w.emits + 1
      frames := (w.emits, ⟨0, emitter.callbacks.elements.length, false⟩) :: dangle w.frames
      user := false }
  else none

/-- The next handler of a loop that is not through. -/
def current (w : ListenersWorld) (t : Traversal) : Option Nat :=
  (w.emitter.callbacks.elements[t.current]?).bind Element.handler

def next (w : ListenersWorld) : Option ListenersWorld :=
  match w.user, w.frames with
  | false, (e, t) :: frames =>
      if t.dangling then none
      else if t.current < t.stop then do
        let _ ← w.current t
        return { w with frames := (e, { t with current := t.current + 1 }) :: frames, user := true }
      else some { w with frames := frames, user := true }
  | _, _ => none

def ret (w : ListenersWorld) : Option ListenersWorld :=
  if w.user = true ∧ w.frames ≠ [] then some { w with user := false } else none

end ListenersWorld

/-- The emitter under the code that uses it; a failed assertion and what is undefined are
refused. -/
def listenersWorld (grow : Nat → Nat) : Machine ListenersWorld ListenersAct where
  step w
    | .on => w.register (w.emitter.on grow w.registered)
    | .once => w.register (w.emitter.once grow w.registered)
    | .onListener given =>
        (w.emitter.onListener grow (if given then some w.registered else none)).bind w.register
    | .onceListener given =>
        (w.emitter.onceListener grow (if given then some w.registered else none)).bind w.register
    | .emit => w.emit grow
    | .next => w.next
    | .ret => w.ret

def ListenersAct.events (w : ListenersWorld) : ListenersAct → List EmitEvent
  | .on | .onListener _ => [.registers .on w.registered]
  | .once | .onceListener _ => [.registers .once w.registered]
  | .emit => [.starts w.emits]
  | .next =>
      match w.frames with
      | [] => []
      | (e, t) :: _ =>
          if t.current < t.stop then ((w.current t).map (EmitEvent.invokes e)).toList
          else [.returns e]
  | .ret => []

namespace ListenersWorld

variable {grow : Nat → Nat} {w w' : ListenersWorld} {a : ListenersAct} {acts : List ListenersAct}

/-- The call neither drops a handler nor disturbs a loop that runs: an emission starts while none
runs and nothing is registered by `once`, and during one, registrations find room. -/
def Undisturbed (w : ListenersWorld) : ListenersAct → Prop
  | .on | .once | .onListener _ | .onceListener _ =>
      w.frames = [] ∨ w.emitter.callbacks.full = false
  | .emit => w.frames = [] ∧ ∀ el ∈ w.emitter.callbacks.elements, el.once = false
  | .next | .ret => True

instance : ∀ (w : ListenersWorld) (a : ListenersAct), Decidable (w.Undisturbed a)
  | _, .on | _, .once | _, .onListener _ | _, .onceListener _ =>
      inferInstanceAs (Decidable (_ ∨ _))
  | _, .emit => inferInstanceAs (Decidable (_ ∧ _))
  | _, .next | _, .ret => inferInstanceAs (Decidable True)

/-- What a step comes to; the calls that register differ in the element. -/
inductive Steps (grow : Nat → Nat) (w : ListenersWorld) : ListenersAct → ListenersWorld → Prop
  | register {a : ListenersAct} (el : Element Nat Nat) (hel : el.handler = some w.registered)
      (hevents : a.events w = [.registers (if el.once then .once else .on) w.registered])
      (hroom : w.Undisturbed a → w.frames = [] ∨ w.emitter.callbacks.full = false)
      (huser : w.user = true) :
      Steps grow w a { w with
        emitter := w.emitter.emplaceBack grow el
        registered := w.registered + 1
        frames := if w.emitter.callbacks.full then dangle w.frames else w.frames }
  | emit (emitter : EventEmitterSupportingListeners Nat Nat)
      (hemit : w.emitter.emit grow = some emitter) (huser : w.user = true) :
      Steps grow w .emit { w with
        emitter := emitter
        emits := w.emits + 1
        frames := (w.emits, ⟨0, emitter.callbacks.elements.length, false⟩) :: dangle w.frames
        user := false }
  | invoke (e : Nat) (t : Traversal) (frames : List (Nat × Traversal)) (r : Nat)
      (hframes : w.frames = (e, t) :: frames) (hvalid : t.dangling = false)
      (hlt : t.current < t.stop) (hcurrent : w.current t = some r) (huser : w.user = false) :
      Steps grow w .next { w with
        frames := (e, { t with current := t.current + 1 }) :: frames
        user := true }
  | returns (e : Nat) (t : Traversal) (frames : List (Nat × Traversal))
      (hframes : w.frames = (e, t) :: frames) (hvalid : t.dangling = false)
      (hstop : ¬t.current < t.stop) (huser : w.user = false) :
      Steps grow w .next { w with frames := frames, user := true }
  | ret (huser : w.user = true) (hframes : w.frames ≠ []) :
      Steps grow w .ret { w with user := false }

theorem register_eq_some {emitter : EventEmitterSupportingListeners Nat Nat}
    (h : w.register emitter = some w') : w.user = true ∧
      w' = { w with
        emitter := emitter
        registered := w.registered + 1
        frames := if w.emitter.callbacks.full then dangle w.frames else w.frames } := by
  unfold register at h
  split at h
  · rename_i huser
    cases h
    exact ⟨huser, rfl⟩
  · cases h

theorem given_eq_some {given : Bool} {n : Nat}
    {emitter em : EventEmitterSupportingListeners Nat Nat}
    (h : (if (if given then some n else none).isNone then none else some emitter) = some em) :
    given = true ∧ em = emitter := by
  cases given with
  | false => cases h
  | true =>
    cases h
    exact ⟨rfl, rfl⟩

theorem step_cases (h : (listenersWorld grow).step w a = some w') : Steps grow w a w' := by
  cases a with
  | on | once =>
    obtain ⟨huser, rfl⟩ := register_eq_some h
    exact .register (.ofCallback _ w.registered) rfl rfl id huser
  | onListener given | onceListener given =>
    obtain ⟨emitter, hon, hregister⟩ := Option.bind_eq_some_iff.mp h
    obtain ⟨rfl, rfl⟩ := given_eq_some hon
    obtain ⟨huser, rfl⟩ := register_eq_some hregister
    exact .register (.ofListener _ (some w.registered)) rfl rfl id huser
  | emit =>
    simp only [listenersWorld, emit] at h
    split at h
    · rename_i huser
      obtain ⟨emitter, hemit, hw'⟩ := Option.bind_eq_some_iff.mp h
      cases hw'
      exact .emit emitter hemit huser
    · cases h
  | next =>
    simp only [listenersWorld, next] at h
    split at h
    · rename_i e t frames huser hframes
      split at h
      · cases h
      rename_i hvalid
      split at h
      · rename_i hlt
        obtain ⟨r, hcurrent, hw'⟩ := Option.bind_eq_some_iff.mp h
        cases hw'
        exact .invoke e t frames r hframes (Bool.eq_false_iff.mpr hvalid) hlt hcurrent huser
      · rename_i hstop
        cases h
        exact .returns e t frames hframes (Bool.eq_false_iff.mpr hvalid) hstop huser
    · cases h
  | ret =>
    simp only [listenersWorld, ret] at h
    split at h
    · rename_i hret
      cases h
      exact .ret hret.1 hret.2
    · cases h

/-! ## The loop over an undisturbed vector -/

/-- At most one emission runs, over a vector that has not gone. -/
structure Sound (w : ListenersWorld) : Prop where
  callable : ∀ el ∈ w.emitter.callbacks.elements, el.handler.isSome
  valid : ∀ f ∈ w.frames, f.2.dangling = false ∧ f.2.stop ≤ w.emitter.callbacks.elements.length
  single : w.frames.length ≤ 1
  user : w.frames = [] → w.user = true

theorem Sound.init : Sound {} := ⟨nofun, nofun, Nat.zero_le _, fun _ => rfl⟩

def left (w : ListenersWorld) (t : Traversal) : List Nat :=
  ((w.emitter.callbacks.elements.take t.stop).drop t.current).filterMap Element.handler

def toDispatcher (w : ListenersWorld) : Dispatcher where
  registered := w.emitter.callbacks.elements.map fun el => (el.once, el.handler.getD 0)
  registrations := w.registered
  emissions := w.emits
  running := w.frames.map fun f => (f.1, w.left f.2)

theorem Sound.handlers (h : w.Sound) :
    w.emitter.callbacks.elements.filterMap Element.handler =
      w.toDispatcher.registered.map Prod.snd := by
  have hcallable := h.callable
  simp only [toDispatcher, List.map_map]
  generalize w.emitter.callbacks.elements = els at hcallable ⊢
  induction els with
  | nil => rfl
  | cons el els ih =>
    obtain ⟨hel, hels⟩ := List.forall_mem_cons.mp hcallable
    obtain ⟨r, hr⟩ := Option.isSome_iff_exists.mp hel
    rw [List.filterMap_cons_some hr, List.map_cons, ih hels]
    simp [hr]

/-- Whatever is registered behind the end of a loop, it does not see it. -/
theorem left_emplaceBack {em : EventEmitterSupportingListeners Nat Nat} {el : Element Nat Nat}
    {t : Traversal} (hem : w.emitter = em) (hw' : w'.emitter = em.emplaceBack grow el)
    (ht : t.stop ≤ em.callbacks.elements.length) : w'.left t = w.left t := by
  rw [left, left, hw', hem, EventEmitterSupportingListeners.emplaceBack, GrowingVector.pushBack,
    List.take_append_of_le_length ht]

theorem left_eq_cons {t : Traversal} {r : Nat} (hlt : t.current < t.stop)
    (hcurrent : w.current t = some r) :
    w.left t = r :: w.left { t with current := t.current + 1 } := by
  obtain ⟨el, hel, hr⟩ := Option.bind_eq_some_iff.mp hcurrent
  obtain ⟨hlen, rfl⟩ := List.getElem?_eq_some_iff.mp hel
  have hlen' : t.current < (w.emitter.callbacks.elements.take t.stop).length := by
    rw [List.length_take]
    omega
  rw [left, List.drop_eq_getElem_cons hlen', List.getElem_take, List.filterMap_cons_some hr]
  rfl

theorem left_eq_nil {t : Traversal} (hstop : ¬t.current < t.stop) : w.left t = [] := by
  rw [left, List.drop_eq_nil_of_le, List.filterMap_nil]
  rw [List.length_take]
  omega

theorem Sound.register {el : Element Nat Nat} (h : w.Sound) (hel : el.handler = some w.registered)
    (hroom : w.frames = [] ∨ w.emitter.callbacks.full = false) (huser : w.user = true)
    (hw' : w' = { w with
      emitter := w.emitter.emplaceBack grow el
      registered := w.registered + 1
      frames := if w.emitter.callbacks.full then dangle w.frames else w.frames }) :
    dispatcher.step w.toDispatcher (.registers (if el.once then .once else .on) w.registered) =
      some w'.toDispatcher ∧ w'.Sound := by
  have hframes : w'.frames = w.frames := by
    rw [hw']
    rcases hroom with hnil | hroom
    · simp [hnil, dangle]
    · simp [hroom]
  have hemitter : w'.emitter = w.emitter.emplaceBack grow el := by rw [hw']
  have helements : w'.emitter.callbacks.elements = w.emitter.callbacks.elements ++ [el] := by
    rw [hemitter]
    rfl
  have hleft : ∀ f ∈ w.frames, w'.left f.2 = w.left f.2 := by
    intro f hf
    exact left_emplaceBack rfl hemitter (h.valid f hf).2
  refine ⟨?_, ?_, ?_, ?_, ?_⟩
  · -- the frames see the listeners they saw before
    have hrunning : w'.toDispatcher.running = w.toDispatcher.running := by
      simp only [toDispatcher, hframes]
      exact List.map_congr_left fun f hf => by rw [hleft f hf]
    have hregistered : w'.toDispatcher.registered =
        w.toDispatcher.registered ++ [(el.once, w.registered)] := by
      simp [toDispatcher, helements, hel]
    show (if w.registered = w.registered then _ else none) = _
    rw [if_pos rfl]
    cases honce : el.once <;>
      simp [Dispatcher.ext_iff, hrunning, hregistered, honce, EmitEvent.note] <;>
      simp [toDispatcher, hw']
  · rw [helements]
    intro x hx
    rcases List.mem_append.mp hx with hx | hx
    · exact h.callable x hx
    · rw [List.mem_singleton.mp hx, hel]
      rfl
  · rw [hframes, helements]
    intro f hf
    obtain ⟨hvalid, hstop⟩ := h.valid f hf
    refine ⟨hvalid, ?_⟩
    rw [List.length_append]
    omega
  · rw [hframes]
    exact h.single
  · intro _
    rw [hw']
    exact huser

theorem Sound.copied (h : w.Sound)
    (honce : ∀ el ∈ w.emitter.callbacks.elements, el.once = false)
    {emitter : EventEmitterSupportingListeners Nat Nat}
    (hemit : w.emitter.emit grow = some emitter) :
    emitter.callbacks.elements = w.emitter.callbacks.elements := by
  have hcallable : ∀ el ∈ w.emitter.callbacks.elements,
      (el.isLambda || el.listener.isSome) = true := by
    intro el hel
    have hsome := h.callable el hel
    unfold Element.handler at hsome
    split at hsome
    · simp [*]
    · simp [hsome]
  obtain ⟨v, hv, helements⟩ := EventEmitterSupportingListeners.copies_of_not_once grow
    w.emitter.callbacks.elements {} honce hcallable
  simp only [EventEmitterSupportingListeners.emit, hv] at hemit
  cases hemit
  exact helements

/-- The step lemma of the simulation. -/
theorem Sound.step (h : w.Sound) (ha : w.Undisturbed a) (hstep : Steps grow w a w') :
    dispatcher.run w.toDispatcher (a.events w) = some w'.toDispatcher ∧ w'.Sound := by
  cases hstep with
  | register el hel hevents hroom huser =>
    rw [hevents, Machine.run_singleton]
    exact h.register hel (hroom ha) huser rfl
  | emit emitter hemit huser =>
    -- no frame is live and nobody is once: the copy holds the same listeners
    obtain ⟨hnil, honce⟩ := ha
    have helements := h.copied honce hemit
    have hdangle : dangle w.frames = [] := by rw [hnil]; rfl
    constructor
    · have hhandlers := h.handlers
      rw [ListenersAct.events, Machine.run_singleton]
      show (if w.emits = w.emits then _ else none) = _
      rw [if_pos rfl, Option.some.injEq, Dispatcher.ext_iff]
      refine ⟨?_, rfl, rfl, ?_⟩
      · simp only [toDispatcher, EmitEvent.note, helements]
        rw [List.filter_eq_self]
        intro p hp
        obtain ⟨el, hel, rfl⟩ := List.mem_map.mp hp
        simp [honce el hel]
      · rw [← hhandlers]
        simp [toDispatcher, hnil, dangle, left, helements]
    · rw [hdangle]
      refine ⟨helements ▸ h.callable, ?_, Nat.le_refl _, (by simp)⟩
      intro f hf
      cases List.mem_singleton.mp hf
      exact ⟨rfl, Nat.le_refl _⟩
  | invoke e t frames r hframes hvalid hlt hcurrent huser =>
    have hlen := h.single
    rw [hframes] at hlen
    obtain rfl : frames = [] := by simpa using hlen
    obtain ⟨-, hstop⟩ := h.valid (e, t) (by simp [hframes])
    constructor
    · have hleft := left_eq_cons hlt hcurrent
      simp only [ListenersAct.events, hframes, if_pos hlt, hcurrent, Option.map_some,
        Option.toList_some, Machine.run_singleton]
      show Dispatcher.step w.toDispatcher (.invokes e r) = _
      simp only [Dispatcher.step, toDispatcher, hframes, List.map_cons, List.map_nil, hleft,
        and_self, if_true]
      rfl
    · refine ⟨h.callable, ?_, Nat.le_refl _, fun _ => rfl⟩
      intro f hf
      cases List.mem_singleton.mp hf
      exact ⟨hvalid, hstop⟩
  | returns e t frames hframes hvalid hstop huser =>
    have hlen := h.single
    rw [hframes] at hlen
    obtain rfl : frames = [] := by simpa using hlen
    constructor
    · simp only [ListenersAct.events, hframes, if_neg hstop, Machine.run_singleton]
      show Dispatcher.step w.toDispatcher (.returns e) = _
      simp only [Dispatcher.step, toDispatcher, hframes, List.map_cons, List.map_nil,
        left_eq_nil hstop, if_true]
    · exact ⟨h.callable, (by simp), Nat.zero_le _, fun _ => rfl⟩
  | ret huser hframes => exact ⟨rfl, h.callable, h.valid, h.single, fun hnil => absurd hnil hframes⟩

/-- Snapshot dispatch accepts what is seen of an undisturbed run. -/
theorem run_simulates (hobeys : (listenersWorld grow).obeys Undisturbed {} acts)
    (hrun : (listenersWorld grow).run {} acts = some w) :
    dispatcher.run {} ((listenersWorld grow).trace ListenersAct.events {} acts) =
      some w.toDispatcher ∧ w.Sound := by
  obtain ⟨d, hd, rfl, hsound⟩ := (listenersWorld grow).run_simulates
    (R := fun w d => d = w.toDispatcher ∧ w.Sound) (n := dispatcher)
    (fun w a w' d hR ha hs => by
      obtain ⟨rfl, hw⟩ := hR
      obtain ⟨hd, hw'⟩ := hw.step ha (step_cases hs)
      exact ⟨_, hd, rfl, hw'⟩)
    ⟨rfl, .init⟩ hobeys hrun
  exact ⟨hd, hsound⟩

/-! ## Returning -/

theorem gives_back (hframes : w.frames ≠ []) :
    (listenersWorld grow).Reaches (· ∈ [.next, .ret]) w { w with user := false } := by
  cases huser : w.user with
  | true =>
    apply Machine.Reaches.single (a := .ret) (by simp)
    exact if_pos ⟨huser, hframes⟩
  | false =>
    rw [← huser]
    apply Machine.Reaches.refl

theorem Sound.current_eq_some (h : w.Sound) {f : Nat × Traversal} (hf : f ∈ w.frames)
    (hlt : f.2.current < f.2.stop) : ∃ r, w.current f.2 = some r := by
  have hlen : f.2.current < w.emitter.callbacks.elements.length :=
    Nat.lt_of_lt_of_le hlt (h.valid f hf).2
  obtain ⟨r, hr⟩ := Option.isSome_iff_exists.mp (h.callable _ (List.getElem_mem hlen))
  refine ⟨r, ?_⟩
  rw [current, List.getElem?_eq_getElem hlen]
  exact hr

theorem Sound.frame_returns (h : w.Sound) {e : Nat} {t : Traversal}
    (hframes : w.frames = [(e, t)]) :
    (listenersWorld grow).Reaches (· ∈ [.next, .ret]) w { w with frames := [], user := true } := by
  have hmem : (e, t) ∈ w.frames := by simp [hframes]
  have hvalid : t.dangling = false := (h.valid (e, t) hmem).1
  apply (gives_back (List.ne_nil_of_mem hmem)).trans
  -- on what the loop has before it
  induction hn : t.stop - t.current generalizing w t with
  | zero =>
    have hlt : ¬t.current < t.stop := by omega
    apply Machine.Reaches.single (a := .next) (by simp)
    simp [listenersWorld, next, hframes, hvalid, hlt]
  | succ n ih =>
    have hlt : t.current < t.stop := by omega
    obtain ⟨r, hr⟩ := h.current_eq_some hmem hlt
    unfold current at hr
    have hnext : (listenersWorld grow).step { w with user := false } .next =
        some { w with frames := [(e, { t with current := t.current + 1 })], user := true } := by
      simp [listenersWorld, next, hframes, hvalid, hlt, current, hr]
    have hsound : ({ w with user := false } : ListenersWorld).Sound :=
      ⟨h.callable, h.valid, h.single, fun hnil => absurd hnil (List.ne_nil_of_mem hmem)⟩
    obtain ⟨-, hsound'⟩ := hsound.step (a := .next) trivial (step_cases hnext)
    apply (Machine.Reaches.single (by simp) hnext).trans
    apply (gives_back (by simp)).trans
    exact ih hsound' rfl (by simp) hvalid (by simp only; omega)

/-- From every state of an undisturbed run, handlers that return let every emission return. -/
theorem Sound.returns (h : w.Sound) :
    (listenersWorld grow).Reaches (· ∈ [.next, .ret]) w { w with frames := [], user := true } := by
  have hsingle := h.single
  cases hframes : w.frames with
  | nil =>
    rw [← hframes, ← h.user hframes]
    apply Machine.Reaches.refl
  | cons f frames =>
    obtain rfl : frames = [] := by simpa [hframes] using hsingle
    exact h.frame_returns hframes

end ListenersWorld

end NodeCpp
