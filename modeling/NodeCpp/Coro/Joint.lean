import NodeCpp.Coro.World
import NodeCpp.Timer.Entry

/-!
# Handles, timers and suspensions

The joint invariant of sockets, timers and coroutines: a handle that is registered
anywhere is that of the await its coroutine is suspended in, and what has been
resumed is over.

Only one thing breaks it. A timer that fires leaves the handle in its field of the
socket, so the invariant asks for a guard on these steps: the handle is not
registered any more (`LeavesNoHandle`).

* `Joint.event` -- what an action does before it resumes somebody.
* `Joint.resume` -- the resumption.
* `Joint.step`, `Joint.run` -- guarded steps and runs keep the invariant.
-/

namespace NodeCpp

open Lib

variable {a : CoroAct} {cause : Cause} {timeout : TimeoutManager}

namespace CoroWorld

open Function

/-- The handle is that of the await `x` its coroutine is suspended in. -/
def Current (w : CoroWorld) (h : Handle) (x : Suspension) : Prop :=
  (w.coros h.coro).waits = some x ∧ (w.coros h.coro).count = h.susp

/-- The handle is in the field its coroutine's await has registered it in. -/
def registered (w : CoroWorld) (h : Handle) : Bool :=
  (w.coros h.coro).waits.any fun x => (w.socks x.sock).ahd x.op.field == some h

/-- The guard: a timer resumes a coroutine only if its handle is not registered any more. -/
def LeavesNoHandle (w : CoroWorld) (a : CoroAct) : Prop :=
  ∀ r ∈ w.resumption a, r.2 = .timeout → w.registered r.1 = false

instance (w : CoroWorld) (a : CoroAct) : Decidable (w.LeavesNoHandle a) :=
  inferInstanceAs (Decidable (∀ r ∈ w.resumption a, _))

/-- What is registered is current, what has been resumed is over. -/
structure Joint (w : CoroWorld) : Prop where
  fields : ∀ s f h, (w.socks s).ahd f = some h → ∃ x, w.Current h x ∧ x.sock = s ∧ x.op.field = f
  timers : ∀ p ∈ w.timeout.nextTimeouts, ∀ h, w.handle p.2 = some h →
    ∃ x, w.Current h x ∧ x.timer = some p.2
  handlers : ∀ h ∈ w.handlers, ∃ x, w.Current h x
  handlers_nodup : w.handlers.Nodup
  resumed : ∀ h ∈ w.resumed, h.susp < (w.coros h.coro).count
  nodup : w.resumed.Nodup
  exact : w.timeout.Exact

variable {w w' : CoroWorld} {h h' : Handle} {x x' : Suspension} {c s : Nat}

/-! ## Current handles -/

theorem Current.eq (hh : w.Current h x) (hh' : w.Current h' x') (hcoro : h'.coro = h.coro) :
    h' = h ∧ x' = x := by
  obtain ⟨hx, hn⟩ := hh
  obtain ⟨hx', hn'⟩ := hh'
  rw [hcoro] at hx' hn'
  refine ⟨?_, Option.some.inj (hx'.symm.trans hx)⟩
  cases h
  cases h'
  rw [Handle.mk.injEq]
  exact ⟨hcoro, hn'.symm.trans hn⟩

theorem Current.coro_ne (hh : w.Current h x) (hidle : (w.coros c).waits = none) : h.coro ≠ c := by
  rintro rfl
  cases hidle.symm.trans hh.1

theorem Current.update (hh : w.Current h x) {co : Coroutine} (hne : h.coro ≠ c)
    (hcoros : w'.coros = update w.coros c co) : w'.Current h x := by
  unfold Current
  rw [hcoros, update_of_ne hne]
  exact hh

/-! ## Steps that resume nobody -/

@[simp] theorem setData_ahd (w : CoroWorld) (s t : Nat) (data : SocketData) :
    ((w.setData s data).socks t).ahd = (w.socks t).ahd := by
  by_cases hs : t = s
  · subst hs
    simp [setData]
  · simp [setData, hs]

theorem Joint.setData (hj : w.Joint) (s : Nat) (data : SocketData) : (w.setData s data).Joint where
  fields t f h hreg := hj.fields t f h (by simpa using hreg)
  timers := hj.timers
  handlers := hj.handlers
  handlers_nodup := hj.handlers_nodup
  resumed := hj.resumed
  nodup := hj.nodup
  exact := hj.exact

/-- The timers change: the pairs that are left, or new, have their handles as before. -/
theorem Joint.setTimers (hj : w.Joint) {handle : UInt64 → Option Handle}
    (hexact : timeout.Exact) (hpairs : ∀ p ∈ timeout.nextTimeouts, ∀ h, handle p.2 = some h →
      p ∈ w.timeout.nextTimeouts ∧ w.handle p.2 = some h) :
    Joint { w with timeout := timeout, handle := handle } where
  fields := hj.fields
  timers p hp h hh := by
    obtain ⟨hp, hh⟩ := hpairs p hp h hh
    exact hj.timers p hp h hh
  handlers := hj.handlers
  handlers_nodup := hj.handlers_nodup
  resumed := hj.resumed
  nodup := hj.nodup
  exact := hexact

/-- A coroutine suspends: it had no handle registered, and now it has one, perhaps with a timer. -/
theorem Joint.register (hj : w.Joint) (hidle : (w.coros c).waits = none)
    {handle : UInt64 → Option Handle} {timer : Option UInt64} (hexact : timeout.Exact)
    (hpairs : ∀ p ∈ timeout.nextTimeouts, ∀ h, handle p.2 = some h →
      (p ∈ w.timeout.nextTimeouts ∧ w.handle p.2 = some h) ∨
        (h = ⟨c, (w.coros c).count⟩ ∧ timer = some p.2)) (s : Nat) (data : SocketData)
    (op : AwaitOp) :
    (CoroWorld.register { w with timeout := timeout, handle := handle } c s data op timer).Joint := by
  generalize hw' :
    CoroWorld.register { w with timeout := timeout, handle := handle } c s data op timer = w'
  have hcoros : w'.coros = update w.coros c
      { w.coros c with edata := { (w.coros c).edata with status := .ok }
                       waits := some ⟨s, op, timer⟩ } := by
    rw [← hw']
    rfl
  have hnew : w'.Current ⟨c, (w.coros c).count⟩ ⟨s, op, timer⟩ := by
    unfold Current
    rw [hcoros, update_self]
    exact ⟨rfl, rfl⟩
  have hold : ∀ {h x}, w.Current h x → w'.Current h x := fun hcur =>
    hcur.update (hcur.coro_ne hidle) hcoros
  refine ⟨?_, ?_, ?_, ?_, ?_, ?_, ?_⟩
  · -- the field written is that of the new wait, the others are as before
    intro t f h hreg
    rw [← hw'] at hreg
    change (update w.socks s _ t).ahd f = some h at hreg
    by_cases ht : t = s
    · subst ht
      rw [update_self] at hreg
      by_cases hf : f = op.field
      · subst hf
        cases (update_self ..).symm.trans hreg
        exact ⟨_, hnew, rfl, rfl⟩
      · obtain ⟨x, hcur, hx⟩ := hj.fields t f h ((update_of_ne hf ..).symm.trans hreg)
        exact ⟨x, hold hcur, hx⟩
    · rw [update_of_ne ht] at hreg
      obtain ⟨x, hcur, hx⟩ := hj.fields t f h hreg
      exact ⟨x, hold hcur, hx⟩
  · -- a timer set for the wait is its own
    intro p hp h hh
    rw [← hw'] at hp hh
    rcases hpairs p hp h hh with ⟨hp, hh⟩ | ⟨rfl, htimer⟩
    · obtain ⟨x, hcur, hx⟩ := hj.timers p hp h hh
      exact ⟨x, hold hcur, hx⟩
    · exact ⟨_, hnew, htimer⟩
  · intro h hh
    rw [← hw'] at hh
    obtain ⟨x, hcur⟩ := hj.handlers h hh
    exact ⟨x, hold hcur⟩
  · rw [← hw']
    exact hj.handlers_nodup
  · intro h hh
    rw [← hw'] at hh
    -- the count of a coroutine does not change here
    have hlt := hj.resumed h hh
    rw [hcoros]
    by_cases hc : h.coro = c
    · rw [hc] at hlt ⊢
      rw [update_self]
      exact hlt
    · rw [update_of_ne hc]
      exact hlt
  · rw [← hw']
    exact hj.nodup
  · rw [← hw']
    exact hexact

/-- An operation of user code: the timer that gets a due time has no handle. -/
theorem Joint.timerOp (hj : w.Joint) {op : TimeoutOp} {handle : UInt64 → Option Handle}
    (hrun : op.run w.timeout = .ok timeout)
    (hnew : ∀ i, op.scheduled w.timeout = some i → handle i = none)
    (hold : ∀ i, op.scheduled w.timeout ≠ some i → handle i = w.handle i) :
    Joint { w with timeout := timeout, handle := handle } := by
  obtain ⟨hexact, -, -, hpairs⟩ := hj.exact.step hrun
  refine hj.setTimers hexact fun p hp h hh => ?_
  rw [hpairs] at hp
  rcases hj.exact.mem_pairs_cases hp with hsched | ⟨hp, hother⟩
  · cases (hnew p.2 hsched).symm.trans hh
  · exact ⟨hp, (hold p.2 hother).symm.trans hh⟩

theorem Joint.timer (hj : w.Joint) {op : TimeoutOp} (ht : w.timer op = some w') : w'.Joint := by
  cases op with
  | infraTimeoutEvents now => cases ht
  | appSetTimeout ms now =>
    simp only [CoroWorld.timer] at ht
    split at ht
    · cases ht
    rename_i timeout id hset
    cases ht
    have hrun : (TimeoutOp.appSetTimeout ms now).run w.timeout = .ok timeout :=
      congrArg (Except.map Prod.fst) hset
    refine hj.timerOp hrun (fun i hi => ?_) fun i hi => ?_
    · obtain ⟨hnone, heq⟩ := Option.ite_none_right_eq_some.mp hi
      cases heq
      rw [if_pos hnone, update_self]
    · split
      · rename_i hnone
        refine update_of_ne ?_ ..
        rintro rfl
        exact hi (if_pos hnone)
      · rfl
  | appClearTimeout id | appTimeoutDestructor id =>
    simp only [CoroWorld.timer] at ht
    split at ht
    · cases ht
    obtain ⟨timeout, hrun, rfl⟩ := Option.map_eq_some_iff.mp ht
    exact hj.timerOp (toOption_eq_some hrun) nofun fun _ _ => rfl
  | appRefresh id now =>
    simp only [CoroWorld.timer] at ht
    split at ht
    · cases ht
    rename_i hnone
    obtain ⟨timeout, hrun, rfl⟩ := Option.map_eq_some_iff.mp ht
    refine hj.timerOp (toOption_eq_some hrun) (fun i hi => ?_) fun _ _ => rfl
    cases (Option.ite_none_right_eq_some.mp hi).2
    simpa using hnone

theorem Joint.await (hj : w.Joint) {call : AwaitCall} {now : UInt64}
    (ha : w.await c s call now = some w') : w'.Joint := by
  unfold CoroWorld.await at ha
  split at ha
  · cases ha
  rename_i hidle
  have hidle : (w.coros c).waits = none := by simpa using hidle
  split at ha
  · cases ha
  · cases ha
    exact hj.setData s _
  · split at ha
    · cases ha
      exact hj.register hidle hj.exact (fun p hp h hh => .inl ⟨hp, hh⟩) s _ _
    · rename_i ms hperiod
      obtain ⟨⟨w₁, id⟩, hset, rfl⟩ := Option.map_eq_some_iff.mp ha
      unfold setTimeoutForAction at hset
      split at hset
      · cases hset
      rename_i timeout id' hset'
      cases hset
      obtain ⟨r, hr, -, hid, -⟩ := TimeoutManager.appSetTimeout_eq (m := w.timeout) ms now
      cases hset'.symm.trans hr
      have hrun : (TimeoutOp.appSetTimeout ms now).run w.timeout = .ok timeout :=
        congrArg (Except.map Prod.fst) hset'
      obtain ⟨hexact, -, -, hpairs⟩ := hj.exact.step hrun
      refine hj.register hidle hexact (fun p hp h hh => ?_) s _ _
      rw [hpairs] at hp
      rcases hj.exact.mem_pairs_cases hp with hsched | ⟨hp, hother⟩
      · obtain ⟨hnone, heq⟩ := Option.ite_none_right_eq_some.mp hsched
        rw [if_pos hnone] at hh hid
        rw [← Option.some.inj heq, update_self] at hh
        cases hh
        exact .inr ⟨rfl, (congrArg some hid).trans heq⟩
      · refine .inl ⟨hp, ?_⟩
        split at hh
        · rename_i hnone
          rwa [update_of_ne] at hh
          intro heq
          exact hother ((if_pos hnone).trans (congrArg some heq.symm))
        · exact hh

/-! ## Steps that take a handle -/

/-- The handle is current and registered nowhere. -/
structure Taken (w : CoroWorld) (h : Handle) : Prop where
  current : ∃ x, w.Current h x
  fields : ∀ s f, (w.socks s).ahd f ≠ some h
  handlers : h ∉ w.handlers

theorem take_ahd {f : HandleField} {data : SocketData} {t : Nat} {g : HandleField}
    (hreg : ((w.take s f data cause).1.socks t).ahd g = some h) :
    (w.socks t).ahd g = some h ∧ ¬(t = s ∧ g = f) := by
  change (update w.socks s _ t).ahd g = some h at hreg
  by_cases ht : t = s
  · subst ht
    rw [update_self] at hreg
    by_cases hg : g = f
    · subst hg
      cases (update_self ..).symm.trans hreg
    · exact ⟨(update_of_ne hg ..).symm.trans hreg, fun h => hg h.2⟩
  · rw [update_of_ne ht] at hreg
    exact ⟨hreg, fun h => ht h.1⟩

theorem Joint.take (hj : w.Joint) (hnone : w.handlers = []) (s : Nat) (f : HandleField)
    (data : SocketData) (cause : Cause) :
    (w.take s f data cause).1.Joint ∧
      ∀ r ∈ (w.take s f data cause).2, (w.take s f data cause).1.Taken r.1 := by
  refine ⟨⟨?_, hj.timers, hj.handlers, hj.handlers_nodup, hj.resumed, hj.nodup, hj.exact⟩, ?_⟩
  · intro t g h hreg
    exact hj.fields t g h (take_ahd hreg).1
  · intro r hr
    obtain ⟨h, hreg, rfl⟩ := Option.map_eq_some_iff.mp hr
    obtain ⟨x, hcur, hsock, hfield⟩ := hj.fields s f h hreg
    refine ⟨⟨x, hcur⟩, fun t g hreg' => ?_, by show h ∉ w.handlers; rw [hnone]; simp⟩
    obtain ⟨hreg', hother⟩ := take_ahd hreg'
    obtain ⟨x', hcur', hsock', hfield'⟩ := hj.fields t g h hreg'
    obtain ⟨-, rfl⟩ := hcur.eq hcur' rfl
    exact hother ⟨hsock'.symm.trans hsock, hfield'.symm.trans hfield⟩

/-- The timers that are due give up their handles, no two of them the same one. -/
theorem Joint.timeoutEvents (hj : w.Joint) {now : UInt64} {ids : List UInt64}
    (hfire : w.timeout.infraTimeoutEvents now = .ok (timeout, ids)) :
    Joint { w with timeout := timeout, handlers := ids.filterMap w.handle } := by
  have hrun : (TimeoutOp.infraTimeoutEvents now).run w.timeout = .ok timeout :=
    congrArg (Except.map Prod.fst) hfire
  obtain ⟨hexact, -, -, hrest⟩ := hj.exact.step hrun
  obtain ⟨m, hm, -⟩ := hj.exact.infraTimeoutEvents_eq now
  have hids : ids = (w.timeout.nextTimeouts.takeWhile (·.1 ≤ now)).map Prod.snd :=
    (Prod.mk.inj (Except.ok.inj (hfire.symm.trans hm))).2
  have hkept : ∀ p ∈ timeout.nextTimeouts, p ∈ w.timeout.nextTimeouts := by
    intro p hp
    rw [hrest] at hp
    exact (List.dropWhile_sublist _).subset hp
  have hcurrent : ∀ id ∈ ids, ∀ h, w.handle id = some h →
      ∃ x, w.Current h x ∧ x.timer = some id := by
    intro id hid h hh
    rw [hids] at hid
    obtain ⟨p, hp, rfl⟩ := List.mem_map.mp hid
    exact hj.timers p ((List.takeWhile_sublist _).subset hp) h hh
  refine ⟨hj.fields, fun p hp => hj.timers p (hkept p hp), ?_, ?_, hj.resumed, hj.nodup,
    hexact⟩
  · intro h hh
    obtain ⟨id, hid, hh⟩ := List.mem_filterMap.mp hh
    obtain ⟨x, hcur, -⟩ := hcurrent id hid h hh
    exact ⟨x, hcur⟩
  · have hnodup : ids.Nodup := by
      rw [hids]
      exact hj.exact.paired.nodup.sublist ((List.takeWhile_sublist _).map Prod.snd)
    refine List.pairwise_filterMap.mpr (hnodup.imp_of_mem fun {id id'} hid hid' hne => ?_)
    rintro h hh h' hh' rfl
    obtain ⟨x, hcur, htimer⟩ := hcurrent id hid h hh
    obtain ⟨x', hcur', htimer'⟩ := hcurrent id' hid' h hh'
    obtain ⟨-, rfl⟩ := hcur.eq hcur' rfl
    exact hne (Option.some.inj (htimer.symm.trans htimer'))

/-- The next handler is run; its handle must not be registered any more. -/
theorem Joint.fire (hj : w.Joint) {handlers : List Handle} (hhandlers : w.handlers = h :: handlers)
    (hfree : w.registered h = false) :
    Joint { w with handlers := handlers } ∧ Taken { w with handlers := handlers } h := by
  have hnodup := hj.handlers_nodup
  rw [hhandlers, List.nodup_cons] at hnodup
  obtain ⟨x, hcur⟩ := hj.handlers h (by rw [hhandlers]; exact List.mem_cons_self)
  refine ⟨⟨hj.fields, hj.timers, fun h' hh' => ?_, hnodup.2, hj.resumed, hj.nodup, hj.exact⟩,
    ⟨x, hcur⟩, fun t f hreg => ?_, hnodup.1⟩
  · exact hj.handlers h' (by rw [hhandlers]; exact List.mem_cons_of_mem _ hh')
  · obtain ⟨x', hcur', rfl, rfl⟩ := hj.fields t f h hreg
    simp [registered, hcur'.1, show (w.socks x'.sock).ahd x'.op.field = some h from hreg] at hfree

/-- The step lemma for what comes before a resumption. -/
theorem Joint.event (hj : w.Joint) (hguard : w.LeavesNoHandle a)
    {p : CoroWorld × Option (Handle × Cause)} (he : w.event a = some p) :
    p.1.Joint ∧ ∀ r ∈ p.2, p.1.Taken r.1 := by
  have hnone : ∀ w', p = (w', none) → w'.Joint → p.1.Joint ∧ ∀ r ∈ p.2, p.1.Taken r.1 := by
    rintro w' rfl hj'
    exact ⟨hj', fun r hr => by cases hr⟩
  have hidle : ¬(¬w.handlers.isEmpty) → w.handlers = [] := by simp
  cases a with
  | await c s call now =>
    obtain ⟨w', ha, rfl⟩ := Option.map_eq_some_iff.mp he
    exact hnone w' rfl (hj.await ha)
  | sock s call =>
    simp only [CoroWorld.event] at he
    split at he
    · cases he
      exact hnone _ rfl (hj.setData s _)
    · cases he
  | timer op =>
    obtain ⟨w', ht, rfl⟩ := Option.map_eq_some_iff.mp he
    exact hnone w' rfl (hj.timer ht)
  | readEvent s os =>
    simp only [CoroWorld.event] at he
    split at he
    · cases he
    rename_i hempty
    split at he
    · cases he
    · cases he
      -- the reader that waits is resumed
      exact hj.take (hidle hempty) s .read _ _
    · cases he
      exact hnone _ rfl (hj.setData s _)
  | writeEvent s os =>
    simp only [CoroWorld.event] at he
    split at he
    · cases he
    rename_i hempty
    split at he
    · cases he
    · cases he
      -- the connection is made
      exact hj.take (hidle hempty) s .connect _ _
    · cases he
      exact hj.take (hidle hempty) s .drain _ _
    · cases he
      exact hnone _ rfl (hj.setData s _)
  | release s f =>
    simp only [CoroWorld.event] at he
    split at he
    · cases he
    · rename_i hempty
      cases he
      exact hj.take (hidle fun h => hempty (.inl h)) s f _ _
  | timeoutEvents now =>
    simp only [CoroWorld.event] at he
    split at he
    · cases he
    split at he
    · cases he
    · rename_i timeout ids hfire
      cases he
      exact hnone _ rfl (hj.timeoutEvents hfire)
  | fire =>
    have hres : w.resumption .fire = p.2 := by rw [resumption, he, Option.bind_some]
    simp only [CoroWorld.event] at he
    split at he
    · cases he
    rename_i h handlers hhandlers
    cases he
    obtain ⟨hj', htaken⟩ := hj.fire hhandlers (hguard (h, .timeout) hres rfl)
    exact ⟨hj', fun r hr => by cases hr; exact htaken⟩

/-! ## The resumption -/

theorem resume_suspended (hwaits : (w.coros h.coro).waits = some x)
    (hr : w.resume h cause = some w') :
    ∃ timeout data, clearAwait w.timeout x.timer = .ok timeout ∧
      awaitResume (w.socks x.sock).data (cause.mark (w.coros h.coro).edata) x = .ok data ∧
      w' = { w.setData x.sock data with
        coros := update w.coros h.coro
          ⟨cause.mark (w.coros h.coro).edata, none, (w.coros h.coro).count + 1⟩
        timeout := timeout
        resumed := w.resumed ++ [h]
        ended := w.ended ++ [{
          coro := h.coro
          susp := (w.coros h.coro).count
          failed := cause == .failed && h.susp == (w.coros h.coro).count
          delivered := (cause.mark (w.coros h.coro).edata).isException
          timed := x.timer.isSome }] } := by
  simp only [CoroWorld.resume, hwaits] at hr
  split at hr
  · rename_i timeout data htimeout hdata
    cases hr
    exact ⟨timeout, data, htimeout, hdata, rfl⟩
  · cases hr

/-- The timer of the await that is over has no pair any more. -/
theorem clearAwait_pairs {m m' : TimeoutManager} (hexact : m.Exact) {timer : Option UInt64}
    (hclear : clearAwait m timer = .ok m') :
    m'.Exact ∧ ∀ p ∈ m'.nextTimeouts, p ∈ m.nextTimeouts ∧ timer ≠ some p.2 := by
  cases timer with
  | none =>
    cases hclear
    exact ⟨hexact, fun p hp => ⟨hp, by simp⟩⟩
  | some id =>
    obtain ⟨m₁, hclear₁, rfl⟩ := map_eq_ok hclear
    have hrun : (TimeoutOp.appClearTimeout id).run m = .ok m₁ := hclear₁
    have hdestruct : (TimeoutOp.appTimeoutDestructor id).run m₁ =
      .ok (m₁.appTimeoutDestructor id) := rfl
    obtain ⟨hexact₁, -, hentry, hpairs⟩ := hexact.step hrun
    obtain ⟨hexact', -, -, hsame⟩ := hexact₁.step hdestruct
    refine ⟨hexact', fun p hp => ?_⟩
    rw [hsame] at hp
    change p ∈ m₁.nextTimeouts at hp
    constructor
    · rw [hpairs] at hp
      rcases hexact.mem_pairs_cases hp with hsched | ⟨hp, -⟩
      · cases hsched
      · exact hp
    · rintro ⟨⟩
      obtain ⟨e, he, hactive, -⟩ := hexact₁.paired.active p hp
      rw [hentry] at he
      obtain ⟨e₀, -, rfl⟩ := Option.map_eq_some_iff.mp ((if_pos rfl).symm.trans he)
      cases hactive

/-- A current handle that is registered nowhere can be resumed. -/
theorem Joint.resume (hj : w.Joint) (htaken : w.Taken h) (hr : w.resume h cause = some w') :
    w'.Joint := by
  obtain ⟨x, hcur⟩ := htaken.current
  obtain ⟨timeout, data, hclear, -, rfl⟩ := resume_suspended hcur.1 hr
  obtain ⟨hexact, hpairs⟩ := clearAwait_pairs hj.exact hclear
  generalize hw' : ({ w.setData x.sock data with
    coros := update w.coros h.coro _, timeout := _, resumed := _, ended := _ } : CoroWorld) = w'
  have hcoros : w'.coros = update w.coros h.coro
      ⟨cause.mark (w.coros h.coro).edata, none, (w.coros h.coro).count + 1⟩ := by
    rw [← hw']
  -- another handle is that of another coroutine
  have hold : ∀ {h' x'}, w.Current h' x' → (h' = h → x' = x → False) → w'.Current h' x' :=
    fun hcur' hne => hcur'.update (fun hc => hne (hcur.eq hcur' hc).1 (hcur.eq hcur' hc).2) hcoros
  refine ⟨?_, ?_, ?_, ?_, ?_, ?_, ?_⟩
  · intro t f h' hreg
    rw [← hw'] at hreg
    have hreg : (w.socks t).ahd f = some h' := by simpa using hreg
    obtain ⟨x', hcur', hx'⟩ := hj.fields t f h' hreg
    exact ⟨x', hold hcur' fun heq _ => htaken.fields t f (heq ▸ hreg), hx'⟩
  · intro p hp h' hh'
    rw [← hw'] at hp hh'
    obtain ⟨hp, htimer⟩ := hpairs p hp
    obtain ⟨x', hcur', hx'⟩ := hj.timers p hp h' hh'
    exact ⟨x', hold hcur' fun _ heq => htimer (heq ▸ hx'), hx'⟩
  · intro h' hh'
    rw [← hw'] at hh'
    obtain ⟨x', hcur'⟩ := hj.handlers h' hh'
    exact ⟨x', hold hcur' fun heq _ => htaken.handlers (heq ▸ hh')⟩
  · rw [← hw']
    exact hj.handlers_nodup
  · intro h' hh'
    rw [← hw'] at hh'
    rw [hcoros]
    rcases List.mem_append.mp hh' with hh' | hh'
    · have hlt := hj.resumed h' hh'
      by_cases hc : h'.coro = h.coro
      · rw [hc, update_self]
        rw [hc] at hlt
        exact Nat.lt_succ_of_lt hlt
      · rw [update_of_ne hc]
        exact hlt
    · cases List.mem_singleton.mp hh'
      rw [update_self]
      exact Nat.lt_succ_of_le hcur.2.ge
  · rw [← hw']
    refine List.nodup_append.mpr ⟨hj.nodup, List.nodup_singleton h, ?_⟩
    rintro h' hh' h'' hh'' rfl
    cases List.mem_singleton.mp hh''
    exact absurd hcur.2 (hj.resumed h hh').ne'
  · rw [← hw']
    exact hexact

/-! ## Steps and runs -/

theorem step_cases (hs : coroutines.step w a = some w') :
    ∃ w₁ r, w.event a = some (w₁, r) ∧
      ((r = none ∧ w' = w₁) ∨ ∃ h cause, r = some (h, cause) ∧ w₁.resume h cause = some w') := by
  obtain ⟨⟨w₁, r⟩, he, hs⟩ := Option.bind_eq_some_iff.mp hs
  refine ⟨w₁, r, he, ?_⟩
  cases r with
  | none =>
    cases hs
    exact .inl ⟨rfl, rfl⟩
  | some r => exact .inr ⟨r.1, r.2, rfl, hs⟩

theorem Joint.step (hj : w.Joint) (hguard : w.LeavesNoHandle a)
    (hs : coroutines.step w a = some w') : w'.Joint := by
  obtain ⟨w₁, r, he, ⟨rfl, rfl⟩ | ⟨h, cause, rfl, hr⟩⟩ := step_cases hs
  · exact (hj.event hguard he).1
  · obtain ⟨hj₁, htaken⟩ := hj.event hguard he
    exact hj₁.resume (htaken _ rfl) hr

def start (data : Nat → SocketData) : CoroWorld where
  socks s := { data := data s }

theorem Joint.start (data : Nat → SocketData) : (start data).Joint where
  fields _ _ _ hreg := by cases hreg
  timers _ hp := by cases hp
  handlers _ hh := by cases hh
  handlers_nodup := .nil
  resumed _ hh := by cases hh
  nodup := .nil
  exact := .init

/-- The run lemma. -/
theorem Joint.run {data : Nat → SocketData} {acts : List CoroAct}
    (hobeys : coroutines.obeys LeavesNoHandle (CoroWorld.start data) acts)
    (hrun : coroutines.run (CoroWorld.start data) acts = some w) : w.Joint :=
  coroutines.run_invariant (fun _ _ _ hj hguard hs => hj.step hguard hs) (.start data) hobeys hrun

end CoroWorld

end NodeCpp
