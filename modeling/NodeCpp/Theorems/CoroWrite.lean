import NodeCpp.Coro.Joint

/-!
# When a_write completes

`a_write` suspends its coroutine when `write2` returns false, with the handle in
`ahd_write.h`. The write event that sends the last byte runs `rrOnDrain`, which
resumes the handle in `ahd_drain`; nothing but the close event of the socket looks
at `ahd_write.h`.

* `sendsAtOnce` -- the calls for which `write2` returns true.
* `aWrite_completes_iff` -- these and no others complete.
* `aWrite_hangs` -- a partial send, and the event that sends the rest.
-/

namespace NodeCpp

open Lib

open Function CoroWorld NetSocketManagerBase

/-- The condition: the sending side has not ended, and the data go to the kernel at once if nothing
waits before them, or fit behind what does. -/
def sendsAtOnce (d : SocketData) (buff : List UInt8) (os : SendReply) : Prop :=
  ¬(d.state = .LocalEnding ∨ d.state = .LocalEnded) ∧
    if d.writeBuffer.contents = [] then os.takesAll buff.length
    else buff.length ≤ d.writeBuffer.remainingCapacity

instance (d : SocketData) (buff : List UInt8) (os : SendReply) :
    Decidable (sendsAtOnce d buff os) :=
  inferInstanceAs (Decidable (_ ∧ _))

/-- The coroutine does not wait, and its handle is not in `ahd_write.h`. -/
def Completed (w : CoroWorld) (c s : Nat) : Prop :=
  (w.coros c).waits = none ∧ ∀ h, (w.socks s).ahd .write = some h → h.coro ≠ c

theorem appWrite2_true_iff {d : SocketData} {buff : List UInt8} {os : SendReply} {writeOk : Bool}
    (h : (appWrite2 d buff os).res = .ok writeOk) :
    writeOk = true ↔ sendsAtOnce d buff os := by
  unfold appWrite2 at h
  unfold sendsAtOnce
  split at h
  · cases h
  split at h
  · rename_i hended
    cases h
    simp [hended]
  · rename_i hended
    by_cases hempty : d.writeBuffer.contents = []
    · rw [if_pos (Fifo.usedSize_eq_zero.mpr hempty)] at h
      rw [if_pos hempty, ← internalSendPacket_takesAll]
      unfold writeToEmpty at h
      dsimp only at h
      split at h
      · rename_i hfailed
        cases h
        simp [hfailed]
      · rename_i hfailed
        split at h
        · rename_i hall
          cases h
          exact iff_of_true rfl ⟨hended, hfailed, hall⟩
        · rename_i hpart
          cases h
          exact iff_of_false (by simp) fun hsent => hpart hsent.2.2
    · rw [if_neg (fun hz => hempty (Fifo.usedSize_eq_zero.mp hz))] at h
      rw [if_neg hempty]
      split at h
      · rename_i hroom
        cases h
        exact iff_of_true rfl ⟨hended, hroom⟩
      · rename_i hroom
        split at h
        · cases h
        · cases h
          exact iff_of_false (by simp) fun hsent => hroom hsent.2

/-! ## The events -/

variable {w w' : CoroWorld} {c s : Nat}

/-- Nothing but `ahd_write.h` holds a handle of the coroutine on the socket. -/
def OnlyWrite (w : CoroWorld) (c s : Nat) : Prop :=
  ∀ f h, (w.socks s).ahd f = some h → f ≠ .write → h.coro ≠ c

theorem resume_other {h : Handle} {cause : Cause} (hr : w.resume h cause = some w')
    (hne : h.coro ≠ c) :
    w'.coros c = w.coros c ∧ ∀ t, (w'.socks t).ahd = (w.socks t).ahd := by
  unfold CoroWorld.resume at hr
  dsimp only at hr
  split at hr
  · cases hr
    exact ⟨update_of_ne hne.symm .., fun _ => rfl⟩
  · split at hr
    · cases hr
      exact ⟨update_of_ne hne.symm .., fun t => setData_ahd w _ t _⟩
    · cases hr

/-- What a write event does before it resumes somebody: it takes at most the handle of a connect or
of a drain. -/
theorem writeEvent_takes {os : WriteEventReplies} {r : Option (Handle × Cause)}
    (he : w.event (.writeEvent s os) = some (w', r)) :
    w'.coros = w.coros ∧ (w'.socks s).ahd .write = (w.socks s).ahd .write ∧
      (∀ f h, (w'.socks s).ahd f = some h → (w.socks s).ahd f = some h) ∧
      ∀ h cause, r = some (h, cause) → ∃ f, f ≠ .write ∧ (w.socks s).ahd f = some h := by
  have htake : ∀ (f : HandleField) (data : SocketData) (cause : Cause), f ≠ .write →
      w.take s f data cause = (w', r) →
      w'.coros = w.coros ∧ (w'.socks s).ahd .write = (w.socks s).ahd .write ∧
        (∀ f h, (w'.socks s).ahd f = some h → (w.socks s).ahd f = some h) ∧
        ∀ h cause, r = some (h, cause) → ∃ f, f ≠ .write ∧ (w.socks s).ahd f = some h := by
    intro f data cause hf heq
    obtain rfl : (w.take s f data cause).1 = w' := congrArg Prod.fst heq
    obtain rfl : (w.take s f data cause).2 = r := congrArg Prod.snd heq
    refine ⟨rfl, ?_, fun g h hreg => (take_ahd hreg).1, fun h cause' hr => ?_⟩
    · simp [take, update_of_ne hf.symm]
    · obtain ⟨h', hreg, heq⟩ := Option.map_eq_some_iff.mp hr
      cases heq
      exact ⟨f, hf, hreg⟩
  simp only [event] at he
  split at he
  · cases he
  split at he
  · cases he
  · exact htake .connect _ _ (by decide) (Option.some.inj he)
  · exact htake .drain _ _ (by decide) (Option.some.inj he)
  · cases he
    exact ⟨rfl, by rw [setData_ahd], fun f h hreg => by rwa [setData_ahd] at hreg,
      fun h cause hr => by cases hr⟩

theorem writeEvent_keeps {os : WriteEventReplies} (honly : OnlyWrite w c s)
    (hs : coroutines.step w (.writeEvent s os) = some w') :
    OnlyWrite w' c s ∧ w'.coros c = w.coros c ∧
      (w'.socks s).ahd .write = (w.socks s).ahd .write := by
  obtain ⟨w₁, r, he, hcases⟩ := step_cases hs
  obtain ⟨hcoros, hwrite, hfields, htaken⟩ := writeEvent_takes he
  have honly₁ : OnlyWrite w₁ c s := fun f h hreg => honly f h (hfields f h hreg)
  obtain ⟨rfl, rfl⟩ | ⟨h, cause, rfl, hr⟩ := hcases
  · exact ⟨honly₁, by rw [hcoros], hwrite⟩
  · obtain ⟨f, hf, hreg⟩ := htaken h cause rfl
    obtain ⟨hsame, hahd⟩ := resume_other hr (honly f h hreg hf)
    refine ⟨fun g h' hreg' => honly₁ g h' ?_, by rw [hsame, hcoros], ?_⟩
    · rw [← hahd s]
      exact hreg'
    · rw [hahd s]
      exact hwrite

theorem writeEvents_keep {events : List WriteEventReplies} (honly : OnlyWrite w c s)
    (hrun : coroutines.run w (events.map (.writeEvent s)) = some w') :
    w'.coros c = w.coros c ∧ (w'.socks s).ahd .write = (w.socks s).ahd .write := by
  induction events generalizing w with
  | nil =>
    cases hrun
    exact ⟨rfl, rfl⟩
  | cons os events ih =>
    obtain ⟨w₁, hs, hrest⟩ := coroutines.run_cons hrun
    obtain ⟨honly₁, hcoro, hwrite⟩ := writeEvent_keeps honly hs
    obtain ⟨hcoro', hwrite'⟩ := ih honly₁ hrest
    exact ⟨hcoro'.trans hcoro, hwrite'.trans hwrite⟩

theorem await_write {buff : List UInt8} {os : SendReply} {now : UInt64}
    (ha : coroutines.step w (.await c s (.write buff os) now) = some w') :
    (w.coros c).waits = none ∧ ∃ data,
      if sendsAtOnce (w.socks s).data buff os then w' = w.setData s data
      else w' = w.register c s data .write none := by
  obtain ⟨w₁, r, he, hcases⟩ := step_cases ha
  obtain ⟨w₂, ha, heq⟩ := Option.map_eq_some_iff.mp he
  cases heq
  obtain ⟨-, rfl⟩ | ⟨h, cause, hr, -⟩ := hcases
  swap
  · cases hr
  unfold CoroWorld.await at ha
  split at ha
  · cases ha
  rename_i hidle
  refine ⟨by simpa using hidle, ?_⟩
  cases hbegin : (AwaitCall.write buff os).begin (w.socks s).data
      (((w.socks s).ahd .write).map fun h => (w.coros h.coro).edata) with
  | error e =>
    rw [hbegin] at ha
    cases ha
  | ok p =>
    obtain ⟨data, op⟩ := p
    rw [hbegin] at ha
    simp only [AwaitCall.begin] at hbegin
    split at hbegin
    · cases hbegin
    obtain ⟨writeOk, hres, hbegin⟩ := bind_eq_ok hbegin
    cases hbegin
    have hsends := appWrite2_true_iff hres
    refine ⟨(appWrite2 (w.socks s).data buff os).data, ?_⟩
    cases writeOk with
    | true =>
      rw [if_pos (hsends.mp rfl)]
      cases ha
      rfl
    | false =>
      rw [if_neg (fun h => by cases hsends.mpr h)]
      cases ha
      rfl

/-- Whatever the write events send, `a_write` completes exactly if it has sent its data at once. -/
theorem aWrite_completes_iff {buff : List UInt8} {os : SendReply} {now : UInt64}
    (events : List WriteEventReplies)
    (hfree : ∀ f h, (w.socks s).ahd f = some h → h.coro ≠ c)
    (hrun : coroutines.run w
      (.await c s (.write buff os) now :: events.map (.writeEvent s)) = some w') :
    Completed w' c s ↔ sendsAtOnce (w.socks s).data buff os := by
  obtain ⟨w₁, hs, hrest⟩ := coroutines.run_cons hrun
  obtain ⟨hidle, data, hw₁⟩ := await_write hs
  by_cases hsends : sendsAtOnce (w.socks s).data buff os
  · rw [if_pos hsends] at hw₁
    subst hw₁
    have honly : OnlyWrite (w.setData s data) c s := by
      intro f h hreg _
      rw [setData_ahd] at hreg
      exact hfree f h hreg
    obtain ⟨hcoro, hwrite⟩ := writeEvents_keep honly hrest
    refine iff_of_true ⟨?_, fun h hreg => ?_⟩ hsends
    · rw [hcoro]
      exact hidle
    · rw [hwrite, setData_ahd] at hreg
      exact hfree .write h hreg
  · rw [if_neg hsends] at hw₁
    have hahd : ∀ f, f ≠ .write → (w₁.socks s).ahd f = (w.socks s).ahd f := by
      intro f hf
      rw [hw₁]
      show (update w.socks s _ s).ahd f = _
      rw [update_self]
      exact update_of_ne hf ..
    have honly : OnlyWrite w₁ c s := fun f h hreg hf => hfree f h ((hahd f hf).symm.trans hreg)
    obtain ⟨hcoro, -⟩ := writeEvents_keep honly hrest
    refine iff_of_false (fun hdone => ?_) hsends
    have hwaits := hdone.1
    rw [hcoro, hw₁] at hwaits
    change (update w.coros c _ c).waits = none at hwaits
    rw [update_self] at hwaits
    cases hwaits

/-- A socket with two bytes to send. -/
def twoHeld : SocketData := { state := .Connected, writeBuffer := { contents := [7, 8] } }

/-- The buffer is kept behind what waits, and a write event sends all of it. -/
theorem aWrite_completes :
    ∃ w', coroutines.run (start fun _ => twoHeld)
        [.await 0 1 (.write [1, 2, 3] .wouldBlock) 0,
        .writeEvent 1 { buf := { first := .sent 5 } }] =
          some w' ∧
      (w'.socks 1).data.held = [] ∧ Completed w' 0 1 := by
  obtain ⟨w', hrun, hheld⟩ : ∃ w', coroutines.run (start fun _ => twoHeld)
      [.await 0 1 (.write [1, 2, 3] .wouldBlock) 0, .writeEvent 1 { buf := { first := .sent 5 } }] =
        some w' ∧ (w'.socks 1).data.held = [] := ⟨_, rfl, rfl⟩
  exact ⟨w', hrun, hheld,
    (aWrite_completes_iff [{ buf := { first := .sent 5 } }] (fun _ _ h => by cases h) hrun).mpr
      (by decide)⟩

/-- One byte is sent by `a_write` and the other two by the write event that follows. Nothing is left
to send, and the coroutine waits. -/
theorem aWrite_hangs :
    ∃ w', coroutines.run (start fun _ => { state := .Connected })
        [.await 0 1 (.write [1, 2, 3] (.sent 1)) 0, .writeEvent 1 { buf := { first := .sent 2 } }] =
          some w' ∧
      (w'.socks 1).data.held = [] ∧ w'.resumed = [] ∧ (w'.coros 0).waits.isSome ∧
      (w'.socks 1).ahd .write = some ⟨0, 0⟩ :=
  ⟨_, rfl, rfl, rfl, rfl, rfl⟩

end NodeCpp
