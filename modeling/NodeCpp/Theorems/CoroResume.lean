import NodeCpp.Coro.Joint

/-!
# Resumptions of a suspended coroutine

A timed await registers its handle twice, with the socket and with the timers. An
event withdraws the timer, through `await_resume`; a timer that fires withdraws
nothing, and a later event resumes the coroutine once more, wherever it is by then.
-/

namespace NodeCpp

open CoroWorld

/-- Every suspension is resumed at most once, and its handle is not registered afterwards. -/
theorem resumed_once {data : Nat → SocketData} {acts : List CoroAct} {w : CoroWorld}
    (hobeys : coroutines.obeys LeavesNoHandle (start data) acts)
    (hrun : coroutines.run (start data) acts = some w) :
    w.resumed.Nodup ∧ ∀ h ∈ w.resumed, ∀ s f, (w.socks s).ahd f ≠ some h := by
  have hj : w.Joint := .run hobeys hrun
  refine ⟨hj.nodup, fun h hh s f hreg => ?_⟩
  obtain ⟨x, hcur, -⟩ := hj.fields s f h hreg
  exact absurd hcur.2 (hj.resumed h hh).ne'

/-- Two connected sockets, and nothing else. -/
def connectedSockets : CoroWorld := start fun _ => { state := .Connected }

/-- The data arrive in time: the timer has been cleared when its time comes. -/
theorem resumed_once_in_time :
    ∃ w, coroutines.run connectedSockets
        [.await 0 1 (.read (some 1000) { capacity := 1024 } 2 16) 0,
          .readEvent 1 { first := .data [1, 2] }, .timeoutEvents 2000000] = some w ∧
      w.resumed = [⟨0, 0⟩] ∧ w.resumed.Nodup ∧
      ∀ h ∈ w.resumed, ∀ s f, (w.socks s).ahd f ≠ some h := by
  obtain ⟨w, hrun, hresumed⟩ : ∃ w, coroutines.run connectedSockets
      [.await 0 1 (.read (some 1000) { capacity := 1024 } 2 16) 0,
        .readEvent 1 { first := .data [1, 2] }, .timeoutEvents 2000000] = some w ∧
      w.resumed = [⟨0, 0⟩] := ⟨_, rfl, rfl⟩
  exact ⟨w, hrun, hresumed, resumed_once (by decide) hrun⟩

/-- The read on the first socket times out; its handle stays behind, and the data that arrive
later resume the coroutine out of its await on the second socket. -/
theorem resumed_twice :
    ∃ w, coroutines.run connectedSockets
        [.await 0 1 (.read (some 1000) { capacity := 1024 } 2 16) 0,
          .timeoutEvents 2000000, .fire, .await 0 2 .someDataAvailable 2000000,
          .readEvent 1 { first := .data [1, 2] }] = some w ∧
      w.resumed = [⟨0, 0⟩, ⟨0, 0⟩] ∧ ¬w.resumed.Nodup ∧ (w.coros 0).waits = none :=
  ⟨_, rfl, rfl, by decide, rfl⟩

end NodeCpp
