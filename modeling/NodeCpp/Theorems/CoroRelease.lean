import NodeCpp.Coro.Release

/-!
# The coroutines that wait on an object that is closed

* `handles_cleared_iff` -- the fields of a socket are cleared one after the other, and each of them
  once: a coroutine that awaits the socket again is left behind unless its field is still to come.
* `http_waiters_released_iff` -- the cleanup of a connection or a server of the HTTP layer never
  looks at the fields its class has added.
-/

namespace NodeCpp

open Lib.OneShot

/-! ## Awaiting again -/

/-- `SocketBase::forceReleasingAllCoroHandles` leaves all fields null exactly if no coroutine that
it resumes awaits an operation of the socket whose field it has already passed. -/
theorem handles_cleared_iff {η σ : Type} (react : Reaction SockField η σ)
    (s : Pass SockField η σ) :
    (∀ f, (SocketBase.forceReleasingAllCoroHandles react s id).slot f = none) ↔
      FillsAhead react SockField.order s := by
  rw [SocketBase.forceReleasingAllCoroHandles, List.map_id, fireAll_empty_iff]
  exact and_iff_right fun f hf => absurd (SockField.mem_order f) hf

/-- A reader that catches the exception and reads again. -/
def readsAgain : Reaction SockField Nat Unit := fun f handle world =>
  (if f = .read then [(.read, handle)] else [], world)

/-- The coroutine 1 waits for data of the closed socket 0. -/
def closedWithReader : CoroWorld where
  socks := fun _ =>
    { data := { state := .Closed, ahdRead := some 1 }
      ahd := Function.update (fun _ => none) .read (some ⟨1, 0⟩) }
  coros := fun _ => { waits := some ⟨0, .reader (.read { capacity := 1024 } 1 100), none⟩ }

/-- The reader is resumed with the exception and waits again when the fields have been released; the
second run is one of the sockets and coroutines. -/
theorem handles_left_behind :
    (SocketBase.forceReleasingAllCoroHandles readsAgain
      (.start (fun f => if f = .read then some 1 else none) ()) id).slot .read = some ⟨1, true⟩ ∧
    ∃ w, coroutines.run closedWithReader [.release 0 .connect, .release 0 .read,
        .await 1 0 (.read none { capacity := 1024 } 1 100) 0, .release 0 .write, .release 0 .drain]
        = some w ∧
      w.ended.map AwaitEnd.threw = [true] ∧ (w.socks 0).ahd .read = some ⟨1, 1⟩ := by
  refine ⟨by decide, ?_⟩
  decide

/-! ## The fields of the HTTP layer -/

/-- Every coroutine that waits at the start of a cleanup has been resumed with an exception at its
end, and its handle is gone from its field. -/
def WaitersReleased {φ η σ : Type} (cleanup : Pass φ η σ → Pass φ η σ) (handles : φ → Option η)
    (world : σ) : Prop :=
  ∀ f handle, handles f = some handle →
    (f, { handle := handle }) ∈ (cleanup (.start handles world)).fired ∧
      (cleanup (.start handles world)).slot f ≠ some { handle := handle }

/-- The waiters of an `HttpSocketBase` are released by its cleanup exactly if its request loop is
not in `a_continueGetting`, and those of an `HttpServerBase` exactly if no coroutine is in
`a_request` or `a_close`; in both cases no coroutine resumed by the cleanup may take the place of
one that still waits. -/
theorem http_waiters_released_iff {η σ : Type} (world : σ) :
    (∀ (react : Reaction HttpSockField η σ) (handles : HttpSockField → Option η),
      WaitersReleased (HttpSocketBase.onFinalCleanup react) handles world ↔
        handles .continueGetting = none ∧
          Undisturbed react (Pass.start handles world).slot (SockField.order.map .base)
            (.start handles world)) ∧
    ∀ (react : Reaction HttpServerField η σ) (handles : HttpServerField → Option η),
      WaitersReleased (HttpServerBase.internalCleanupBeforeClosing react) handles world ↔
        (handles .request = none ∧ handles (.base .close) = none) ∧
          Undisturbed react (Pass.start handles world).slot (ServerField.order.map .base)
            (.start handles world) := by
  constructor
  · intro react handles
    have hnodup : (SockField.order.map HttpSockField.base).Nodup := by decide
    refine (fireAll_fires_iff hnodup handles world).trans (and_congr_left' ?_)
    constructor
    · intro houtside
      exact houtside .continueGetting (by decide)
    · intro hnone g hg
      cases g with
      | base f => exact absurd (List.mem_map_of_mem (SockField.mem_order f)) hg
      | continueGetting => exact hnone
  · intro react handles
    have hnodup : (ServerField.order.map HttpServerField.base).Nodup := by decide
    refine (fireAll_fires_iff hnodup handles world).trans (and_congr_left' ?_)
    constructor
    · intro houtside
      exact ⟨houtside .request (by decide), houtside (.base .close) (by decide)⟩
    · rintro ⟨hrequest, hclose⟩ g hg
      rcases g with (_ | _ | _) | _
      · exact absurd (by decide) hg
      · exact absurd (by decide) hg
      · exact hclose
      · exact hrequest

/-- The request loop in `a_continueGetting` and a coroutine in `a_request` are not resumed. -/
theorem http_waiters_left_behind :
    ¬WaitersReleased (HttpSocketBase.onFinalCleanup fun _ _ world => ([], world))
        (fun f => if f = .continueGetting then some 1 else none) () ∧
      ¬WaitersReleased (HttpServerBase.internalCleanupBeforeClosing fun _ _ world => ([], world))
        (fun f => if f = .request then some 1 else none) () := by
  constructor
  · intro h
    exact absurd (h .continueGetting 1 rfl).1 (by decide)
  · intro h
    exact absurd (h .request 1 rfl).1 (by decide)

end NodeCpp
