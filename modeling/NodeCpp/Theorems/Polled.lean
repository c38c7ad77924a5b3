import NodeCpp.Theorems.WriteEvents

/-!
# POLLOUT and the end of sending, over the calls of a socket

Two things the code relies on hold as long as no write event empties `writeBuffer` and leaves a
part of `ahd_write.b` behind: `POLLOUT` is armed only for something to do, and the sending side is
shut down only when nothing waits. `POLLOUT` needs one more condition: a socket that is connecting
must not be closed or ended while nothing waits, since only the write event disarms it.

* `SockCall.LeavesNoPart`, `SockCall.leavesConnecting` -- the calls in question.
* `PolledSocket.Polled.step`, `PolledSocket.Behind.step` -- the step lemmas.
* `pollout_has_work` -- `POLLOUT` in every state of a run.
* `shutdown_flushes_first` -- every shutdown of a run.
-/

namespace NodeCpp

open Lib NetSocketManagerBase

variable {d : SocketData} {os : WriteEventReplies}

/-! ## The calls in question -/

namespace SockCall

/-- A write event that empties `writeBuffer` does not leave a part of `ahd_write.b`. -/
def LeavesNoPart (d : SocketData) : SockCall → Prop
  | .writeEvent os =>
      d.state = .Connecting ∨ acceptedOf d os < d.writeBuffer.usedSize ∨ d.ahdWrite = [] ∨
        os.coro = .error ∨ os.coro.takesAll d.ahdWrite.length
  | _ => True

/-- A receive that closes the socket with an error; without a reader, one that would block does. -/
def receiveFails (d : SocketData) (os : NetSocketManager.ReadReplies) : Bool :=
  match d.ahdRead, os.first with
  | none, .data _ => false
  | none, _ => true
  | some _, first => decide (first = .error ∨ os.second = .error)

/-- The calls that take a connecting socket on which nothing waits out of `Connecting` and leave
`POLLOUT` armed. -/
def leavesConnecting (d : SocketData) : SockCall → Bool
  | .end_ | .destroy | .errorClose => true
  | .setOption ok => !ok
  | .write _ os | .write2 _ os => decide (os = .error)
  | .readEvent os => receiveFails d os
  | .afterRemoteEnded => !d.allowHalfOpen
  | .writeEvent os => !os.success
  | _ => false

instance (d : SocketData) : DecidablePred (LeavesNoPart d)
  | .writeEvent _ => inferInstanceAs (Decidable (_ ∨ _))
  | .write .. | .write2 .. | .end_ | .destroy | .setOption _ | .pause _ | .aRead ..
  | .aSomeDataAvailable | .aReadUntil .. | .resumed .. | .connecting | .accepted | .errorClose
  | .readEvent _ | .remoteEnded | .afterRemoteEnded | .closed => isTrue trivial

theorem not_leavesNoPart (hstate : d.state ≠ .Connecting)
    (hall : acceptedOf d os = d.writeBuffer.usedSize) (hcoro : d.ahdWrite ≠ [])
    (hreply : os.coro ≠ .error) (hpart : ¬ os.coro.takesAll d.ahdWrite.length) :
    ¬ LeavesNoPart d (.writeEvent os) := by
  rintro (hconn | hleft | hnil | herror | htakes)
  · exact hstate hconn
  · exact hleft.ne hall
  · exact hcoro hnil
  · exact hreply herror
  · exact hpart htakes

end SockCall

/-! ## What a call does to a connecting socket -/

open NetSocketManager in
theorem infraProcessReadEvent_state {os : ReadReplies} (h : SockCall.receiveFails d os = false) :
    (infraProcessReadEvent d os).data.state = d.state := by
  unfold SockCall.receiveFails at h
  unfold infraProcessReadEvent
  cases hreader : d.ahdRead with
  | none =>
    cases hfirst : os.first with
    | data bytes =>
      have hget : internalGetPacketBytes2 recvBufferCapacity (.data bytes) =
          .ok ⟨.ok, bytes.take recvBufferCapacity⟩ := rfl
      simp only [hget, if_true]
      split <;> rfl
    | wouldBlock | error => simp [hreader, hfirst] at h
  | some minSz =>
    have hok : os.first ≠ .error ∧ os.second ≠ .error := by
      simpa [hreader] using h
    cases hget : infraGetPacketBytes2 d.readBuffer os minSz with
    | error e => simp only [hget]
    | ok x =>
      obtain ⟨⟨readBuffer, r⟩, hread, hx⟩ := bind_eq_ok hget
      cases hx
      have hret := CircularByteBuffer.read_ret_ne_failed hok.1 hok.2 hread
      have hreadOk : (r.ret == .ok || r.ret == .pending) = true := by
        cases hr : r.ret <;> simp_all
      simp only [hget, readEventReceived, hreadOk, Bool.not_true, Bool.false_eq_true, if_false]
      repeat' split
      all_goals rfl

theorem ofCoro_state {x : Except Failure CoroStep} (h : ∀ s, x = .ok s → SocketBase.ReadsOnly d s) :
    (SockStep.ofCoro d x).data.state = d.state := by
  cases x with
  | error e => rfl
  | ok s =>
    obtain ⟨readBuffer, ahdRead, heq⟩ := h s rfl
    show s.data.state = d.state
    rw [heq]

theorem connecting_stays {c : SockCall} (hstate : d.state = .Connecting)
    (hc : c.isWriteEvent = false) (hopen : c ≠ .closed) (hleaves : c.leavesConnecting d = false) :
    (c.run d).data.state = .Connecting := by
  have hvalid : d.isValid = true := by simp [SocketData.isValid, hstate]
  cases c with
  | write data os =>
    have hok : (SockCall.write data os).isWrite = true :=
      decide_eq_true (of_decide_eq_false hleaves)
    exact (write_connecting hstate hok).1
  | write2 buff os =>
    have hok : (SockCall.write2 buff os).isWrite = true :=
      decide_eq_true (of_decide_eq_false hleaves)
    exact (write_connecting hstate hok).1
  | end_ => cases hleaves
  | destroy => cases hleaves
  | setOption ok =>
    cases ok with
    | false => cases hleaves
    | true => simpa [SockCall.run, OSLayer.appSetOption, hvalid] using hstate
  | pause paused => exact hstate
  | aRead buff minBytes maxBytes =>
    exact (ofCoro_state fun s => SocketBase.aRead_readsOnly).trans hstate
  | aSomeDataAvailable =>
    simp only [SockCall.run, SocketBase.aSomeDataAvailable, SockStep.done]
    split <;> exact hstate
  | aReadUntil b what =>
    exact (ofCoro_state fun s => SocketBase.readUntilLoop_readsOnly).trans hstate
  | resumed w failed =>
    exact (ofCoro_state fun s => SocketBase.resume_readsOnly).trans hstate
  | connecting => simp [SockCall.run, hstate]
  | accepted => simp [SockCall.run, hstate]
  | errorClose => cases hleaves
  | readEvent os => exact (infraProcessReadEvent_state hleaves).trans hstate
  | remoteEnded =>
    simp only [SockCall.run, NetSocketManager.infraProcessRemoteEnded]
    split <;> exact hstate
  | afterRemoteEnded =>
    have hhalf : d.allowHalfOpen = true := by simpa [SockCall.leavesConnecting] using hleaves
    simp [SockCall.run, NetSocketManager.afterRemoteEnded, SockStep.done, hstate, hhalf]
  | writeEvent os => cases hc
  | closed => exact absurd rfl hopen

/-! ## POLLOUT -/

theorem afterAccepted_ne_nil (h : acceptedOf d os < d.writeBuffer.usedSize) :
    (afterAccepted d os).writeBuffer.contents ≠ [] := by
  rw [afterAccepted_contents, ne_eq, List.drop_eq_nil_iff]
  exact Nat.not_le.mpr h

theorem afterAccepted_eq_nil (h : acceptedOf d os = d.writeBuffer.usedSize) :
    (afterAccepted d os).writeBuffer.contents = [] := by
  rw [afterAccepted_contents, List.drop_eq_nil_iff]
  exact h.ge

namespace PolledSocket

@[simp] theorem after_data (s : PolledSocket) (c : SockCall) :
    (s.after c).data = (c.run s.data).data := by
  cases c <;> rfl

/-- `POLLOUT` is armed for a connection to be completed or for bytes to be sent. -/
def Polled (s : PolledSocket) : Prop :=
  s.associated = true → s.pollout = true →
    s.data.state = .Connecting ∨ s.data.writeBuffer.contents ≠ []

def KeepsPolled (s : PolledSocket) (c : SockCall) : Prop :=
  (s.data.state = .Connecting → s.data.writeBuffer.contents = [] →
      c.leavesConnecting s.data = false) ∧
    c.LeavesNoPart s.data

instance (s : PolledSocket) (c : SockCall) : Decidable (s.KeepsPolled c) :=
  inferInstanceAs (Decidable (_ ∧ _))

variable {s s' : PolledSocket} {c : SockCall}

theorem Polled.call (h : s.Polled) (hc : c.isWriteEvent = false) (hopen : c ≠ .closed)
    (hkeeps : s.KeepsPolled c) (hassoc : s.associated = true)
    (hpollout : polloutAfter s.pollout (c.run s.data).fx = true) :
    (c.run s.data).data.state = .Connecting ∨ (c.run s.data).data.writeBuffer.contents ≠ [] := by
  have hout := SockCall.run_outgoing s.data hc
  rcases hout.pollout s.pollout with hsame | ⟨-, hne⟩
  · rw [hsame] at hpollout
    by_cases hempty : s.data.writeBuffer.contents = []
    · have hstate := (h hassoc hpollout).resolve_right (not_not.mpr hempty)
      exact .inl (connecting_stays hstate hc hopen (hkeeps.1 hstate hempty))
    · exact .inr (hout.ne_nil hempty)
  · exact .inr hne

theorem Polled.writeEvent (h : s.Polled) (hkeeps : s.KeepsPolled (.writeEvent os))
    (hassoc : s.associated = true)
    (hpollout : polloutAfter s.pollout (infraProcessWriteEvent s.data os).fx = true) :
    (infraProcessWriteEvent s.data os).data.state = .Connecting ∨
      (infraProcessWriteEvent s.data os).data.writeBuffer.contents ≠ [] := by
  obtain ⟨hleaves, hparts⟩ := hkeeps
  have hways := infraProcessWriteEvent_writesAs s.data os
  generalize infraProcessWriteEvent s.data os = r at hways hpollout ⊢
  cases hways with
  | connected => cases hpollout
  | connectedPending _ _ hne => exact .inr hne
  | refused hstate hfail =>
    refine .inr ?_
    show (closeWith _ _ s.data).1.writeBuffer.contents ≠ []
    rw [closeWith_writeBuffer]
    intro hempty
    have hstays := hleaves hstate hempty
    rw [SockCall.leavesConnecting, hfail] at hstays
    cases hstays
  | notSupported hstate hempty =>
    rcases h hassoc hpollout with hconn | hne
    · exact absurd hconn hstate
    · exact absurd hempty hne
  | failed _ _ hleft =>
    refine .inr ?_
    show (closeWith _ _ (afterAccepted s.data os)).1.writeBuffer.contents ≠ []
    rw [closeWith_writeBuffer]
    exact afterAccepted_ne_nil hleft
  | part _ _ hleft => exact .inr (afterAccepted_ne_nil hleft)
  | largePart _ _ hleft => exact .inr (afterAccepted_ne_nil hleft)
  | drained => simp at hpollout
  | coroFailed => simp [Fx.pollout] at hpollout
  | coroSent => simp at hpollout
  | coroPart hstate _ hall hcoro hreply hpart =>
    exact absurd hparts (SockCall.not_leavesNoPart hstate hall hcoro hreply hpart)

/-- The step lemma. -/
theorem Polled.step (h : s.Polled) (hkeeps : s.KeepsPolled c)
    (hstep : polledSocket.step s c = some s') : s'.Polled := by
  obtain ⟨hreturns, rfl⟩ := polledSocket_step hstep
  intro hassoc hpollout
  rw [after_data]
  cases c with
  | connecting =>
    left
    simp only [SockCall.run] at hreturns ⊢
    split
    · rename_i hstate
      rw [if_pos hstate] at hreturns
      cases hreturns
    · rfl
  | accepted => cases hpollout
  | closed => cases hassoc
  | writeEvent os => exact h.writeEvent hkeeps hassoc hpollout
  | write | write2 | end_ | destroy | setOption | pause | aRead | aSomeDataAvailable | aReadUntil
  | resumed | errorClose | readEvent | remoteEnded | afterRemoteEnded =>
    exact h.call rfl (by simp) hkeeps hassoc hpollout

/-- A write event that has something to do does not end in the last branch, which asserts `false`
and changes nothing. -/
theorem Polled.supported (h : s.Polled) (hassoc : s.associated = true)
    (hpollout : s.pollout = true) (os : WriteEventReplies) :
    infraProcessWriteEvent s.data os ≠ ⟨s.data, [], .error .assertion⟩ := by
  intro heq
  have hstate := congrArg (fun r => r.data.state) heq
  have hfx := congrArg SockStep.fx heq
  have hres := congrArg SockStep.res heq
  have hways := infraProcessWriteEvent_writesAs s.data os
  generalize infraProcessWriteEvent s.data os = r at hways hstate hfx hres
  cases hways with
  | connected | refused | failed | part | drained | coroFailed | coroSent | coroPart => cases hres
  | connectedPending hconn =>
    rw [hconn] at hstate
    cases hstate
  | notSupported hnot hempty =>
    rcases h hassoc hpollout with hconn | hne
    · exact hnot hconn
    · exact hne hempty
  | largePart => cases hfx

end PolledSocket

/-- Write events are only taken when there is something to do, in every run that does not take a
connecting socket on which nothing waits out of `Connecting`, and in which no write event leaves a
part of `ahd_write.b`. -/
theorem pollout_has_work (d : SocketData) (acts : List SockCall) (s : PolledSocket)
    (hkeeps : polledSocket.obeys PolledSocket.KeepsPolled ⟨d, false, false⟩ acts)
    (hrun : polledSocket.run ⟨d, false, false⟩ acts = some s) (hassoc : s.associated = true)
    (hpollout : s.pollout = true) :
    (s.data.state = .Connecting ∨ s.data.writeBuffer.contents ≠ []) ∧
      ∀ os, infraProcessWriteEvent s.data os ≠ ⟨s.data, [], .error .assertion⟩ := by
  have hstart : PolledSocket.Polled ⟨d, false, false⟩ := nofun
  have h : s.Polled :=
    polledSocket.run_invariant (fun _ _ _ hJ hG hs => hJ.step hG hs) hstart hkeeps hrun
  exact ⟨h hassoc hpollout, h.supported hassoc hpollout⟩

theorem pollout_has_work_oneByte :
    ∃ s, polledSocket.run ⟨{}, false, false⟩
        [.connecting, .writeEvent ⟨true, ⟨0, .wouldBlock, .wouldBlock⟩, .wouldBlock⟩,
          .write [1] .wouldBlock] = some s ∧
      (s.data.state = .Connecting ∨ s.data.writeBuffer.contents ≠ []) :=
  ⟨_, rfl, (pollout_has_work {}
    [.connecting, .writeEvent ⟨true, ⟨0, .wouldBlock, .wouldBlock⟩, .wouldBlock⟩,
      .write [1] .wouldBlock] _ (by decide) rfl rfl rfl).1⟩

/-- `connect()` and `end()`: the socket is `LocalEnded`, nothing waits, and `POLLOUT` is armed. -/
theorem pollout_after_end :
    ∃ s, polledSocket.run ⟨{}, false, false⟩ [.connecting, .end_] = some s ∧
      s.associated = true ∧ s.pollout = true ∧ s.data.state = .LocalEnded ∧
      s.data.writeBuffer.contents = [] ∧
      (infraProcessWriteEvent s.data ⟨true, ⟨0, .wouldBlock, .wouldBlock⟩, .wouldBlock⟩).res =
        .error .assertion :=
  ⟨_, rfl, rfl, rfl, rfl, rfl, rfl⟩

/-! ## The end of sending -/

/-- The kernel does not answer a send with an error. -/
def SockCall.NoSendError : SockCall → Prop
  | .write _ os | .write2 _ os => os ≠ .error
  | .writeEvent os => os.buf.first ≠ .error ∧ os.buf.second ≠ .error ∧ os.coro ≠ .error
  | _ => True

instance : DecidablePred SockCall.NoSendError
  | .write .. | .write2 .. => inferInstanceAs (Decidable (_ ≠ _))
  | .writeEvent _ => inferInstanceAs (Decidable (_ ∧ _))
  | .end_ | .destroy | .setOption _ | .pause _ | .aRead .. | .aSomeDataAvailable | .aReadUntil ..
  | .resumed .. | .connecting | .accepted | .errorClose | .readEvent _ | .remoteEnded
  | .afterRemoteEnded | .closed => isTrue trivial

namespace PolledSocket

/-- A coroutine's buffer waits only behind bytes in `writeBuffer`. -/
def Behind (s : PolledSocket) : Prop :=
  s.data.ahdWrite ≠ [] → s.data.writeBuffer.contents ≠ []

def KeepsBehind (s : PolledSocket) (c : SockCall) : Prop :=
  c.NoSendError ∧ c.LeavesNoPart s.data

instance (s : PolledSocket) (c : SockCall) : Decidable (s.KeepsBehind c) :=
  inferInstanceAs (Decidable (_ ∧ _))

variable {s s' : PolledSocket} {c : SockCall}

theorem Behind.writeEvent (h : s.Behind) (hkeeps : s.KeepsBehind (.writeEvent os))
    (hahd : (infraProcessWriteEvent s.data os).data.ahdWrite ≠ []) :
    (infraProcessWriteEvent s.data os).data.writeBuffer.contents ≠ [] := by
  obtain ⟨⟨-, -, hnoError⟩, hparts⟩ := hkeeps
  have hways := infraProcessWriteEvent_writesAs s.data os
  generalize infraProcessWriteEvent s.data os = r at hways hahd ⊢
  cases hways with
  | connected => exact h hahd
  | connectedPending => exact h hahd
  | refused =>
    simp only [errorCloseSocket, closeWith_writeBuffer, closeWith_ahdWrite] at hahd ⊢
    exact h hahd
  | notSupported => exact h hahd
  | failed _ _ hleft =>
    simp only [errorCloseSocket, closeWith_writeBuffer]
    exact afterAccepted_ne_nil hleft
  | part _ _ hleft => exact afterAccepted_ne_nil hleft
  | largePart _ _ hleft => exact afterAccepted_ne_nil hleft
  | drained _ _ _ hcoro => exact absurd (by simpa using hcoro) hahd
  | coroFailed _ _ _ _ hreply => exact absurd hreply hnoError
  | coroSent => exact absurd (by simp) hahd
  | coroPart hstate _ hall hcoro hreply hpart =>
    exact absurd hparts (SockCall.not_leavesNoPart hstate hall hcoro hreply hpart)

/-- The step lemma. -/
theorem Behind.step (h : s.Behind) (hkeeps : s.KeepsBehind c)
    (hstep : polledSocket.step s c = some s') : s'.Behind := by
  obtain ⟨-, rfl⟩ := polledSocket_step hstep
  intro hahd
  rw [after_data] at hahd ⊢
  cases hc : c.isWriteEvent with
  | true =>
    cases c with
    | writeEvent os => exact h.writeEvent hkeeps hahd
    | _ => cases hc
  | false =>
    have hout := SockCall.run_outgoing s.data hc
    have hne : s.data.writeBuffer.contents ≠ [] := by
      rcases hout.coro with hsame | hne
      · exact h (hsame ▸ hahd)
      · exact hne
    exact hout.ne_nil hne

theorem Behind.shutdown (h : s.Behind) (hshut : .shutdownSend ∈ (c.run s.data).fx) :
    (c.run s.data).data.held = [] := by
  cases hc : c.isWriteEvent with
  | true =>
    cases c with
    | writeEvent os =>
      have hways := infraProcessWriteEvent_writesAs s.data os
      replace hshut : .shutdownSend ∈ (infraProcessWriteEvent s.data os).fx := hshut
      show (infraProcessWriteEvent s.data os).data.held = []
      generalize infraProcessWriteEvent s.data os = r at hways hshut ⊢
      cases hways with
      | connected | connectedPending | refused | notSupported | failed | part | largePart
      | coroFailed | coroPart => simp [errorCloseSocket] at hshut
      | drained _ _ hall hcoro =>
        simp [SocketData.held, afterAccepted_eq_nil hall, hcoro]
      | coroSent _ _ hall => simp [SocketData.held, afterAccepted_eq_nil hall]
    | _ => cases hc
  | false =>
    have hout := SockCall.run_outgoing s.data hc
    obtain ⟨hnil, hsame⟩ := hout.shutdown hshut
    have hempty : s.data.ahdWrite = [] := by
      by_contra hahd
      exact hout.ne_nil (h hahd) hnil
    rw [SocketData.held, hnil, hsame, hempty]
    rfl

end PolledSocket

/-- Graceful end flushes first: in every run without send errors in which no write event leaves a
part of `ahd_write.b`, a call shuts down the sending side only if nothing waits. -/
theorem shutdown_flushes_first (d : SocketData) (hfresh : d.ahdWrite = []) (acts : List SockCall)
    (s : PolledSocket)
    (hkeeps : polledSocket.obeys PolledSocket.KeepsBehind ⟨d, false, false⟩ acts)
    (hrun : polledSocket.run ⟨d, false, false⟩ acts = some s) (c : SockCall)
    (hshut : .shutdownSend ∈ (c.run s.data).fx) :
    (c.run s.data).data.writeBuffer.contents = [] ∧ (c.run s.data).data.ahdWrite = [] := by
  have hstart : PolledSocket.Behind ⟨d, false, false⟩ := fun hahd => absurd hfresh hahd
  have h : s.Behind :=
    polledSocket.run_invariant (fun _ _ _ hJ hG hs => hJ.step hG hs) hstart hkeeps hrun
  exact List.append_eq_nil_iff.mp (h.shutdown hshut)

theorem shutdown_flushes_first_end :
    ∃ s, polledSocket.run ⟨{}, false, false⟩
        [.connecting, .writeEvent ⟨true, ⟨0, .wouldBlock, .wouldBlock⟩, .wouldBlock⟩] = some s ∧
      (SockCall.end_.run s.data).data.writeBuffer.contents = [] ∧
      (SockCall.end_.run s.data).data.ahdWrite = [] :=
  ⟨_, rfl, shutdown_flushes_first {} rfl
    [.connecting, .writeEvent ⟨true, ⟨0, .wouldBlock, .wouldBlock⟩, .wouldBlock⟩] _ (by decide) rfl
    .end_ (by decide)⟩

/-- The byte before the coroutine's buffer and one byte of it are accepted; `end()` then finds
`writeBuffer` empty. -/
theorem shutdown_before_flush :
    ∃ s, polledSocket.run ⟨{}, false, false⟩ (coroutineWaits (List.replicate 4095 2) ++
        [.writeEvent ⟨true, ⟨0, .sent 1, .wouldBlock⟩, .sent 1⟩]) = some s ∧
      .shutdownSend ∈ (SockCall.end_.run s.data).fx ∧
      (SockCall.end_.run s.data).data.ahdWrite = List.replicate 4095 2 := by
  have hlen : ¬(List.replicate 4095 (2 : UInt8)).length ≤ 4094 := by
    rw [List.length_replicate]
    decide
  obtain ⟨rest, hbuff⟩ : ∃ rest, List.replicate 4095 (2 : UInt8) = 2 :: 2 :: rest :=
    ⟨List.replicate 4093 2, rfl⟩
  rw [polledSocket.run_append, coroutineWaits_run hlen, Option.bind_some, hbuff]
  exact ⟨_, rfl, List.mem_cons_self .., rfl⟩

end NodeCpp
