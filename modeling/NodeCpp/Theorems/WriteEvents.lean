import NodeCpp.Socket.Sending

/-!
# What a write event makes of the waiting bytes

* `partial_drain_iff` -- a write event that sends a part of `writeBuffer` goes through only if the
  part is the smaller one: the assertion compares the bytes sent with the bytes that are left.
* `drain_means_success_iff` -- a failed send of `ahd_write.b` is reported as a drain.
* `connect_completes_iff` -- a socket on which bytes wait does not complete its connection.
-/

namespace NodeCpp

open Lib NetSocketManagerBase

/-! ## Partial sends -/

/-- The kernel accepts a part of `writeBuffer` without an error. The event leaves the rest, and
`POLLOUT` armed for it, exactly if the socket is not connecting any more and more is left than was
accepted. -/
theorem partial_drain_iff (d : SocketData) (os : WriteEventReplies)
    (hne : d.writeBuffer.contents ≠ []) (hsuccess : os.success = true)
    (hfirst : os.buf.first ≠ .error) (hsecond : os.buf.second ≠ .error)
    (hpart : acceptedOf d os < d.writeBuffer.usedSize) :
    ((infraProcessWriteEvent d os).res = .ok .EmitNone ∧
        (infraProcessWriteEvent d os).data.writeBuffer.contents =
          d.writeBuffer.contents.drop (acceptedOf d os) ∧
        (infraProcessWriteEvent d os).data.ahdWrite = d.ahdWrite ∧
        polloutAfter true (infraProcessWriteEvent d os).fx = true) ↔
      d.state ≠ .Connecting ∧ 2 * acceptedOf d os < d.writeBuffer.usedSize := by
  have hret := d.writeBuffer.write_ret_ne_failed hfirst hsecond
  have hways := infraProcessWriteEvent_writesAs d os
  generalize infraProcessWriteEvent d os = s at hways ⊢
  cases hways with
  | connected hstate _ hempty => exact absurd hempty hne
  | connectedPending hstate =>
    refine iff_of_false ?_ ?_
    · rintro ⟨hres, -⟩
      cases hres
    · rintro ⟨hnot, -⟩
      exact hnot hstate
  | refused _ hfail => exact absurd hsuccess (by simp [hfail])
  | notSupported _ hempty => exact absurd hempty hne
  | failed _ _ _ hfail => exact absurd hfail hret
  | part hstate _ _ _ hhalf =>
    refine iff_of_true ⟨rfl, afterAccepted_contents d os, rfl, rfl⟩ ⟨hstate, ?_⟩
    omega
  | largePart _ _ _ _ hhalf =>
    refine iff_of_false ?_ ?_
    · rintro ⟨hres, -⟩
      cases hres
    · rintro ⟨-, hless⟩
      omega
  | drained _ _ hall | coroFailed _ _ hall | coroSent _ _ hall | coroPart _ _ hall =>
    exact absurd hall hpart.ne

/-- A connected socket on which these bytes wait. -/
def waitingSocket (bytes : List UInt8) : SocketData :=
  { state := .Connected, writeBuffer := { contents := bytes } }

theorem partial_drain_iff_oneOfThree :
    (infraProcessWriteEvent (waitingSocket [1, 2, 3])
        ⟨true, ⟨0, .sent 1, .wouldBlock⟩, .wouldBlock⟩).res = .ok .EmitNone :=
  ((partial_drain_iff (waitingSocket [1, 2, 3]) ⟨true, ⟨0, .sent 1, .wouldBlock⟩, .wouldBlock⟩
    (by decide) rfl (by decide) (by decide) (by decide)).mpr ⟨by decide, by decide⟩).1

/-- The kernel accepts one of two bytes. -/
theorem partial_drain_asserts :
    acceptedOf (waitingSocket [1, 2]) ⟨true, ⟨0, .sent 1, .wouldBlock⟩, .wouldBlock⟩ = 1 ∧
      (infraProcessWriteEvent (waitingSocket [1, 2])
        ⟨true, ⟨0, .sent 1, .wouldBlock⟩, .wouldBlock⟩).res = .error .assertion := by
  decide

/-! ## Drains -/

/-- No send of a write event fails: none of those from `writeBuffer`, and not the one from
`ahd_write.b`, if there is anything in it. -/
def NoSendFails (d : SocketData) (os : WriteEventReplies) : Prop :=
  (d.writeBuffer.write os.buf).2.ret ≠ .failed ∧ (d.ahdWrite = [] ∨ os.coro ≠ .error)

/-- A drain, or the shutdown that was put off until then, means that all waiting bytes have been
accepted and no send has failed, unless `writeBuffer` is emptied and the send of `ahd_write.b`
fails. -/
theorem drain_means_success_iff (d : SocketData) (os : WriteEventReplies) :
    ((infraProcessWriteEvent d os).res = .ok .EmitDrain ∨
          .shutdownSend ∈ (infraProcessWriteEvent d os).fx →
        (infraProcessWriteEvent d os).sent = d.held ∧ NoSendFails d os) ↔
      d.state = .Connecting ∨ d.writeBuffer.contents = [] ∨
        acceptedOf d os < d.writeBuffer.usedSize ∨ d.ahdWrite = [] ∨ os.coro ≠ .error := by
  have hret : acceptedOf d os = d.writeBuffer.usedSize → d.writeBuffer.contents ≠ [] →
      (d.writeBuffer.write os.buf).2.ret ≠ .failed := by
    intro hall hne hfail
    exact (Fifo.write_failed_lt hne hfail).ne hall
  have hways := infraProcessWriteEvent_writesAs d os
  generalize infraProcessWriteEvent d os = s at hways ⊢
  cases hways with
  | connected hstate | connectedPending hstate | refused hstate =>
    -- a socket still connecting reports no drain
    refine iff_of_true ?_ (.inl hstate)
    rintro (hres | hfx)
    · cases hres
    · simp [errorCloseSocket] at hfx
  | notSupported _ hempty =>
    refine iff_of_true ?_ (.inr (.inl hempty))
    rintro (hres | hfx)
    · cases hres
    · cases hfx
  | failed _ _ hleft | part _ _ hleft | largePart _ _ hleft =>
    -- some of the buffer is left: no drain either
    refine iff_of_true ?_ (.inr (.inr (.inl hleft)))
    rintro (hres | hfx)
    · cases hres
    · simp [errorCloseSocket] at hfx
  | drained _ hne hall hcoro =>
    refine iff_of_true (fun _ => ⟨?_, hret hall hne, .inl hcoro⟩)
      (.inr (.inr (.inr (.inl hcoro))))
    simp [SockStep.sent, Fx.sentBytes, SocketData.held, hcoro]
  | coroFailed hstate hne hall hcoro hreply =>
    -- the buffer went out, the send for the coroutine fails, a drain is reported
    refine iff_of_false ?_ ?_
    · intro h
      rcases (h (.inl rfl)).2.2 with hnil | hnot
      · exact hcoro hnil
      · exact hnot hreply
    · rintro (h | h | h | h | h)
      · exact hstate h
      · exact hne h
      · exact h.ne hall
      · exact hcoro h
      · exact h hreply
  | coroSent _ hne hall hcoro hreply =>
    have hnot : os.coro ≠ .error := by
      intro h
      rw [h] at hreply
      exact hreply
    refine iff_of_true (fun _ => ⟨?_, hret hall hne, .inr hnot⟩)
      (.inr (.inr (.inr (.inr hnot))))
    simp [SockStep.sent, Fx.sentBytes, SocketData.held]
  | coroPart _ _ _ _ hreply =>
    refine iff_of_true ?_ (.inr (.inr (.inr (.inr hreply))))
    rintro (hres | hfx)
    · cases hres
    · simp at hfx

/-- A socket connects, one byte waits in `writeBuffer`, and a coroutine's buffer does not fit
behind it. -/
def coroutineWaits (buff : List UInt8) : List SockCall :=
  [.connecting, .writeEvent ⟨true, ⟨0, .wouldBlock, .wouldBlock⟩, .wouldBlock⟩,
    .write [1] .wouldBlock, .write2 buff .wouldBlock]

theorem coroutineWaits_run {buff : List UInt8} (h : ¬buff.length ≤ 4094) :
    polledSocket.run ⟨{}, false, false⟩ (coroutineWaits buff) =
      some ⟨{ waitingSocket [1] with ahdWrite := buff, refed := true }, true, true⟩ := by
  have hkept : appWrite2 { waitingSocket [1] with refed := true } buff .wouldBlock =
      ⟨{ waitingSocket [1] with refed := true, ahdWrite := buff }, [], .ok false⟩ := by
    simp [appWrite2, waitingSocket, SocketData.isValid, Fifo.usedSize, Fifo.remainingCapacity, h]
  have hlast : polledSocket.step ⟨{ waitingSocket [1] with refed := true }, true, true⟩
      (.write2 buff .wouldBlock) =
        some ⟨{ waitingSocket [1] with ahdWrite := buff, refed := true }, true, true⟩ := by
    simp only [polledSocket, SockCall.isWriteEvent, SockCall.run, PolledSocket.after, hkept]
    rfl
  show (polledSocket.step ⟨{ waitingSocket [1] with refed := true }, true, true⟩
    (.write2 buff .wouldBlock)).bind _ = _
  rw [hlast]
  rfl

/-- The byte is accepted, the send of the coroutine's buffer fails, and the event is a drain. -/
theorem drain_of_failed_send :
    ∃ s, polledSocket.run ⟨{}, false, false⟩ (coroutineWaits (List.replicate 4095 2)) = some s ∧
      (infraProcessWriteEvent s.data ⟨true, ⟨0, .sent 1, .wouldBlock⟩, .error⟩).res =
        .ok .EmitDrain ∧
      (infraProcessWriteEvent s.data ⟨true, ⟨0, .sent 1, .wouldBlock⟩, .error⟩).sent = [1] ∧
      s.data.held = 1 :: List.replicate 4095 2 := by
  have hlen : ¬(List.replicate 4095 (2 : UInt8)).length ≤ 4094 := by
    rw [List.length_replicate]
    decide
  obtain ⟨rest, hbuff⟩ : ∃ rest, List.replicate 4095 (2 : UInt8) = 2 :: rest :=
    ⟨List.replicate 4094 2, List.replicate_succ⟩
  refine ⟨_, coroutineWaits_run hlen, ?_⟩
  rw [hbuff]
  exact ⟨rfl, rfl, rfl⟩

/-! ## The completion of a connection -/

namespace SockCall

/-- A write to which the kernel does not answer with an error. -/
def isWrite : SockCall → Bool
  | .write _ os | .write2 _ os => decide (os ≠ .error)
  | _ => false

theorem isWriteEvent_of_isWrite {c : SockCall} (h : c.isWrite = true) : c.isWriteEvent = false := by
  cases c <;> first | rfl | cases h

/-- The kernel takes all the data of a write. -/
def SentWhole : SockCall → Prop
  | .write data os | .write2 data os => os.takesAll data.length
  | _ => True

instance : DecidablePred SentWhole
  | .write .. | .write2 .. => inferInstanceAs (Decidable (SendReply.takesAll ..))
  | .end_ | .destroy | .setOption _ | .pause _ | .aRead .. | .aSomeDataAvailable | .aReadUntil ..
  | .resumed .. | .connecting | .accepted | .errorClose | .readEvent _ | .remoteEnded
  | .afterRemoteEnded | .writeEvent _ | .closed => isTrue trivial

end SockCall

theorem writeToEmpty_pending {d : SocketData} (hempty : d.writeBuffer.contents = [])
    (data : List UInt8) {os : SendReply} (hos : os ≠ .error) :
    (writeToEmpty d data os).data.state = d.state ∧
      (writeToEmpty d data os).data.ahdWrite = d.ahdWrite ∧
      ((writeToEmpty d data os).data.writeBuffer.contents = [] ↔ os.takesAll data.length) := by
  have hret := internalSendPacket_ret_ne_failed data.length hos
  have hle := internalSendPacket_sentSize_le data.length os
  have htakes := internalSendPacket_takesAll data.length os
  simp only [writeToEmpty, if_neg hret]
  split
  · rename_i hall
    exact ⟨rfl, rfl, iff_of_true hempty (htakes.mp ⟨hret, hall⟩)⟩
  · rename_i hpart
    refine ⟨rfl, rfl, ?_⟩
    rw [Fifo.contents_append, hempty, List.nil_append, List.drop_eq_nil_iff]
    constructor
    · intro h
      omega
    · intro h
      exact absurd (htakes.mpr h).2 hpart

theorem write_connecting {d : SocketData} {c : SockCall} (hstate : d.state = .Connecting)
    (hc : c.isWrite = true) :
    (c.run d).data.state = .Connecting ∧
      ((c.run d).data.writeBuffer.contents = [] ↔ d.writeBuffer.contents = [] ∧ c.SentWhole) ∧
      ((c.run d).data.writeBuffer.contents = [] → (c.run d).data.ahdWrite = d.ahdWrite) := by
  have hvalid : d.isValid = true := by simp [SocketData.isValid, hstate]
  have hopen : ¬(d.state = .LocalEnding ∨ d.state = .LocalEnded) := by simp [hstate]
  have hout := SockCall.run_outgoing d (SockCall.isWriteEvent_of_isWrite hc)
  by_cases hempty : d.writeBuffer.contents = []
  · -- the kernel is offered the data
    have hused : d.writeBuffer.usedSize = 0 := Fifo.usedSize_eq_zero.mpr hempty
    cases c with
    | write data os =>
      obtain ⟨hst, hahd, hiff⟩ := writeToEmpty_pending hempty data (of_decide_eq_true hc)
      simp only [SockCall.run, appWrite, hvalid, hopen, hused, Bool.not_true, if_false, if_true]
      exact ⟨hst.trans hstate, by rw [and_iff_right hempty]; exact hiff, fun _ => hahd⟩
    | write2 buff os =>
      obtain ⟨hst, hahd, hiff⟩ := writeToEmpty_pending hempty buff (of_decide_eq_true hc)
      simp only [SockCall.run, appWrite2, hvalid, hopen, hused, Bool.not_true, if_false, if_true]
      exact ⟨hst.trans hstate, by rw [and_iff_right hempty]; exact hiff, fun _ => hahd⟩
    | _ => cases hc
  · -- the data are put behind what waits already
    have hne := hout.ne_nil hempty
    refine ⟨?_, iff_of_false hne fun h => hempty h.1, fun h => absurd h hne⟩
    have hused : d.writeBuffer.usedSize ≠ 0 := mt Fifo.usedSize_eq_zero.mp hempty
    cases c with
    | write data os =>
      simp only [SockCall.run, appWrite, hvalid, hopen, hused, Bool.not_true, if_false]
      exact hstate
    | write2 buff os =>
      simp only [SockCall.run, appWrite2, hvalid, hopen, hused, Bool.not_true, if_false]
      repeat' split
      all_goals exact hstate
    | _ => cases hc

theorem writes_connecting {s s' : PolledSocket} {writes : List SockCall}
    (hstate : s.data.state = .Connecting) (hpollout : s.pollout = true)
    (hwrites : ∀ c ∈ writes, c.isWrite = true) (hrun : polledSocket.run s writes = some s') :
    s'.data.state = .Connecting ∧ s'.pollout = true ∧
      (s'.data.writeBuffer.contents = [] ↔
        s.data.writeBuffer.contents = [] ∧ ∀ c ∈ writes, c.SentWhole) ∧
      (s'.data.writeBuffer.contents = [] → s'.data.ahdWrite = s.data.ahdWrite) := by
  induction writes generalizing s with
  | nil =>
    cases hrun
    exact ⟨hstate, hpollout, by simp, fun _ => rfl⟩
  | cons c writes ih =>
    obtain ⟨s₁, hstep, hrest⟩ := polledSocket.run_cons hrun
    obtain ⟨-, rfl⟩ := polledSocket_step hstep
    have hc := hwrites c (List.mem_cons_self ..)
    have hafter : s.after c =
        ⟨(c.run s.data).data, s.associated, polloutAfter s.pollout (c.run s.data).fx⟩ := by
      cases c <;> first | rfl | cases hc
    have hout := SockCall.run_outgoing s.data (SockCall.isWriteEvent_of_isWrite hc)
    obtain ⟨hst, hiff, hahd⟩ := write_connecting hstate hc
    have harmed : polloutAfter s.pollout (c.run s.data).fx = true := by
      rcases hout.pollout s.pollout with h | h
      · rw [h, hpollout]
      · exact h.1
    rw [hafter] at hrest
    obtain ⟨hst', hpoll', hiff', hahd'⟩ :=
      ih hst harmed (fun c' hc' => hwrites c' (List.mem_cons_of_mem _ hc')) hrest
    refine ⟨hst', hpoll', ?_, ?_⟩
    · rw [hiff', List.forall_mem_cons, ← and_assoc]
      exact and_congr_left' hiff
    · intro hnil
      exact (hahd' hnil).trans (hahd (hiff'.mp hnil).1)

/-- The write event that completes the connection, after any writes: no assertion fails, the socket
is connected and `POLLOUT` is armed exactly if bytes remain, provided that the kernel has taken all
the data of every write. -/
theorem connect_completes_iff (d : SocketData) (hbuf : d.writeBuffer.contents = [])
    (hahd : d.ahdWrite = []) (writes : List SockCall) (hwrites : ∀ c ∈ writes, c.isWrite = true)
    (s : PolledSocket) (hrun : polledSocket.run ⟨d, false, false⟩ (.connecting :: writes) = some s)
    (os : WriteEventReplies) (hos : os.success = true) :
    ((infraProcessWriteEvent s.data os).returns = true ∧
        (infraProcessWriteEvent s.data os).data.state = .Connected ∧
        (polloutAfter s.pollout (infraProcessWriteEvent s.data os).fx = true ↔
          (infraProcessWriteEvent s.data os).data.held ≠ [])) ↔
      ∀ c ∈ writes, c.SentWhole := by
  obtain ⟨s₁, hstep, hrest⟩ := polledSocket.run_cons hrun
  obtain ⟨hreturns, rfl⟩ := polledSocket_step hstep
  have hconnecting : SockCall.connecting.run d =
      .done { d with state := .Connecting, refed := true } [] := by
    simp only [SockCall.run] at hreturns ⊢
    split
    · rename_i hstate
      rw [if_pos hstate] at hreturns
      cases hreturns
    · rfl
  have hafter : PolledSocket.after ⟨d, false, false⟩ .connecting =
      ⟨{ d with state := .Connecting, refed := true }, true, true⟩ := by
    show PolledSocket.mk (SockCall.connecting.run d).data true true = _
    rw [hconnecting]
    rfl
  rw [hafter] at hrest
  obtain ⟨hstate, hpollout, hiff, hkept⟩ := writes_connecting rfl rfl hwrites hrest
  rw [and_iff_right hbuf] at hiff
  rw [← hiff]
  have hways := infraProcessWriteEvent_writesAs s.data os
  generalize infraProcessWriteEvent s.data os = r at hways ⊢
  cases hways with
  | connected _ _ hempty =>
    -- nothing was left of the writes
    have hheld : s.data.held = [] := by
      rw [SocketData.held, hempty, hkept hempty]
      exact hahd
    refine iff_of_true ⟨rfl, rfl, iff_of_false Bool.false_ne_true ?_⟩ hempty
    exact not_not.mpr hheld
  | connectedPending _ _ hne =>
    -- something is held: the event ends in an assertion
    refine iff_of_false ?_ hne
    rintro ⟨hok, -⟩
    cases hok
  | refused _ hfail => exact absurd hos (by simp [hfail])
  | _ => contradiction

theorem connect_completes_iff_whole :
    ∃ s, polledSocket.run ⟨{}, false, false⟩ [.connecting, .write [1, 2] (.sent 2)] = some s ∧
      (infraProcessWriteEvent s.data ⟨true, ⟨0, .wouldBlock, .wouldBlock⟩, .wouldBlock⟩).returns =
        true :=
  ⟨_, rfl, ((connect_completes_iff {} rfl rfl [.write [1, 2] (.sent 2)] (by decide) _ rfl
    ⟨true, ⟨0, .wouldBlock, .wouldBlock⟩, .wouldBlock⟩ rfl).mpr (by decide)).1⟩

/-- The kernel takes nothing before the connection is made. -/
theorem connect_with_pending_asserts :
    ∃ s, polledSocket.run ⟨{}, false, false⟩ [.connecting, .write [1] .wouldBlock] = some s ∧
      (infraProcessWriteEvent s.data ⟨true, ⟨0, .wouldBlock, .wouldBlock⟩, .wouldBlock⟩).res =
        .error .assertion :=
  ⟨_, rfl, rfl⟩

end NodeCpp
