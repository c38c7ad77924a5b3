import NodeCpp.Lib.Machine
import NodeCpp.Socket.Call

/-!
# The bytes that wait to be sent

What the calls of a socket do to `writeBuffer`, to `ahd_write.b` and to `POLLOUT` in the pollfd of
the socket.

* `polloutAfter` -- `POLLOUT` after the effects of a call.
* `Outgoing`, `SockCall.run_outgoing` -- a call other than a write event only adds to the waiting
  bytes, and arms `POLLOUT` only for bytes in `writeBuffer`.
* `WritesAs`, `infraProcessWriteEvent_writesAs` -- the ways of a write event.
* `polledSocket` -- one socket with its pollfd.
-/

namespace NodeCpp

open Lib

/-! ## POLLOUT -/

/-- `POLLOUT` after an effect. -/
def Fx.pollout (armed : Bool) : Fx → Bool
  | .setPollout => true
  | .unsetPollout => false
  | _ => armed

/-- `POLLOUT` after the effects of a call. -/
def polloutAfter (armed : Bool) (fx : List Fx) : Bool := fx.foldl Fx.pollout armed

@[simp] theorem polloutAfter_nil (armed : Bool) : polloutAfter armed [] = armed := rfl

@[simp] theorem polloutAfter_cons (armed : Bool) (e : Fx) (fx : List Fx) :
    polloutAfter armed (e :: fx) = polloutAfter (e.pollout armed) fx := rfl

@[simp] theorem polloutAfter_append (armed : Bool) (fx fx' : List Fx) :
    polloutAfter armed (fx ++ fx') = polloutAfter (polloutAfter armed fx) fx' := List.foldl_append

@[simp] theorem polloutAfter_closeWith (armed : Bool) (state : SockState) (err : Bool)
    (d : SocketData) : polloutAfter armed (closeWith state err d).2 = armed := by
  unfold closeWith
  split <;> rfl

@[simp] theorem shutdownSend_notMem_closeWith (state : SockState) (err : Bool) (d : SocketData) :
    Fx.shutdownSend ∉ (closeWith state err d).2 := by
  unfold closeWith
  split <;> simp

theorem polloutAfter_silent {d : SocketData} {fx : List Fx} (h : fx.all (·.silent d))
    (armed : Bool) : polloutAfter armed fx = armed := by
  induction fx with
  | nil => rfl
  | cons e fx ih =>
    obtain ⟨he, hfx⟩ := Bool.and_eq_true_iff.mp h
    rw [polloutAfter_cons]
    cases e with
    | setPollout | unsetPollout | queueClose => cases he
    | _ => exact ih hfx

/-! ## Calls other than write events -/

/-- What a call other than a write event does to the waiting bytes. -/
structure Outgoing (d d' : SocketData) (fx : List Fx) : Prop where
  /-- Bytes are added to `writeBuffer`, none are removed. -/
  grows : d.writeBuffer.contents <+: d'.writeBuffer.contents
  /-- `POLLOUT` is not disarmed, and armed only for bytes in `writeBuffer`. -/
  pollout : ∀ armed, polloutAfter armed fx = armed ∨
    (polloutAfter armed fx = true ∧ d'.writeBuffer.contents ≠ [])
  /-- `ahd_write.b` is filled only behind bytes in `writeBuffer`. -/
  coro : d'.ahdWrite = d.ahdWrite ∨ d.writeBuffer.contents ≠ []
  /-- The sending side is shut down only if `writeBuffer` is empty; `ahd_write.b` is not looked at. -/
  shutdown : .shutdownSend ∈ fx → d'.writeBuffer.contents = [] ∧ d'.ahdWrite = d.ahdWrite

namespace Outgoing

variable {d d₁ d' : SocketData} {fx : List Fx}

theorem ne_nil (h : Outgoing d d' fx) (hne : d.writeBuffer.contents ≠ []) :
    d'.writeBuffer.contents ≠ [] := by
  intro hnil
  have hgrows := h.grows
  rw [hnil] at hgrows
  exact hne (List.prefix_nil.mp hgrows)

theorem keep (hbuf : d'.writeBuffer = d.writeBuffer) (hahd : d'.ahdWrite = d.ahdWrite)
    (hpoll : ∀ armed, polloutAfter armed fx = armed)
    (hshut : .shutdownSend ∈ fx → d.writeBuffer.empty) : Outgoing d d' fx where
  grows := hbuf ▸ List.prefix_refl _
  pollout armed := .inl (hpoll armed)
  coro := .inl hahd
  shutdown h := ⟨by rw [hbuf, Fifo.empty_iff.mp (hshut h)], hahd⟩

theorem of_silent (hfx : fx.all (·.silent d)) (hbuf : d'.writeBuffer = d.writeBuffer)
    (hahd : d'.ahdWrite = d.ahdWrite) : Outgoing d d' fx :=
  keep hbuf hahd (polloutAfter_silent hfx) fun h => List.all_eq_true.mp hfx _ h

end Outgoing

theorem SockCall.run_outgoing (d : SocketData) {c : SockCall} (hc : c.isWriteEvent = false) :
    Outgoing d (c.run d).data (c.run d).fx := by
  have hacts := run_acts d hc
  generalize (c.run d).data = d', (c.run d).fx = fx at hacts ⊢
  cases hacts with
  | rests hfx h => exact .of_silent hfx (congrArg (·.2.2.1) h) (congrArg (·.2.2.2) h)
  | moves st hst hopen hfx h => exact .of_silent hfx (congrArg (·.2.2.1) h) (congrArg (·.2.2.2) h)
  | closes err hopen before hbefore hfx h =>
    subst hfx
    refine .keep (congrArg (·.2.2.1) h) (congrArg (·.2.2.2) h) ?_ ?_
    · simp [Fx.pollout, polloutAfter_silent hbefore]
    · intro hmem
      exact List.all_eq_true.mp hbefore _ (by simpa using hmem)
  | appends bytes hfx h =>
    have hbuf : d'.writeBuffer = d.writeBuffer.append bytes := congrArg (·.2.2.1) h
    have hgrows : d.writeBuffer.contents <+: d'.writeBuffer.contents :=
      hbuf ▸ List.prefix_append _ _
    rcases hfx with rfl | ⟨hne, sent, rfl⟩
    · exact ⟨hgrows, fun _ => .inl rfl, .inl (congrArg (·.2.2.2) h), nofun⟩
    · refine ⟨hgrows, fun _ => .inr ⟨rfl, ?_⟩, .inl (congrArg (·.2.2.2) h), by simp⟩
      simp [hbuf, hne]
  | stores buff hwaits hfx h =>
    have hbuf : d'.writeBuffer = d.writeBuffer := congrArg (·.2.2.1) h
    subst hfx
    exact ⟨hbuf ▸ List.prefix_refl _, fun _ => .inl rfl, .inr hwaits, nofun⟩
  | closed hfx h =>
    subst hfx
    exact .of_silent rfl (congrArg (·.2.2.1) h) (congrArg (·.2.2.2) h)

/-! ## Write events -/

namespace NetSocketManagerBase

section

variable (d : SocketData)

@[simp] theorem writeEventDone_writeBuffer :
    (writeEventDone d).1.writeBuffer = d.writeBuffer := by
  simp only [writeEventDone]
  repeat' split
  all_goals simp [closeSocket]

@[simp] theorem writeEventDone_ahdWrite : (writeEventDone d).1.ahdWrite = d.ahdWrite := by
  simp only [writeEventDone]
  repeat' split
  all_goals simp [closeSocket]

@[simp] theorem writeEventDone_pollout (armed : Bool) :
    polloutAfter armed (writeEventDone d).2 = false := by
  simp only [writeEventDone]
  repeat' split
  all_goals simp [closeSocket, Fx.pollout]

@[simp] theorem writeEventDone_sent : (writeEventDone d).2.flatMap Fx.sentBytes = [] := by
  simp only [writeEventDone]
  repeat' split
  all_goals simp [closeSocket, Fx.sentBytes]

end

/-- How many bytes of `writeBuffer` the kernel accepts in a write event. -/
def acceptedOf (d : SocketData) (os : WriteEventReplies) : Nat :=
  (d.writeBuffer.write os.buf).2.sentSize

/-- The data once the kernel has accepted these bytes. -/
def afterAccepted (d : SocketData) (os : WriteEventReplies) : SocketData :=
  { d with writeBuffer := (d.writeBuffer.write os.buf).1 }

@[simp] theorem afterAccepted_ahdWrite (d : SocketData) (os : WriteEventReplies) :
    (afterAccepted d os).ahdWrite = d.ahdWrite := rfl

theorem afterAccepted_contents (d : SocketData) (os : WriteEventReplies) :
    (afterAccepted d os).writeBuffer.contents = d.writeBuffer.contents.drop (acceptedOf d os) :=
  d.writeBuffer.write_contents os.buf

inductive WritesAs (d : SocketData) (os : WriteEventReplies) : SockStep ShouldEmit → Prop
  | connected (hstate : d.state = .Connecting) (hsuccess : os.success = true)
      (hempty : d.writeBuffer.contents = []) :
      WritesAs d os ⟨{ d with state := .Connected }, [.unsetPollout], .ok .EmitConnect⟩
  | connectedPending (hstate : d.state = .Connecting) (hsuccess : os.success = true)
      (hne : d.writeBuffer.contents ≠ []) :
      WritesAs d os ⟨{ d with state := .Connected }, [], .error .assertion⟩
  | refused (hstate : d.state = .Connecting) (hsuccess : os.success = false) :
      WritesAs d os ⟨(errorCloseSocket d).1, (errorCloseSocket d).2, .ok .EmitNone⟩
  | notSupported (hstate : d.state ≠ .Connecting) (hempty : d.writeBuffer.contents = []) :
      WritesAs d os ⟨d, [], .error .assertion⟩
  | failed (hstate : d.state ≠ .Connecting) (hne : d.writeBuffer.contents ≠ [])
      (hleft : acceptedOf d os < d.writeBuffer.usedSize)
      (hret : (d.writeBuffer.write os.buf).2.ret = .failed) :
      WritesAs d os ⟨(errorCloseSocket (afterAccepted d os)).1,
        .sent (d.writeBuffer.contents.take (acceptedOf d os)) ::
          (errorCloseSocket (afterAccepted d os)).2, .ok .EmitNone⟩
  | part (hstate : d.state ≠ .Connecting) (hne : d.writeBuffer.contents ≠ [])
      (hleft : acceptedOf d os < d.writeBuffer.usedSize)
      (hret : (d.writeBuffer.write os.buf).2.ret ≠ .failed)
      (hhalf : acceptedOf d os < d.writeBuffer.usedSize - acceptedOf d os) :
      WritesAs d os ⟨afterAccepted d os,
        [.sent (d.writeBuffer.contents.take (acceptedOf d os))], .ok .EmitNone⟩
  | largePart (hstate : d.state ≠ .Connecting) (hne : d.writeBuffer.contents ≠ [])
      (hleft : acceptedOf d os < d.writeBuffer.usedSize)
      (hret : (d.writeBuffer.write os.buf).2.ret ≠ .failed)
      (hhalf : ¬acceptedOf d os < d.writeBuffer.usedSize - acceptedOf d os) :
      WritesAs d os ⟨afterAccepted d os,
        [.sent (d.writeBuffer.contents.take (acceptedOf d os))], .error .assertion⟩
  | drained (hstate : d.state ≠ .Connecting) (hne : d.writeBuffer.contents ≠ [])
      (hall : acceptedOf d os = d.writeBuffer.usedSize) (hcoro : d.ahdWrite = []) :
      WritesAs d os ⟨(writeEventDone (afterAccepted d os)).1,
        .sent d.writeBuffer.contents :: (writeEventDone (afterAccepted d os)).2, .ok .EmitDrain⟩
  | coroFailed (hstate : d.state ≠ .Connecting) (hne : d.writeBuffer.contents ≠ [])
      (hall : acceptedOf d os = d.writeBuffer.usedSize) (hcoro : d.ahdWrite ≠ [])
      (hreply : os.coro = .error) :
      WritesAs d os ⟨(errorCloseSocket (afterAccepted d os)).1,
        .sent d.writeBuffer.contents ::
          ((errorCloseSocket (afterAccepted d os)).2 ++ [Fx.unsetPollout]), .ok .EmitDrain⟩
  | coroSent (hstate : d.state ≠ .Connecting) (hne : d.writeBuffer.contents ≠ [])
      (hall : acceptedOf d os = d.writeBuffer.usedSize) (hcoro : d.ahdWrite ≠ [])
      (hreply : os.coro.takesAll d.ahdWrite.length) :
      WritesAs d os ⟨(writeEventDone { afterAccepted d os with ahdWrite := [] }).1,
        .sent d.writeBuffer.contents :: .sent d.ahdWrite ::
          (writeEventDone { afterAccepted d os with ahdWrite := [] }).2, .ok .EmitDrain⟩
  | coroPart (hstate : d.state ≠ .Connecting) (hne : d.writeBuffer.contents ≠ [])
      (hall : acceptedOf d os = d.writeBuffer.usedSize) (hcoro : d.ahdWrite ≠ [])
      (hreply : os.coro ≠ .error) (hpart : ¬os.coro.takesAll d.ahdWrite.length) :
      WritesAs d os ⟨afterAccepted d os,
        [.sent d.writeBuffer.contents,
          .sent (d.ahdWrite.take (internalSendPacket d.ahdWrite.length os.coro).sentSize)],
        .ok .EmitNone⟩

/-- Once `writeBuffer` is empty, it is the turn of `ahd_write.b`. -/
theorem writeEventDrained_writesAs {d : SocketData} {os : WriteEventReplies}
    (hstate : d.state ≠ .Connecting) (hne : d.writeBuffer.contents ≠ [])
    (hall : acceptedOf d os = d.writeBuffer.usedSize) :
    WritesAs d os { writeEventDrained (afterAccepted d os) os.coro with
      fx := .sent d.writeBuffer.contents :: (writeEventDrained (afterAccepted d os) os.coro).fx } := by
  unfold writeEventDrained
  by_cases hcoro : d.ahdWrite = []
  · have hnone : ¬(afterAccepted d os).ahdWrite.length ≠ 0 := not_not.mpr (by simpa using hcoro)
    rw [if_neg hnone]
    exact .drained hstate hne hall hcoro
  · have hsome : (afterAccepted d os).ahdWrite.length ≠ 0 := by simpa using hcoro
    have htakes := internalSendPacket_takesAll d.ahdWrite.length os.coro
    rw [if_pos hsome]
    by_cases hreply : os.coro = .error
    · have hfailed : (internalSendPacket (afterAccepted d os).ahdWrite.length os.coro).ret =
          .failed := by rw [hreply]; rfl
      simp only [if_pos hfailed, Moves.writeEventDone_errorCloseSocket]
      exact .coroFailed hstate hne hall hcoro hreply
    · have hret := internalSendPacket_ret_ne_failed d.ahdWrite.length hreply
      have hret' : ¬(internalSendPacket (afterAccepted d os).ahdWrite.length os.coro).ret =
          .failed := hret
      simp only [if_neg hret']
      by_cases hsent : os.coro.takesAll d.ahdWrite.length
      · have hsize : (internalSendPacket (afterAccepted d os).ahdWrite.length os.coro).sentSize =
            (afterAccepted d os).ahdWrite.length := (htakes.mpr hsent).2
        simp only [if_pos hsize]
        exact .coroSent hstate hne hall hcoro hsent
      · have hsize : ¬(internalSendPacket (afterAccepted d os).ahdWrite.length os.coro).sentSize =
            (afterAccepted d os).ahdWrite.length := fun h => hsent (htakes.mp ⟨hret, h⟩)
        simp only [if_neg hsize]
        exact .coroPart hstate hne hall hcoro hreply hsent

theorem infraProcessWriteEvent_writesAs (d : SocketData) (os : WriteEventReplies) :
    WritesAs d os (infraProcessWriteEvent d os) := by
  unfold infraProcessWriteEvent
  by_cases hstate : d.state = .Connecting
  · rw [if_pos hstate]
    cases hsuccess : os.success with
    | false => exact .refused hstate hsuccess
    | true =>
      by_cases hempty : d.writeBuffer.contents = []
      · simp only [if_true, Fifo.empty_iff.mpr hempty]
        exact .connected hstate hsuccess hempty
      · simp only [if_true, Fifo.empty_eq_false_iff.mpr hempty]
        exact .connectedPending hstate hsuccess hempty
  · rw [if_neg hstate]
    by_cases hempty : d.writeBuffer.contents = []
    · rw [if_neg (by simp [hempty])]
      exact .notSupported hstate hempty
    · rw [if_pos (by simp [hempty])]
      have hle := d.writeBuffer.write_sentSize_le os.buf
      have hleft : (d.writeBuffer.write os.buf).1.usedSize =
          d.writeBuffer.usedSize - acceptedOf d os := by
        rw [Fifo.usedSize, Fifo.write_contents, List.length_drop]
        rfl
      by_cases hret : (d.writeBuffer.write os.buf).2.ret = .failed
      · simp only [if_pos hret]
        exact .failed hstate hempty (Fifo.write_failed_lt hempty hret) hret
      · simp only [if_neg hret]
        by_cases hall : acceptedOf d os = d.writeBuffer.usedSize
        · have hnil : (d.writeBuffer.write os.buf).1.empty :=
            Fifo.empty_iff.mpr (Fifo.write_contents_eq_nil.mpr hall)
          have hsent : d.writeBuffer.contents.take (d.writeBuffer.write os.buf).2.sentSize =
              d.writeBuffer.contents := List.take_of_length_le hall.ge
          rw [if_pos hnil, hsent]
          exact writeEventDrained_writesAs hstate hempty hall
        · have hne : ¬(d.writeBuffer.write os.buf).1.empty := fun h =>
            hall (Fifo.write_contents_eq_nil.mp (Fifo.empty_iff.mp h))
          rw [if_neg hne]
          simp only [hleft]
          split
          · rename_i hhalf
            exact .largePart hstate hempty (lt_of_le_of_ne hle hall) hret hhalf
          · rename_i hhalf
            exact .part hstate hempty (lt_of_le_of_ne hle hall) hret (not_not.mp hhalf)

end NetSocketManagerBase

/-! ## One socket with its pollfd -/

/-- A socket, whether its entry is associated, and `POLLOUT` in its pollfd. -/
structure PolledSocket where
  data : SocketData
  associated : Bool := false
  pollout : Bool := false

/-- The socket after a call. `appConnectSocket` and `infraAddAccepted` associate the entry, and
`setSocketClosed` takes its descriptor away. -/
def PolledSocket.after (s : PolledSocket) (c : SockCall) : PolledSocket :=
  let r := c.run s.data
  match c with
  | .connecting => ⟨r.data, true, true⟩
  | .accepted => ⟨r.data, true, false⟩
  | .closed => ⟨r.data, false, s.pollout⟩
  | _ => ⟨r.data, s.associated, polloutAfter s.pollout r.fx⟩

/-- All the calls on one socket. A write event is taken when `poll` reports `POLLOUT`. -/
def polledSocket : Machine PolledSocket SockCall where
  step s c :=
    if c.isWriteEvent && !(s.associated && s.pollout) then none
    else if (c.run s.data).returns then some (s.after c)
    else none

theorem polledSocket_step {s s' : PolledSocket} {c : SockCall}
    (h : polledSocket.step s c = some s') :
    (c.run s.data).returns = true ∧ s' = s.after c := by
  simp only [polledSocket] at h
  split at h
  · cases h
  split at h
  · rename_i hreturns
    cases h
    exact ⟨hreturns, rfl⟩
  · cases h

end NodeCpp
