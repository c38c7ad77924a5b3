import NodeCpp.Socket.Write
import NodeCpp.Socket.Coroutine

/-!
# The calls on a socket

Everything that updates the data of one socket, as one type: the calls of user
code and the steps the infrastructure takes on a socket. `SockCall.run` runs a
call; its effects on the rest of the system are the `Fx` of the result.

`Acts` says what a call other than a write event can do to the part of the socket
that sending and closing work on, `Moves` what any call does to its state. In the
states `Closing`, `ErrorClosing` and `Closed` the two close functions do nothing,
and so most calls leave the state alone and queue no close event. Two pieces of
code assign the state without looking at it: `appEnd`, and
`infraProcessRemoteEnded` behind the `end` handlers (`SockCall.keepsClosing`).
-/

namespace NodeCpp

open Lib

/-- The result of a call without its value. -/
def SockStep.void {α : Type} (s : SockStep α) : SockStep Unit :=
  ⟨s.data, s.fx, s.res.map fun _ => ()⟩

def SockStep.done (d : SocketData) (fx : List Fx) : SockStep Unit := ⟨d, fx, .ok ()⟩

/-- A coroutine step as a step of its socket. -/
def SockStep.ofCoro (d : SocketData) : Except Failure CoroStep → SockStep Unit
  | .ok s => .done s.data []
  | .error e => ⟨d, [], .error e⟩

inductive SockCall
  -- called by user code
  | write (data : List UInt8) (os : SendReply)
  | write2 (buff : List UInt8) (os : SendReply)
  | end_
  | destroy
  | setOption (ok : Bool)
  | pause (paused : Bool)
  | aRead (buff : Buffer) (minBytes maxBytes : Nat)
  | aSomeDataAvailable
  | aReadUntil (b : Buffer) (what : UInt8)
  | resumed (w : Await) (failed : Bool)
  -- done by the infrastructure
  | connecting
  | accepted
  | errorClose
  | readEvent (os : NetSocketManager.ReadReplies)
  | remoteEnded
  | afterRemoteEnded
  | writeEvent (os : NetSocketManagerBase.WriteEventReplies)
  | closed
  deriving DecidableEq, Repr

namespace SockCall

def ofUser : SockCall → Bool
  | .write .. | .write2 .. | .end_ | .destroy | .setOption _ | .pause _ | .aRead ..
  | .aSomeDataAvailable | .aReadUntil .. | .resumed .. => true
  | _ => false

def run (d : SocketData) : SockCall → SockStep Unit
  | .write data os => (NetSocketManagerBase.appWrite d data os).void
  | .write2 buff os => (NetSocketManagerBase.appWrite2 d buff os).void
  | .end_ => OSLayer.appEnd d
  | .destroy => OSLayer.appDestroy d
  | .setOption ok => OSLayer.appSetOption d ok
  | .pause paused => .done { d with paused := paused } []
  | .aRead buff minBytes maxBytes => .ofCoro d (SocketBase.aRead d buff minBytes maxBytes)
  | .aSomeDataAvailable => .done (SocketBase.aSomeDataAvailable d).data []
  | .aReadUntil b what => .ofCoro d (SocketBase.aReadUntil d b what)
  | .resumed w failed => .ofCoro d (SocketBase.resume d failed w)
  -- the two ends of `appConnectSocket`
  | .connecting =>
      if d.state ≠ .Uninitialized then ⟨d, [], .error .assertion⟩
      else .done { d with state := .Connecting, refed := true } []
  -- `infraAddAccepted`, on a socket `registerAndAssignSocket` has found to be new
  | .accepted =>
      if d.state ≠ .Uninitialized ∨ d.writeBuffer.usedSize ≠ 0 ∨ d.remoteEnded ∨ d.paused then
        ⟨d, [], .error .assertion⟩
      else .done { d with state := .Connected, refed := true } []
  | .errorClose => .done (errorCloseSocket d).1 (errorCloseSocket d).2
  | .readEvent os => (NetSocketManager.infraProcessReadEvent d os).void
  | .remoteEnded =>
      .done (NetSocketManager.infraProcessRemoteEnded d).1
        (NetSocketManager.infraProcessRemoteEnded d).2.1
  | .afterRemoteEnded =>
      .done (NetSocketManager.afterRemoteEnded d).1 (NetSocketManager.afterRemoteEnded d).2
  | .writeEvent os => (NetSocketManagerBase.infraProcessWriteEvent d os).void
  | .closed => .done { d with state := .Closed } []

end SockCall

namespace SocketBase

/-- A coroutine step touches `readBuffer` and `ahd_read` only. -/
def ReadsOnly (d : SocketData) (s : CoroStep) : Prop :=
  ∃ readBuffer ahdRead, s.data = { d with readBuffer := readBuffer, ahdRead := ahdRead }

variable {d : SocketData}

theorem resumeRead_readsOnly {buff : Buffer} {minBytes maxBytes : Nat} {s : CoroStep}
    (h : resumeRead d buff minBytes maxBytes = .ok s) : ReadsOnly d s := by
  obtain ⟨⟨c, b⟩, -, h⟩ := bind_eq_ok h
  dsimp only at h
  split at h
  · cases h
  · cases h
    exact ⟨_, _, rfl⟩

theorem aRead_readsOnly {buff : Buffer} {minBytes maxBytes : Nat} {s : CoroStep}
    (h : aRead d buff minBytes maxBytes = .ok s) : ReadsOnly d s := by
  unfold aRead at h
  dsimp only at h
  split at h
  · cases h
  split at h
  · exact resumeRead_readsOnly h
  · cases h
    exact ⟨_, _, rfl⟩

theorem readUntilLoop_readsOnly {what : UInt8} {rounds : Nat} {b : Buffer} {s : CoroStep}
    (h : readUntilLoop what rounds d b = .ok s) : ReadsOnly d s := by
  induction rounds generalizing d b s with
  | zero => cases h
  | succ rounds ih =>
    unfold readUntilLoop at h
    obtain ⟨⟨c, b', rus⟩, -, h⟩ := bind_eq_ok h
    cases rus with
    | inProgress =>
      dsimp only at h
      split at h
      · obtain ⟨s', hs', h⟩ := bind_eq_ok h
        cases h
        exact (ih hs' :)
      · cases h
        exact ⟨_, _, rfl⟩
    | ok => cases h; exact ⟨_, _, rfl⟩
    | insufficientBuffer => cases h; exact ⟨_, _, rfl⟩
    | timeout => cases h
    | failed => cases h

theorem resume_readsOnly {failed : Bool} {w : Await} {s : CoroStep}
    (h : resume d failed w = .ok s) : ReadsOnly d s := by
  cases w with
  | read buff minBytes maxBytes =>
    simp only [resume] at h
    split at h
    · cases h; exact ⟨_, _, rfl⟩
    · exact resumeRead_readsOnly h
  | someDataAvailable => cases h; exact ⟨_, _, rfl⟩
  | readUntil b what =>
    simp only [resume] at h
    split at h
    · cases h; exact ⟨_, _, rfl⟩
    · split at h
      · cases h
      · exact readUntilLoop_readsOnly h

end SocketBase

/-! ## What a call other than a write event does -/

/-- The part of a socket that sending and closing work on. -/
def SocketData.outbound (d : SocketData) : Nat × SockState × Fifo × List UInt8 :=
  (d.index, d.state, d.writeBuffer, d.ahdWrite)

/-- The effects that queue no close event, leave `POLLOUT` alone and shut the sending side down
only when `writeBuffer` is empty. -/
def Fx.silent (d : SocketData) : Fx → Bool
  | .setPollout | .unsetPollout | .queueClose _ => false
  | .shutdownSend => d.writeBuffer.empty
  | _ => true

/-- What a call does to the outbound part of its socket, with which effects. A socket that is
closing changes its state only if the call `reopens`. -/
inductive Acts (reopens : Prop) (d d' : SocketData) (fx : List Fx) : Prop
  | rests (hfx : fx.all (·.silent d)) (h : d'.outbound = d.outbound)
  | moves (st : SockState) (hst : st.closing = false) (hopen : d.state.closing → reopens)
      (hfx : fx.all (·.silent d)) (h : d'.outbound = { d with state := st }.outbound)
  | closes (err : Bool) (hopen : d.state.closing → reopens) (before : List Fx)
      (hbefore : before.all (·.silent d)) (hfx : fx = before ++ [.queueClose err])
      (h : d'.outbound = { d with state := if err then .ErrorClosing else .Closing }.outbound)
  | appends (bytes : List UInt8)
      (hfx : fx = [] ∨ bytes ≠ [] ∧ ∃ sent, fx = [.sent sent, .setPollout])
      (h : d'.outbound = { d with writeBuffer := d.writeBuffer.append bytes }.outbound)
  | stores (buff : List UInt8) (hwaits : d.writeBuffer.contents ≠ []) (hfx : fx = [])
      (h : d'.outbound = { d with ahdWrite := buff }.outbound)
  | closed (hfx : fx = []) (h : d'.outbound = { d with state := .Closed }.outbound)

namespace Acts

variable {reopens : Prop} {d d₁ d' : SocketData}

theorem closeWith (err : Bool) (before : List Fx) (hbefore : before.all (·.silent d))
    (hd₁ : d₁.outbound = d.outbound)
    (h : d'.outbound =
      (closeWith (if err then .ErrorClosing else .Closing) err d₁).1.outbound) :
    Acts reopens d d'
      (before ++ (NodeCpp.closeWith (if err then .ErrorClosing else .Closing) err d₁).2) := by
  have hstate : d₁.state = d.state := congrArg (·.2.1) hd₁
  unfold NodeCpp.closeWith at h ⊢
  split at h
  · rename_i hclosing
    rw [if_pos hclosing, List.append_nil]
    exact .rests hbefore (h.trans hd₁)
  · rename_i hclosing
    rw [if_neg hclosing]
    refine .closes err (fun hd => absurd (hstate ▸ hd) hclosing) before hbefore rfl ?_
    simp only [SocketData.outbound, Prod.mk.injEq] at h hd₁ ⊢
    grind

theorem closeSocket (before : List Fx) (hbefore : before.all (·.silent d)) :
    Acts reopens d (closeSocket d).1 (before ++ (closeSocket d).2) :=
  closeWith false before hbefore rfl rfl

theorem errorCloseSocket : Acts reopens d (errorCloseSocket d).1 (errorCloseSocket d).2 :=
  closeWith true [] rfl rfl rfl

theorem appEnd :
    Acts ((d.writeBuffer.empty && d.remoteEnded) = false) d (OSLayer.appEnd d).data
      (OSLayer.appEnd d).fx := by
  simp only [OSLayer.appEnd]
  split
  · exact .rests rfl rfl
  · split
    · rename_i hempty
      split
      · exact closeSocket [.shutdownSend] (by simp [Fx.silent, hempty])
      · rename_i hended
        exact .moves .LocalEnded rfl (fun _ => by simp [hended]) (by simp [Fx.silent, hempty]) rfl
    · rename_i hempty
      exact .moves .LocalEnding rfl (fun _ => by simp [hempty]) rfl rfl

theorem writeToEmpty (data : List UInt8) (os : SendReply) :
    Acts reopens d (NetSocketManagerBase.writeToEmpty d data os).data
      (NetSocketManagerBase.writeToEmpty d data os).fx := by
  have hle := internalSendPacket_sentSize_le data.length os
  simp only [NetSocketManagerBase.writeToEmpty]
  split
  · exact errorCloseSocket
  · split
    · exact .rests rfl rfl
    · refine .appends _ (.inr ⟨?_, _, rfl⟩) rfl
      rw [ne_eq, List.drop_eq_nil_iff]
      omega

theorem appWrite (data : List UInt8) (os : SendReply) :
    Acts reopens d (NetSocketManagerBase.appWrite d data os).data
      (NetSocketManagerBase.appWrite d data os).fx := by
  simp only [NetSocketManagerBase.appWrite]
  split
  · exact .rests rfl rfl
  · split
    · exact errorCloseSocket
    · split
      · exact writeToEmpty data os
      · exact .appends _ (.inl rfl) rfl

theorem appWrite2 (buff : List UInt8) (os : SendReply) :
    Acts reopens d (NetSocketManagerBase.appWrite2 d buff os).data
      (NetSocketManagerBase.appWrite2 d buff os).fx := by
  simp only [NetSocketManagerBase.appWrite2]
  split
  · exact .rests rfl rfl
  · split
    · exact errorCloseSocket
    · split
      · exact writeToEmpty buff os
      · rename_i hused
        split
        · exact .appends _ (.inl rfl) rfl
        · split
          · exact .rests rfl rfl
          · -- the buffer is kept behind what waits in `writeBuffer`
            exact .stores buff (by simpa using hused) rfl rfl

theorem readEventReceived (requiredMinSz : Nat) (readBuffer : CircularByteBuffer)
    (bytes : List UInt8) (readOk : Bool) :
    Acts reopens d (NetSocketManager.readEventReceived d requiredMinSz readBuffer bytes readOk).data
      (NetSocketManager.readEventReceived d requiredMinSz readBuffer bytes readOk).fx := by
  simp only [NetSocketManager.readEventReceived]
  split
  · exact closeWith true [.received bytes] rfl rfl rfl
  · repeat' split
    all_goals exact .rests rfl rfl

theorem infraProcessReadEvent (os : NetSocketManager.ReadReplies) :
    Acts reopens d (NetSocketManager.infraProcessReadEvent d os).data
      (NetSocketManager.infraProcessReadEvent d os).fx := by
  simp only [NetSocketManager.infraProcessReadEvent]
  split
  · split
    · exact .rests rfl rfl
    · exact readEventReceived ..
  · split
    · exact .rests rfl rfl
    · split
      · split <;> exact .rests rfl rfl
      · exact errorCloseSocket

theorem afterRemoteEnded :
    Acts (d.allowHalfOpen = false) d (NetSocketManager.afterRemoteEnded d).1
      (NetSocketManager.afterRemoteEnded d).2 := by
  simp only [NetSocketManager.afterRemoteEnded]
  split
  · exact closeSocket [] rfl
  · split
    · rename_i hclose
      have hopen : d.allowHalfOpen = false := by simp_all
      split
      · exact .moves .LocalEnding rfl (fun _ => hopen) rfl rfl
      · rename_i hempty
        -- the socket starts to close from `LocalEnded`, wherever it came from
        exact .closes false (fun _ => hopen) [.shutdownSend]
          (by simpa [Fx.silent] using hempty) rfl rfl
    · exact .rests rfl rfl

theorem ofCoro {x : Except Failure CoroStep} (h : ∀ s, x = .ok s → SocketBase.ReadsOnly d s) :
    Acts reopens d (SockStep.ofCoro d x).data (SockStep.ofCoro d x).fx := by
  cases x with
  | error e => exact .rests rfl rfl
  | ok s =>
    obtain ⟨readBuffer, ahdRead, heq⟩ := h s rfl
    refine .rests rfl ?_
    show s.data.outbound = d.outbound
    rw [heq]
    rfl

end Acts

def SockCall.isWriteEvent : SockCall → Bool
  | .writeEvent _ => true
  | _ => false

/-- The calls that leave a closing socket closing: `end()` assigns another state unless nothing
is left to send and the remote end has been seen, and so does the code behind the `end` handlers
unless half-open sockets are allowed. -/
def SockCall.keepsClosing (d : SocketData) : SockCall → Bool
  | .end_ => d.writeBuffer.empty && d.remoteEnded
  | .afterRemoteEnded => d.allowHalfOpen
  | _ => true

theorem SockCall.run_acts (d : SocketData) {c : SockCall} (hc : c.isWriteEvent = false) :
    Acts (c.keepsClosing d = false) d (c.run d).data (c.run d).fx := by
  cases c with
  | write data os => exact .appWrite data os
  | write2 buff os => exact .appWrite2 buff os
  | end_ => exact .appEnd
  | destroy =>
    simp only [run, OSLayer.appDestroy]
    split
    · exact .rests rfl rfl
    · exact .closeSocket [.lingerZero] rfl
  | setOption ok =>
    simp only [run, OSLayer.appSetOption]
    split
    · exact .rests rfl rfl
    · split
      · exact .rests rfl rfl
      · exact .errorCloseSocket
  | pause paused => exact .rests rfl rfl
  | aRead buff minBytes maxBytes => exact .ofCoro fun s => SocketBase.aRead_readsOnly
  | aSomeDataAvailable =>
    simp only [run, SocketBase.aSomeDataAvailable, SockStep.done]
    split <;> exact .rests rfl rfl
  | aReadUntil b what => exact .ofCoro fun s => SocketBase.readUntilLoop_readsOnly
  | resumed w failed => exact .ofCoro fun s => SocketBase.resume_readsOnly
  | connecting =>
    simp only [run]
    split
    · exact .rests rfl rfl
    · rename_i hnew
      exact .moves .Connecting rfl (by simp_all [SockState.closing]) rfl rfl
  | accepted =>
    simp only [run]
    split
    · exact .rests rfl rfl
    · rename_i hnew
      exact .moves .Connected rfl (by simp_all [SockState.closing]) rfl rfl
  | errorClose => exact .errorCloseSocket
  | readEvent os => exact .infraProcessReadEvent os
  | remoteEnded =>
    simp only [run, NetSocketManager.infraProcessRemoteEnded]
    split <;> exact .rests rfl rfl
  | afterRemoteEnded => exact .afterRemoteEnded
  | writeEvent os => cases hc
  | closed => exact .closed rfl rfl

/-! ## What a call does to the state -/

def closeEvents : List Fx → List Bool :=
  List.filterMap fun
    | .queueClose err => some err
    | _ => none

theorem closeEvents_append (fx fx' : List Fx) :
    closeEvents (fx ++ fx') = closeEvents fx ++ closeEvents fx' := List.filterMap_append

/-- The moves of a socket's state, with the close events queued on the way: it stays, it goes
to a state that is not closing, it starts to close and queues one event, or it is closed. -/
inductive StateMove : SockState → SockState → List Bool → Prop
  | keep (st : SockState) : StateMove st st []
  | move (st : SockState) {st' : SockState} (h : st'.closing = false) : StateMove st st' []
  | close (st : SockState) : StateMove st .Closing [false]
  | errorClose (st : SockState) : StateMove st .ErrorClosing [true]
  | closed (st : SockState) : StateMove st .Closed []

/-- A socket that starts to close queues one event, any other move none. -/
theorem StateMove.events {st st' : SockState} {errs : List Bool} (h : StateMove st st' errs) :
    errs = [] ∨ (errs.length = 1 ∧ st'.closing) := by
  cases h with
  | keep | move | closed => exact .inl rfl
  | close | errorClose => exact .inr ⟨rfl, rfl⟩

theorem StateMove.toBeClosed {st st' : SockState} {errs : List Bool} (h : StateMove st st' errs)
    (hst' : st'.toBeClosed) : st' = st ∨ errs ≠ [] := by
  cases h with
  | keep => exact .inl rfl
  | move hopen => cases st' <;> cases hst' <;> cases hopen
  | close | errorClose => exact .inr (by simp)
  | closed => cases hst'

/-- From `d` to `d'` with effects `fx`, the socket keeps its index and moves its state. A socket
that is closing rests or becomes `Closed`, and queues nothing, unless the call `reopens`. -/
structure Moves (reopens : Prop) (d d' : SocketData) (fx : List Fx) : Prop where
  index : d'.index = d.index
  state : StateMove d.state d'.state (closeEvents fx)
  closing : d.state.closing → reopens ∨
    ((d'.state = d.state ∨ d'.state = .Closed) ∧ closeEvents fx = [])

namespace Moves

variable {reopens : Prop} {d d₁ d' : SocketData} {fx : List Fx}

theorem keep (hindex : d'.index = d.index) (hstate : d'.state = d.state)
    (hfx : closeEvents fx = []) : Moves reopens d d' fx :=
  ⟨hindex, by rw [hstate, hfx]; exact .keep _, fun _ => .inr ⟨.inl hstate, hfx⟩⟩

theorem move (hindex : d'.index = d.index) (hst : d'.state.closing = false)
    (hopen : d.state.closing → reopens) (hfx : closeEvents fx = []) : Moves reopens d d' fx :=
  ⟨hindex, by rw [hfx]; exact .move _ hst, fun h => .inl (hopen h)⟩

theorem close (err : Bool) (hindex : d'.index = d.index)
    (hst : d'.state = if err then .ErrorClosing else .Closing)
    (hopen : d.state.closing → reopens) (hfx : closeEvents fx = [err]) : Moves reopens d d' fx := by
  refine ⟨hindex, ?_, fun h => .inl (hopen h)⟩
  rw [hst, hfx]
  cases err with
  | false => exact .close _
  | true => exact .errorClose _

theorem of_eq (h : Moves reopens d₁ d' fx) (hindex : d₁.index = d.index)
    (hstate : d₁.state = d.state) : Moves reopens d d' fx :=
  ⟨h.index.trans hindex, hstate ▸ h.state, hstate ▸ h.closing⟩

theorem cons (h : Moves reopens d d' fx) {e : Fx} (he : closeEvents [e] = []) :
    Moves reopens d d' (e :: fx) := by
  have hcons : closeEvents (e :: fx) = closeEvents fx := by
    rw [show e :: fx = [e] ++ fx from rfl, closeEvents_append, he, List.nil_append]
  exact ⟨h.index, hcons ▸ h.state, hcons ▸ h.closing⟩

theorem append (h : Moves reopens d d' fx) {fx' : List Fx} (hfx : closeEvents fx' = []) :
    Moves reopens d d' (fx ++ fx') := by
  have happend : closeEvents (fx ++ fx') = closeEvents fx := by
    rw [closeEvents_append, hfx, List.append_nil]
  exact ⟨h.index, happend ▸ h.state, happend ▸ h.closing⟩

end Moves

theorem closeEvents_silent {d : SocketData} {fx : List Fx} (h : fx.all (·.silent d)) :
    closeEvents fx = [] := by
  refine List.filterMap_eq_nil_iff.mpr fun e he => ?_
  have hsilent := List.all_eq_true.mp h e he
  cases e with
  | queueClose err => cases hsilent
  | _ => rfl

theorem Acts.move {reopens : Prop} {d d' : SocketData} {fx : List Fx}
    (h : Acts reopens d d' fx) : Moves reopens d d' fx := by
  cases h with
  | rests hfx h => exact .keep (congrArg (·.1) h) (congrArg (·.2.1) h) (closeEvents_silent hfx)
  | moves st hst hopen hfx h =>
    have hstate : d'.state = st := congrArg (·.2.1) h
    exact .move (congrArg (·.1) h) (hstate ▸ hst) hopen (closeEvents_silent hfx)
  | closes err hopen before hbefore hfx h =>
    refine .close err (congrArg (·.1) h) (congrArg (·.2.1) h) hopen ?_
    rw [hfx, closeEvents_append, closeEvents_silent hbefore]
    rfl
  | appends bytes hfx h =>
    refine .keep (congrArg (·.1) h) (congrArg (·.2.1) h) ?_
    rcases hfx with rfl | ⟨-, sent, rfl⟩ <;> rfl
  | stores buff hwaits hfx h =>
    subst hfx
    exact .keep (congrArg (·.1) h) (congrArg (·.2.1) h) rfl
  | closed hfx h =>
    have hst : d'.state = .Closed := congrArg (·.2.1) h
    subst hfx
    exact ⟨congrArg (·.1) h, hst ▸ .closed _, fun _ => .inr ⟨.inr hst, rfl⟩⟩

namespace Moves

variable {reopens : Prop}

theorem closeSocket (d : SocketData) : Moves reopens d (closeSocket d).1 (closeSocket d).2 :=
  (Acts.closeSocket [] rfl).move

theorem errorCloseSocket (d : SocketData) :
    Moves reopens d (errorCloseSocket d).1 (errorCloseSocket d).2 := Acts.errorCloseSocket.move

open NetSocketManagerBase in
theorem writeEventDone (d : SocketData) :
    Moves reopens d (writeEventDone d).1 (writeEventDone d).2 := by
  simp only [NetSocketManagerBase.writeEventDone]
  split
  · split
    · exact ((closeSocket d).cons rfl).append rfl
    · exact .move rfl rfl (by simp_all [SockState.closing]) rfl
  · exact keep rfl rfl rfl

/-- A failed send closes the socket, and so there is no end of sending to complete. -/
theorem writeEventDone_errorCloseSocket (d : SocketData) :
    NetSocketManagerBase.writeEventDone (NodeCpp.errorCloseSocket d).1 =
      ((NodeCpp.errorCloseSocket d).1, [.unsetPollout]) := by
  have hne : (NodeCpp.errorCloseSocket d).1.state ≠ .LocalEnding := by
    simp only [NodeCpp.errorCloseSocket, closeWith]
    split
    · intro h
      simp_all [SockState.closing]
    · simp
  simp [NetSocketManagerBase.writeEventDone, hne]

open NetSocketManagerBase in
theorem writeEventDrained (d : SocketData) (coro : SendReply) :
    Moves reopens d (writeEventDrained d coro).data (writeEventDrained d coro).fx := by
  simp only [NetSocketManagerBase.writeEventDrained]
  split
  · split
    · simp only [writeEventDone_errorCloseSocket]
      exact (errorCloseSocket d).append rfl
    · split
      · refine cons ?_ rfl
        exact (writeEventDone _).of_eq rfl rfl
      · exact keep rfl rfl rfl
  · exact writeEventDone d

open NetSocketManagerBase in
theorem infraProcessWriteEvent (d : SocketData) (os : WriteEventReplies) :
    Moves reopens d (infraProcessWriteEvent d os).data (infraProcessWriteEvent d os).fx := by
  simp only [NetSocketManagerBase.infraProcessWriteEvent]
  split
  · split
    · split
      · exact .move rfl rfl (by simp_all [SockState.closing]) rfl
      · exact .move rfl rfl (by simp_all [SockState.closing]) rfl
    · exact errorCloseSocket d
  · split
    · split
      · refine cons ?_ rfl
        exact (errorCloseSocket _).of_eq rfl rfl
      · split
        · refine cons ?_ rfl
          exact (writeEventDrained _ _).of_eq rfl rfl
        · split
          · exact keep rfl rfl rfl
          · exact keep rfl rfl rfl
    · exact keep rfl rfl rfl

end Moves

/-- Every call keeps the index of its socket and makes one of the moves. -/
theorem SockCall.run_moves (d : SocketData) (c : SockCall) :
    Moves (c.keepsClosing d = false) d (c.run d).data (c.run d).fx := by
  cases hc : c.isWriteEvent with
  | false => exact (run_acts d hc).move
  | true =>
    cases c with
    | writeEvent os => exact .infraProcessWriteEvent d os
    | _ => cases hc

/-! ## When the steps of `infraCheckPollFdSet` meet their assertions -/

/-- What the read and the write event rely on. A registered reader has room in `readBuffer`. A
connecting socket that succeeds has nothing to send; any other socket has something to send, and
what the kernel leaves of it is nothing or more than it takes. -/
def SockCall.accepts (d : SocketData) : SockCall → Bool
  | .readEvent _ => d.ahdRead.isNone || d.readBuffer.hasRoom
  | .writeEvent os =>
      if d.state = .Connecting then !os.success || d.writeBuffer.empty
      else
        let w := d.writeBuffer.write os.buf
        !d.writeBuffer.empty &&
          (decide (w.2.ret = .failed) || w.1.empty || decide (w.2.sentSize < w.1.usedSize))
  | _ => true

open NetSocketManager in
theorem SockCall.readEvent_returns {d : SocketData} {os : ReadReplies}
    (h : (SockCall.readEvent os).accepts d) : ∃ next, (infraProcessReadEvent d os).res = .ok next := by
  simp only [accepts, Bool.or_eq_true, Option.isNone_iff_eq_none] at h
  simp only [infraProcessReadEvent]
  cases hreader : d.ahdRead with
  | none =>
    obtain ⟨r, hr⟩ :=
      internalGetPacketBytes2_ok (show recvBufferCapacity ≠ 0 by decide) os.first
    simp only [hr]
    repeat' split
    all_goals exact ⟨_, rfl⟩
  | some minSz =>
    have hroom := h.resolve_left (by simp [hreader])
    obtain ⟨x, hx⟩ := CircularByteBuffer.read_ok hroom os.first os.second minSz
    have hget : infraGetPacketBytes2 d.readBuffer os minSz =
        .ok (x.1, x.2.bytes, x.2.ret == .ok || x.2.ret == .pending) := by
      simp only [infraGetPacketBytes2, hx]
      rfl
    simp only [hget, readEventReceived]
    repeat' split
    all_goals exact ⟨_, rfl⟩

open NetSocketManagerBase in
theorem SockCall.writeEvent_returns {d : SocketData} {os : WriteEventReplies}
    (h : (SockCall.writeEvent os).accepts d) : ∃ e, (infraProcessWriteEvent d os).res = .ok e := by
  simp only [accepts] at h
  simp only [infraProcessWriteEvent]
  by_cases hconn : d.state = .Connecting
  · simp only [hconn, if_true, Bool.or_eq_true, Bool.not_eq_true'] at h ⊢
    rcases h with h | h <;> simp only [h, Bool.false_eq_true, if_false]
    · exact ⟨_, rfl⟩
    · split <;> exact ⟨_, rfl⟩
  · simp only [hconn, if_false, Bool.and_eq_true, Bool.or_eq_true, decide_eq_true_eq] at h ⊢
    obtain ⟨hne, hleft⟩ := h
    simp only [hne, if_true]
    generalize d.writeBuffer.write os.buf = w at hleft ⊢
    by_cases hfailed : w.2.ret = .failed
    · rw [if_pos hfailed]
      exact ⟨_, rfl⟩
    · rw [if_neg hfailed]
      by_cases hdrained : w.1.empty
      · rw [if_pos hdrained]
        simp only [writeEventDrained]
        repeat' split
        all_goals exact ⟨_, rfl⟩
      · rw [if_neg hdrained, if_neg (not_not.mpr ((hleft.resolve_left (by simp [hfailed, hdrained]))))]
        exact ⟨_, rfl⟩

end NodeCpp
