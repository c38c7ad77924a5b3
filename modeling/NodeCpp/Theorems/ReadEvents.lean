import NodeCpp.Buffer.Storage
import NodeCpp.Loop.Runs

/-!
# Read events

What a read event does when the kernel has nothing to read after all, and whether the read events
of a socket let an `a_read` complete.
-/

namespace NodeCpp

open Lib

/-! ## A receive that would block -/

/-- What a read event on the socket in a slot can change. -/
structure ReadView where
  state : SockState
  remoteEnded : Bool
  ahdRead : Option Nat
  readBuffer : CircularByteBuffer
  pollMask : Option (Bool × Bool)
  pendingCloseEvents : List Pending

def Registry.readView (r : Registry) (cur : Nat) : Except Failure ReadView := do
  let (_, obj) ← r.client cur
  .ok { state := obj.data.state
        remoteEnded := obj.data.remoteEnded
        ahdRead := obj.data.ahdRead
        readBuffer := obj.data.readBuffer
        pollMask := (r.ioSockets.slots[cur]?).map fun s => (s.pfd.pollin, s.pfd.pollout)
        pendingCloseEvents := (r.queue .close).events }

/-- What the loop does with a read event, if no assertion fails on the way. -/
def Loop.readEvent (k : Ctl) (r : Registry) (cur : Nat) (obj : SocketObj) (revents : Revents)
    (pos : PollPos) (env : Env) : Option (Ctl × Registry) :=
  let p := infraProcessReadEvent k cur obj revents pos env
  (registry.run r p.1).map fun r' => (p.2 r', r')

namespace NetSocketManager

theorem infraProcessReadEvent_pollChange (d : SocketData) (os : ReadReplies) :
    (infraProcessReadEvent d os).fx.filterMap Fx.pollChange = [] := by
  have herror : ∀ d, (errorCloseSocket d).2.filterMap Fx.pollChange = [] := by
    intro d
    unfold errorCloseSocket closeWith
    split <;> rfl
  unfold infraProcessReadEvent
  split
  · split
    · rfl
    · unfold readEventReceived
      split
      · exact herror _
      · dsimp only
        repeat' split
        all_goals rfl
  · split
    · rfl
    · split
      · split <;> rfl
      · exact herror d

/-- Without a reader, a receive that would block counts as a failed one. -/
theorem infraProcessReadEvent_wouldBlock_none {d : SocketData} (hreader : d.ahdRead = none)
    {os : ReadReplies} (hblock : os.first = .wouldBlock) :
    infraProcessReadEvent d os = ⟨(errorCloseSocket d).1, (errorCloseSocket d).2, .ok .done⟩ := by
  simp [infraProcessReadEvent, hreader, hblock, internalGetPacketBytes2, recvBufferCapacity]

/-- With a reader, a receive that would block counts as one without bytes. -/
theorem infraProcessReadEvent_wouldBlock_some {d : SocketData} {minBytes : Nat}
    (hreader : d.ahdRead = some minBytes) (hroom : d.readBuffer.hasRoom) {os : ReadReplies}
    (hblock : os.first = .wouldBlock) :
    infraProcessReadEvent d os = ⟨{ d with ahdRead := none }, [.received []],
      .ok (.resume (!decide (minBytes ≤ d.readBuffer.usedSize)) true)⟩ := by
  have hread := CircularByteBuffer.read_wouldBlock hroom os.second minBytes
  have hget : infraGetPacketBytes2 d.readBuffer os minBytes = .ok (d.readBuffer, [], true) := by
    rw [infraGetPacketBytes2, hblock, hread]
    rfl
  simp [infraProcessReadEvent, hreader, hget, readEventReceived]

end NetSocketManager

namespace Registry

variable {r r' : Registry} {cur o : Nat} {obj : SocketObj} {os : NetSocketManager.ReadReplies}

theorem entrySock_readEvent {next : NetSocketManager.ReadNext}
    (hclient : r.client cur = .ok (o, obj))
    (hres : (NetSocketManager.infraProcessReadEvent obj.data os).res = .ok next) :
    let step := NetSocketManager.infraProcessReadEvent obj.data os
    r.entrySock cur (.readEvent os) =
      .ok ({ r with sockets := r.sockets.set o { obj with data := step.data } }.pushAll .close
        ((closeEvents step.fx).map fun err =>
          { idx := (r.entry cur).index, err := err, owner := .client o })) := by
  have hpoll := NetSocketManager.infraProcessReadEvent_pollChange obj.data os
  simp only [entrySock, hclient, sockAt, SockCall.run, SockStep.void, hres, hpoll, bind,
    Except.bind, Except.map, List.foldlM_nil, pure, Except.pure, stepIndex]

theorem client_setData (hclient : r.client cur = .ok (o, obj)) (d : SocketData)
    (queue : QueueId → EventQueue) :
    ({ r with sockets := r.sockets.set o { obj with data := d }, queue := queue } : Registry).client
      cur = .ok (o, { obj with data := d }) := by
  obtain ⟨s, -, hem, hentry, hlive⟩ := client_eq_ok hclient
  obtain ⟨hget, halive⟩ := liveSocket_eq_some hlive
  obtain ⟨hlt, -⟩ := List.getElem?_eq_some_iff.mp hget
  have hnew : ({ r with sockets := r.sockets.set o { obj with data := d }, queue := queue } :
      Registry).liveSocket o = some { obj with data := d } := by
    simp [liveSocket, List.getElem?_set_self hlt, halive]
  have hsame : (({ r with sockets := r.sockets.set o { obj with data := d }, queue := queue } :
      Registry).entry cur).emitter = some (.client o) := by
    rw [← hem, ← hentry]
    rfl
  simp only [client, hsame, hnew]

theorem readView_readEvent (hclient : r.client cur = .ok (o, obj)) (d : SocketData)
    (evs : List Pending) :
    ({ r with sockets := r.sockets.set o { obj with data := d } }.pushAll .close evs).readView cur =
      .ok { state := d.state
            remoteEnded := d.remoteEnded
            ahdRead := d.ahdRead
            readBuffer := d.readBuffer
            pollMask := (r.ioSockets.slots[cur]?).map fun s => (s.pfd.pollin, s.pfd.pollout)
            pendingCloseEvents := (r.queue .close).events ++ evs } := by
  simp only [readView, pushAll, client_setData hclient, Function.update_self,
    EventQueue.events_pushAll]
  rfl

end Registry

namespace Loop

open NetSocketManager

variable {r : Registry} {cur o : Nat} {obj : SocketObj} {env : Env}

theorem readEvent_eq {next : ReadNext} (hclient : r.client cur = .ok (o, obj))
    (hres : (NetSocketManager.infraProcessReadEvent obj.data env.read).res = .ok next) (k : Ctl)
    (revents : Revents) (pos : PollPos) :
    readEvent k r cur obj revents pos env =
      some ((infraProcessReadEvent k cur obj revents pos env).2 r,
        { r with sockets := r.sockets.set o { obj with
            data := (NetSocketManager.infraProcessReadEvent obj.data env.read).data } }.pushAll .close
          ((closeEvents (NetSocketManager.infraProcessReadEvent obj.data env.read).fx).map fun err =>
            { idx := (r.entry cur).index, err := err, owner := .client o })) := by
  have hrun := Registry.entrySock_readEvent hclient hres
  simp only [readEvent, infraProcessReadEvent, Machine.run, registry, Op.run, hrun,
    Except.toOption, Option.bind_some, Option.map_some]

end Loop

/-- A read event whose receive would block leaves everything as it was and runs no user code
exactly on a socket without a reader that is closing already. -/
theorem wouldBlock_unchanged_iff {r : Registry} {cur o : Nat} {obj : SocketObj}
    (hclient : r.client cur = .ok (o, obj))
    (hasked : obj.data.ahdRead.isSome → obj.data.readBuffer.hasRoom) {env : Env}
    (hblock : env.read.first = .wouldBlock) (k : Ctl) (revents : Revents) (pos : PollPos) :
    (∃ w, Loop.readEvent k r cur obj revents pos env = some w ∧
        w.2.readView cur = r.readView cur ∧
        w.1 = k.go (.infraProcessWriteEvent cur revents pos)) ↔
      obj.data.ahdRead = none ∧ obj.data.state.closing := by
  have hbefore : r.readView cur = .ok
      { state := obj.data.state
        remoteEnded := obj.data.remoteEnded
        ahdRead := obj.data.ahdRead
        readBuffer := obj.data.readBuffer
        pollMask := (r.ioSockets.slots[cur]?).map fun s => (s.pfd.pollin, s.pfd.pollout)
        pendingCloseEvents := (r.queue .close).events } := by
    simp only [Registry.readView, hclient]
    rfl
  cases hreader : obj.data.ahdRead with
  | some minBytes =>
    have hstep := NetSocketManager.infraProcessReadEvent_wouldBlock_some hreader
      (hasked (by rw [hreader]; rfl)) hblock
    constructor
    · rintro ⟨w, hw, hview, -⟩
      rw [Loop.readEvent_eq hclient (congrArg SockStep.res hstep) k revents pos] at hw
      cases hw
      rw [Registry.readView_readEvent hclient, hbefore, hstep] at hview
      -- the reader that waited has been resumed
      have hgone : none = obj.data.ahdRead := congrArg ReadView.ahdRead (Except.ok.inj hview)
      rw [hreader] at hgone
      cases hgone
    · rintro ⟨hnone, -⟩
      cases hnone
  | none =>
    have hstep := NetSocketManager.infraProcessReadEvent_wouldBlock_none hreader hblock
    rw [Loop.readEvent_eq hclient (congrArg SockStep.res hstep) k revents pos]
    constructor
    · rintro ⟨w, hw, hview, -⟩
      cases hw
      rw [Registry.readView_readEvent hclient, hbefore, hstep] at hview
      have hstate : (errorCloseSocket obj.data).1.state = obj.data.state :=
        congrArg ReadView.state (Except.ok.inj hview)
      -- the socket is closed with an error unless it is closing
      refine ⟨rfl, ?_⟩
      by_contra hopen
      simp only [errorCloseSocket, closeWith, hopen] at hstate
      rw [← hstate] at hopen
      exact hopen rfl
    · rintro ⟨-, hclosing⟩
      have hidle : errorCloseSocket obj.data = (obj.data, []) := if_pos hclosing
      refine ⟨_, rfl, ?_, ?_⟩
      · rw [Registry.readView_readEvent hclient, hbefore, hstep, hidle, hreader]
        simp [closeEvents]
      · simp only [Loop.infraProcessReadEvent, hstep]

theorem wouldBlock_unchanged_destroyed :
    ∃ w o obj, Loop.run Loop.init [.call (.createSocket 5), .call (.connect 0),
        .call (.sock 0 .destroy), .ret] = some w ∧ w.2.client 1 = .ok (o, obj) ∧
      ∃ w', Loop.readEvent w.1 w.2 1 obj { pollin := true } ⟨2, 1, 1⟩ {} = some w' ∧
        w'.2.readView 1 = w.2.readView 1 ∧
        w'.1 = w.1.go (.infraProcessWriteEvent 1 { pollin := true } ⟨2, 1, 1⟩) := by
  refine ⟨_, _, _, rfl, rfl, (wouldBlock_unchanged_iff rfl ?_ rfl _ _ _).mpr ⟨rfl, rfl⟩⟩
  intro hreader
  cases hreader

/-- A client connects and its connect handler makes some calls; in the next iteration `poll`
reports it readable, but the receive would block. -/
def connectedThenReadable (calls : List Action) : List Action :=
  [Action.call (.createSocket 5), .call (.connect 0), .ret] ++ List.replicate 3 (Action.infra {}) ++
    [Action.infra { ready := fun _ => { pollout := true } }, .infra {}, .infra {}] ++ calls ++
    [Action.ret] ++ List.replicate 9 (Action.infra {}) ++
    [Action.infra { ready := fun _ => { pollin := true } }, .infra {}]

/-- Without a reader the connection is closed with an error, with one the reader is resumed and the
remote end is processed, although the peer has done nothing. -/
theorem wouldBlock_closes :
    (∃ w, Loop.run Loop.init (connectedThenReadable []) = some w ∧
      w.2.sockets.map (·.data.state) = [.ErrorClosing] ∧
      (w.2.queue .close).events = [⟨1, true, .client 0⟩]) ∧
    ∃ w, Loop.run Loop.init (connectedThenReadable
        [.call (.sock 0 (.aRead { capacity := 1024 } 1 100))]) = some w ∧
      w.2.sockets.map (·.data.ahdRead) = [none] ∧ w.1.handler = true ∧
      w.1.phase = .infraProcessRemoteEnded 1 { pollin := true } ⟨2, 1, 1⟩ := by
  decide +kernel

/-! ## The read events of an a_read -/

namespace NetSocketManager

/-- The kernel has bytes for the first receive of the event, and the second does not fail. -/
def ReadReplies.Delivers (os : ReadReplies) : Prop := os.first.bytes ≠ [] ∧ os.second ≠ .error

/-- The read events of a socket, as long as they leave its reader waiting. -/
def reading : Machine SocketData ReadReplies where
  step d os :=
    match (infraProcessReadEvent d os).res with
    | .ok .wait => some (infraProcessReadEvent d os).data
    | _ => none

/-- What a read event has to do for the reader `w`, which waits for `minBytes` bytes: it asks the
kernel for some bytes, lets the reader wait while there are too few, and resumes it for good as
soon as there are enough. -/
structure Serves (d : SocketData) (w : Await) (minBytes : Nat) (os : ReadReplies) : Prop where
  asks : (infraProcessReadEvent d os).returns
  waits : (infraProcessReadEvent d os).data.readBuffer.usedSize < minBytes →
    (infraProcessReadEvent d os).res = .ok .wait
  resumes : minBytes ≤ (infraProcessReadEvent d os).data.readBuffer.usedSize →
    (infraProcessReadEvent d os).res = .ok (.resume false false) ∧
      ∃ s, SocketBase.resume (infraProcessReadEvent d os).data false w = .ok s ∧
        s.await = none ∧ minBytes ≤ s.returned.length

/-- A reader waits for more bytes than there are in its ring of `allocSize` cells. -/
structure ReaderWaits (d : SocketData) (minBytes allocSize : Nat) : Prop where
  reader : d.ahdRead = some minBytes
  wf : d.readBuffer.WF
  alloc : d.readBuffer.allocSize = allocSize
  few : d.readBuffer.usedSize < minBytes

variable {d d' : SocketData} {minBytes allocSize : Nat} {os : ReadReplies}

/-- A read event that delivers adds what it delivers to the ring, and resumes the reader as soon as
there are enough bytes. -/
theorem infraProcessReadEvent_delivers (hwaits : ReaderWaits d minBytes allocSize)
    (hroom : d.readBuffer.hasRoom) (hos : os.Delivers) :
    ∃ c bytes, c.WF ∧ c.allocSize = allocSize ∧ d.readBuffer.usedSize < c.usedSize ∧
      infraProcessReadEvent d os =
        if minBytes ≤ c.usedSize then
          ⟨{ d with readBuffer := c, ahdRead := none }, [.received bytes],
          .ok (.resume false false)⟩
        else ⟨{ d with readBuffer := c }, [.received bytes], .ok .wait⟩ := by
  obtain ⟨bytes, hfirst, hne⟩ : ∃ bytes, os.first = .data bytes ∧ bytes ≠ [] := by
    cases hfirst : os.first with
    | data bytes => exact ⟨bytes, rfl, by simpa [hfirst, RecvReply.bytes] using hos.1⟩
    | wouldBlock | error => exact absurd (by rw [hfirst]; rfl) hos.1
  obtain ⟨⟨c, r⟩, hread⟩ := CircularByteBuffer.read_ok hroom (.data bytes) os.second minBytes
  obtain ⟨hwf, hcontents⟩ := CircularByteBuffer.read_contents hwaits.wf hread
  obtain ⟨hexp, hpos⟩ := CircularByteBuffer.read_data hne hread
  have hused : c.usedSize = d.readBuffer.usedSize + r.bytes.length := by
    rw [← CircularByteBuffer.length_contents hwf, hcontents, List.length_append,
      CircularByteBuffer.length_contents hwaits.wf]
  have hret : (r.ret == .ok || r.ret == .pending) = true := by
    have hne := CircularByteBuffer.read_ret_ne_failed (by nofun) hos.2 hread
    cases hr : r.ret <;> simp_all
  have hget : infraGetPacketBytes2 d.readBuffer os minBytes = .ok (c, r.bytes, true) := by
    rw [infraGetPacketBytes2, hfirst, hread]
    simp only [bind, Except.bind, hret]
  refine ⟨c, r.bytes, hwf, ?_, by omega, ?_⟩
  · rw [← hwaits.alloc, CircularByteBuffer.allocSize, CircularByteBuffer.allocSize, hexp]
  · simp only [infraProcessReadEvent, hwaits.reader, hget, readEventReceived, Bool.not_true,
      Bool.false_eq_true, if_false]
    rw [if_pos (by omega)]

theorem infraProcessReadEvent_full (hwaits : ReaderWaits d minBytes allocSize)
    (hfull : ¬d.readBuffer.hasRoom) (os : ReadReplies) :
    (infraProcessReadEvent d os).returns = false := by
  have hget : infraGetPacketBytes2 d.readBuffer os minBytes = .error .assertion := by
    rw [infraGetPacketBytes2, CircularByteBuffer.read_of_full hfull]
    rfl
  simp only [infraProcessReadEvent, hwaits.reader, hget, SockStep.returns_error]

theorem ReaderWaits.step (hwaits : ReaderWaits d minBytes allocSize) (hos : os.Delivers)
    (h : reading.step d os = some d') : ReaderWaits d' minBytes allocSize := by
  by_cases hroom : d.readBuffer.hasRoom
  · obtain ⟨c, bytes, hwf, halloc, -, hstep⟩ := infraProcessReadEvent_delivers hwaits hroom hos
    simp only [reading, hstep] at h
    by_cases henough : minBytes ≤ c.usedSize
    · rw [if_pos henough] at h
      cases h
    · rw [if_neg henough] at h
      cases h
      exact ⟨hwaits.reader, hwf, halloc, Nat.not_le.mp henough⟩
  · have hfails := infraProcessReadEvent_full hwaits hroom os
    simp only [reading] at h
    split at h
    · rename_i hres
      simp [SockStep.returns, hres, Except.isOk, Except.toBool] at hfails
    · cases h

theorem ReaderWaits.filled (hwaits : ReaderWaits d minBytes allocSize)
    (hsmall : allocSize ≤ minBytes) :
    ∃ events, (∀ os ∈ events, os.Delivers) ∧ ∃ d', reading.run d events = some d' ∧
      ReaderWaits d' minBytes allocSize ∧ ¬d'.readBuffer.hasRoom := by
  -- every event takes at least one of the free cells
  induction hn : allocSize - d.readBuffer.usedSize using Nat.strongRecOn generalizing d with
  | ind n ih =>
    by_cases hroom : d.readBuffer.hasRoom
    · let os : ReadReplies := { first := .data [0] }
      have hos : os.Delivers := ⟨List.cons_ne_nil _ _, by rintro ⟨⟩⟩
      obtain ⟨c, bytes, hwf, halloc, hmore, hstep⟩ :=
        infraProcessReadEvent_delivers hwaits hroom hos
      have hlt : c.usedSize < allocSize := halloc ▸ CircularByteBuffer.usedSize_lt hwf
      have hwait : reading.step d os = some { d with readBuffer := c } := by
        simp only [reading, hstep]
        rw [if_neg (by omega)]
      obtain ⟨events, hevents, d', hrun, hfull⟩ := ih (allocSize - c.usedSize) (by omega)
        (hwaits.step hos hwait) rfl
      refine ⟨os :: events, ?_, d', ?_, hfull⟩
      · intro os' hmem
        rcases List.mem_cons.mp hmem with rfl | hmem
        · exact hos
        · exact hevents os' hmem
      · rw [Machine.run, hwait]
        exact hrun
    · exact ⟨[], (by simp), d, rfl, hwaits, hroom⟩

/-- An `a_read` completes: at once with enough bytes, or else every event of any sequence of events
that deliver serves the reader. -/
def AReadCompletes (d : SocketData) (buff : Buffer) (minBytes maxBytes : Nat) : Prop :=
  ∃ s, SocketBase.aRead d buff minBytes maxBytes = .ok s ∧
    match s.await with
    | none => minBytes ≤ s.returned.length
    | some w =>
        ∀ events : List ReadReplies, (∀ os ∈ events, os.Delivers) →
          ∀ d', reading.run s.data events = some d' → ∀ os, os.Delivers → Serves d' w minBytes os

theorem resumeRead_ok (hwf : d.readBuffer.WF) {buff : Buffer} {maxBytes : Nat}
    (hclear : buff.bytes = []) (hmax : maxBytes ≤ buff.capacity) (hmin : minBytes ≤ maxBytes)
    (henough : minBytes ≤ d.readBuffer.usedSize) :
    ∃ s, SocketBase.resumeRead d buff minBytes maxBytes = .ok s ∧ s.await = none ∧
      minBytes ≤ s.returned.length := by
  obtain ⟨⟨c, b⟩, hget⟩ := CircularByteBuffer.getReadyData_ok d.readBuffer hclear hmax
  obtain ⟨-, -, hsize⟩ := CircularByteBuffer.getReadyData_contents hwf hget
  have hle : minBytes ≤ b.size := by omega
  refine ⟨{ data := { d with readBuffer := c }, returned := b.bytes }, ?_, rfl, hle⟩
  simp only [SocketBase.resumeRead, hget, bind, Except.bind, if_neg (Nat.not_lt.mpr hle)]

theorem ReaderWaits.serves (hwaits : ReaderWaits d minBytes allocSize)
    (hlarge : minBytes < allocSize) {buff : Buffer} {maxBytes : Nat} (hclear : buff.bytes = [])
    (hmax : maxBytes ≤ buff.capacity) (hmin : minBytes ≤ maxBytes) (hos : os.Delivers) :
    Serves d (.read buff minBytes maxBytes) minBytes os := by
  have hroom : d.readBuffer.hasRoom := by
    rw [CircularByteBuffer.hasRoom_iff hwaits.wf, hwaits.alloc]
    have hfew := hwaits.few
    omega
  obtain ⟨c, bytes, hwf, -, -, hstep⟩ := infraProcessReadEvent_delivers hwaits hroom hos
  by_cases henough : minBytes ≤ c.usedSize
  · rw [if_pos henough] at hstep
    refine ⟨?_, ?_, ?_⟩
    · rw [hstep]
      rfl
    · intro hfew
      rw [hstep] at hfew
      exact absurd henough (Nat.not_le.mpr hfew)
    · intro _
      rw [hstep]
      exact ⟨rfl, resumeRead_ok hwf hclear hmax hmin henough⟩
  · rw [if_neg henough] at hstep
    refine ⟨?_, ?_, ?_⟩
    · rw [hstep]
      rfl
    · intro _
      rw [hstep]
    · intro hmany
      rw [hstep] at hmany
      exact absurd hmany henough

end NetSocketManager

open NetSocketManager in
/-- An `a_read` for `minBytes` bytes, on a ring at any position, completes exactly if the bytes fit
into the ring, which keeps one cell free. -/
theorem aRead_completes_iff {d : SocketData} (hwf : d.readBuffer.WF) {buff : Buffer}
    {minBytes maxBytes : Nat} (hcapacity : minBytes ≤ buff.capacity) (hmax : minBytes ≤ maxBytes) :
    AReadCompletes d buff minBytes maxBytes ↔ minBytes < d.readBuffer.allocSize := by
  let most := if buff.capacity < maxBytes then buff.capacity else maxBytes
  have hmost : most ≤ buff.capacity ∧ minBytes ≤ most := by
    unfold most
    split <;> omega
  have haccepted : ¬(buff.capacity < minBytes ∨ maxBytes < minBytes) := by omega
  by_cases henough : minBytes ≤ d.readBuffer.usedSize
  · have hlt := CircularByteBuffer.usedSize_lt hwf
    refine iff_of_true ?_ (by omega)
    obtain ⟨s, hs, hawait, hlen⟩ :=
      resumeRead_ok hwf (show buff.clear.bytes = [] from rfl) hmost.1 hmost.2 henough
    refine ⟨s, ?_, ?_⟩
    · exact (if_neg haccepted).trans ((if_pos henough).trans hs)
    · rw [hawait]
      exact hlen
  · let s := SocketBase.suspend d minBytes (.read buff.clear minBytes most) []
    have hsuspend : SocketBase.aRead d buff minBytes maxBytes = .ok s :=
      (if_neg haccepted).trans (if_neg henough)
    have hwaits : ReaderWaits s.data minBytes d.readBuffer.allocSize :=
      ⟨rfl, hwf, rfl, Nat.not_le.mp henough⟩
    constructor
    · rintro ⟨s', hs', hserved⟩
      cases hsuspend.symm.trans hs'
      by_contra hsmall
      obtain ⟨events, hevents, d', hrun, hwaits', hfull⟩ := hwaits.filled (Nat.not_lt.mp hsmall)
      have hasks := (hserved events hevents d' hrun { first := .data [0] } ⟨nofun, nofun⟩).asks
      rw [infraProcessReadEvent_full hwaits' hfull] at hasks
      cases hasks
    · intro hlarge
      refine ⟨s, hsuspend, ?_⟩
      intro events hevents d' hrun os hos
      have hwaits' : ReaderWaits d' minBytes d.readBuffer.allocSize :=
        reading.run_kept_of_mem (J := fun d' => ReaderWaits d' minBytes d.readBuffer.allocSize)
          (fun _ _ _ hJ hG h => hJ.step hG h) hwaits hevents hrun
      exact hwaits'.serves hlarge rfl hmost.1 hmost.2 hos

theorem aRead_completes_hundred :
    NetSocketManager.AReadCompletes { state := .Connected } { capacity := 1024 } 10 100 :=
  (aRead_completes_iff ⟨by decide, by decide⟩ (by decide) (by decide)).mpr (by decide)

open NetSocketManager in
/-- A reader waits for 5000 bytes, and 4095 of them arrive: the next event asks for none. -/
theorem aRead_asks_for_nothing :
    ∃ s, SocketBase.aRead { state := .Connected } { capacity := 5000 } 5000 5000 = .ok s ∧
      ∃ d, reading.run s.data [{ first := .data (List.replicate 4095 0) }] = some d ∧
        (infraProcessReadEvent d { first := .data [0] }).returns = false := by
  have h : (reading.run (SocketBase.suspend { state := .Connected } 5000
      (.read { capacity := 5000 } 5000 5000) []).data
      [{ first := .data (List.replicate 4095 0) }]).map
        (fun d => (infraProcessReadEvent d { first := .data [0] }).returns) = some false := by
    decide +kernel
  obtain ⟨d, hd, hfails⟩ := Option.map_eq_some_iff.mp h
  exact ⟨_, rfl, d, hd, hfails⟩

end NodeCpp
