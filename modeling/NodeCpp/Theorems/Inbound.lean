import NodeCpp.Lib.Machine
import NodeCpp.Socket.Coroutine

/-!
# The inbound stream

One socket without data handlers or listeners, and one coroutine that reads from
it. Read events interleave with its calls; a coroutine that is not suspended in
one of the readers is running, or is suspended elsewhere. The stream law says
that the bytes the coroutine got, followed by the contents of `readBuffer`, are
the bytes the kernel delivered.

* `inbound` -- the machine of read events and reader calls.
* `inbound_step_law`, `inbound_stream_law` -- the law holds as long as bytes only
  arrive while a reader is registered.
* `inbound_stream_discarded` -- bytes that arrive at another time are lost.
-/

namespace NodeCpp

open Lib NetSocketManager

/-- A socket and its reader, with the bytes delivered by the kernel and those moved into
the coroutine's buffers. -/
structure Inbound where
  data : SocketData
  await : Option Await := none
  received : List UInt8 := []
  returned : List UInt8 := []

inductive InboundStep
  | readEvent (os : ReadReplies)
  | aRead (buff : Buffer) (minBytes maxBytes : Nat)
  | aSomeDataAvailable
  | aReadUntil (b : Buffer) (what : UInt8)
  deriving DecidableEq, Repr

namespace Inbound

/-- A socket at the start of a run: what `readBuffer` holds has been delivered before. -/
def start (d : SocketData) : Inbound where
  data := d
  received := d.readBuffer.contents

/-- The coroutine has run up to its return or its next suspension. -/
def ran (s : Inbound) (r : CoroStep) : Inbound :=
  { s with data := r.data, await := r.await, returned := s.returned ++ r.returned }

/-- `infraProcessRemoteEnded` of a socket without `end` handlers. -/
def remoteEnded (s : Inbound) : Inbound :=
  let (d, _, first) := infraProcessRemoteEnded s.data
  { s with data := if first then (afterRemoteEnded d).1 else d }

/-- A read event goes on after its receive. There are no data listeners, so dispatched bytes
reach nobody. -/
def readNext (s : Inbound) : ReadNext → Option Inbound
  | .wait | .dispatch _ | .done => some s
  | .ended => some s.remoteEnded
  | .resume failed ended => do
      let w ← s.await
      let r ← (SocketBase.resume s.data failed w).toOption
      some (if ended then (s.ran r).remoteEnded else s.ran r)

/-- The stream law, with the layout invariant of `readBuffer`. -/
structure Law (s : Inbound) : Prop where
  wf : s.data.readBuffer.WF
  stream : s.returned ++ s.data.readBuffer.contents = s.received

/-- A read event that may deliver bytes needs a registered reader. -/
def ReaderWaits (s : Inbound) : InboundStep → Prop
  | .readEvent os => s.data.ahdRead.isSome ∨ os.first.bytes = []
  | _ => True

instance (s : Inbound) : DecidablePred s.ReaderWaits
  | .readEvent os => inferInstanceAs (Decidable (s.data.ahdRead.isSome ∨ os.first.bytes = []))
  | .aRead .. | .aSomeDataAvailable | .aReadUntil .. => isTrue trivial

end Inbound

/-- The receiving side of a socket. A failed assertion ends the run; the coroutine makes a
call only when it is not suspended in another one. -/
def inbound : Machine Inbound InboundStep where
  step s a :=
    match a with
    | .readEvent os =>
        let r := infraProcessReadEvent s.data os
        r.res.toOption.bind fun next =>
          Inbound.readNext { s with data := r.data, received := s.received ++ r.received } next
    | .aRead buff minBytes maxBytes =>
        if s.await.isSome then none
        else (SocketBase.aRead s.data buff minBytes maxBytes).toOption.map s.ran
    | .aSomeDataAvailable =>
        if s.await.isSome then none else some (s.ran (SocketBase.aSomeDataAvailable s.data))
    | .aReadUntil b what =>
        if s.await.isSome then none
        else (SocketBase.aReadUntil s.data b what).toOption.map s.ran

namespace Inbound

theorem law_ran {s : Inbound} (hlaw : s.Law) {r : CoroStep} (h : SocketBase.Takes s.data r) :
    (s.ran r).Law := by
  refine ⟨h.1, ?_⟩
  show s.returned ++ r.returned ++ r.data.readBuffer.contents = s.received
  rw [List.append_assoc, h.2, hlaw.stream]

theorem law_remoteEnded {s : Inbound} (hlaw : s.Law) : s.remoteEnded.Law := by
  have hbuf : s.remoteEnded.data.readBuffer = s.data.readBuffer := by
    simp only [remoteEnded]
    split <;> simp
  exact ⟨hbuf ▸ hlaw.wf, hbuf ▸ hlaw.stream⟩

theorem law_readNext {s t : Inbound} (hlaw : s.Law) {next : ReadNext}
    (h : s.readNext next = some t) : t.Law := by
  cases next with
  | wait => cases h; exact hlaw
  | dispatch bytes => cases h; exact hlaw
  | done => cases h; exact hlaw
  | ended => cases h; exact law_remoteEnded hlaw
  | resume failed ended =>
    obtain ⟨w, -, h⟩ := Option.bind_eq_some_iff.mp h
    obtain ⟨r, hr, h⟩ := Option.bind_eq_some_iff.mp h
    have hran := law_ran hlaw (SocketBase.resume_takes hlaw.wf (toOption_eq_some hr))
    cases h
    split
    · exact law_remoteEnded hran
    · exact hran

/-- The receive of a read event keeps the law, if it has a reader or delivers nothing. -/
theorem law_receive {s : Inbound} (hlaw : s.Law) {os : ReadReplies} {next : ReadNext}
    (hwaits : s.ReaderWaits (.readEvent os))
    (hres : (infraProcessReadEvent s.data os).res = .ok next) :
    let r := infraProcessReadEvent s.data os
    Law { s with data := r.data, received := s.received ++ r.received } := by
  by_cases hreader : s.data.ahdRead.isSome
  · obtain ⟨hwf, hcontents⟩ := infraProcessReadEvent_contents hlaw.wf hreader hres
    exact ⟨hwf, by rw [← hlaw.stream, hcontents, List.append_assoc]⟩
  · have hnone : s.data.ahdRead = none := by simpa using hreader
    have hbuf := infraProcessReadEvent_readBuffer hnone os
    have hempty := infraProcessReadEvent_received_nil hnone (hwaits.resolve_left hreader)
    refine ⟨hbuf ▸ hlaw.wf, ?_⟩
    show s.returned ++ (infraProcessReadEvent s.data os).data.readBuffer.contents = _
    rw [hbuf, hempty, List.append_nil, hlaw.stream]

end Inbound

/-- The step lemma. -/
theorem inbound_step_law {s t : Inbound} {a : InboundStep} (hlaw : s.Law)
    (hwaits : s.ReaderWaits a) (hstep : inbound.step s a = some t) : t.Law := by
  cases a with
  | readEvent os =>
    obtain ⟨next, hres, hnext⟩ := Option.bind_eq_some_iff.mp hstep
    exact Inbound.law_readNext (Inbound.law_receive hlaw hwaits (toOption_eq_some hres)) hnext
  | aRead buff minBytes maxBytes =>
    simp only [inbound] at hstep
    split at hstep
    · cases hstep
    · obtain ⟨r, hr, rfl⟩ := Option.map_eq_some_iff.mp hstep
      exact Inbound.law_ran hlaw (SocketBase.aRead_takes hlaw.wf (toOption_eq_some hr))
  | aSomeDataAvailable =>
    simp only [inbound] at hstep
    split at hstep
    · cases hstep
    · cases hstep
      exact Inbound.law_ran hlaw (SocketBase.aSomeDataAvailable_takes hlaw.wf)
  | aReadUntil b what =>
    simp only [inbound] at hstep
    split at hstep
    · cases hstep
    · obtain ⟨r, hr, rfl⟩ := Option.map_eq_some_iff.mp hstep
      exact Inbound.law_ran hlaw (SocketBase.aReadUntil_takes hlaw.wf (toOption_eq_some hr))

/-- In every run in which bytes only arrive while a reader is registered, the bytes returned
to the coroutine, followed by `readBuffer`, are the bytes received. -/
theorem inbound_stream_law {d : SocketData} (hwf : d.readBuffer.WF) {as : List InboundStep}
    {t : Inbound} (hwaits : inbound.obeys Inbound.ReaderWaits (.start d) as)
    (hrun : inbound.run (.start d) as = some t) :
    t.returned ++ t.data.readBuffer.contents = t.received :=
  (inbound.run_invariant (J := Inbound.Law)
    (fun _ _ _ hlaw hG hstep => inbound_step_law hlaw hG hstep) ⟨hwf, rfl⟩ hwaits hrun).stream

/-- The coroutine waits in `a_read` for two bytes, which arrive in two events. -/
theorem inbound_stream_law_two_events :
    ∃ t, inbound.run (.start { state := .Connected })
        [.aRead ⟨[], 8⟩ 2 8, .readEvent ⟨.data [1], .wouldBlock⟩,
          .readEvent ⟨.data [2], .wouldBlock⟩] = some t ∧
      t.returned ++ t.data.readBuffer.contents = t.received := by
  obtain ⟨t, ht⟩ : ∃ t, inbound.run (.start { state := .Connected })
      [.aRead ⟨[], 8⟩ 2 8, .readEvent ⟨.data [1], .wouldBlock⟩,
        .readEvent ⟨.data [2], .wouldBlock⟩] = some t := ⟨_, rfl⟩
  exact ⟨t, ht, inbound_stream_law ⟨by decide, by decide⟩ (by decide) ht⟩

/-- A byte arrives while no reader is registered. It goes to `recvBuffer` and from there to
nobody. -/
theorem inbound_stream_discarded :
    ∃ t, inbound.run (.start { state := .Connected }) [.readEvent ⟨.data [1], .wouldBlock⟩] =
        some t ∧ t.returned ++ t.data.readBuffer.contents ≠ t.received :=
  ⟨_, rfl, by decide⟩

end NodeCpp
