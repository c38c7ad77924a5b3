import NodeCpp.Socket.Sending

/-!
# The outbound stream

One connected socket, written to through `appWrite` and `appWrite2` and drained
by write events, with the kernel taking an arbitrary prefix of every offer and
never reporting an error. The stream law says that the bytes the kernel has
accepted, followed by the bytes still held, are the payloads in call order.

* `outbound` -- the machine of the three calls.
* `outbound_step_law` -- one call keeps the law where `KeepsOrder` holds.
* `outbound_stream_law` -- so does every run of such calls.
* `outbound_stream_reordered` -- without the condition the law fails: bytes
  written while `ahd_write.b` is occupied overtake it, and a partial send from
  it is repeated.
-/

namespace NodeCpp

open Lib

/-- A socket with the bytes the kernel has accepted from it and the payloads of the write
calls that returned. A failed assertion stops the run. -/
structure Outbound where
  data : SocketData
  accepted : List UInt8 := []
  payloads : List UInt8 := []
  stopped : Bool := false

inductive OutboundCall
  | appWrite (data : List UInt8) (os : SendReply)
  | appWrite2 (buff : List UInt8) (os : SendReply)
  | writeEvent (os : NetSocketManagerBase.WriteEventReplies)
  deriving DecidableEq, Repr

def OutboundCall.NoError : OutboundCall → Prop
  | .appWrite _ os | .appWrite2 _ os => os ≠ .error
  | .writeEvent os => os.buf.first ≠ .error ∧ os.buf.second ≠ .error ∧ os.coro ≠ .error

instance : DecidablePred OutboundCall.NoError
  | .appWrite _ os | .appWrite2 _ os => inferInstanceAs (Decidable (os ≠ .error))
  | .writeEvent os => inferInstanceAs
      (Decidable (os.buf.first ≠ .error ∧ os.buf.second ≠ .error ∧ os.coro ≠ .error))

namespace Outbound

/-- A socket at the start of a run: what it holds already has been accepted from earlier
write calls. -/
def start (d : SocketData) : Outbound where
  data := d
  payloads := d.held

def record {α : Type} (s : Outbound) (payload : List UInt8) (r : SockStep α) : Outbound where
  data := r.data
  accepted := s.accepted ++ r.sent
  payloads := s.payloads ++ if r.returns then payload else []
  stopped := !r.returns

def Law (s : Outbound) : Prop := s.accepted ++ s.data.held = s.payloads

instance : DecidablePred Law := fun _ => inferInstanceAs (Decidable (_ = _))

/-- `ahd_write.b` is last in line: nothing may be written behind it, and a write event has to
take it whole or leave it. -/
def KeepsOrder (s : Outbound) : OutboundCall → Prop
  | .appWrite data _ | .appWrite2 data _ => s.data.ahdWrite = [] ∨ data = []
  | .writeEvent os => s.data.ahdWrite = [] ∨ os.coro.takesAllOrNone s.data.ahdWrite.length

instance (s : Outbound) : DecidablePred s.KeepsOrder
  | .appWrite data _ | .appWrite2 data _ =>
      inferInstanceAs (Decidable (s.data.ahdWrite = [] ∨ data = []))
  | .writeEvent os => inferInstanceAs
      (Decidable (s.data.ahdWrite = [] ∨ os.coro.takesAllOrNone s.data.ahdWrite.length))

end Outbound

def outbound : Machine Outbound OutboundCall where
  step s a :=
    if s.stopped ∨ ¬a.NoError then none
    else
      match a with
      | .appWrite data os => some (s.record data (NetSocketManagerBase.appWrite s.data data os))
      | .appWrite2 buff os => some (s.record buff (NetSocketManagerBase.appWrite2 s.data buff os))
      | .writeEvent os => some (s.record [] (NetSocketManagerBase.infraProcessWriteEvent s.data os))

namespace Outbound

theorem law_start (d : SocketData) : (start d).Law := rfl

theorem law_record {α : Type} {s : Outbound} {payload : List UInt8} {r : SockStep α}
    (hlaw : s.Law)
    (h : r.sent ++ r.data.held = s.data.held ++ if r.returns then payload else []) :
    (s.record payload r).Law := by
  unfold Law at hlaw ⊢
  simp only [record, List.append_assoc, h]
  rw [← List.append_assoc, hlaw]

theorem law_appWrite {s : Outbound} {data : List UInt8} {os : SendReply} (hlaw : s.Law)
    (hconn : s.data.state = .Connected) (hos : os ≠ .error)
    (horder : s.data.ahdWrite = [] ∨ data = []) :
    (s.record data (NetSocketManagerBase.appWrite s.data data os)).Law := by
  obtain ⟨-, hb, hok, hsent⟩ := NetSocketManagerBase.appWrite_connected hconn data hos
  refine law_record hlaw ?_
  rw [hok, SocketData.held, hb, ← List.append_assoc, hsent]
  rcases horder with h | h <;> simp [SocketData.held, h]

theorem law_appWrite2 {s : Outbound} {buff : List UInt8} {os : SendReply} (hlaw : s.Law)
    (hconn : s.data.state = .Connected) (hos : os ≠ .error)
    (horder : s.data.ahdWrite = [] ∨ buff = []) :
    (s.record buff (NetSocketManagerBase.appWrite2 s.data buff os)).Law := by
  obtain ⟨-, hcases⟩ := NetSocketManagerBase.appWrite2_connected hconn buff hos
  refine law_record hlaw ?_
  rcases hcases with ⟨hok, hb, hsent⟩ | ⟨hok, hnone, hb, hsent, hbuf⟩ | ⟨hfail, hsent, hsame⟩
  · rw [hok, SocketData.held, hb, ← List.append_assoc, hsent]
    rcases horder with h | h <;> simp [SocketData.held, h]
  · simp [hok, hsent, SocketData.held, hb, hbuf, hnone]
  · simp [hfail, hsent, hsame]

open NetSocketManagerBase in
/-- A write event moves held bytes to the kernel in order, provided that it does not take a
part of `ahd_write.b` only. -/
theorem writeEvent_connected {d : SocketData} {os : WriteEventReplies}
    (hconn : d.state = .Connected)
    (hno : (OutboundCall.writeEvent os).NoError)
    (hall : d.ahdWrite = [] ∨ os.coro.takesAllOrNone d.ahdWrite.length) :
    let s := infraProcessWriteEvent d os
    s.data.state = .Connected ∧ s.sent ++ s.data.held = d.held := by
  obtain ⟨hfirst, hsecond, hcoro⟩ := hno
  have hsent := afterAccepted_contents d os
  have hdone : ∀ d : SocketData, d.state = .Connected →
    (writeEventDone d).1.state = .Connected := by
    intro d hd
    simp [writeEventDone, hd]
  have hways := infraProcessWriteEvent_writesAs d os
  generalize infraProcessWriteEvent d os = s at hways ⊢
  cases hways with
  | connected hstate | connectedPending hstate | refused hstate => simp [hconn] at hstate
  | failed _ _ _ hfailed => exact absurd hfailed (d.writeBuffer.write_ret_ne_failed hfirst hsecond)
  | coroFailed _ _ _ _ hfailed => exact absurd hfailed hcoro
  | notSupported => exact ⟨hconn, rfl⟩
  | part | largePart =>
    refine ⟨hconn, ?_⟩
    simp [SockStep.sent, Fx.sentBytes, SocketData.held, hsent, ← List.append_assoc]
  | drained _ _ hdrained =>
    exact ⟨hdone _ hconn, by simp [SockStep.sent, Fx.sentBytes, SocketData.held, hsent, hdrained,
      Fifo.usedSize]⟩
  | coroSent _ _ hdrained =>
    exact ⟨hdone _ hconn, by simp [SockStep.sent, Fx.sentBytes, SocketData.held, hsent, hdrained,
      Fifo.usedSize]⟩
  | coroPart _ _ hdrained hsome herror hpart =>
    have hsize := mt (fun h => (internalSendPacket_takesAll d.ahdWrite.length os.coro).mp
      ⟨internalSendPacket_ret_ne_failed _ herror, h⟩) hpart
    have hzero := internalSendPacket_takesAllOrNone (hall.resolve_left hsome) hsize
    exact ⟨hconn, by simp [SockStep.sent, Fx.sentBytes, SocketData.held, hsent, hdrained, hzero,
      Fifo.usedSize]⟩

end Outbound

/-- The step lemma: one call of a connected socket that keeps the order keeps the law. -/
theorem outbound_step_law {s t : Outbound} {a : OutboundCall}
    (hs : s.data.state = .Connected ∧ s.Law) (horder : s.KeepsOrder a)
    (hstep : outbound.step s a = some t) : t.data.state = .Connected ∧ t.Law := by
  obtain ⟨hconn, hlaw⟩ := hs
  simp only [outbound] at hstep
  split at hstep
  · cases hstep
  rename_i hok
  have hno : a.NoError := by
    by_contra hno
    exact hok (.inr hno)
  cases a with
  | appWrite data os =>
    cases hstep
    exact ⟨(NetSocketManagerBase.appWrite_connected hconn data hno).1,
      Outbound.law_appWrite hlaw hconn hno horder⟩
  | appWrite2 buff os =>
    cases hstep
    exact ⟨(NetSocketManagerBase.appWrite2_connected hconn buff hno).1,
      Outbound.law_appWrite2 hlaw hconn hno horder⟩
  | writeEvent os =>
    cases hstep
    obtain ⟨hst, hsent⟩ := Outbound.writeEvent_connected hconn hno horder
    exact ⟨hst, Outbound.law_record hlaw (by simp [hsent])⟩

/-- In every run of a connected socket whose calls all keep the order, no byte is lost,
duplicated or reordered. -/
theorem outbound_stream_law {d : SocketData} (hconn : d.state = .Connected)
    {as : List OutboundCall} {t : Outbound}
    (horder : outbound.obeys Outbound.KeepsOrder (.start d) as)
    (hrun : outbound.run (.start d) as = some t) : t.Law :=
  (outbound.run_invariant (J := fun s => s.data.state = .Connected ∧ s.Law)
    (fun _ _ _ hs hG hstep => outbound_step_law hs hG hstep)
    ⟨hconn, Outbound.law_start d⟩ horder hrun).2

/-- Two bytes are written, the kernel takes one of them and the other one leaves with the
next write event. -/
theorem outbound_stream_law_two_bytes :
    ∃ t, outbound.run (.start { state := .Connected })
        [.appWrite [1, 2] (.sent 1), .writeEvent ⟨true, ⟨0, .sent 1, .wouldBlock⟩, .wouldBlock⟩] =
          some t ∧ t.Law := by
  obtain ⟨t, ht⟩ : ∃ t, outbound.run (.start { state := .Connected }) [.appWrite [1, 2] (.sent 1),
      .writeEvent ⟨true, ⟨0, .sent 1, .wouldBlock⟩, .wouldBlock⟩] = some t := ⟨_, rfl⟩
  exact ⟨t, ht, outbound_stream_law rfl (by decide) ht⟩

/-- One byte waits in `writeBuffer`, 4095 bytes do not fit behind it and are kept in
`ahd_write.b`, and one more byte is written: it is put before them. -/
theorem outbound_stream_reordered :
    ∃ t, outbound.run (.start { state := .Connected })
        [.appWrite [1] .wouldBlock, .appWrite2 (List.replicate 4095 2) .wouldBlock,
          .appWrite [3] .wouldBlock] = some t ∧ ¬t.Law := by
  have hlen : ¬(List.replicate 4095 (2 : UInt8)).length ≤ 4094 := by
    rw [List.length_replicate]; decide
  obtain ⟨rest, hbig⟩ : ∃ rest, List.replicate 4095 (2 : UInt8) = 2 :: rest :=
    ⟨List.replicate 4094 2, List.replicate_succ⟩
  generalize List.replicate 4095 (2 : UInt8) = big at hlen hbig ⊢
  have hne : (3 : UInt8) :: big ≠ big ++ [3] := by simp [hbig]
  simp [Machine.run, outbound, OutboundCall.NoError, Outbound.start, Outbound.record,
    NetSocketManagerBase.appWrite, NetSocketManagerBase.appWrite2,
    NetSocketManagerBase.writeToEmpty, internalSendPacket, SocketData.isValid, Fifo.usedSize,
    Fifo.remainingCapacity, Fifo.append, Outbound.Law, SocketData.held, SockStep.sent,
    Fx.sentBytes, hlen, hne]

end NodeCpp
