import Mathlib.Data.List.Nodup
import NodeCpp.Http.Connection
import NodeCpp.Theorems.ResponseProtocol

/-!
# Every slot is released once

A request holds the slot `getHead` gave it until its response is ended; the response then
clears the request and itself and releases the slot, once and for its own index.

When an `a_write` throws, the functions that call it release the slot and let `run` take the
next request, and swallow the exception. An `end` that has called them goes on all the same: it
clears and releases again, and the objects are those of the next request by then.

* `Stage` -- the stages a connection goes through as long as no write fails.
* `Served.exec` -- a step keeps the stages, and the slots released up to now are those below
  `tail`, in order.
* `slots_released_once` -- the slots of every run without a failed write.
* `failed_end_releases_next` -- a failed write of `end()`.
-/

namespace NodeCpp

open Lib

/-! ## What is seen of a run -/

namespace SlotEvent

/-- A response clears and releases nothing but its own slot. -/
def own : SlotEvent → Bool
  | takes _ | ends _ => true
  | clears request idx | releases request idx => request == idx

def released? : SlotEvent → Option Nat
  | releases _ idx => some idx
  | _ => none

def ended? : SlotEvent → Option Nat
  | ends request => some request
  | _ => none

end SlotEvent

def releasedSlots (l : List SlotEvent) : List Nat := l.filterMap SlotEvent.released?

def endedRequests (l : List SlotEvent) : List Nat := l.filterMap SlotEvent.ended?

/-- The events concern own slots only; some slots are released in them, and some responses ended. -/
structure Shows (l : List SlotEvent) (released ended : List Nat) : Prop where
  own : ∀ e ∈ l, e.own
  released : releasedSlots l = released
  ended : endedRequests l = ended

namespace Shows

variable {l l' : List SlotEvent} {a b a' b' : List Nat}

theorem nil : Shows [] [] [] := ⟨nofun, rfl, rfl⟩

theorem append (h : Shows l a b) (h' : Shows l' a' b') : Shows (l ++ l') (a ++ a') (b ++ b') where
  own e he := (List.mem_append.mp he).elim (h.own e) (h'.own e)
  released := by rw [← h.released, ← h'.released, releasedSlots, List.filterMap_append]; rfl
  ended := by rw [← h.ended, ← h'.ended, endedRequests, List.filterMap_append]; rfl

theorem takes (i : Nat) : Shows [.takes i] [] [] := ⟨by simp [SlotEvent.own], rfl, rfl⟩

theorem ends {i : Nat} (h : Shows l (List.range i) (List.range i)) :
    Shows (l ++ [.ends i]) (List.range i) (List.range (i + 1)) := by
  have hends : Shows [.ends i] [] [i] := ⟨by simp [SlotEvent.own], rfl, rfl⟩
  simpa [List.range_succ] using h.append hends

end Shows

/-- The request whose response a call is for. -/
def ConnAct.request? : ConnAct → Option Nat
  | .head request _ | .flushHeaders request | .writeBodyPart request _ | .end request
  | .endWith request _ => some request
  | _ => none

/-- The calls are those a response accepts, and no write fails: `writeBodyPart` is not called,
`flushHeaders` is called once, and neither `addHeader` nor `end( b )` follows it. -/
def HttpConnection.acceptsCall (w : HttpConnection) : ConnAct → Bool
  | .head _ (.addHeader _ _) | .flushHeaders _ | .endWith _ _ => w.response.writeStatus == .notyet
  | .writeBodyPart _ _ => false
  | .written _ ok => ok
  | _ => true

/-- Besides, the counters have an index left for the next request. -/
def HttpConnection.accepts (w : HttpConnection) (a : ConnAct) : Bool :=
  decide (w.rrQueue.head + 1 < 2 ^ 64) && w.acceptsCall a

theorem HttpConnection.accepts_iff {w : HttpConnection} {a : ConnAct} :
    w.accepts a = true ↔ w.rrQueue.head + 1 < 2 ^ 64 ∧ w.acceptsCall a = true := by
  rw [accepts, Bool.and_eq_true, decide_eq_true_iff]

/-- What holds of the slots after a run that has shown `l`. -/
structure SlotsReleased (w : HttpConnection) (l : List SlotEvent) : Prop where
  /-- Nothing is cleared or released on behalf of another request. -/
  own : ∀ e ∈ l, e.own
  atMostOnce : ∀ i, (releasedSlots l).count i ≤ 1
  /-- An `end` that is not waiting for its write has released the slot. -/
  once : ∀ i, .ends i ∈ l → (∀ write ∈ w.writes, write.request ≠ i) →
    (releasedSlots l).count i = 1
  /-- No assertion fails in a call. -/
  called : ∀ a i, a.request? = some i → w.mayCall i → w.accepts a →
    (httpConnection.step w a).isSome
  /-- No assertion fails behind a write. -/
  written : ∀ write ∈ w.writes, w.accepts (.written write true) →
    (httpConnection.step w (.written write true)).isSome

/-! ## The response a slot keeps -/

namespace HttpServerResponse

variable {r r' : HttpServerResponse} {bytes : Str}

/-- What ties a response to its slot stays. -/
structure SameSlot (r r' : HttpServerResponse) : Prop where
  idx : r'.base.idx = r.base.idx
  connStatus : r'.connStatus = r.connStatus

theorem head_same {version : Str} {c : HeadCall} (h : head version r c = .ok r') :
    SameSlot r r' ∧ r'.writeStatus = r.writeStatus := by
  cases c with
  | writeHead | writeHeadList | writeHeadArray =>
    cases h
    exact ⟨⟨rfl, rfl⟩, rfl⟩
  | addHeader key value =>
    simp only [head, addHeader] at h
    split at h
    · cases h
    split at h
    all_goals
      cases h
      exact ⟨⟨rfl, rfl⟩, rfl⟩

theorem serialized_same (h : r.serialized = .ok r') : SameSlot r r' := by
  simp only [serialized, serializeHeaders] at h
  split at h
  · split at h
    · cases h
    · cases h
      exact ⟨by simp, rfl⟩
  · cases h
    exact ⟨rfl, rfl⟩

theorem flushHeadersWrites_same (h : r.flushHeadersWrites = .ok (r', bytes)) : SameSlot r r' := by
  obtain ⟨r₁, hserialized, h⟩ := bind_eq_ok h
  split at h
  · cases h
  · cases h
    exact serialized_same hserialized

theorem writeBodyPartWrites_same {b : Str} (h : r.writeBodyPartWrites b = .ok (r', bytes)) :
    SameSlot r r' := by
  obtain ⟨r₁, hserialized, h⟩ := bind_eq_ok h
  have hsame := serialized_same hserialized
  split at h
  · cases h
    exact ⟨hsame.idx, hsame.connStatus⟩
  · split at h
    · cases h
      exact hsame
    · cases h

theorem serialized_accepted (h : r.writeStatus = .notyet) :
    ∃ r', r.serialized = .ok r' ∧ r'.writeStatus = .hdrSerialized := by
  rw [serialized, if_pos h, serializeHeaders, if_neg (not_not.mpr h)]
  exact ⟨_, rfl, rfl⟩

theorem flushHeadersWrites_accepted (h : r.writeStatus = .notyet) :
    ∃ r' bytes, r.flushHeadersWrites = .ok (r', bytes) := by
  obtain ⟨r', hserialized, hstatus⟩ := serialized_accepted h
  refine ⟨r', r'.headerBuff.bytes, ?_⟩
  simp [flushHeadersWrites, hserialized, hstatus, bind, Except.bind]

theorem writeBodyPartWrites_accepted (h : r.writeStatus = .notyet) (b : Str) :
    ∃ r' bytes, r.writeBodyPartWrites b = .ok (r', bytes) := by
  obtain ⟨r', hserialized, hstatus⟩ := serialized_accepted h
  refine ⟨{ r' with headerBuff := r'.headerBuff.append b }, (r'.headerBuff.append b).bytes, ?_⟩
  simp [writeBodyPartWrites, hserialized, hstatus, bind, Except.bind]

theorem endWithWrites_accepted (h : r.writeStatus = .notyet) (b : Str) :
    ∃ r' bytes, r.endWithWrites b = .ok (r', bytes) ∧ SameSlot r r' := by
  rw [endWithWrites_eq h]
  obtain ⟨r', bytes, hw⟩ := writeBodyPartWrites_accepted
    (r := { r with header := r.header.insert contentLengthName (natStr b.length) }) h b
  have hsame := writeBodyPartWrites_same hw
  exact ⟨r', bytes, hw, hsame.idx, hsame.connStatus⟩

theorem endWrites_notyet (h : r.writeStatus = .notyet) :
    ∃ r' bytes, r.endWrites = .ok (r', some bytes) ∧ SameSlot r r' := by
  obtain ⟨r', bytes, hw⟩ := flushHeadersWrites_accepted h
  have hnot : r.writeStatus ≠ .hdrFlushed := by simp [h]
  refine ⟨r', bytes, ?_, flushHeadersWrites_same hw⟩
  rw [endWrites, if_pos hnot, hw]
  rfl

theorem endWrites_hdrFlushed (h : r.writeStatus = .hdrFlushed) : r.endWrites = .ok (r, none) := by
  rw [endWrites, if_neg (not_not.mpr h)]

theorem writeBodyPartWritten_same (r : HttpServerResponse) : SameSlot r r.writeBodyPartWritten := by
  unfold writeBodyPartWritten
  split <;> exact ⟨rfl, rfl⟩

end HttpServerResponse

namespace HttpConnection

open HttpServerResponse

variable {w w' : HttpConnection} {l ev : List SlotEvent} {a : ConnAct} {n : Nat}

/-! ## The stages of a connection -/

/-- The request and the response are those of the slot in use. -/
structure InUse (w : HttpConnection) : Prop where
  busy : w.rrQueue.Busy
  request : w.request.idx = w.rrQueue.tail
  response : w.response.base.idx = w.rrQueue.tail

/-- `run` is in `onNewRequest`, or waits for the slot. -/
def HandedOver (w : HttpConnection) : Prop :=
  w.getter = .calling ∧ w.continueGetting = false ∨
    w.getter = .suspended ∧ w.continueGetting = true

/-- The stages of a connection, with `n` responses ended. -/
inductive Stage (w : HttpConnection) (n : Nat) : Prop
  /-- `run` reads the request of the slot, or has given up. -/
  | reading (inUse : w.InUse) (opened : w.opened = []) (writes : w.writes = [])
      (getter : w.getter = .getting ∨ w.getter = .ended) (noHandle : w.continueGetting = false)
      (status : w.response.writeStatus = .notyet) (ended : n = w.rrQueue.tail)
  /-- The response may be written. -/
  | responding (inUse : w.InUse) (opened : w.opened = [w.rrQueue.tail]) (writes : w.writes = [])
      (handed : w.HandedOver)
      (status : w.response.writeStatus = .notyet ∨ w.response.writeStatus = .hdrFlushed)
      (ended : n = w.rrQueue.tail)
  /-- `flushHeaders` is in flight. -/
  | flushing (inUse : w.InUse) (opened : w.opened = [w.rrQueue.tail])
      (writes : w.writes = [⟨w.rrQueue.tail, .flushHeaders⟩]) (handed : w.HandedOver)
      (ended : n = w.rrQueue.tail)
  /-- `end` is in flight. -/
  | ending (kind : WriteKind) (isEnd : kind = .endFlush ∨ kind = .endPart) (inUse : w.InUse)
      (opened : w.opened = []) (writes : w.writes = [⟨w.rrQueue.tail, kind⟩])
      (handed : w.HandedOver) (ended : n = w.rrQueue.tail + 1)
  /-- The response has been ended within `onNewRequest`. -/
  | released (free : w.rrQueue.Free) (opened : w.opened = []) (writes : w.writes = [])
      (getter : w.getter = .calling) (noHandle : w.continueGetting = false)
      (status : w.response.writeStatus = .notyet) (ended : n = w.rrQueue.tail)

/-- The invariant of the runs without a failed write. -/
structure Served (w : HttpConnection) (l : List SlotEvent) : Prop where
  frames : w.frames = []
  keepAlive : w.response.connStatus = .keepAlive
  stage : ∃ n, w.Stage n ∧ Shows l (List.range w.rrQueue.tail) (List.range n)

namespace Stage

theorem not_resumes (h : w.Stage n) : w.resumes = false := by
  have hbusy : w.InUse → w.resumes = false := by
    intro hu
    simp [resumes, hu.busy.canPush]
  cases h with
  | reading hu => exact hbusy hu
  | responding hu => exact hbusy hu
  | flushing hu => exact hbusy hu
  | ending _ _ hu => exact hbusy hu
  | released _ _ _ _ hc => simp [resumes, hc]

theorem mayCall (h : w.Stage n) {i : Nat} (hi : w.mayCall i) :
    i = w.rrQueue.tail ∧ w.InUse ∧ w.opened = [w.rrQueue.tail] ∧ w.writes = [] ∧ w.HandedOver ∧
      (w.response.writeStatus = .notyet ∨ w.response.writeStatus = .hdrFlushed) ∧
      n = w.rrQueue.tail := by
  simp only [HttpConnection.mayCall, Bool.and_eq_true, List.contains_iff_mem] at hi
  obtain ⟨hmem, hquiet⟩ := hi
  cases h with
  | reading _ ho | ending _ _ _ ho | released _ ho =>
    rw [ho] at hmem
    cases hmem
  | responding hu ho hw hh hs hn =>
    rw [ho] at hmem
    exact ⟨List.mem_singleton.mp hmem, hu, ho, hw, hh, hs, hn⟩
  | flushing _ ho hw =>
    rw [ho] at hmem
    rw [hw] at hquiet
    simp [List.mem_singleton.mp hmem] at hquiet

theorem write_mem (h : w.Stage n) {write : PendingWrite} (hmem : write ∈ w.writes) :
    w.InUse ∧ w.HandedOver ∧ w.writes = [write] ∧ write.request = w.rrQueue.tail ∧
      (write.kind = .flushHeaders ∧ w.opened = [w.rrQueue.tail] ∧ n = w.rrQueue.tail ∨
        (write.kind = .endFlush ∨ write.kind = .endPart) ∧ w.opened = [] ∧
          n = w.rrQueue.tail + 1) := by
  cases h with
  | reading _ _ hw | responding _ _ hw | released _ _ hw =>
    rw [hw] at hmem
    cases hmem
  | flushing hu ho hw hh hn =>
    rw [hw] at hmem
    obtain rfl := List.mem_singleton.mp hmem
    exact ⟨hu, hh, hw, rfl, .inl ⟨rfl, ho, hn⟩⟩
  | ending kind hk hu ho hw hh hn =>
    rw [hw] at hmem
    obtain rfl := List.mem_singleton.mp hmem
    exact ⟨hu, hh, hw, rfl, .inr ⟨hk, ho, hn⟩⟩

end Stage

/-! ## Releasing the slot -/

theorem takeRequest_ok (h : w.rrQueue.Free) (hlt : w.rrQueue.head + 1 < 2 ^ 64) :
    ∃ q, w.takeRequest = some ({ w with
        rrQueue := q
        request := { w.request with idx := w.rrQueue.head }
        response := { w.response with base := { w.response.base with idx := w.rrQueue.head } }
        getter := .getting }, [.takes w.rrQueue.head]) ∧
      q.Busy ∧ q.tail = w.rrQueue.head := by
  obtain ⟨q, hq, hbusy, htail⟩ := h.getHead hlt
  refine ⟨q, ?_, hbusy, htail⟩
  simp only [takeRequest, hq]

theorem takeRequest_stage (h : w.rrQueue.Free) (hlt : w.rrQueue.head + 1 < 2 ^ 64)
    (ho : w.opened = []) (hw : w.writes = []) (hc : w.continueGetting = false)
    (hs : w.response.writeStatus = .notyet) :
    ∃ w' i, w.takeRequest = some (w', [.takes i]) ∧ w'.Stage w.rrQueue.head ∧
      w'.rrQueue.tail = w.rrQueue.head ∧ w'.frames = w.frames ∧
      w'.response.connStatus = w.response.connStatus := by
  obtain ⟨q, hq, hbusy, htail⟩ := takeRequest_ok h hlt
  refine ⟨_, _, hq, ?_, htail, rfl, rfl⟩
  exact .reading ⟨hbusy, htail.symm, htail.symm⟩ ho hw (.inl rfl) hc hs htail.symm

/-- What `finish` shows before `run` may be resumed. -/
def finishEvents (i : Nat) : List SlotEvent := [.clears i i, .clears i i, .releases i i]

theorem shows_finishEvents (i : Nat) : Shows (finishEvents i) [i] [] :=
  ⟨by simp [finishEvents, SlotEvent.own], rfl, rfl⟩

/-- The connection when the slot has been released and `run` has not been resumed. -/
def freed (w : HttpConnection) (q : RRQueue 0) : HttpConnection :=
  { w with request := w.request.clear, rrQueue := q, response := w.response.clear }

theorem finish_eq (hu : w.InUse) (hk : w.response.connStatus = .keepAlive) :
    ∃ q : RRQueue 0, q.Free ∧ q.head = w.rrQueue.tail + 1 ∧
      w.finish w.rrQueue.tail = (w.freed q).proceedToNext.map fun r =>
        (r.1, finishEvents w.rrQueue.tail ++ r.2) := by
  obtain ⟨q, hq, hfree, hhead⟩ := hu.busy.release
  refine ⟨q, hfree, hhead.trans hu.busy.1, ?_⟩
  have hrelease : ({ w with request := w.request.clear } : HttpConnection).releaseSlot
      w.rrQueue.tail = some (w.freed q,
        [.clears w.rrQueue.tail w.rrQueue.tail, .releases w.rrQueue.tail w.rrQueue.tail]) := by
    simp only [releaseSlot, hu.response, hq, freed]
  simp only [finish, hk, ne_eq, not_true_eq_false, if_false, hrelease, hu.request,
    Option.bind_eq_bind, Option.bind_some]
  cases (w.freed q).proceedToNext <;> rfl

/-- `end` releases the slot in use behind its write: `run` takes the next request, or finds the
slot free when `onNewRequest` returns. -/
theorem finish_stage (hu : w.InUse) (hk : w.response.connStatus = .keepAlive) (ho : w.opened = [])
    (hw : w.writes = []) (hh : w.HandedOver) (hlt : w.rrQueue.head + 1 < 2 ^ 64) :
    ∃ w' taken, w.finish w.rrQueue.tail = some (w', finishEvents w.rrQueue.tail ++ taken) ∧
      Shows taken [] [] ∧ w'.Stage (w.rrQueue.tail + 1) ∧
      w'.rrQueue.tail = w.rrQueue.tail + 1 ∧ w'.frames = w.frames ∧
      w'.response.connStatus = .keepAlive := by
  obtain ⟨q, hfree, hnext, hfinish⟩ := finish_eq hu hk
  have htail : q.tail = w.rrQueue.tail + 1 := hfree.1.symm.trans hnext
  have hroom : q.head + 1 < 2 ^ 64 := by rwa [hnext, ← hu.busy.1]
  rw [hfinish]
  rcases hh with ⟨hg, hc⟩ | ⟨hg, hc⟩
  · have hstay : (w.freed q).resumes = false := by
      simp [resumes, freed, hc]
    refine ⟨w.freed q, [], ?_, .nil, .released hfree ho hw hg hc rfl htail.symm, htail, rfl, hk⟩
    simp [proceedToNext, hstay]
  · have hgo : (w.freed q).resumes = true := by
      simp [resumes, freed, hc, hfree.canPush]
    obtain ⟨w', i, htake, hstage, htail', hframes, hconn⟩ :=
      takeRequest_stage (w := { w.freed q with continueGetting := false }) hfree hroom ho hw rfl rfl
    have hstage : w'.Stage q.head := hstage
    refine ⟨w', [.takes i], ?_, .takes i, hnext ▸ hstage, htail'.trans hnext, hframes,
      hconn.trans hk⟩
    rw [proceedToNext, if_pos hgo, htake]
    rfl

/-! ## One step -/

theorem Stage.getting (h : w.Stage n) (hg : w.getter = .getting) :
    w.InUse ∧ w.opened = [] ∧ w.writes = [] ∧ w.continueGetting = false ∧
      w.response.writeStatus = .notyet ∧ n = w.rrQueue.tail := by
  have hhanded : ¬w.HandedOver := by
    rintro (⟨hc, -⟩ | ⟨hc, -⟩) <;> exact nomatch hg.symm.trans hc
  cases h with
  | reading hu ho hw _ hc hs hn => exact ⟨hu, ho, hw, hc, hs, hn⟩
  | responding _ _ _ hh => exact absurd hh hhanded
  | flushing _ _ _ hh => exact absurd hh hhanded
  | ending _ _ _ _ _ hh => exact absurd hh hhanded
  | released _ _ _ hc => exact nomatch hg.symm.trans hc

theorem Stage.suspend (h : w.Stage n) (hg : w.getter = .calling)
    (hpush : w.rrQueue.canPush = false) :
    Stage { w with getter := .suspended, continueGetting := true } n := by
  cases h with
  | reading _ _ _ hr =>
    rcases hr with hr | hr <;> exact nomatch hg.symm.trans hr
  | responding hu ho hw _ hs hn =>
    exact .responding ⟨hu.1, hu.2, hu.3⟩ ho hw (.inr ⟨rfl, rfl⟩) hs hn
  | flushing hu ho hw _ hn => exact .flushing ⟨hu.1, hu.2, hu.3⟩ ho hw (.inr ⟨rfl, rfl⟩) hn
  | ending kind hk hu ho hw _ hn =>
    exact .ending kind hk ⟨hu.1, hu.2, hu.3⟩ ho hw (.inr ⟨rfl, rfl⟩) hn
  | released hfree => exact nomatch hfree.canPush.symm.trans hpush

theorem Stage.free (h : w.Stage n) (hpush : w.rrQueue.canPush = true) :
    w.rrQueue.Free ∧ w.opened = [] ∧ w.writes = [] ∧ w.continueGetting = false ∧
      w.response.writeStatus = .notyet ∧ n = w.rrQueue.tail := by
  have hbusy : ¬w.InUse := fun hu => nomatch hu.busy.canPush.symm.trans hpush
  cases h with
  | reading hu => exact absurd hu hbusy
  | responding hu => exact absurd hu hbusy
  | flushing hu => exact absurd hu hbusy
  | ending _ _ hu => exact absurd hu hbusy
  | released hfree ho hw _ hc hs hn => exact ⟨hfree, ho, hw, hc, hs, hn⟩

namespace Served

theorem initial : HttpConnection.initial.Served [] where
  frames := rfl
  keepAlive := rfl
  stage := ⟨0, .reading ⟨⟨rfl, by decide⟩, rfl, rfl⟩ rfl rfl (.inl rfl) rfl rfl rfl, .nil⟩

theorem quiet (h : w.Served l) (hf : w'.frames = w.frames)
    (hk : w'.response.connStatus = w.response.connStatus)
    (ht : w'.rrQueue.tail = w.rrQueue.tail) (hstage : w'.Stage n)
    (hshows : Shows l (List.range w.rrQueue.tail) (List.range n)) : w'.Served (l ++ []) :=
  ⟨hf.trans h.frames, hk.trans h.keepAlive, n, hstage, by rwa [List.append_nil, ht]⟩

/-- A step in which `end` releases the slot, having shown `called` before. -/
theorem finish (called : List SlotEvent) (hf : w.frames = [])
    (hk : w.response.connStatus = .keepAlive)
    (hshows : Shows (l ++ called) (List.range w.rrQueue.tail) (List.range (w.rrQueue.tail + 1)))
    (hu : w.InUse) (ho : w.opened = []) (hw : w.writes = []) (hh : w.HandedOver)
    (hlt : w.rrQueue.head + 1 < 2 ^ 64) :
    ∃ w' ev, w.finish w.rrQueue.tail = some (w', ev) ∧ w'.Served (l ++ (called ++ ev)) := by
  obtain ⟨w', taken, hfinish, htaken, hstage, htail, hframes, hconn⟩ :=
    finish_stage hu hk ho hw hh hlt
  refine ⟨w', _, hfinish, hframes.trans hf, hconn, w.rrQueue.tail + 1, hstage, ?_⟩
  have hall := (hshows.append (shows_finishEvents w.rrQueue.tail)).append htaken
  simpa [htail, List.range_succ] using hall

/-! ## The calls -/

section Calls

variable {i : Nat}

theorem head (h : w.Served l) (hi : w.mayCall i) {call : HeadCall}
    (ha : w.accepts (.head i call)) :
    ∃ w', w.exec (.head i call) = some (w', []) ∧ w'.Served (l ++ []) := by
  obtain ⟨n, hstage, hshows⟩ := h.stage
  obtain ⟨-, hu, ho, hw, hh, hs, hn⟩ := hstage.mayCall hi
  obtain ⟨r', hr⟩ : ∃ r', HttpServerResponse.head w.request.version w.response call = .ok r' := by
    cases call with
    | writeHead | writeHeadList | writeHeadArray => exact ⟨_, rfl⟩
    | addHeader key value =>
      have hnot : w.response.writeStatus = .notyet := by
        simpa [acceptsCall] using (accepts_iff.mp ha).2
      obtain ⟨r', hr, -⟩ := head_ok w.request.version hnot (.addHeader key value)
      exact ⟨r', hr⟩
  obtain ⟨hsame, hstatus⟩ := head_same hr
  refine ⟨{ w with response := r' }, ?_, ?_⟩
  · simp [HttpConnection.exec, hi, hr]
  · have hu' : InUse { w with response := r' } := ⟨hu.busy, hu.request, hsame.idx.trans hu.response⟩
    have hs' : r'.writeStatus = .notyet ∨ r'.writeStatus = .hdrFlushed := hstatus ▸ hs
    exact h.quiet rfl hsame.connStatus rfl (.responding hu' ho hw hh hs' hn) hshows

theorem flushHeaders (h : w.Served l) (hi : w.mayCall i) (ha : w.accepts (.flushHeaders i)) :
    ∃ w', w.exec (.flushHeaders i) = some (w', []) ∧ w'.Served (l ++ []) := by
  obtain ⟨n, hstage, hshows⟩ := h.stage
  obtain ⟨rfl, hu, ho, hw, hh, -, hn⟩ := hstage.mayCall hi
  have hnot : w.response.writeStatus = .notyet := by
    simpa [acceptsCall] using (accepts_iff.mp ha).2
  obtain ⟨r', bytes, hr⟩ := flushHeadersWrites_accepted hnot
  have hsame := flushHeadersWrites_same hr
  refine ⟨w.startWrite w.rrQueue.tail .flushHeaders r', ?_, ?_⟩
  · simp [HttpConnection.exec, hi, hr]
  · refine h.quiet rfl hsame.connStatus rfl (.flushing ?_ ho ?_ hh hn) hshows
    · exact ⟨hu.busy, hu.request, hsame.idx.trans hu.response⟩
    · show _ :: w.writes = _
      rw [hw]
      rfl

theorem startEnd (h : w.Served l) (hi : w.mayCall i) {kind : WriteKind}
    (hkind : kind = .endFlush ∨ kind = .endPart) {r' : HttpServerResponse}
    (hsame : SameSlot w.response r') :
    Served (startWrite { w with opened := w.opened.erase i } i kind r')
    (l ++ [SlotEvent.ends i]) := by
  obtain ⟨n, hstage, hshows⟩ := h.stage
  obtain ⟨rfl, hu, ho, hw, hh, -, rfl⟩ := hstage.mayCall hi
  refine ⟨h.frames, hsame.connStatus.trans h.keepAlive, _,
    .ending kind hkind ?_ ?_ ?_ hh rfl, hshows.ends⟩
  · exact ⟨hu.busy, hu.request, hsame.idx.trans hu.response⟩
  · show w.opened.erase _ = []
    rw [ho]
    exact List.erase_cons_head ..
  · show _ :: w.writes = _
    rw [hw]
    rfl

theorem «end» (h : w.Served l) (hi : w.mayCall i) (ha : w.accepts (.end i)) :
    ∃ w' ev, w.exec (.end i) = some (w', ev) ∧ w'.Served (l ++ ev) := by
  obtain ⟨n, hstage, hshows⟩ := h.stage
  obtain ⟨hitail, hu, ho, hw, hh, hs, hn⟩ := hstage.mayCall hi
  rcases hs with hs | hs
  · obtain ⟨r', bytes, hr, hsame⟩ := endWrites_notyet hs
    refine ⟨_, _, ?_, h.startEnd hi (.inl rfl) hsame⟩
    simp [HttpConnection.exec, hi, hr]
  · -- the headers have been flushed: there is nothing to wait for
    subst hitail hn
    have herase : w.opened.erase w.rrQueue.tail = [] := by
      rw [ho]
      exact List.erase_cons_head ..
    obtain ⟨w', ev, hfinish, hserved⟩ := Served.finish
      (w := { w with opened := w.opened.erase w.rrQueue.tail }) [.ends w.rrQueue.tail] h.frames
      h.keepAlive hshows.ends ⟨hu.busy, hu.request, hu.response⟩ herase hw hh (accepts_iff.mp ha).1
    refine ⟨w', .ends w.rrQueue.tail :: ev, ?_, hserved⟩
    simp [HttpConnection.exec, hi, endWrites_hdrFlushed hs, hfinish]

theorem endWith (h : w.Served l) (hi : w.mayCall i) {b : Str} (ha : w.accepts (.endWith i b)) :
    ∃ w' ev, w.exec (.endWith i b) = some (w', ev) ∧ w'.Served (l ++ ev) := by
  have hnot : w.response.writeStatus = .notyet := by
    simpa [acceptsCall] using (accepts_iff.mp ha).2
  obtain ⟨r', bytes, hr, hsame⟩ := endWithWrites_accepted hnot b
  refine ⟨_, _, ?_, h.startEnd hi (.inr rfl) hsame⟩
  simp [HttpConnection.exec, hi, hr]

theorem call (h : w.Served l) (hreq : a.request? = some i) (hi : w.mayCall i)
    (ha : w.accepts a) : ∃ w' ev, w.exec a = some (w', ev) ∧ w'.Served (l ++ ev) := by
  cases a with
  | head request c =>
    cases hreq
    obtain ⟨w', hexec, hserved⟩ := h.head hi ha
    exact ⟨w', [], hexec, hserved⟩
  | flushHeaders request =>
    cases hreq
    obtain ⟨w', hexec, hserved⟩ := h.flushHeaders hi ha
    exact ⟨w', [], hexec, hserved⟩
  | writeBodyPart => exact nomatch (accepts_iff.mp ha).2
  | «end» request =>
    cases hreq
    exact h.end hi ha
  | endWith request b =>
    cases hreq
    exact h.endWith hi ha
  | requestRead | requestFailed | handlerReturns | bodyRead | written | endGoesOn => cases hreq

end Calls

theorem written (h : w.Served l) {write : PendingWrite} (hmem : write ∈ w.writes)
    (ha : w.accepts (.written write true)) :
    ∃ w' ev, w.exec (.written write true) = some (w', ev) ∧ w'.Served (l ++ ev) := by
  obtain ⟨n, hstage, hshows⟩ := h.stage
  obtain ⟨hu, hh, hw, hreq, hkind⟩ := hstage.write_mem hmem
  have herase : w.writes.erase write = [] := by
    rw [hw]
    exact List.erase_cons_head ..
  have hexec : w.exec (.written write true) =
      HttpConnection.written { w with writes := w.writes.erase write } write := by
    simp [HttpConnection.exec, hmem]
  rw [hexec]
  -- both `end` release the slot; they differ in what the write leaves of the response
  have hend : ∀ r' : HttpServerResponse, SameSlot w.response r' → w.opened = [] →
      n = w.rrQueue.tail + 1 → ∃ w' ev,
        HttpConnection.finish { w with writes := w.writes.erase write, response := r' }
          w.rrQueue.tail = some (w', ev) ∧ w'.Served (l ++ ev) := by
    intro r' hsame ho hn
    apply Served.finish
      (w := { w with writes := w.writes.erase write, response := r' }) [] h.frames
      (hsame.connStatus.trans h.keepAlive) (by simpa [hn] using hshows)
      ⟨hu.busy, hu.request, hsame.idx.trans hu.response⟩ ho herase hh (accepts_iff.mp ha).1
  rcases hkind with ⟨hk, ho, hn⟩ | ⟨hk | hk, ho, hn⟩
  · refine ⟨_, _, by rw [HttpConnection.written, hk], ?_⟩
    exact h.quiet rfl rfl rfl
      (.responding ⟨hu.busy, hu.request, hu.response⟩ ho herase hh (.inr rfl) hn) hshows
  · rw [HttpConnection.written, hk, hreq]
    exact hend w.response.flushHeadersWritten ⟨rfl, rfl⟩ ho hn
  · rw [HttpConnection.written, hk, hreq]
    exact hend _ (writeBodyPartWritten_same w.response) ho hn

/-- The step lemma. -/
theorem exec (h : w.Served l) (ha : w.accepts a) (hs : w.exec a = some (w', ev)) :
    w'.Served (l ++ ev) := by
  obtain ⟨n, hstage, hshows⟩ := h.stage
  -- calls and writes are carried out in one way only, which the lemmas above have shown
  have hcall : ∀ i, a.request? = some i → w.mayCall i → w'.Served (l ++ ev) := by
    intro i hreq hi
    obtain ⟨w₁, ev₁, hexec, hserved⟩ := h.call hreq hi ha
    cases hs.symm.trans hexec
    exact hserved
  cases a with
  | requestRead message =>
    simp only [HttpConnection.exec] at hs
    split at hs
    · rename_i hg
      cases hs
      obtain ⟨hu, ho, hw, hc, hstatus, hn⟩ := hstage.getting hg
      refine h.quiet rfl rfl rfl (.responding ?_ ?_ hw (.inl ⟨rfl, hc⟩) (.inl hstatus) hn) hshows
      · exact ⟨hu.busy, hu.request, hu.response⟩
      · show w.request.idx :: w.opened = _
        rw [ho, hu.request]
    · cases hs
  | requestFailed =>
    simp only [HttpConnection.exec] at hs
    split at hs
    · rename_i hg
      cases hs
      obtain ⟨hu, ho, hw, hc, hstatus, hn⟩ := hstage.getting hg
      exact h.quiet rfl rfl rfl
        (.reading ⟨hu.busy, hu.request, hu.response⟩ ho hw (.inr rfl) hc hstatus hn) hshows
    · cases hs
  | handlerReturns =>
    simp only [HttpConnection.exec] at hs
    split at hs
    · rename_i hg
      split at hs
      · rename_i hpush
        obtain ⟨hfree, ho, hw, hc, hstatus, hn⟩ := hstage.free hpush
        obtain ⟨w₁, i, htake, hstage', htail, hframes, hconn⟩ :=
          takeRequest_stage hfree (accepts_iff.mp ha).1 ho hw hc hstatus
        cases hs.symm.trans htake
        have hhead : w.rrQueue.head = w.rrQueue.tail := hfree.1
        refine ⟨hframes.trans h.frames, hconn.trans h.keepAlive, _, hstage', ?_⟩
        rw [htail, hhead]
        simpa [hn] using hshows.append (.takes i)
      · rename_i hpush
        cases hs
        have hbusy : w.rrQueue.canPush = false := by simpa using hpush
        exact h.quiet rfl rfl rfl (hstage.suspend hg hbusy) hshows
    · cases hs
  | bodyRead =>
    simp only [HttpConnection.exec, proceedToNext, hstage.not_resumes] at hs
    cases hs
    exact h.quiet rfl rfl rfl hstage hshows
  | head i _ | flushHeaders i | writeBodyPart i _ | «end» i | endWith i _ =>
    by_cases hi : w.mayCall i = true
    · exact hcall i rfl hi
    · simp [HttpConnection.exec, hi] at hs
  | written write ok =>
    obtain rfl : ok = true := (accepts_iff.mp ha).2
    by_cases hmem : write ∈ w.writes
    · obtain ⟨w₁, ev₁, hexec, hserved⟩ := h.written hmem ha
      cases hs.symm.trans hexec
      exact hserved
    · simp [HttpConnection.exec, hmem] at hs
  | endGoesOn =>
    simp only [HttpConnection.exec, h.frames] at hs
    cases hs

/-- The run lemma. -/
theorem run {as : List ConnAct}
    (hobeys : httpConnection.obeys (fun w a => w.accepts a = true) HttpConnection.initial as)
    (hrun : httpConnection.run HttpConnection.initial as = some w) :
    w.Served (httpConnection.trace (fun w a => a.events w) HttpConnection.initial as) := by
  apply httpConnection.run_exec (J := Served) (fun _ _ => rfl) (fun _ _ => rfl) ?_ Served.initial
    hobeys hrun
  intro w a w' l ev h ha hs
  exact h.exec ha hs

end Served

end HttpConnection

theorem mem_endedRequests {i : Nat} {l : List SlotEvent} : .ends i ∈ l ↔ i ∈ endedRequests l := by
  simp only [endedRequests, List.mem_filterMap]
  constructor
  · intro h
    exact ⟨.ends i, h, rfl⟩
  · rintro ⟨e, he, hi⟩
    cases e with
    | ends j =>
      cases hi
      exact he
    | takes | clears | releases => cases hi

open HttpConnection in
/-- In every run in which no write fails and every call is one that the response accepts, nothing
is cleared or released on behalf of another request, no slot is released twice, and a slot whose
response has been ended is released as soon as the write of `end` is done; no assertion fails. -/
theorem slots_released_once (as : List ConnAct) (w : HttpConnection)
    (hobeys : httpConnection.obeys (fun w a => w.accepts a = true) HttpConnection.initial as)
    (hrun : httpConnection.run HttpConnection.initial as = some w) :
    SlotsReleased w (httpConnection.trace (fun w a => a.events w) HttpConnection.initial as) := by
  have h := Served.run hobeys hrun
  obtain ⟨n, hstage, hshows⟩ := h.stage
  have hcount : ∀ i, (releasedSlots (httpConnection.trace (fun w a => a.events w)
      HttpConnection.initial as)).count i = if i < w.rrQueue.tail then 1 else 0 := by
    intro i
    rw [hshows.released]
    split
    · rename_i hi
      exact List.count_eq_one_of_mem List.nodup_range (List.mem_range.mpr hi)
    · rename_i hi
      exact List.count_eq_zero.mpr fun hmem => hi (List.mem_range.mp hmem)
  refine ⟨hshows.own, ?_, ?_, ?_, ?_⟩
  · intro i
    rw [hcount]
    split <;> omega
  · intro i hi hquiet
    rw [mem_endedRequests, hshows.ended, List.mem_range] at hi
    rw [hcount, if_pos]
    -- only an `end` that waits for its write is ahead of `tail`
    cases hstage with
    | reading _ _ _ _ _ _ hn => omega
    | responding _ _ _ _ _ hn => omega
    | flushing _ _ _ _ hn => omega
    | ending kind _ _ _ hw _ hn =>
      have hne : w.rrQueue.tail ≠ i := by
        apply hquiet ⟨w.rrQueue.tail, kind⟩
        rw [hw]
        exact List.mem_singleton.mpr rfl
      omega
    | released _ _ _ _ _ _ hn => omega
  · intro a i hreq hi ha
    obtain ⟨w', ev, hexec, -⟩ := h.call hreq hi ha
    simp [httpConnection, hexec]
  · intro write hmem ha
    obtain ⟨w', ev, hexec, -⟩ := h.written hmem ha
    simp [httpConnection, hexec]

/-- Two requests: the first one is answered when `run` waits for the slot, the second one within
`onNewRequest` and with its headers flushed before. -/
def twoAnswered : List ConnAct :=
  [.requestRead {}, .head 0 (.writeHead 200 none), .endWith 0 (chars ['a']), .handlerReturns,
    .written ⟨0, .endPart⟩ true, .requestRead {}, .flushHeaders 1,
    .written ⟨1, .flushHeaders⟩ true, .end 1, .handlerReturns]

open HttpConnection in
theorem slots_released_once_answered :
    httpConnection.obeys (fun w a => w.accepts a = true) HttpConnection.initial twoAnswered ∧
      ∃ w, httpConnection.run HttpConnection.initial twoAnswered = some w ∧
        SlotsReleased w
          (httpConnection.trace (fun w a => a.events w) HttpConnection.initial twoAnswered) := by
  have hobeys : httpConnection.obeys (fun w a => w.accepts a = true) HttpConnection.initial
      twoAnswered := by decide +kernel
  obtain ⟨w, hrun⟩ : ∃ w, httpConnection.run HttpConnection.initial twoAnswered = some w :=
    Option.isSome_iff_exists.mp (by decide +kernel)
  exact ⟨hobeys, w, hrun, slots_released_once twoAnswered w hobeys hrun⟩

/-- The write of `end()` throws while `run` waits for the slot; `run` takes the next request, and
waits for its data when `end()` goes on. -/
def endFails : List ConnAct :=
  [.requestRead {}, .handlerReturns, .end 0, .written ⟨0, .endFlush⟩ false, .endGoesOn]

/-- The failing response to request 0 releases its slot, and then clears and releases the slot of
request 1, which has not been read yet. -/
theorem failed_end_releases_next :
    (httpConnection.run HttpConnection.initial endFails).isSome ∧
      httpConnection.trace (fun w a => a.events w) HttpConnection.initial endFails =
        [.ends 0, .clears 0 0, .releases 0 0, .takes 1, .clears 0 1, .clears 0 1,
          .releases 0 1] := by
  decide +kernel

end NodeCpp
