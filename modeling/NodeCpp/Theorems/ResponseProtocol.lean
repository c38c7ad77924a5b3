import NodeCpp.Http.Queue
import NodeCpp.Http.Response

/-!
# What a response hands to the socket

A response is written by calls that set up its head, optionally `flushHeaders`, any number of
`writeBodyPart` and one `end`. With every write succeeding, the bytes handed to the socket are to
be the header block once and then the parts of the body.

`writeBodyPart` leaves the response `in_body`, and neither `writeBodyPart` nor `flushHeaders`
accepts that status; `end( b )` accepts nothing but `notyet` and `in_body`.

* `ResponseCalls.run` -- the calls, one after the other.
* `response_written_iff` -- exactly when they do what they are to do.
* `second_part_asserts` -- a response in two parts.
-/

namespace NodeCpp

open Lib

/-- The calls that make up a response; `last` is the argument of `end`, if it has one. -/
structure ResponseCalls where
  heads : List HeadCall := []
  flush : Bool := false
  parts : List Str := []
  last : Option Str := none
  deriving DecidableEq, Repr

/-- The header block: the status text, and the headers in the order of their keys. -/
def headerBlock (status : Str) (header : HeaderMap) : Str :=
  status ++ crlf ++ (header.map fun h => headerLine h.1 h.2).flatten ++ crlf

namespace HttpServerResponse

/-- `flushHeaders`, when its write succeeds. -/
def flushHeaders (r : HttpServerResponse) : Except Failure (HttpServerResponse × Str) := do
  let (r, bytes) ← r.flushHeadersWrites
  .ok (r.flushHeadersWritten, bytes)

/-- `flushHeaders`, if it is called. -/
def flushIf (r : HttpServerResponse) (flush : Bool) : Except Failure (HttpServerResponse × Str) :=
  if flush then r.flushHeaders else .ok (r, [])

/-- `writeBodyPart`, when its write succeeds. -/
def writeBodyPart (r : HttpServerResponse) (b : Str) :
    Except Failure (HttpServerResponse × Str) := do
  let (r, bytes) ← r.writeBodyPartWrites b
  .ok (r.writeBodyPartWritten, bytes)

def writeBodyParts (r : HttpServerResponse) : List Str → Except Failure (HttpServerResponse × Str)
  | [] => .ok (r, [])
  | b :: bs => do
      let (r, bytes) ← r.writeBodyPart b
      let (r, rest) ← r.writeBodyParts bs
      .ok (r, bytes ++ rest)

/-- What both `end` do behind their write. -/
def finish (r : HttpServerResponse) (q : RRQueue 0) :
    Except Failure (HttpServerResponse × RRQueue 0) :=
  if r.connStatus ≠ .keepAlive then .ok (r.clear, q)
  else do
    let (q, _) ← q.release r.base.idx
    .ok (r.clear, q)

/-- `end()` and `end( b )`, when their write succeeds. -/
def endCall (r : HttpServerResponse) (q : RRQueue 0) :
    Option Str → Except Failure (HttpServerResponse × RRQueue 0 × Str)
  | none => do
      let (r, bytes) ← r.endWrites
      let r := if bytes.isSome then r.flushHeadersWritten else r
      let (r, q) ← r.finish q
      .ok (r, q, bytes.getD [])
  | some b => do
      let (r, bytes) ← r.endWithWrites b
      let (r, q) ← r.writeBodyPartWritten.finish q
      .ok (r, q, bytes)

structure Initial (r : HttpServerResponse) : Prop where
  writeStatus : r.writeStatus = .notyet
  headerBuff : r.headerBuff.bytes = []

end HttpServerResponse

namespace ResponseCalls

open HttpServerResponse

/-- The calls of a response to a request of the given version: the response and the queue
afterwards, and the bytes handed to the socket. -/
def run (version : Str) (r : HttpServerResponse) (q : RRQueue 0) (s : ResponseCalls) :
    Except Failure (HttpServerResponse × RRQueue 0 × Str) := do
  let r ← s.heads.foldlM (head version) r
  let (r, out) ← r.flushIf s.flush
  let (r, body) ← r.writeBodyParts s.parts
  let (r, q, rest) ← r.endCall q s.last
  .ok (r, q, out ++ body ++ rest)

/-- The headers of the block: `end( b )` adds the length of `b` to those that have been given, if
they have not been written yet. -/
def fields (s : ResponseCalls) (header : HeaderMap) : HeaderMap :=
  match s.flush, s.last with
  | false, some b => header.insert contentLengthName (natStr b.length)
  | _, _ => header

end ResponseCalls

namespace HttpServerResponse

variable {r r' : HttpServerResponse} {q : RRQueue 0}

/-! ## The head -/

/-- What the calls for the head leave as it is. -/
structure SameBody (r r' : HttpServerResponse) : Prop where
  writeStatus : r'.writeStatus = r.writeStatus
  headerBuff : r'.headerBuff = r.headerBuff
  base : r'.base = r.base
  connStatus : r'.connStatus = r.connStatus

theorem head_ok (version : Str) (hr : r.writeStatus = .notyet) (c : HeadCall) :
    ∃ r', head version r c = .ok r' ∧ SameBody r r' := by
  cases c with
  | writeHead | writeHeadList | writeHeadArray => exact ⟨_, rfl, rfl, rfl, rfl, rfl⟩
  | addHeader key value =>
    simp only [head, addHeader, hr, ne_eq, not_true_eq_false, if_false]
    split
    · exact ⟨_, rfl, hr.symm ▸ rfl, rfl, rfl, rfl⟩
    · exact ⟨_, rfl, rfl, rfl, rfl, rfl⟩

theorem heads_ok (version : Str) (hr : r.writeStatus = .notyet) (heads : List HeadCall) :
    ∃ r', heads.foldlM (head version) r = .ok r' ∧ SameBody r r' := by
  induction heads generalizing r with
  | nil => exact ⟨r, rfl, rfl, rfl, rfl, rfl⟩
  | cons c heads ih =>
    obtain ⟨r₁, hc, h₁⟩ := head_ok version hr c
    obtain ⟨r', hheads, h'⟩ := ih (h₁.writeStatus.trans hr)
    refine ⟨r', ?_, h'.writeStatus.trans h₁.writeStatus, h'.headerBuff.trans h₁.headerBuff,
      h'.base.trans h₁.base, h'.connStatus.trans h₁.connStatus⟩
    rw [List.foldlM_cons, hc]
    exact hheads

theorem bytes_foldl_append (header : HeaderMap) (buff : Buffer) :
    (header.foldl (fun (buff : Buffer) h =>
      (((buff.append h.1).append (chars [':', ' '])).append h.2).append crlf) buff).bytes =
      buff.bytes ++ (header.map fun h => headerLine h.1 h.2).flatten := by
  induction header generalizing buff with
  | nil => simp
  | cons h header ih =>
    rw [List.foldl_cons, ih]
    simp [headerLine]

theorem serialized_ok (hr : r.Initial) :
    ∃ r', r.serialized = .ok r' ∧ r'.writeStatus = .hdrSerialized ∧
      r'.headerBuff.bytes = headerBlock r.replyStatus r.header ∧ r'.base.idx = r.base.idx ∧
      r'.connStatus = r.connStatus := by
  obtain ⟨r', hserialized⟩ : ∃ r', r.serialized = .ok r' := by
    rw [serialized, if_pos hr.writeStatus, serializeHeaders, if_neg (not_not.mpr hr.writeStatus)]
    exact ⟨_, rfl⟩
  refine ⟨r', hserialized, ?_⟩
  rw [serialized, if_pos hr.writeStatus, serializeHeaders,
    if_neg (not_not.mpr hr.writeStatus)] at hserialized
  cases hserialized
  refine ⟨rfl, ?_, ?_, rfl⟩
  · show Buffer.bytes (Buffer.append _ crlf) = _
    rw [Buffer.bytes_append, bytes_foldl_append, Buffer.bytes_append, headerBlock]
    split
    · rw [Buffer.bytes_append, hr.headerBuff, List.nil_append]
    · rename_i hempty
      rw [hr.headerBuff, List.length_eq_zero_iff.mp (not_not.mp hempty)]
  · simp

/-! ## The calls that write -/

/-- The slot of the response is the one in use. -/
def InSlot (r : HttpServerResponse) (q : RRQueue 0) : Prop := q.Busy ∧ r.base.idx = q.tail

theorem finish_ok (h : r.InSlot q) : ∃ r' q', r.finish q = .ok (r', q') := by
  unfold finish
  split
  · exact ⟨_, _, rfl⟩
  · obtain ⟨q', hrelease, -⟩ := h.1.release
    rw [h.2, hrelease]
    exact ⟨_, _, rfl⟩

theorem flushHeaders_ok (hr : r.Initial) (hslot : r.InSlot q) :
    ∃ r', r.flushHeaders = .ok (r', headerBlock r.replyStatus r.header) ∧
      r'.writeStatus = .hdrFlushed ∧ r'.InSlot q := by
  obtain ⟨r₁, hserialized, hstatus, hbytes, hidx, -⟩ := serialized_ok hr
  refine ⟨r₁.flushHeadersWritten, ?_, rfl, hslot.1, hidx.trans hslot.2⟩
  simp only [flushHeaders, flushHeadersWrites, hserialized, bind, Except.bind, hstatus, ne_eq,
    not_true_eq_false, if_false, hbytes]

theorem writeBodyPartWrites_ok (hr : r.Initial) (hslot : r.InSlot q) (b : Str) :
    ∃ r', r.writeBodyPartWrites b = .ok (r', headerBlock r.replyStatus r.header ++ b) ∧
      r'.InSlot q := by
  obtain ⟨r₁, hserialized, hstatus, hbytes, hidx, -⟩ := serialized_ok hr
  refine ⟨{ r₁ with headerBuff := r₁.headerBuff.append b }, ?_, hslot.1, hidx.trans hslot.2⟩
  simp only [writeBodyPartWrites, hserialized, bind, Except.bind, hstatus, if_true,
    Buffer.bytes_append, hbytes]

@[simp] theorem writeStatus_writeBodyPartWritten (r : HttpServerResponse) :
    r.writeBodyPartWritten.writeStatus = .inBody := rfl

theorem writeBodyPartWritten_inSlot (h : r.InSlot q) : r.writeBodyPartWritten.InSlot q := by
  unfold writeBodyPartWritten
  split <;> exact h

theorem writeBodyPart_inBody {b bytes : Str} (h : r.writeBodyPart b = .ok (r', bytes)) :
    r'.writeStatus = .inBody := by
  obtain ⟨⟨r₁, bytes₁⟩, -, h⟩ := bind_eq_ok h
  cases h
  rfl

/-! ## What is not accepted any more -/

theorem writeBodyPartWrites_fails (hr : r.writeStatus = .inBody) (b : Str) :
    r.writeBodyPartWrites b = .error .assertion := by
  simp [writeBodyPartWrites, serialized, hr, bind, Except.bind]

theorem writeBodyPart_fails (hr : r.writeStatus = .inBody) (b : Str) :
    r.writeBodyPart b = .error .assertion := by
  rw [writeBodyPart, writeBodyPartWrites_fails hr]
  rfl

/-- Behind a part of the body, no `end` is accepted. -/
theorem endCall_inBody (hr : r.writeStatus = .inBody) (q : RRQueue 0) (last : Option Str) :
    r.endCall q last = .error .assertion := by
  cases last with
  | none => simp [endCall, endWrites, flushHeadersWrites, serialized, hr, bind, Except.bind]
  | some b =>
    simp [endCall, endWithWrites, hr, bind, Except.bind, writeBodyPartWrites_fails hr]

/-- Behind `flushHeaders`, no `end( b )` is accepted. -/
theorem endCall_hdrFlushed (hr : r.writeStatus = .hdrFlushed) (q : RRQueue 0) (b : Str) :
    r.endCall q (some b) = .error .assertion := by
  simp [endCall, endWithWrites, hr, bind, Except.bind]

theorem writeBodyParts_cons {p body : Str} {ps : List Str}
    (h : r.writeBodyParts (p :: ps) = .ok (r', body)) : r'.writeStatus = .inBody := by
  obtain ⟨⟨r₁, bytes⟩, hpart, h⟩ := bind_eq_ok h
  obtain ⟨⟨r₂, rest⟩, hparts, h⟩ := bind_eq_ok h
  cases h
  have hstatus := writeBodyPart_inBody hpart
  cases ps with
  | nil =>
    cases hparts
    exact hstatus
  | cons p' ps =>
    simp only [writeBodyParts, writeBodyPart_fails hstatus, bind, Except.bind] at hparts
    cases hparts

/-! ## Where they are accepted -/

theorem endCall_ok (hr : r.Initial) (hslot : r.InSlot q) :
    ∃ r' q', r.endCall q none = .ok (r', q', headerBlock r.replyStatus r.header) := by
  obtain ⟨r₁, hserialized, hstatus, hbytes, hidx, -⟩ := serialized_ok hr
  have hnot : r.writeStatus ≠ .hdrFlushed := by simp [hr.writeStatus]
  obtain ⟨r', q', hfinish⟩ := finish_ok (r := r₁.flushHeadersWritten) (q := q)
    ⟨hslot.1, hidx.trans hslot.2⟩
  refine ⟨r', q', ?_⟩
  simp only [endCall, endWrites, if_pos hnot, flushHeadersWrites, hserialized, bind, Except.bind,
    hstatus, ne_eq, not_true_eq_false, if_false, Option.isSome_some, if_true, hfinish,
    Option.getD_some, hbytes]

theorem endCall_flushed_ok (hr : r.writeStatus = .hdrFlushed) (hslot : r.InSlot q) :
    ∃ r' q', r.endCall q none = .ok (r', q', []) := by
  obtain ⟨r', q', hfinish⟩ := finish_ok hslot
  refine ⟨r', q', ?_⟩
  simp [endCall, endWrites, hr, bind, Except.bind, hfinish]

theorem endWithWrites_eq (hr : r.writeStatus = .notyet) (b : Str) :
    r.endWithWrites b =
      { r with header := r.header.insert contentLengthName (natStr b.length) }.writeBodyPartWrites
        b := by
  have hbody : r.writeStatus ≠ .inBody := by simp [hr]
  rw [endWithWrites, if_pos hbody, if_neg (not_not.mpr hr)]
  rfl

theorem endCall_with_ok (hr : r.Initial) (hslot : r.InSlot q) (b : Str) :
    ∃ r' q', r.endCall q (some b) = .ok (r', q', headerBlock r.replyStatus
      (r.header.insert contentLengthName (natStr b.length)) ++ b) := by
  obtain ⟨r₁, hwrites, hslot₁⟩ := writeBodyPartWrites_ok
    (r := { r with header := r.header.insert contentLengthName (natStr b.length) }) (q := q)
    ⟨hr.writeStatus, hr.headerBuff⟩ hslot b
  obtain ⟨r', q', hfinish⟩ := finish_ok (writeBodyPartWritten_inSlot hslot₁)
  refine ⟨r', q', ?_⟩
  simp only [endCall, endWithWrites_eq hr.writeStatus, bind, Except.bind, hwrites, hfinish]

end HttpServerResponse

open HttpServerResponse in
/-- For every response in its initial state and every sequence of calls, with every write
succeeding: no assertion fails and the bytes handed to the socket are the header block once and then
the parts of the body in order, exactly if there is no `writeBodyPart` and `end` has no argument
behind `flushHeaders`. -/
theorem response_written_iff (version : Str) (r : HttpServerResponse) (q : RRQueue 0)
    (hr : r.Initial) (hslot : r.InSlot q) (s : ResponseCalls) :
    (∃ r₁ r' q', s.heads.foldlM (head version) r = .ok r₁ ∧
      s.run version r q = .ok (r', q', headerBlock r₁.replyStatus (s.fields r₁.header) ++
        s.parts.flatten ++ s.last.getD [])) ↔
      s.parts = [] ∧ (s.flush = true → s.last = none) := by
  obtain ⟨r₁, hheads, hsame⟩ := heads_ok version hr.writeStatus s.heads
  have hr₁ : r₁.Initial := ⟨hsame.writeStatus.trans hr.writeStatus,
    hsame.headerBuff ▸ hr.headerBuff⟩
  have hslot₁ : r₁.InSlot q := ⟨hslot.1, hsame.base ▸ hslot.2⟩
  constructor
  · rintro ⟨r₁', r', q', -, hrun⟩
    obtain ⟨r₁'', hheads', hrun⟩ := bind_eq_ok hrun
    cases hheads.symm.trans hheads'
    obtain ⟨⟨r₂, out⟩, hflush, hrun⟩ := bind_eq_ok hrun
    obtain ⟨⟨r₃, body⟩, hparts, hrun⟩ := bind_eq_ok hrun
    obtain ⟨⟨r₄, q₄, rest⟩, hend, -⟩ := bind_eq_ok hrun
    cases hs : s.parts with
    | cons p ps =>
      -- a part leaves the response in a status that no `end` accepts
      rw [hs] at hparts
      rw [endCall_inBody (writeBodyParts_cons hparts)] at hend
      cases hend
    | nil =>
      refine ⟨rfl, fun hflushed => ?_⟩
      rw [hs] at hparts
      cases hparts
      rw [flushIf, if_pos hflushed] at hflush
      obtain ⟨r₂', hflush', hstatus, -⟩ := flushHeaders_ok hr₁ hslot₁
      cases hflush.symm.trans hflush'
      cases hlast : s.last with
      | none => rfl
      | some b =>
        rw [hlast, endCall_hdrFlushed hstatus] at hend
        cases hend
  · rintro ⟨hparts, hlast⟩
    cases hflushed : s.flush with
    | false =>
      cases hl : s.last with
      | none =>
        obtain ⟨r', q', hend⟩ := endCall_ok hr₁ hslot₁
        refine ⟨r₁, r', q', hheads, ?_⟩
        simp [ResponseCalls.run, hheads, hflushed, hparts, hl, flushIf, writeBodyParts, bind,
          Except.bind, hend, ResponseCalls.fields]
      | some b =>
        obtain ⟨r', q', hend⟩ := endCall_with_ok hr₁ hslot₁ b
        refine ⟨r₁, r', q', hheads, ?_⟩
        simp [ResponseCalls.run, hheads, hflushed, hparts, hl, flushIf, writeBodyParts, bind,
          Except.bind, hend, ResponseCalls.fields]
    | true =>
      have hl := hlast hflushed
      obtain ⟨r₂, hflush, hstatus, hslot₂⟩ := flushHeaders_ok hr₁ hslot₁
      obtain ⟨r', q', hend⟩ := endCall_flushed_ok hstatus hslot₂
      refine ⟨r₁, r', q', hheads, ?_⟩
      simp [ResponseCalls.run, hheads, hflushed, hparts, hl, flushIf, writeBodyParts, bind,
        Except.bind, hflush, hend, ResponseCalls.fields]

def firstResponse : HttpServerResponse := { base := { idx := 0 } }

/-- The queue with that request in its slot. -/
def firstSlot : RRQueue 0 := { head := 1, active := [true] }

open HttpServerResponse in
/-- A status and a body. -/
theorem response_written_body :
    firstResponse.Initial ∧ firstResponse.InSlot firstSlot ∧
      ∃ r₁ r' q',
        [HeadCall.writeHead 200 none].foldlM (head (chars ['1', '.', '1'])) firstResponse = .ok r₁ ∧
        ResponseCalls.run (chars ['1', '.', '1']) firstResponse firstSlot
          { heads := [.writeHead 200 none], last := some (chars ['a']) } =
            .ok (r', q', headerBlock r₁.replyStatus
              (r₁.header.insert contentLengthName (natStr 1)) ++ [] ++ chars ['a']) :=
  have hr : firstResponse.Initial := ⟨rfl, rfl⟩
  have hslot : firstResponse.InSlot firstSlot := ⟨⟨rfl, by decide⟩, rfl⟩
  ⟨hr, hslot, (response_written_iff _ _ _ hr hslot
    { heads := [.writeHead 200 none], last := some (chars ['a']) }).mpr ⟨rfl, nofun⟩⟩

open HttpServerResponse in
/-- A response in two parts: the first one is accepted, and the second one fails the assertion of
`writeBodyPart`. -/
theorem second_part_asserts :
    firstResponse.Initial ∧ firstResponse.InSlot firstSlot ∧
      ResponseCalls.run (chars ['1', '.', '1']) firstResponse firstSlot
        { heads := [.writeHead 200 none], parts := [chars ['a'], chars ['b']] } =
          .error .assertion :=
  ⟨⟨rfl, rfl⟩, ⟨⟨rfl, by decide⟩, rfl⟩, by decide +kernel⟩

end NodeCpp
