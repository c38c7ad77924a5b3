import NodeCpp.Http.Reader
import NodeCpp.Theorems.ReadUntil

/-!
# Where requests end

What an HTTP socket reads of a sequence of well-formed requests on one connection, line by
line. `HttpRequest.framed` is what is to be seen of a request: its lines, its length, its
body, and then the next `getRequest`.

`parseContentLength` ends with `contentLength = 0`, so that a body is never read and its
bytes are taken for the next request.

* `HttpSocket.Expects` -- what is still to be seen, and the bytes it is in.
* `requests_framed` -- requests without a body are told apart in every run in which lines
  are not torn and nothing arrives while nobody waits.
* `body_parsed_as_request` -- a request with a body and the one behind it.
-/

namespace NodeCpp

open Lib

/-- What is to be seen of a request, up to the start of the next one. -/
def HttpRequest.framed (r : HttpRequest) : List HttpEvent :=
  r.lines.map .line ++
    .request r.body.length ::
      ((if r.body = [] then [] else [HttpEvent.body r.body]) ++ [HttpEvent.getRequest])

/-- A request without a body, whose fields have values and whose lines fit the line buffer. -/
structure HttpRequest.Plain (r : HttpRequest) : Prop where
  body : r.body = []
  values : ∀ f ∈ r.fields, f.value ≠ []
  fits : ∀ l ∈ r.lines, l.length ≤ maxHeaderSize

def HttpAct.bytes : HttpAct → Str
  | .arrives bytes => bytes
  | _ => []

def arrived (acts : List HttpAct) : Str := acts.flatMap HttpAct.bytes

namespace HttpSocket

/-- Bytes arrive only while `getRequest` waits for a line, and bring the end of one; and when it
looks for a line, the read buffer holds the end of one or nothing at all. -/
def LinesWhole (w : HttpSocket) : HttpAct → Prop
  | .readLine => w.sock.readBuffer.contents = [] ∨ 10 ∈ w.sock.readBuffer.contents
  | .arrives bytes => w.run.isWaiting = true ∧ 10 ∈ bytes
  | .readBody _ | .respond => True

instance : ∀ (w : HttpSocket) (a : HttpAct), Decidable (w.LinesWhole a)
  | _, .readLine => inferInstanceAs (Decidable (_ ∨ _))
  | _, .arrives _ => inferInstanceAs (Decidable (_ ∧ _))
  | _, .readBody _ | _, .respond => inferInstanceAs (Decidable True)

/-! ## What is expected -/

/-- The bytes from a header field on: fields and the empty line, then requests. -/
def restWire (fs : List HeaderField) (todo : List HttpRequest) : Str :=
  (fs.map HeaderField.line ++ [crlf]).flatten ++ todo.flatMap HttpRequest.wire

def restFramed (fs : List HeaderField) (todo : List HttpRequest) : List HttpEvent :=
  (fs.map HeaderField.line ++ [crlf]).map .line ++
    .request 0 :: .getRequest :: todo.flatMap HttpRequest.framed

theorem wire_cons {r : HttpRequest} (hr : r.Plain) (todo : List HttpRequest) :
    (r :: todo).flatMap HttpRequest.wire = r.requestLine ++ restWire r.fields todo := by
  simp [HttpRequest.wire, HttpRequest.lines, hr.body, restWire]

theorem framed_cons {r : HttpRequest} (hr : r.Plain) (todo : List HttpRequest) :
    (r :: todo).flatMap HttpRequest.framed = .line r.requestLine :: restFramed r.fields todo := by
  simp [HttpRequest.framed, HttpRequest.lines, hr.body, restFramed]

/-- What the parser is to take next: the bytes from here on, and what is to be seen of them. -/
inductive Expects : Bool → ReadStatus → Str → List HttpEvent → Prop
  | request (todo : List HttpRequest) (hplain : ∀ r ∈ todo, r.Plain) :
      Expects true .noinit (todo.flatMap HttpRequest.wire) (todo.flatMap HttpRequest.framed)
  | fields (fs : List HeaderField) (todo : List HttpRequest) (hvalues : ∀ f ∈ fs, f.value ≠ [])
      (hfits : ∀ f ∈ fs, f.line.length ≤ maxHeaderSize) (hplain : ∀ r ∈ todo, r.Plain) :
      Expects false .inHdr (restWire fs todo) (restFramed fs todo)

/-- A request has the slot, nothing of its body has been asked for, and there are indices for
`left` more requests. -/
structure Holds (w : HttpSocket) (left : Nat) : Prop where
  busy : w.rrQueue.Busy
  room : w.rrQueue.head + left < 2 ^ 64
  idx : w.request.idx = w.rrQueue.tail
  capacity : w.lineBuffer.capacity = maxHeaderSize
  retrieved : w.request.bodyBytesRetrieved = 0
  bodyReader : w.bodyReader = none

/-- The socket is where it is to be, for the bytes that have not arrived and what is to be seen
from here on. -/
structure Aligned (w : HttpSocket) (unread : Str) (ev : List HttpEvent) : Prop extends
    Holds w (ev.count .getRequest) where
  wf : w.sock.readBuffer.WF
  control :
    match w.run with
    | .line first =>
        Expects first w.request.readStatus (w.sock.readBuffer.contents ++ unread) ev
    | .waits first b =>
        w.sock.readBuffer.contents = [] ∧ w.sock.ahdRead = some 1 ∧ b.bytes = [] ∧
          b.capacity = maxHeaderSize ∧ Expects first w.request.readStatus unread ev
    | .suspended =>
        w.continueGetting = true ∧ w.request.contentLength = 0 ∧
          ∃ todo : List HttpRequest, (∀ r ∈ todo, r.Plain) ∧
            w.sock.readBuffer.contents ++ unread = todo.flatMap HttpRequest.wire ∧
            ev = .getRequest :: todo.flatMap HttpRequest.framed
    | .ended => False

variable {w w' : HttpSocket} {unread : Str} {ev : List HttpEvent}

/-- The socket after a line of what is expected, for the bytes behind it. -/
structure Parsed (w w' : HttpSocket) (bytes : Str) (ev : List HttpEvent) : Prop where
  sock : w'.sock = w.sock
  holds : ∀ left, w.Holds left → w'.Holds left
  control :
    (w'.run = .line false ∧ Expects false w'.request.readStatus bytes ev) ∨
      (w'.run = .suspended ∧ w'.continueGetting = true ∧ w'.request.contentLength = 0 ∧
        ∃ todo : List HttpRequest, (∀ r ∈ todo, r.Plain) ∧
          bytes = todo.flatMap HttpRequest.wire ∧
          ev = .getRequest :: todo.flatMap HttpRequest.framed)

theorem Expects.parseLine {first : Bool} {status : ReadStatus} {bytes : Str}
    (h : Expects first status bytes ev) (hne : bytes ≠ []) :
    ∃ l bytes', bytes = l ++ bytes' ∧ IsLine l ∧ l.length ≤ maxHeaderSize ∧
      ∀ w : HttpSocket, w.request.readStatus = status →
        ∃ w' shown ev', w.parseLine first l = some (w', shown) ∧ ev = shown ++ ev' ∧
          Parsed w w' bytes' ev' := by
  cases h with
  | request todo hplain =>
    cases todo with
    | nil => exact absurd rfl hne
    | cons r todo =>
      obtain ⟨hr, htodo⟩ := List.forall_mem_cons.mp hplain
      -- the request line opens the header block
      refine ⟨r.requestLine, restWire r.fields todo, wire_cons hr todo, r.requestLine_isLine,
        hr.fits _ List.mem_cons_self, ?_⟩
      intro w hstatus
      refine ⟨{ w with
        request := { w.request with
          method := r.method
          url := r.target
          version := r.version
          readStatus := .inHdr }
        run := .line false }, [.line r.requestLine], restFramed r.fields todo, ?_,
        framed_cons hr todo, ⟨rfl, fun _ h => ⟨h.1, h.2, h.3, h.4, h.5, h.6⟩, .inl ⟨rfl, ?_⟩⟩⟩
      · simp only [HttpSocket.parseLine, if_true,
          IncomingHttpMessageAtServer.parseMethod_requestLine hstatus]
      · refine .fields r.fields todo hr.values (fun f hf => hr.fits _ ?_) htodo
        simp only [HttpRequest.lines, List.mem_cons, List.mem_append]
        exact .inr (.inl (List.mem_map_of_mem hf))
  | fields fs todo hvalues hfits hplain =>
    cases fs with
    | nil =>
      -- the empty line closes it, and the request is reported
      refine ⟨crlf, todo.flatMap HttpRequest.wire, rfl, ⟨[13], rfl, by decide⟩, by decide,
        ?_⟩
      intro w hstatus
      refine ⟨{ w with
        request := { w.request with
          toHttpMessageBase := w.request.parseContentLength
          readStatus := .completed }
        continueGetting := true
        run := .suspended }, [.line crlf, .request 0],
        .getRequest :: todo.flatMap HttpRequest.framed, ?_, rfl,
        ⟨rfl, fun _ h => ⟨h.1, h.2, ?_, h.4, h.5, h.6⟩,
          .inr ⟨rfl, rfl, rfl, todo, hplain, rfl, rfl⟩⟩⟩
      · simp only [HttpSocket.parseLine, Bool.false_eq_true, if_false,
          IncomingHttpMessageAtServer.parseHeaderEntry_crlf hstatus, or_true, if_true,
          onNewRequest, HttpMessageBase.contentLength_parseContentLength]
      · exact w.request.idx_parseContentLength.trans h.3
    | cons f fs =>
      obtain ⟨hf, hfs⟩ := List.forall_mem_cons.mp hvalues
      obtain ⟨hlen, hlens⟩ := List.forall_mem_cons.mp hfits
      -- a field is stored
      refine ⟨f.line, restWire fs todo, by simp [restWire], f.isLine, hlen, ?_⟩
      intro w hstatus
      refine ⟨{ w with
        request := { w.request with header := w.request.header.insert (makeLower f.name) f.value }
        run := .line false }, [.line f.line], restFramed fs todo, ?_, rfl,
        ⟨rfl, fun _ h => ⟨h.1, h.2, h.3, h.4, h.5, h.6⟩, .inl ⟨rfl, ?_⟩⟩⟩
      · simp only [HttpSocket.parseLine, Bool.false_eq_true, if_false,
          IncomingHttpMessageAtServer.parseHeaderEntry_line hstatus f hf]
      · have hexpects := Expects.fields fs todo hfs hlens hplain
        rw [← hstatus] at hexpects
        exact hexpects

/-! ## Reading lines -/

theorem aReadUntil_line {d : SocketData} {b : Buffer} {l rest : Str} (hwf : d.readBuffer.WF)
    (hb : b.bytes = []) (hcontents : d.readBuffer.contents = l ++ rest) (hline : IsLine l)
    (hfits : l.length ≤ b.capacity) :
    ∃ c, SocketBase.aReadUntil d b 10 = .ok c ∧ c.await = none ∧ c.outcome = some .ok ∧
      c.returned = l ∧ c.data.readBuffer.WF ∧ c.data.readBuffer.contents = rest := by
  obtain ⟨init, rfl, hinit⟩ := hline
  have hlen : init.length + 1 ≤ b.capacity := by simpa using hfits
  have hidx : d.readBuffer.contents.idxOf 10 = init.length := by
    rw [hcontents, List.append_assoc, List.idxOf_append_of_notMem hinit]
    simp
  have hscan : d.readBuffer.scanRing 10 b.capacity = (.ok, init.length + 1) := by
    have hin : init.length < d.readBuffer.contents.length := by
      rw [hcontents]
      simp
    rw [CircularByteBuffer.scanRing, hidx, if_neg (by omega), CircularByteBuffer.scan, hidx,
      if_pos ⟨hin, by omega⟩]
  obtain ⟨c, hc, hres, hawait⟩ := SocketBase.aReadUntil_scan 10 hwf hb (by omega)
  obtain ⟨hwf', htakes⟩ := SocketBase.aReadUntil_takes hwf hc
  rw [hscan, if_neg (by simp)] at hawait
  rw [hscan, CoroStep.untilResult, hawait, SocketBase.scanResult, if_neg (by simp)] at hres
  obtain ⟨houtcome, hreturned⟩ := Prod.mk.inj hres
  have htake : d.readBuffer.contents.take (init.length + 1) = init ++ [10] := by
    rw [hcontents, List.take_append_of_le_length (by simp), List.take_of_length_le (by simp)]
  have hreturned' : c.returned = init ++ [10] := hreturned.trans htake
  refine ⟨c, hc, hawait, houtcome, hreturned', hwf', ?_⟩
  rw [hreturned', hcontents] at htakes
  exact List.append_cancel_left htakes

theorem line_arrived {l contents unread bytes : Str} (hline : IsLine l)
    (heq : contents ++ unread = l ++ bytes) (hmem : 10 ∈ contents) :
    ∃ rest, contents = l ++ rest ∧ rest ++ unread = bytes := by
  rcases List.append_eq_append_iff.mp heq with ⟨rest, hl, hunread⟩ | ⟨rest, hcontents, hbytes⟩
  · obtain ⟨init, rfl, hinit⟩ := hline
    -- nothing of the line can be behind its end
    rcases List.eq_nil_or_concat rest with rfl | ⟨rest, c, rfl⟩
    · rw [List.append_nil] at hl
      exact ⟨[], by rw [List.append_nil, hl], by simpa using hunread⟩
    · rw [List.concat_eq_append, ← List.append_assoc] at hl
      obtain ⟨hfront, -⟩ := List.append_inj' hl rfl
      exact absurd (hfront ▸ List.mem_append_left _ hmem) hinit
  · exact ⟨rest, hcontents, hbytes.symm⟩

theorem Expects.lineRead {first : Bool} {d : SocketData} {b : Buffer}
    (h : Expects first w.request.readStatus (d.readBuffer.contents ++ unread) ev)
    (hholds : w.Holds (ev.count .getRequest)) (hwf : d.readBuffer.WF) (hb : b.bytes = [])
    (hcapacity : b.capacity = maxHeaderSize) (hmem : 10 ∈ d.readBuffer.contents) :
    ∃ c w' shown ev', SocketBase.aReadUntil d b 10 = .ok c ∧
      w.lineRead first c = some (w', shown) ∧ ev = shown ++ ev' ∧ w'.Aligned unread ev' := by
  obtain ⟨l, bytes, hbytes, hline, hfits, hparse⟩ :=
    h.parseLine (List.ne_nil_of_mem (List.mem_append_left _ hmem))
  obtain ⟨rest, hcontents, hrest⟩ := line_arrived hline hbytes hmem
  obtain ⟨c, hc, hawait, houtcome, hreturned, hwf', hcontents'⟩ :=
    aReadUntil_line hwf hb hcontents hline (hcapacity ▸ hfits)
  obtain ⟨w', shown, ev', hparsed, hev, hp⟩ := hparse
    { w with
      sock := c.data
      lineBuffer := { bytes := l, capacity := max w.lineBuffer.capacity l.length } } rfl
  refine ⟨c, w', shown, ev', hc, ?_, hev, ?_⟩
  · simp only [HttpSocket.lineRead, hawait, houtcome, hreturned]
    exact hparsed
  · have hcap : max w.lineBuffer.capacity l.length = maxHeaderSize := by
      rw [hholds.capacity]
      exact Nat.max_eq_left hfits
    have hroom : w.rrQueue.head + ev'.count .getRequest < 2 ^ 64 := by
      have hroom := hholds.room
      rw [hev, List.count_append] at hroom
      omega
    refine ⟨hp.holds _ ⟨hholds.busy, hroom, hholds.idx, hcap, hholds.retrieved,
      hholds.bodyReader⟩, ?_, ?_⟩
    · rw [hp.sock]
      exact hwf'
    · rw [hp.sock]
      simp only [hcontents', hrest]
      rcases hp.control with ⟨hrun, hexpects⟩ | ⟨hrun, hsuspended⟩
      · rw [hrun]
        exact hexpects
      · rw [hrun]
        exact hsuspended

/-! ## Steps and runs -/

/-- The code is where the step can be taken. -/
def Ready (w : HttpSocket) : HttpAct → Prop
  | .readLine => ∃ first, w.run = .line first
  | .arrives bytes =>
      (∀ first, w.run ≠ .line first) ∧ bytes.length ≤ w.sock.readBuffer.offered
  | .readBody _ | .respond => w.run = .suspended

variable {a : HttpAct} {acts : List HttpAct} {shown : List HttpEvent}

theorem ready_of_exec (hexec : w.exec a = some (w', shown)) : w.Ready a := by
  cases a with
  | readLine =>
    simp only [exec] at hexec
    split at hexec
    · rename_i first hrun
      exact ⟨first, hrun⟩
    · cases hexec
  | arrives bytes =>
    simp only [exec] at hexec
    split at hexec
    · cases hexec
    rename_i hrun
    split at hexec
    · rename_i hfits
      exact ⟨hrun, hfits⟩
    · cases hexec
  | readBody capacity | respond =>
    simp only [exec] at hexec
    split at hexec
    · rename_i hsuspended
      exact hsuspended.1
    · cases hexec

theorem Aligned.readLine (h : w.Aligned unread ev) (hwhole : w.LinesWhole .readLine)
    (hready : w.Ready .readLine) :
    ∃ w' shown ev', w.exec .readLine = some (w', shown) ∧ ev = shown ++ ev' ∧
      w'.Aligned unread ev' := by
  obtain ⟨first, hrun⟩ := hready
  have hcontrol := h.control
  simp only [hrun] at hcontrol
  rcases hwhole with hempty | hmem
  · have hwait := SocketBase.aReadUntil_empty (d := w.sock) (b := w.lineBuffer.clear) 10
      (SocketBase.empty_of_contents_nil h.wf hempty) rfl
      (by rw [Buffer.clear, h.capacity]; decide)
    rw [hempty, List.nil_append] at hcontrol
    refine ⟨{ w with sock := { w.sock with ahdRead := some 1 }
                     run := .waits first w.lineBuffer.clear }, [], ev, ?_, rfl,
      ⟨h.busy, h.room, h.idx, h.capacity, h.retrieved, h.bodyReader⟩, h.wf, hempty, rfl, rfl,
      h.capacity, hcontrol⟩
    simp only [exec, hrun, hwait]
    rfl
  · obtain ⟨c, w', shown, ev', hc, hread, hev, hw'⟩ :=
      hcontrol.lineRead h.toHolds h.wf (b := w.lineBuffer.clear) rfl h.capacity hmem
    refine ⟨w', shown, ev', ?_, hev, hw'⟩
    simp only [exec, hrun, hc]
    exact hread

theorem Aligned.arrives {bytes : Str} (h : w.Aligned (bytes ++ unread) ev)
    (hwhole : w.LinesWhole (.arrives bytes)) (hready : w.Ready (.arrives bytes)) :
    ∃ w' shown ev', w.exec (.arrives bytes) = some (w', shown) ∧ ev = shown ++ ev' ∧
      w'.Aligned unread ev' := by
  obtain ⟨hwaiting, hmem⟩ := hwhole
  obtain ⟨first, b, hrun⟩ := RunState.isWaiting_iff.mp hwaiting
  have hcontrol := h.control
  simp only [hrun] at hcontrol
  obtain ⟨hempty, hahd, hb, hcapacity, hexpects⟩ := hcontrol
  have hne : bytes ≠ [] := List.ne_nil_of_mem hmem
  have hfits := hready.2
  have hpos := List.length_pos_iff.mpr hne
  -- the bytes are in the ring when the reader is resumed
  obtain ⟨d, fx, hevent, hwf, hcontents, -⟩ :=
    SocketBase.readEvent_chunk h.wf hempty hahd hne (by omega)
  rw [List.take_of_length_le hfits] at hcontents
  have hresume := SocketBase.resume_readUntil (b := b) 10 hwf (hcontents ▸ hne)
  rw [← hcontents] at hexpects hmem
  obtain ⟨c, w', shown, ev', hc, hread, hev, hw'⟩ := hexpects.lineRead
    (w := { w with sock := d }) ⟨h.busy, h.room, h.idx, h.capacity, h.retrieved, h.bodyReader⟩ hwf
    hb hcapacity hmem
  refine ⟨w', shown, ev', ?_, hev, hw'⟩
  simp only [exec, hrun, if_pos hfits, HttpSocket.arrives, hevent, hresume, hc]
  exact hread

theorem Aligned.readBody (h : w.Aligned unread ev) (hrun : w.run = .suspended) (capacity : Nat) :
    w.exec (.readBody capacity) = some (w, []) := by
  have hcontrol := h.control
  simp only [hrun] at hcontrol
  obtain ⟨-, hlength, -⟩ := hcontrol
  simp only [exec, hrun, h.bodyReader, and_self, if_true, HttpSocket.readBody, h.retrieved, hlength,
    Nat.lt_irrefl, if_false, proceedToNext, h.busy.canPush, Bool.false_and, Bool.false_eq_true]

theorem Aligned.respond (h : w.Aligned unread ev) (hrun : w.run = .suspended) :
    ∃ w' shown ev', w.exec .respond = some (w', shown) ∧ ev = shown ++ ev' ∧
      w'.Aligned unread ev' := by
  have hcontrol := h.control
  simp only [hrun] at hcontrol
  obtain ⟨hgetting, hlength, todo, hplain, hbytes, hev⟩ := hcontrol
  obtain ⟨q₁, hrelease, hfree, hsame⟩ := h.busy.release
  -- the next request is among those that are expected, so that there is an index for it
  have hroom : q₁.head + 1 + (todo.flatMap HttpRequest.framed).count .getRequest < 2 ^ 64 := by
    have hroom := h.room
    rw [hev, List.count_cons_self] at hroom
    omega
  obtain ⟨q₂, hhead, hbusy, htail⟩ := hfree.getHead (by omega)
  have hroom₂ : q₂.head + (todo.flatMap HttpRequest.framed).count .getRequest < 2 ^ 64 := by
    rwa [hbusy.1, htail]
  refine ⟨{ w with
    rrQueue := q₂
    request := { w.request.clear with idx := q₁.head }
    continueGetting := false
    run := .line true }, [.getRequest], todo.flatMap HttpRequest.framed, ?_, hev,
    ⟨hbusy, hroom₂, htail.symm, h.capacity, rfl, h.bodyReader⟩, h.wf, ?_⟩
  · simp only [exec, hrun, h.bodyReader, and_self, if_true, HttpSocket.respond, h.idx, hrelease,
      proceedToNext, hfree.canPush, hgetting, Bool.and_self, takeRequest, hhead]
  · show Expects true .noinit (w.sock.readBuffer.contents ++ unread) _
    rw [hbytes]
    exact .request todo hplain

/-- The step lemma: what can be done goes through, and shows what is expected. -/
theorem Aligned.exec (h : w.Aligned (a.bytes ++ unread) ev) (hwhole : w.LinesWhole a)
    (hready : w.Ready a) :
    ∃ w' shown ev', w.exec a = some (w', shown) ∧ ev = shown ++ ev' ∧ w'.Aligned unread ev' := by
  cases a with
  | readLine => exact h.readLine hwhole hready
  | arrives bytes => exact h.arrives hwhole hready
  | readBody capacity => exact ⟨w, [], ev, h.readBody hready capacity, rfl, h⟩
  | respond => exact h.respond hready

/-- The run lemma: what is seen is the beginning of what is expected, and the rest is expected
behind the bytes that have arrived. -/
theorem Aligned.run (h : w.Aligned unread ev) (hbytes : arrived acts <+: unread)
    (hobeys : httpSocket.obeys LinesWhole w acts) (hrun : httpSocket.run w acts = some w') :
    ∃ unread' ev', unread = arrived acts ++ unread' ∧
      ev = httpSocket.trace HttpAct.events w acts ++ ev' ∧ w'.Aligned unread' ev' := by
  induction acts generalizing w unread ev with
  | nil =>
    cases hrun
    exact ⟨unread, ev, rfl, rfl, h⟩
  | cons a acts ih =>
    obtain ⟨w₁, hs, hrest⟩ := httpSocket.run_cons hrun
    obtain ⟨⟨w₁, shown⟩, hexec, rfl⟩ := Option.map_eq_some_iff.mp hs
    obtain ⟨unread', rfl⟩ := hbytes
    have hsplit : arrived (a :: acts) ++ unread' = a.bytes ++ (arrived acts ++ unread') := by
      simp [arrived]
    rw [hsplit] at h ⊢
    obtain ⟨w₁', shown', ev₁, hexec', rfl, hw₁⟩ := h.exec hobeys.1 (ready_of_exec hexec)
    cases hexec.symm.trans hexec'
    obtain ⟨unread'', ev', heq, rfl, hw'⟩ :=
      ih hw₁ (List.prefix_append ..) (hobeys.2 _ hs) hrest
    cases List.append_cancel_left heq
    have hevents : a.events w = shown := by simp [HttpAct.events, hexec]
    exact ⟨unread', ev', hsplit.symm,
      by rw [httpSocket.trace_cons _ hs, hevents, List.append_assoc],
      hw'⟩

theorem count_framed (reqs : List HttpRequest) :
    (reqs.flatMap HttpRequest.framed).count .getRequest = reqs.length := by
  have hlines : ∀ ls : List Str, (ls.map HttpEvent.line).count .getRequest = 0 := by
    intro ls
    exact List.count_eq_zero.mpr (by simp)
  induction reqs with
  | nil => rfl
  | cons r reqs ih =>
    rw [List.flatMap_cons, List.count_append, ih, HttpRequest.framed, List.count_append, hlines]
    split <;> simp [Nat.add_comm]

theorem Aligned.init {reqs : List HttpRequest} (hplain : ∀ r ∈ reqs, r.Plain)
    (hcount : reqs.length + 1 < 2 ^ 64) :
    initial.Aligned (reqs.flatMap HttpRequest.wire) (reqs.flatMap HttpRequest.framed) where
  busy := ⟨rfl, by decide⟩
  room := by
    rw [count_framed, Nat.add_comm]
    exact hcount
  idx := rfl
  capacity := rfl
  retrieved := rfl
  bodyReader := rfl
  wf := ⟨by decide, by decide⟩
  control := .request reqs hplain

theorem Expects.nil {first : Bool} {status : ReadStatus} (h : Expects first status [] ev) :
    ev = [] := by
  generalize hbytes : ([] : Str) = bytes at h
  cases h with
  | request todo hplain =>
    cases todo with
    | nil => rfl
    | cons r todo =>
      rw [wire_cons (hplain r List.mem_cons_self)] at hbytes
      obtain ⟨init, hline, -⟩ := r.requestLine_isLine
      simp [hline] at hbytes
  | fields fs todo hvalues hfits hplain => simp [restWire, crlf, chars] at hbytes

end HttpSocket

open HttpSocket in
/-- Requests without a body, whose fields have values and whose lines fit the line buffer, are told
apart in every run in which lines are not torn and nothing arrives while nobody waits, as long as
their indices do not wrap around: what is seen are their lines, their lengths and the start of the
next one, in order; nothing that can be done fails; and when all their bytes have arrived and
`getRequest` waits, all of them have been seen. -/
theorem requests_framed (reqs : List HttpRequest) (hplain : ∀ r ∈ reqs, r.Plain)
    (hcount : reqs.length + 1 < 2 ^ 64)
    (acts : List HttpAct) (w : HttpSocket)
    (hstream : arrived acts <+: reqs.flatMap HttpRequest.wire)
    (hobeys : httpSocket.obeys LinesWhole initial acts)
    (hrun : httpSocket.run initial acts = some w) :
    httpSocket.trace HttpAct.events initial acts <+: reqs.flatMap HttpRequest.framed ∧
      w.run ≠ .ended ∧
      (∀ a, w.LinesWhole a → w.Ready a → arrived (acts ++ [a]) <+: reqs.flatMap HttpRequest.wire →
        (httpSocket.step w a).isSome) ∧
      (w.run.isWaiting = true → arrived acts = reqs.flatMap HttpRequest.wire →
        httpSocket.trace HttpAct.events initial acts = reqs.flatMap HttpRequest.framed) := by
  obtain ⟨unread, ev, hunread, hev, hw⟩ := (Aligned.init hplain hcount).run hstream hobeys hrun
  have hcontrol := hw.control
  refine ⟨⟨ev, hev.symm⟩, ?_, ?_, ?_⟩
  · intro hended
    rw [hended] at hcontrol
    exact hcontrol
  · intro a hwhole hready hnext
    rw [hunread, arrived, List.flatMap_append] at hnext
    obtain ⟨unread', rfl⟩ : a.bytes <+: unread := by
      simpa [arrived, List.prefix_append_right_inj] using hnext
    obtain ⟨w', shown, ev', hexec, -⟩ := hw.exec hwhole hready
    simp [httpSocket, hexec]
  · intro hwaiting hall
    obtain ⟨first, b, hwaits⟩ := RunState.isWaiting_iff.mp hwaiting
    simp only [hwaits] at hcontrol
    obtain ⟨-, -, -, -, hexpects⟩ := hcontrol
    have hnil : unread = [] := by
      rw [hall] at hunread
      simpa using hunread
    rw [hnil] at hexpects
    rw [hev, hexpects.nil, List.append_nil]

/-- `GET / HTTP/1.1` without fields. -/
def getRoot : HttpRequest where
  method := chars ['G', 'E', 'T']
  target := chars ['/']
  version := chars ['1', '.', '1']
  fields := []
  body := []
  method_ok := by decide
  target_ne := by decide
  target_ok := by decide +kernel
  version_ok := by decide +kernel
  length_ok := nofun
  body_ok := fun _ => rfl

/-- `Content-Length: 2`. -/
def lengthTwo : HeaderField where
  name := chars ['C', 'o', 'n', 't', 'e', 'n', 't', '-', 'L', 'e', 'n', 'g', 't', 'h']
  before := chars [' ']
  value := chars ['2']
  after := []
  name_ne := by decide
  name_ok := by decide +kernel
  before_ok := by decide +kernel
  value_ok := by decide +kernel
  value_first := by decide +kernel
  value_last := by decide +kernel
  after_ok := by decide +kernel

/-- `POST / HTTP/1.1` with a body of two bytes. -/
def postTwo : HttpRequest where
  method := chars ['P', 'O', 'S', 'T']
  target := chars ['/']
  version := chars ['1', '.', '1']
  fields := [lengthTwo]
  body := chars ['h', 'i']
  method_ok := by decide
  target_ne := by decide
  target_ok := by decide +kernel
  version_ok := by decide +kernel
  length_ok := by decide
  body_ok := by decide

/-- `Content-Length: 0`. -/
def lengthZero : HeaderField :=
  { lengthTwo with
    value := chars ['0']
    value_ok := by decide +kernel
    value_first := by decide +kernel
    value_last := by decide +kernel }

/-- `POST / HTTP/1.1` with an empty body. -/
def postEmpty : HttpRequest :=
  { postTwo with
    fields := [lengthZero]
    body := []
    length_ok := by decide
    body_ok := fun _ => rfl }

/-- Two requests, the second of which arrives when the first one has been answered. -/
def postThenGetRead : List HttpAct :=
  [.readLine, .arrives postEmpty.wire, .readLine, .readLine, .readBody 1024, .respond, .readLine,
    .arrives getRoot.wire, .readLine, .respond, .readLine]

theorem getRoot_plain : getRoot.Plain := ⟨rfl, nofun, by decide⟩

theorem postEmpty_plain : postEmpty.Plain := ⟨rfl, by decide, by decide⟩

open HttpSocket in
theorem requests_framed_answered :
    ∃ w, arrived postThenGetRead <+: [postEmpty, getRoot].flatMap HttpRequest.wire ∧
      httpSocket.obeys LinesWhole initial postThenGetRead ∧
      httpSocket.run initial postThenGetRead = some w ∧
      httpSocket.trace HttpAct.events initial postThenGetRead =
        [postEmpty, getRoot].flatMap HttpRequest.framed := by
  have hplain : ∀ r ∈ [postEmpty, getRoot], r.Plain := by
    intro r hr
    rcases List.mem_pair.mp hr with rfl | rfl
    · exact postEmpty_plain
    · exact getRoot_plain
  have hstream : arrived postThenGetRead = [postEmpty, getRoot].flatMap HttpRequest.wire := by
    decide +kernel
  have hobeys : httpSocket.obeys LinesWhole initial postThenGetRead := by decide +kernel
  obtain ⟨w, hrun, hwaiting⟩ : ∃ w, httpSocket.run initial postThenGetRead = some w ∧
      w.run.isWaiting = true := by decide +kernel
  have harrived : arrived postThenGetRead <+: [postEmpty, getRoot].flatMap HttpRequest.wire :=
    hstream ▸ List.prefix_rfl
  obtain ⟨-, -, -, hall⟩ := requests_framed _ hplain (by decide) postThenGetRead w harrived hobeys hrun
  exact ⟨w, harrived, hobeys, hrun, hall hwaiting hstream⟩

/-- A request with a body and one behind it, in one packet; the user reads the body and responds. -/
def postThenGet : List HttpAct :=
  [.readLine, .arrives (postTwo.wire ++ getRoot.wire), .readLine, .readLine, .readBody 1024,
    .respond, .readLine]

open HttpSocket in
/-- `getContentLength()` is 0, `a_readBody` reads nothing, and the next `getRequest` is called on
the body: its first line is `hiGET / HTTP/1.1`, which is refused. -/
theorem body_parsed_as_request :
    arrived postThenGet = [postTwo, getRoot].flatMap HttpRequest.wire ∧
      httpSocket.obeys LinesWhole initial postThenGet ∧
      (∃ w, httpSocket.run initial postThenGet = some w ∧ w.run = .ended) ∧
      httpSocket.trace HttpAct.events initial postThenGet =
        postTwo.lines.map .line ++
          [.request 0, .getRequest, .line (chars ['h', 'i'] ++ getRoot.requestLine)] ∧
      ¬httpSocket.trace HttpAct.events initial postThenGet <+:
        [postTwo, getRoot].flatMap HttpRequest.framed := by
  decide +kernel

end NodeCpp
