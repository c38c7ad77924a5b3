import NodeCpp.Buffer.Until
import NodeCpp.Socket.Coroutine

/-!
# a_readUntil and packet boundaries

`a_readUntil` calls `read_ready_data_until` once for what is there and once for
every read event that follows. Each call asserts that the target buffer is empty,
so a call that has moved bytes without coming to an end cannot be followed by
another one: the outcome has to fall on the first chunk.

* `arrive` -- the chunks arrive one by one while the reader waits.
* `firstChunkDecides` -- the condition: the first chunk reaches up to the
  delimiter, or fills the target buffer.
* `chunkIndependent_iff` -- exactly then the chunks make no difference.
* `readUntil_aborts` -- a line in two packets.
-/

namespace NodeCpp

open Lib CircularByteBuffer

/-- What `a_readUntil` has come to: what it returned, if it has, and the contents of its buffer. -/
def CoroStep.untilResult (s : CoroStep) : Option Outcome × List UInt8 :=
  match s.await with
  | some (.readUntil b _) => (none, b.bytes)
  | _ => (s.outcome, s.returned)

namespace SocketBase

/-- Chunks arrive in successive read events while a reader waits, until it returns. -/
def arrive : SocketData → Await → List (List UInt8) → Except Failure CoroStep
  | d, w, [] => .ok { data := d, await := some w }
  | d, w, chunk :: chunks =>
      let s := NetSocketManager.infraProcessReadEvent d { first := .data chunk }
      match s.res with
      | .error e => .error e
      | .ok (.resume failed _) => do
          let c ← resume s.data failed w
          match c.await with
          | none => .ok c
          | some w => arrive c.data w chunks
      | .ok _ => arrive s.data w chunks

/-- A reader that has not returned gets the chunks that follow. -/
def goOn (chunks : List (List UInt8)) (c : CoroStep) : Except Failure CoroStep :=
  match c.await with
  | none => .ok c
  | some w => arrive c.data w chunks

/-- `a_readUntil` on a stream that arrives in chunks. -/
def aReadUntilChunks (d : SocketData) (b : Buffer) (what : UInt8) (chunks : List (List UInt8)) :
    Except Failure CoroStep :=
  aReadUntil d b what >>= goOn chunks

/-- The chunks make no difference: no assertion fails, and `a_readUntil` comes to the same as with
the whole stream in `readBuffer`. -/
def ChunkIndependent (d dAll : SocketData) (b : Buffer) (what : UInt8)
    (chunks : List (List UInt8)) : Prop :=
  ∃ s sAll, aReadUntilChunks d b what chunks = .ok s ∧ aReadUntil dAll b what = .ok sAll ∧
    s.untilResult = sAll.untilResult

/-- The condition, for a target buffer with `room` bytes. The first chunk holds everything up to
the delimiter, or as much as the buffer takes, or all there is. If the delimiter comes right behind
a full buffer, it must be in the first chunk as well, unless the contents of the ring that holds
the whole stream wrap around there. -/
def firstChunkDecides (ring : CircularByteBuffer) (what : UInt8) (room : Nat)
    (chunks : List (List UInt8)) : Prop :=
  room ≠ 0 ∧
    (if chunks.flatten.idxOf what < chunks.flatten.length ∧ chunks.flatten.idxOf what < room then
      chunks.flatten.idxOf what + 1 else min room chunks.flatten.length) ≤
        (chunks.headD []).length ∧
    (chunks.flatten.idxOf what = room → room < chunks.flatten.length →
      (room < (chunks.headD []).length ↔ ring.beginOff + room ≠ ring.allocSize))

instance (ring : CircularByteBuffer) (what : UInt8) (room : Nat) (chunks : List (List UInt8)) :
    Decidable (firstChunkDecides ring what room chunks) :=
  inferInstanceAs (Decidable (_ ∧ _))

/-! ## One call -/

def scanResult (l : List UInt8) (s : Outcome × Nat) : Option Outcome × List UInt8 :=
  (if s.1 = .inProgress then none else some s.1, l.take s.2)

variable {d : SocketData} {b : Buffer} {what : UInt8}

/-- `a_readUntil` comes to what the scan of `readBuffer` says; it waits as long as the scan is in
progress. -/
theorem aReadUntil_scan (what : UInt8) (hwf : d.readBuffer.WF) (hb : b.bytes = [])
    (hcap : b.capacity ≠ 0) :
    ∃ c, aReadUntil d b what = .ok c ∧
      c.untilResult = scanResult d.readBuffer.contents (d.readBuffer.scanRing what b.capacity) ∧
      if (d.readBuffer.scanRing what b.capacity).1 = .inProgress then
        c.data.readBuffer.WF ∧ c.data.readBuffer.contents = [] ∧ c.data.ahdRead = some 1 ∧
          ∃ b', c.await = some (.readUntil b' what) ∧ b'.bytes = d.readBuffer.contents
      else c.await = none := by
  obtain ⟨ring, b', hread, hbytes⟩ := readReadyDataUntil_scan hwf what hb hcap
  unfold aReadUntil readUntilLoop scanResult
  simp only [hread, bind, Except.bind]
  cases hout : (d.readBuffer.scanRing what b.capacity).1 with
  | ok | insufficientBuffer =>
    refine ⟨_, rfl, ?_, rfl⟩
    rw [if_neg (by simp), ← hbytes]
    rfl
  | inProgress =>
    rw [hout] at hread
    have hused := readReadyDataUntil_inProgress hwf hread
    simp only [hused]
    obtain ⟨hwf', hcontents⟩ := readReadyDataUntil_contents hwf hread
    have hnil : ring.contents = [] := by
      rw [← List.length_eq_zero_iff, length_contents hwf', hused]
    refine ⟨_, rfl, ?_, hwf', hnil, rfl, b', rfl, ?_⟩
    · rw [← hbytes]
      rfl
    · rw [← hcontents, hnil, List.append_nil]
  | timeout | failed =>
    unfold scanRing scan at hout
    repeat' split at hout
    all_goals cases hout

theorem aReadUntil_empty (what : UInt8) (hempty : d.readBuffer.beginOff = d.readBuffer.endOff)
    (hb : b.bytes = []) (hcap : b.capacity ≠ 0) :
    aReadUntil d b what = .ok (suspend d 1 (.readUntil b what) b.bytes) := by
  have hsize : b.size = 0 := by simp [Buffer.size, hb]
  have hread : d.readBuffer.readReadyDataUntil b what = .ok (d.readBuffer, b, .inProgress) := by
    unfold readReadyDataUntil
    rw [if_neg (by omega), if_pos hempty]
  have hused : ¬1 ≤ d.readBuffer.usedSize := by simp [usedSize, hempty]
  unfold aReadUntil readUntilLoop
  simp only [hread, bind, Except.bind, if_neg hused]

theorem aReadUntil_assertion (h : b.bytes ≠ [] ∨ b.capacity = 0) :
    aReadUntil d b what = .error .assertion := by
  have hsize : b.size ≠ 0 ∨ b.capacity = 0 := h.imp_left (mt List.length_eq_zero_iff.mp)
  have hread : d.readBuffer.readReadyDataUntil b what = .error .assertion := by
    unfold readReadyDataUntil
    rw [if_pos hsize]
  unfold aReadUntil readUntilLoop
  rw [hread]
  rfl

/-! ## One read event -/

theorem empty_of_contents_nil {c : CircularByteBuffer} (hwf : c.WF) (h : c.contents = []) :
    c.beginOff = c.endOff := by
  have hlen := length_contents hwf
  have hbegin := hwf.begin_lt
  rw [h, List.length_nil, usedSize] at hlen
  split at hlen <;> omega

theorem read_chunk {c : CircularByteBuffer} (hwf : c.WF) (hempty : c.beginOff = c.endOff)
    (chunk : List UInt8) (hroom : c.offered ≠ 0) (reply₂ : RecvReply) :
    ∃ c', c.read (.data chunk) reply₂ 1 = .ok (c', ⟨.ok, chunk.take c.offered⟩) ∧
      c'.beginOff = c.beginOff ∧ c'.allocSize = c.allocSize ∧
      c.beginOff + (chunk.take c.offered).length ≤ c.allocSize := by
  have hend := hwf.end_lt
  have hlen := List.length_take_le c.offered chunk
  have hwrap : ¬c.endOff < c.beginOff := by omega
  unfold offered at *
  unfold CircularByteBuffer.read
  rw [if_neg hwrap] at *
  generalize hpoint : (if c.beginOff ≠ 0 then c.allocSize else c.allocSize - 1) = endpoint at *
  have hle : endpoint ≤ c.allocSize := by
    rw [← hpoint]
    split <;> omega
  have hget : internalGetPacketBytes2 (endpoint - c.endOff) (.data chunk) =
      .ok ⟨.ok, chunk.take (endpoint - c.endOff)⟩ := by
    rw [internalGetPacketBytes2, if_neg hroom]
  simp only [hget, bind, Except.bind]
  split
  · exact ⟨_, rfl, rfl, rfl, by omega⟩
  · -- the block is full to its end, which is more than the reader waits for
    rw [readRest, if_pos (by show c.beginOff + 1 ≤ c.allocSize; omega)]
    exact ⟨_, rfl, rfl, rfl, by omega⟩

theorem read_noRoom {c : CircularByteBuffer} (hempty : c.beginOff = c.endOff)
    (hroom : c.offered = 0) (reply₁ reply₂ : RecvReply) (targetSz : Nat) :
    c.read reply₁ reply₂ targetSz = .error .assertion := by
  have hwrap : ¬c.endOff < c.beginOff := by omega
  rw [offered, if_neg hwrap] at hroom
  unfold CircularByteBuffer.read
  simp only [if_neg hwrap, hroom]
  rfl

theorem readEvent_chunk (hwf : d.readBuffer.WF) (hempty : d.readBuffer.contents = [])
    (hreader : d.ahdRead = some 1) {chunk : List UInt8} (hne : chunk ≠ [])
    (hroom : d.readBuffer.offered ≠ 0) :
    ∃ d' fx, NetSocketManager.infraProcessReadEvent d { first := .data chunk } =
        ⟨d', fx, .ok (.resume false false)⟩ ∧
      d'.readBuffer.WF ∧ d'.readBuffer.contents = chunk.take d.readBuffer.offered ∧
      d'.readBuffer.beginOff + d'.readBuffer.contents.length ≤ d'.readBuffer.allocSize := by
  obtain ⟨ring, hread, hbegin, hsize, hin⟩ :=
    read_chunk hwf (empty_of_contents_nil hwf hempty) chunk hroom .wouldBlock
  obtain ⟨hwf', hcontents⟩ := read_contents hwf hread
  rw [hempty, List.nil_append] at hcontents
  have hnone : d.readBuffer.usedSize = 0 := by rw [← length_contents hwf, hempty, List.length_nil]
  have hused : 0 < ring.usedSize := by
    have hpos := List.length_pos_iff.mpr hne
    rw [← length_contents hwf', hcontents, List.length_take]
    omega
  refine ⟨{ d with readBuffer := ring, ahdRead := none },
    [.received (chunk.take d.readBuffer.offered)], ?_, hwf', hcontents, ?_⟩
  · simp only [NetSocketManager.infraProcessReadEvent, hreader,
      NetSocketManager.infraGetPacketBytes2, hread, bind, Except.bind,
      NetSocketManager.readEventReceived]
    simp [hnone, hused, Nat.one_le_iff_ne_zero, hused.ne']
  · show ring.beginOff + ring.contents.length ≤ ring.allocSize
    rw [hcontents, hbegin, hsize]
    exact hin

theorem arrive_fails (hwf : d.readBuffer.WF) (hempty : d.readBuffer.contents = [])
    (hreader : d.ahdRead = some 1) (hb : b.bytes ≠ []) {chunk : List UInt8} (hne : chunk ≠ [])
    (chunks : List (List UInt8)) :
    arrive d (.readUntil b what) (chunk :: chunks) = .error .assertion := by
  by_cases hroom : d.readBuffer.offered = 0
  · have hread := read_noRoom (empty_of_contents_nil hwf hempty) hroom (.data chunk) .wouldBlock 1
    simp only [arrive, NetSocketManager.infraProcessReadEvent, hreader,
      NetSocketManager.infraGetPacketBytes2, hread, bind, Except.bind]
  · obtain ⟨d', fx, hevent, hwf', hcontents, -⟩ := readEvent_chunk hwf hempty hreader hne hroom
    have hresume : resume d' false (.readUntil b what) = .error .assertion := by
      simp only [resume]
      split
      · contradiction
      · split
        · rfl
        · exact aReadUntil_assertion (.inl hb)
    simp only [arrive, hevent, hresume, bind, Except.bind]

theorem resume_readUntil (what : UInt8) (hwf : d.readBuffer.WF) (hne : d.readBuffer.contents ≠ []) :
    resume d false (.readUntil b what) = aReadUntil d b what := by
  have hused : 1 ≤ d.readBuffer.usedSize := by
    rw [← length_contents hwf]
    exact List.length_pos_iff.mpr hne
  simp only [resume, if_neg (not_not.mpr hused)]
  rfl

/-- The first chunk is there when `a_readUntil` looks for the first time at more than nothing. -/
theorem aReadUntilChunks_cons (what : UInt8) (hwf : d.readBuffer.WF)
    (hempty : d.readBuffer.contents = []) (hb : b.bytes = []) (hcap : b.capacity ≠ 0)
    {chunk : List UInt8} (hne : chunk ≠ [])
    (hfits : chunk.length ≤ d.readBuffer.offered) (chunks : List (List UInt8)) :
    ∃ d', d'.readBuffer.WF ∧ d'.readBuffer.contents = chunk ∧
      d'.readBuffer.beginOff + chunk.length ≤ d'.readBuffer.allocSize ∧
      aReadUntilChunks d b what (chunk :: chunks) = aReadUntil d' b what >>= goOn chunks := by
  have hpos := List.length_pos_iff.mpr hne
  have hwait := aReadUntil_empty what (empty_of_contents_nil hwf hempty) hb hcap
  obtain ⟨d', fx, hevent, hwf', hcontents, hin⟩ := readEvent_chunk
    (d := { d with ahdRead := some 1 }) hwf hempty rfl hne (by show d.readBuffer.offered ≠ 0; omega)
  rw [List.take_of_length_le hfits] at hcontents
  rw [hcontents] at hin
  refine ⟨d', hwf', hcontents, hin, ?_⟩
  have hresume := resume_readUntil (b := b) what hwf' (hcontents ▸ hne)
  simp only [aReadUntilChunks, hwait, bind, Except.bind, goOn, suspend, arrive, hevent, hresume]

/-! ## Comparing the two runs -/

variable {ring : CircularByteBuffer} {room : Nat} {chunk : List UInt8} {chunks : List (List UInt8)}

theorem decides_of_ok (hring : ring.contents = chunk ++ chunks.flatten) (hroom : room ≠ 0)
    (hscan : scan what room chunk = (.ok, chunk.idxOf what + 1))
    (hlt : chunk.idxOf what < chunk.length) (hle : chunk.idxOf what ≤ room) :
    scanResult chunk (scan what room chunk) = scanResult ring.contents (ring.scanRing what room) ↔
      firstChunkDecides ring what room (chunk :: chunks) := by
  have hidx : (chunk ++ chunks.flatten).idxOf what = chunk.idxOf what :=
    List.idxOf_append_of_mem (List.idxOf_lt_length_iff.mp hlt)
  unfold scanRing firstChunkDecides
  simp only [hring, List.flatten_cons, List.headD_cons, hidx, List.length_append]
  by_cases hwrap : chunk.idxOf what = room ∧ ring.beginOff + room = ring.allocSize
  · -- the delimiter is behind the buffer and the block: only the chunk shows it
    rw [if_pos ⟨hwrap.1, by omega, hwrap.2⟩]
    refine iff_of_false ?_ ?_
    · simp [scanResult, hscan]
    · rintro ⟨-, -, hbehind⟩
      exact (hbehind hwrap.1 (by omega)).mp (by omega) hwrap.2
  · rw [if_neg (by omega), scan_append_ok hlt hle, hscan]
    refine iff_of_true ?_ ⟨hroom, ?_, fun heq _ => ⟨fun _ h => hwrap ⟨heq, h⟩, fun _ => by omega⟩⟩
    · rw [scanResult, scanResult, List.take_append_of_le_length hlt]
    · split <;> omega

theorem decides_of_insufficient (hring : ring.contents = chunk ++ chunks.flatten) (hroom : room ≠ 0)
    (hscan : scan what room chunk = (.insufficientBuffer, room))
    (hnot : ¬(chunk.idxOf what < chunk.length ∧ chunk.idxOf what ≤ room))
    (hfull : room ≤ chunk.length) :
    scanResult chunk (scan what room chunk) = scanResult ring.contents (ring.scanRing what room) ↔
      firstChunkDecides ring what room (chunk :: chunks) := by
  -- nothing within the buffer is the delimiter
  have hidx : room ≤ (chunk ++ chunks.flatten).idxOf what := by
    by_cases hmem : what ∈ chunk
    · have hlt := List.idxOf_lt_length_of_mem hmem
      rw [List.idxOf_append_of_mem hmem]
      omega
    · rw [List.idxOf_append_of_notMem hmem]
      omega
  have hreach : (if (chunk ++ chunks.flatten).idxOf what < (chunk ++ chunks.flatten).length ∧
      (chunk ++ chunks.flatten).idxOf what < room then (chunk ++ chunks.flatten).idxOf what + 1
      else min room (chunk ++ chunks.flatten).length) ≤ chunk.length := by
    rw [if_neg (by omega)]
    omega
  have hsame : scanResult chunk (.insufficientBuffer, room) =
      scanResult (chunk ++ chunks.flatten) (.insufficientBuffer, room) := by
    simp only [scanResult, List.take_append_of_le_length hfull]
  unfold scanRing firstChunkDecides
  simp only [hring, List.flatten_cons, List.headD_cons, hscan]
  rcases scan_append_insufficient hnot hfull chunks.flatten with hfull' | ⟨hnext, hlt, hlen⟩
  · rw [hfull', ite_self]
    refine iff_of_true hsame ⟨hroom, hreach, fun heq hlt => ?_⟩
    rw [scan, if_pos ⟨heq ▸ hlt, heq.le⟩] at hfull'
    cases hfull'
  · -- the delimiter is the first byte of the next chunk
    by_cases hwrap : ring.beginOff + room = ring.allocSize
    · rw [if_pos ⟨hnext, hlt, hwrap⟩]
      exact iff_of_true hsame ⟨hroom, hreach, fun _ _ => by omega⟩
    · rw [if_neg (fun h => hwrap h.2.2), scan, if_pos ⟨hnext ▸ hlt, hnext.le⟩]
      refine iff_of_false (by simp [scanResult]) ?_
      rintro ⟨-, -, hbehind⟩
      have := (hbehind hnext hlt).mpr hwrap
      omega

theorem decides_of_last (hring : ring.contents = chunk) (hroom : room ≠ 0)
    (hmem : what ∉ chunk) (hlt : chunk.length < room) :
    scanResult chunk (scan what room chunk) = scanResult ring.contents (ring.scanRing what room) ∧
      firstChunkDecides ring what room [chunk] := by
  have hidx : chunk.idxOf what = chunk.length := List.idxOf_eq_length hmem
  unfold scanRing firstChunkDecides
  simp only [hring, List.flatten_cons, List.flatten_nil, List.append_nil, List.headD_cons, hidx]
  rw [if_neg (by omega), if_neg (by omega)]
  exact ⟨rfl, hroom, by omega, fun heq _ => by omega⟩

theorem not_decides (hmem : what ∉ chunk) (hlt : chunk.length < room)
    (hmore : chunks.flatten ≠ []) : ¬firstChunkDecides ring what room (chunk :: chunks) := by
  have hidx : (chunk ++ chunks.flatten).idxOf what = chunk.length + chunks.flatten.idxOf what :=
    List.idxOf_append_of_notMem hmem
  have hpos := List.length_pos_iff.mpr hmore
  rintro ⟨-, hreach, -⟩
  simp only [List.flatten_cons, List.headD_cons, hidx, List.length_append] at hreach
  split at hreach <;> omega

/-- Where the whole stream lies in the ring `dAll`, the chunks make no difference exactly when the
first one decides. -/
theorem chunkIndependent_iff {dAll : SocketData} {chunks : List (List UInt8)}
    (hwf : d.readBuffer.WF) (hempty : d.readBuffer.contents = []) (hwfAll : dAll.readBuffer.WF)
    (hall : dAll.readBuffer.contents = chunks.flatten) (hb : b.bytes = [])
    (hne : ∀ chunk ∈ chunks, chunk ≠ [])
    (hfits : (chunks.headD []).length ≤ d.readBuffer.offered) :
    ChunkIndependent d dAll b what chunks ↔
      firstChunkDecides dAll.readBuffer what b.capacity chunks := by
  by_cases hcap : b.capacity = 0
  · refine iff_of_false ?_ (fun h => h.1 hcap)
    rintro ⟨-, sAll, -, hAll, -⟩
    rw [aReadUntil_assertion (.inr hcap)] at hAll
    cases hAll
  obtain ⟨sAll, hAll, hresAll, -⟩ := aReadUntil_scan what hwfAll hb hcap
  have hind : ∀ s, aReadUntilChunks d b what chunks = .ok s →
      (ChunkIndependent d dAll b what chunks ↔ s.untilResult =
        scanResult dAll.readBuffer.contents (dAll.readBuffer.scanRing what b.capacity)) := by
    intro s hs
    rw [← hresAll]
    refine ⟨?_, fun h => ⟨s, sAll, hs, hAll, h⟩⟩
    rintro ⟨s', sAll', hs', hAll', heq⟩
    rw [hs] at hs'
    rw [hAll] at hAll'
    cases hs'
    cases hAll'
    exact heq
  cases chunks with
  | nil =>
    have hs : aReadUntilChunks d b what [] =
        .ok { data := { d with ahdRead := some 1 }, await := some (.readUntil b what) } := by
      rw [aReadUntilChunks, aReadUntil_empty what (empty_of_contents_nil hwf hempty) hb hcap]
      rfl
    rw [List.flatten_nil] at hall
    obtain ⟨heq, hdecides⟩ := decides_of_last hall hcap List.not_mem_nil (Nat.pos_of_ne_zero hcap)
    rw [hind _ hs]
    refine iff_of_true ?_ hdecides
    rw [← heq, scan_nil, if_neg hcap]
    exact congrArg _ hb
  | cons chunk chunks =>
    have hchunk : chunk ≠ [] := hne chunk List.mem_cons_self
    obtain ⟨d', hwf', hcontents, hin, hrun⟩ :=
      aReadUntilChunks_cons what hwf hempty hb hcap hchunk hfits chunks
    obtain ⟨c, hc, hres, hawait⟩ := aReadUntil_scan what hwf' hb hcap
    -- the chunk lies in one piece, so its scan does not end early
    have hscan : d'.readBuffer.scanRing what b.capacity = scan what b.capacity chunk := by
      rw [scanRing, hcontents, if_neg (by omega)]
    rw [hscan, hcontents] at hres
    rw [hscan] at hawait
    rw [hc] at hrun
    rw [List.flatten_cons] at hall
    rcases scan_cases what b.capacity chunk with ⟨hscan, hlt, hle⟩ | ⟨hscan, hnot, hfull⟩ |
      ⟨hscan, hmem, hlt⟩
    · rw [hscan, if_neg (by simp)] at hawait
      simp only [bind, Except.bind, goOn, hawait] at hrun
      rw [hind c hrun, hres]
      exact decides_of_ok hall hcap hscan hlt hle
    · rw [hscan, if_neg (by simp)] at hawait
      simp only [bind, Except.bind, goOn, hawait] at hrun
      rw [hind c hrun, hres]
      exact decides_of_insufficient hall hcap hscan hnot hfull
    · rw [hscan, if_pos rfl] at hawait
      obtain ⟨hwf₁, hempty₁, hreader, b', hb', hbytes⟩ := hawait
      rw [hcontents] at hbytes
      simp only [bind, Except.bind, goOn, hb'] at hrun
      cases chunks with
      | nil =>
        rw [List.flatten_nil, List.append_nil] at hall
        obtain ⟨heq, hdecides⟩ := decides_of_last hall hcap hmem hlt
        rw [hind _ hrun]
        refine iff_of_true ?_ hdecides
        rw [← heq, ← hres, CoroStep.untilResult, CoroStep.untilResult, hb']
      | cons next chunks =>
        have hnext : next ≠ [] := hne next (by simp)
        refine iff_of_false ?_ (not_decides hmem hlt (by simp [hnext]))
        rw [arrive_fails hwf₁ hempty₁ hreader (by rw [hbytes]; exact hchunk) hnext] at hrun
        rintro ⟨s, -, hs, -⟩
        rw [hrun] at hs
        cases hs

/-- A line in one packet, with the next line behind it. -/
theorem readUntil_line :
    ChunkIndependent {} { readBuffer := { mem := store (fun _ => 0) 0 [97, 10, 98], endOff := 3 } }
      { capacity := 1024 } 10 [[97, 10], [98]] :=
  (chunkIndependent_iff ⟨by decide, by decide⟩ rfl ⟨by decide, by decide⟩
  (by decide) rfl (by decide)
    (by decide)).mpr (by decide)

/-- A line in two packets: the first two bytes are in the buffer when the second packet comes, and
`read_ready_data_until` asserts that it is empty. -/
theorem readUntil_aborts :
    let whole : SocketData :=
      { readBuffer := { mem := store (fun _ => 0) 0 [97, 98, 99, 10], endOff := 4 } }
    (aReadUntil whole { capacity := 1024 } 10).map CoroStep.untilResult =
        .ok (some .ok, [97, 98, 99, 10]) ∧
      aReadUntilChunks {} { capacity := 1024 } 10 [[97, 98], [99, 10]] = .error .assertion ∧
      ¬ChunkIndependent {} whole { capacity := 1024 } 10 [[97, 98], [99, 10]] := by
  have hfails : aReadUntilChunks {} { capacity := 1024 } 10 [[97, 98], [99, 10]] =
      .error .assertion := rfl
  refine ⟨rfl, hfails, ?_⟩
  rintro ⟨s, -, hs, -⟩
  rw [hfails] at hs
  cases hs

end SocketBase

end NodeCpp
