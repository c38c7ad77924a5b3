import Mathlib.Data.List.Nodup
import NodeCpp.Theorems.ResponseProtocol

/-!
# What a response says to its reader

The bytes of a response are read line by line: a status line, header lines up to an empty one, and
the body. A line ends at the first line feed, which a carriage return precedes, and a header line is
cut at its first colon.

`addHeader` takes keys and values as they are, so that those with a line end or a colon in them are
read as something else; and it tells a `Content-Length` of the user from its own one in this
spelling only.

* `readResponse_eq_some_iff` -- what is read from which bytes.
* `blockFields_perm` -- the headers of the block are those that have been added, and the length.
* `response_serialised_iff` -- when the reader gets what the calls have said.
-/

namespace NodeCpp

open Lib Lib.Text

variable {added : List (Str × Str)} {s status : Str}

/-! ## The reader -/

/-- The next line, without its end, and what is behind it. -/
def cutLine (s : Str) : Option (Str × Str) := do
  let (line, rest) ← cut 10 s
  if line.getLast? = some 13 then some (line.dropLast, rest) else none

/-- The key and the value of a header line. -/
def cutField (line : Str) : Option (Str × Str) := do
  let (key, rest) ← cut 58 line
  if rest.head? = some 32 then some (key, rest.tail) else none

/-- The headers up to the empty line, at most as many as the fuel says, and what is behind them. -/
def readFields : Nat → Str → Option (List (Str × Str) × Str)
  | 0, _ => none
  | fuel + 1, s => do
      let (line, rest) ← cutLine s
      if line = [] then some ([], rest)
      else
        let field ← cutField line
        let (fields, body) ← readFields fuel rest
        some (field :: fields, body)

/-- The status line, the headers and the body. -/
def readResponse (s : Str) : Option (Str × List (Str × Str) × Str) := do
  let (status, rest) ← cutLine s
  let (fields, body) ← readFields rest.length rest
  some (status, fields, body)

/-- A header that is read as it has been written. -/
def Writable (h : Str × Str) : Prop := 10 ∉ h.1 ∧ 58 ∉ h.1 ∧ 10 ∉ h.2

instance (h : Str × Str) : Decidable (Writable h) := inferInstanceAs (Decidable (_ ∧ _ ∧ _))

def fieldLines (fields : List (Str × Str)) : Str :=
  (fields.map fun h => headerLine h.1 h.2).flatten

theorem crlf_append (rest : Str) : crlf ++ rest = 13 :: 10 :: rest := rfl

theorem colon_append (rest : Str) : chars [':', ' '] ++ rest = 58 :: 32 :: rest := rfl

theorem cutLine_eq_some_iff {line rest : Str} :
    cutLine s = some (line, rest) ↔ 10 ∉ line ∧ s = line ++ crlf ++ rest := by
  constructor
  · intro h
    obtain ⟨⟨l, r⟩, hcut, hline⟩ := Option.bind_eq_some_iff.mp h
    obtain ⟨hlast, hline⟩ := Option.ite_none_right_eq_some.mp hline
    cases hline
    obtain ⟨hnot, rfl⟩ := cut_eq_some_iff.mp hcut
    obtain ⟨l, rfl⟩ := List.getLast?_eq_some_iff.mp hlast
    rw [List.dropLast_concat]
    refine ⟨fun hmem => hnot (List.mem_append_left _ hmem), ?_⟩
    simp [crlf_append]
  · rintro ⟨hnot, rfl⟩
    have hcut : cut 10 (line ++ crlf ++ rest) = some (line ++ [13], rest) :=
      cut_eq_some_iff.mpr ⟨by simp [hnot], by simp [crlf_append]⟩
    rw [cutLine, hcut]
    simp

theorem cutField_eq_some_iff {line key value : Str} :
    cutField line = some (key, value) ↔ 58 ∉ key ∧ line = key ++ chars [':', ' '] ++ value := by
  constructor
  · intro h
    obtain ⟨⟨k, r⟩, hcut, hfield⟩ := Option.bind_eq_some_iff.mp h
    obtain ⟨hhead, hfield⟩ := Option.ite_none_right_eq_some.mp hfield
    cases hfield
    obtain ⟨hnot, rfl⟩ := cut_eq_some_iff.mp hcut
    obtain ⟨r, rfl⟩ := List.head?_eq_some_iff.mp hhead
    refine ⟨hnot, ?_⟩
    simp [colon_append]
  · rintro ⟨hnot, rfl⟩
    have hcut : cut 58 (key ++ chars [':', ' '] ++ value) = some (key, 32 :: value) :=
      cut_eq_some_iff.mpr ⟨hnot, by simp [colon_append]⟩
    rw [cutField, hcut]
    simp

@[simp] theorem fieldLines_nil : fieldLines [] = [] := rfl

@[simp] theorem fieldLines_cons (h : Str × Str) (fields : List (Str × Str)) :
    fieldLines (h :: fields) = h.1 ++ chars [':', ' '] ++ h.2 ++ crlf ++ fieldLines fields := rfl

theorem length_le_fieldLines (fields : List (Str × Str)) :
    fields.length ≤ (fieldLines fields).length := by
  induction fields with
  | nil => exact Nat.le_refl 0
  | cons h fields ih =>
    have hcrlf : crlf.length = 2 := rfl
    simp only [fieldLines_cons, List.length_append, List.length_cons, hcrlf]
    omega

theorem headerBlock_append (status : Str) (fields : List (Str × Str)) (body : Str) :
    headerBlock status fields ++ body = status ++ crlf ++
    (fieldLines fields ++ (crlf ++ body)) := by
  rw [headerBlock, fieldLines]
  simp only [List.append_assoc]

theorem readFields_eq_some_iff {fuel : Nat} {body : Str} {fields : List (Str × Str)} :
    readFields fuel s = some (fields, body) ↔
      fields.length < fuel ∧ (∀ h ∈ fields, Writable h) ∧
        s = fieldLines fields ++ (crlf ++ body) := by
  induction fuel generalizing s fields with
  | zero => simp [readFields]
  | succ fuel ih =>
    constructor
    · intro h
      obtain ⟨⟨line, rest⟩, hline, hmore⟩ := Option.bind_eq_some_iff.mp h
      obtain ⟨hnot, rfl⟩ := cutLine_eq_some_iff.mp hline
      dsimp only at hmore
      split at hmore
      · -- the empty line ends the fields
        rename_i hempty
        cases hmore
        exact ⟨Nat.succ_pos _, nofun, by rw [hempty]; rfl⟩
      · obtain ⟨⟨key, value⟩, hfield, hmore⟩ := Option.bind_eq_some_iff.mp hmore
        obtain ⟨⟨fields', body'⟩, hrest, hmore⟩ := Option.bind_eq_some_iff.mp hmore
        cases hmore
        obtain ⟨hcolon, rfl⟩ := cutField_eq_some_iff.mp hfield
        obtain ⟨hlength, hwritable, rfl⟩ := ih.mp hrest
        simp only [List.mem_append, not_or] at hnot
        refine ⟨Nat.succ_lt_succ hlength, ?_, ?_⟩
        · exact List.forall_mem_cons.mpr ⟨⟨hnot.1.1, hcolon, hnot.2⟩, hwritable⟩
        · rw [fieldLines_cons, List.append_assoc _ (fieldLines fields')]
    · rintro ⟨hlength, hwritable, rfl⟩
      cases fields with
      | nil =>
        have hline : cutLine (crlf ++ body) = some ([], body) :=
          cutLine_eq_some_iff.mpr ⟨List.not_mem_nil, rfl⟩
        simp [readFields, hline]
      | cons h fields =>
        obtain ⟨⟨hkey, hcolon, hvalue⟩, hwritable⟩ := List.forall_mem_cons.mp hwritable
        have hrest : readFields fuel (fieldLines fields ++ (crlf ++ body)) =
            some (fields, body) :=
          ih.mpr ⟨Nat.lt_of_succ_lt_succ hlength, hwritable, rfl⟩
        have hline : cutLine (fieldLines (h :: fields) ++ (crlf ++ body)) = some
            (h.1 ++ chars [':', ' '] ++ h.2, fieldLines fields ++ (crlf ++ body)) := by
          rw [fieldLines_cons, List.append_assoc _ (fieldLines fields)]
          refine cutLine_eq_some_iff.mpr ⟨?_, rfl⟩
          simp only [List.mem_append, hkey, hvalue, or_false, false_or]
          decide
        have hfield : cutField (h.1 ++ chars [':', ' '] ++ h.2) = some h :=
          cutField_eq_some_iff.mpr ⟨hcolon, rfl⟩
        have hne : h.1 ++ chars [':', ' '] ++ h.2 ≠ [] := by simp [chars]
        rw [readFields, hline]
        simp only [Option.bind_eq_bind, Option.bind_some, if_neg hne, hfield, hrest]

/-- The reader inverts the header block, and nothing else. -/
theorem readResponse_eq_some_iff {body : Str} {fields : List (Str × Str)} :
    readResponse s = some (status, fields, body) ↔
      10 ∉ status ∧ (∀ h ∈ fields, Writable h) ∧ s = headerBlock status fields ++ body := by
  rw [headerBlock_append]
  constructor
  · intro h
    obtain ⟨⟨line, rest⟩, hline, hmore⟩ := Option.bind_eq_some_iff.mp h
    obtain ⟨⟨fields', body'⟩, hrest, hmore⟩ := Option.bind_eq_some_iff.mp hmore
    cases hmore
    obtain ⟨hnot, rfl⟩ := cutLine_eq_some_iff.mp hline
    obtain ⟨-, hwritable, rfl⟩ := readFields_eq_some_iff.mp hrest
    exact ⟨hnot, hwritable, rfl⟩
  · rintro ⟨hnot, hwritable, rfl⟩
    have hline : cutLine (status ++ crlf ++ (fieldLines fields ++ (crlf ++ body))) =
        some (status, fieldLines fields ++ (crlf ++ body)) :=
      cutLine_eq_some_iff.mpr ⟨hnot, rfl⟩
    have hfuel : fields.length < (fieldLines fields ++ (crlf ++ body)).length := by
      have hle := length_le_fieldLines fields
      have hcrlf : crlf.length = 2 := rfl
      simp only [List.length_append, hcrlf]
      omega
    have hrest : readFields (fieldLines fields ++ (crlf ++ body)).length
        (fieldLines fields ++ (crlf ++ body)) = some (fields, body) :=
      readFields_eq_some_iff.mpr ⟨hfuel, hwritable, rfl⟩
    rw [readResponse, hline]
    simp only [Option.bind_eq_bind, Option.bind_some, hrest]

/-! ## The headers of a response -/

theorem HeaderMap.insert_perm {m : HeaderMap} {key : Str} (value : Str) (h : ∀ e ∈ m, e.1 ≠ key) :
    (m.insert key value).Perm ((key, value) :: m) := by
  induction m with
  | nil => exact List.Perm.refl _
  | cons entry rest ih =>
    obtain ⟨k, v⟩ := entry
    obtain ⟨hk, hrest⟩ := List.forall_mem_cons.mp h
    rw [HeaderMap.insert]
    split
    · exact List.Perm.refl _
    · rw [if_neg (Ne.symm hk)]
      exact ((ih hrest).cons (k, v)).trans (List.Perm.swap ..)

/-- What `addHeader` does to the headers of the response. -/
def addHeaders (header : HeaderMap) (added : List (Str × Str)) : HeaderMap :=
  added.foldl (fun header h =>
    if h.1 ≠ contentLengthName then header.insert h.1 h.2 else header) header

theorem addHeaders_perm {header : HeaderMap} (hkeys : (added.map Prod.fst).Nodup)
    (hnew : ∀ h ∈ added, ∀ e ∈ header, e.1 ≠ h.1) :
    (addHeaders header added).Perm (added.filter (fun h => h.1 ≠ contentLengthName) ++ header) := by
  induction added generalizing header with
  | nil => exact List.Perm.refl _
  | cons h added ih =>
    obtain ⟨hh, hkeys⟩ := List.nodup_cons.mp hkeys
    obtain ⟨hfirst, hnew⟩ := List.forall_mem_cons.mp hnew
    rw [addHeaders, List.foldl_cons]
    by_cases hname : h.1 = contentLengthName
    · rw [if_neg (not_not.mpr hname), List.filter_cons_of_neg (by simp [hname])]
      exact ih hkeys hnew
    · rw [if_pos hname, List.filter_cons_of_pos (by simp [hname])]
      have hperm := HeaderMap.insert_perm h.2 hfirst
      have hnew' : ∀ h' ∈ added, ∀ e ∈ header.insert h.1 h.2, e.1 ≠ h'.1 := by
        intro h' hh' e he
        rcases List.mem_cons.mp (hperm.mem_iff.mp he) with rfl | he
        · intro heq
          exact hh (List.mem_map.mpr ⟨h', hh', heq.symm⟩)
        · exact hnew h' hh' e he
      refine (ih hkeys hnew').trans ?_
      refine (hperm.append_left _).trans ?_
      exact List.perm_middle

def blockFields (added : List (Str × Str)) (b : Str) : HeaderMap :=
  (addHeaders [] added).insert contentLengthName (natStr b.length)

theorem blockFields_perm (hkeys : (added.map Prod.fst).Nodup) (b : Str) :
    (blockFields added b).Perm ((contentLengthName, natStr b.length) ::
      added.filter fun h => h.1 ≠ contentLengthName) := by
  have hperm : (addHeaders [] added).Perm (added.filter (fun h => h.1 ≠ contentLengthName) ++ []) :=
    addHeaders_perm hkeys fun _ _ _ he => absurd he List.not_mem_nil
  rw [List.append_nil] at hperm
  refine (HeaderMap.insert_perm _ ?_).trans (hperm.cons _)
  intro e he
  have hmem := hperm.mem_iff.mp he
  simpa using (List.mem_filter.mp hmem).2

theorem not_mem_natStr (n : Nat) : 10 ∉ natStr n := by
  intro hmem
  obtain ⟨c, hc, hval⟩ := List.mem_map.mp hmem
  have hdigit := Nat.isDigit_of_mem_toDigits (by omega) (by omega) hc
  simp only [Char.isDigit, Bool.and_eq_true, decide_eq_true_eq, ge_iff_le, UInt32.le_iff_toNat_le]
    at hdigit
  have hmod : c.val.toNat % 256 = 10 := congrArg UInt8.toNat hval
  have hlow : '0'.val.toNat = 48 := rfl
  have hhigh : '9'.val.toNat = 57 := rfl
  omega

theorem writable_contentLength (n : Nat) : Writable (contentLengthName, natStr n) := by
  have hname : 10 ∉ contentLengthName ∧ 58 ∉ contentLengthName := by decide
  exact ⟨hname.1, hname.2, not_mem_natStr n⟩

/-- `Content-Length`, in any letter case. -/
def isContentLength (h : Str × Str) : Bool := makeLower h.1 = contentLengthKey

theorem isContentLength_name (value : Str) : isContentLength (contentLengthName, value) = true := by
  have hname : makeLower contentLengthName = contentLengthKey := by decide
  simp [isContentLength, hname]

/-- The status text of `writeHead( statusCode, statusMessage )`. -/
def statusLine (version : Str) (statusCode : Nat) (statusMessage : Str) : Str :=
  httpSlash ++ HttpServerResponse.statusText version statusCode (some statusMessage)

theorem not_mem_statusLine {version statusMessage : Str} {statusCode : Nat} :
    10 ∉ statusLine version statusCode statusMessage ↔ 10 ∉ version ∧ 10 ∉ statusMessage := by
  have hslash : 10 ∉ httpSlash := by decide
  simp [statusLine, HttpServerResponse.statusText, hslash, not_mem_natStr]

/-! ## The response -/

/-- `writeHead( statusCode, statusMessage )`, `addHeader` for every header, and `end( b )`. -/
def responseWith (statusCode : Nat) (statusMessage : Str) (added : List (Str × Str)) (b : Str) :
    ResponseCalls where
  heads := .writeHead statusCode (some statusMessage) :: added.map fun h => .addHeader h.1 h.2
  last := some b

/-- The bytes say what the calls have said: they are read as the status, the headers that have been
added, one line each, a single `Content-Length` with the length of the body, and the body. -/
def SaysToReader (status : Str) (added : List (Str × Str)) (b bytes : Str) : Prop :=
  ∃ fields, readResponse bytes = some (status, fields, b) ∧
    (∀ h ∈ added, fields.count h = 1) ∧
    (∀ h ∈ fields, h ∈ added ∨ isContentLength h = true) ∧
    (fields.filter isContentLength).map Prod.snd = [natStr b.length]

/-- What a header must be like: it is read as it is written, and it is no other length. -/
def Serialisable (b : Str) (h : Str × Str) : Prop :=
  Writable h ∧ (isContentLength h = true → h = (contentLengthName, natStr b.length))

instance (b : Str) (h : Str × Str) : Decidable (Serialisable b h) :=
  inferInstanceAs (Decidable (_ ∧ (_ → _)))

namespace HttpServerResponse

theorem addHeaders_ok (version : Str) {r : HttpServerResponse} (hr : r.writeStatus = .notyet)
    (added : List (Str × Str)) :
    (added.map fun h => HeadCall.addHeader h.1 h.2).foldlM (head version) r =
      .ok { r with header := addHeaders r.header added } := by
  induction added generalizing r with
  | nil => rfl
  | cons h added ih =>
    have hstep : head version r (.addHeader h.1 h.2) = .ok { r with
        header := if h.1 ≠ contentLengthName then r.header.insert h.1 h.2 else r.header } := by
      rw [head, addHeader, if_neg (not_not.mpr hr)]
      split <;> rfl
    rw [List.map_cons, List.foldlM_cons, hstep, ok_bind]
    exact ih hr

end HttpServerResponse

open HttpServerResponse in
theorem run_responseWith (version : Str) {r : HttpServerResponse} {q : RRQueue 0} (hr : r.Initial)
    (hheader : r.header = []) (hslot : r.InSlot q) (statusCode : Nat) (statusMessage : Str)
    (added : List (Str × Str)) (b : Str) :
    ∃ r' q', (responseWith statusCode statusMessage added b).run version r q =
      .ok (r', q', headerBlock (statusLine version statusCode statusMessage)
        (blockFields added b) ++ b) := by
  let r₁ : HttpServerResponse :=
    { r with
      replyStatus := statusLine version statusCode statusMessage
      header := addHeaders [] added }
  have hheads : (responseWith statusCode statusMessage added b).heads.foldlM (head version) r =
      .ok r₁ := by
    have hstep : head version r (.writeHead statusCode (some statusMessage)) =
        .ok (r.setStatus (statusLine version statusCode statusMessage)) := rfl
    have hrest := addHeaders_ok version
      (r := r.setStatus (statusLine version statusCode statusMessage)) hr.writeStatus added
    have hempty : (r.setStatus (statusLine version statusCode statusMessage)).header = [] := hheader
    rw [hempty] at hrest
    rw [responseWith, List.foldlM_cons, hstep, ok_bind, hrest]
    rfl
  obtain ⟨r', q', hend⟩ := endCall_with_ok (r := r₁) (q := q) ⟨hr.writeStatus, hr.headerBuff⟩
    hslot b
  refine ⟨r', q', ?_⟩
  have hflush : r₁.flushIf (responseWith statusCode statusMessage added b).flush =
    .ok (r₁, []) := rfl
  have hparts : r₁.writeBodyParts (responseWith statusCode statusMessage added b).parts =
      .ok (r₁, []) := rfl
  have hlast : (responseWith statusCode statusMessage added b).last = some b := rfl
  simp only [ResponseCalls.run, hheads, hflush, hparts, hlast, hend, ok_bind, List.nil_append]
  rfl

theorem saysToReader_of_serialisable {b : Str} (hkeys : (added.map Prod.fst).Nodup)
    (hstatus : 10 ∉ status) (hadded : ∀ h ∈ added, Serialisable b h) :
    SaysToReader status added b (headerBlock status (blockFields added b) ++ b) := by
  have hperm := blockFields_perm hkeys b
  have hmem : ∀ h ∈ blockFields added b, h = (contentLengthName, natStr b.length) ∨
      h ∈ added ∧ h.1 ≠ contentLengthName := by
    intro h hh
    simpa using hperm.mem_iff.mp hh
  refine ⟨blockFields added b, readResponse_eq_some_iff.mpr ⟨hstatus, ?_, rfl⟩, ?_, ?_, ?_⟩
  · intro h hh
    rcases hmem h hh with rfl | ⟨hh, -⟩
    · exact writable_contentLength _
    · exact (hadded h hh).1
  · intro h hh
    have honce : added.count h = 1 := List.count_eq_one_of_mem (hkeys.of_map Prod.fst) hh
    rw [hperm.count_eq, List.count_cons]
    by_cases hname : h.1 = contentLengthName
    · have heq := (hadded h hh).2 (by rw [← isContentLength_name h.2, ← hname])
      have hnot : h ∉ added.filter fun h => h.1 ≠ contentLengthName := by simp [hname]
      rw [List.count_eq_zero_of_not_mem hnot, heq]
      simp
    · have hne : (contentLengthName, natStr b.length) ≠ h := by
        rintro rfl
        exact hname rfl
      rw [List.count_filter (by simp [hname]), honce]
      simp [hne]
  · intro h hh
    rcases hmem h hh with rfl | ⟨hh, -⟩
    · exact .inr (isContentLength_name _)
    · exact .inl hh
  · have hnone : ∀ h ∈ added.filter (fun h => h.1 ≠ contentLengthName), ¬isContentLength h := by
      intro h hh hlength
      obtain ⟨hh, hname⟩ := List.mem_filter.mp hh
      rw [(hadded h hh).2 hlength] at hname
      simp at hname
    have hfilter := hperm.filter isContentLength
    rw [List.filter_cons_of_pos (isContentLength_name _), List.filter_eq_nil_iff.mpr hnone,
      List.perm_singleton] at hfilter
    rw [hfilter]
    rfl

theorem serialisable_of_saysToReader {b : Str} (hkeys : (added.map Prod.fst).Nodup)
    (h : SaysToReader status added b (headerBlock status (blockFields added b) ++ b)) :
    10 ∉ status ∧ ∀ h ∈ added, Serialisable b h := by
  obtain ⟨fields, hread, hadded, -, hlength⟩ := h
  obtain ⟨hstatus, hwritable, -⟩ := readResponse_eq_some_iff.mp hread
  have hmem : ∀ h ∈ added, h ∈ fields := by
    intro h hh
    exact List.count_pos_iff.mp (by rw [hadded h hh]; exact Nat.one_pos)
  have hperm := blockFields_perm hkeys b
  -- so the block can be read, and what is read from it is its own headers
  have hblock : ∀ h ∈ blockFields added b, Writable h := by
    intro h hh
    rcases List.mem_cons.mp (hperm.mem_iff.mp hh) with rfl | hh
    · exact writable_contentLength _
    · exact hwritable h (hmem h (List.mem_filter.mp hh).1)
  have hown : readResponse (headerBlock status (blockFields added b) ++ b) =
      some (status, blockFields added b, b) :=
    readResponse_eq_some_iff.mpr ⟨hstatus, hblock, rfl⟩
  obtain rfl : blockFields added b = fields := by
    have heq := hown.symm.trans hread
    simpa using heq
  refine ⟨hstatus, fun h hh => ⟨hwritable h (hmem h hh), fun his => ?_⟩⟩
  -- there is one length only, and that of `end` is there
  obtain ⟨entry, hentry, -⟩ := List.map_eq_singleton_iff.mp hlength
  have hone : ∀ h ∈ blockFields added b, isContentLength h = true → h = entry := by
    intro h hh his
    have hin := List.mem_filter.mpr ⟨hh, his⟩
    rw [hentry] at hin
    exact List.mem_singleton.mp hin
  have hend := hone _ (hperm.mem_iff.mpr (List.mem_cons_self ..)) (isContentLength_name _)
  rw [hone h (hmem h hh) his, hend]

/-- For every status, all headers with distinct keys and every body: the bytes handed to the socket
say to their reader what the calls have said, exactly if there is no line feed in the version and
the message and every header is `Serialisable`. -/
theorem response_serialised_iff (version : Str) {r : HttpServerResponse} {q : RRQueue 0}
    (hr : r.Initial) (hheader : r.header = []) (hslot : r.InSlot q) (statusCode : Nat)
    (statusMessage : Str) (added : List (Str × Str))
    (hkeys : (added.map Prod.fst).Nodup) (b : Str) :
    (∃ r' q' bytes, (responseWith statusCode statusMessage added b).run version r q =
        .ok (r', q', bytes) ∧
      SaysToReader (statusLine version statusCode statusMessage) added b bytes) ↔
      10 ∉ version ∧ 10 ∉ statusMessage ∧ ∀ h ∈ added, Serialisable b h := by
  obtain ⟨r', q', hrun⟩ := run_responseWith version hr hheader hslot statusCode statusMessage added b
  rw [← and_assoc, ← not_mem_statusLine]
  constructor
  · rintro ⟨r₁, q₁, bytes, hrun', hsays⟩
    cases hrun.symm.trans hrun'
    exact serialisable_of_saysToReader hkeys hsays
  · rintro ⟨hstatus, hadded⟩
    exact ⟨r', q', _, hrun, saysToReader_of_serialisable hkeys hstatus hadded⟩

def okMessage : Str := chars ['O', 'K']

/-- The headers `d: e` and `a: b`. -/
def twoHeaders : List (Str × Str) := [(chars ['d'], chars ['e']), (chars ['a'], chars ['b'])]

theorem response_serialised_two_headers :
    ∃ r' q' bytes, (responseWith 200 okMessage twoHeaders (chars ['c'])).run
        (chars ['1', '.', '1']) firstResponse firstSlot = .ok (r', q', bytes) ∧
      SaysToReader (statusLine (chars ['1', '.', '1']) 200 okMessage) twoHeaders (chars ['c'])
        bytes :=
  have hr : firstResponse.Initial := ⟨rfl, rfl⟩
  have hslot : firstResponse.InSlot firstSlot := ⟨⟨rfl, by decide⟩, rfl⟩
  (response_serialised_iff (chars ['1', '.', '1']) hr rfl hslot 200 okMessage twoHeaders
    (by decide) (chars ['c'])).mpr (by decide +kernel)

/-- `a: b`, and a second header behind a line end in the value. -/
def twoInOne : Str × Str := (chars ['a'], chars ['b', '\r', '\n', 'x', ':', ' ', 'y'])

/-- A line end in a value: a header is read that nobody has added. -/
theorem line_end_in_value :
    ∃ r' q' bytes, (responseWith 200 okMessage [twoInOne] []).run (chars ['1', '.', '1'])
        firstResponse firstSlot = .ok (r', q', bytes) ∧
      readResponse bytes = some (statusLine (chars ['1', '.', '1']) 200 okMessage,
        [(contentLengthName, natStr 0), (chars ['a'], chars ['b']), (chars ['x'], chars ['y'])],
        []) ∧
      ¬SaysToReader (statusLine (chars ['1', '.', '1']) 200 okMessage) [twoInOne] [] bytes := by
  have hread : readResponse (headerBlock (statusLine (chars ['1', '.', '1']) 200 okMessage)
      [(contentLengthName, natStr 0), twoInOne] ++ []) =
        some (statusLine (chars ['1', '.', '1']) 200 okMessage,
          [(contentLengthName, natStr 0), (chars ['a'], chars ['b']), (chars ['x'], chars ['y'])],
          []) := by decide +kernel
  refine ⟨_, _, _, rfl, hread, ?_⟩
  rintro ⟨fields, hfields, hadded, -⟩
  cases hread.symm.trans hfields
  exact absurd (hadded twoInOne (List.mem_singleton.mpr rfl)) (by decide +kernel)

end NodeCpp
