import NodeCpp.Http.Message

/-!
# Requests on the wire

A well-formed request as its sender writes it: the request line, header fields with blanks
around their values, the empty line, and a body whose length the field `Content-Length`
gives if there is one.

* `parseMethod_requestLine`, `parseHeaderEntry_line`, `parseHeaderEntry_crlf` -- how the
  parser takes the lines of a request.
* `HeaderField.isLine`, `HttpRequest.requestLine_isLine` -- the lines end with the first line feed in them.
-/

namespace NodeCpp

open Lib Lib.Text

/-- Bytes up to the first line feed. -/
def IsLine (l : Str) : Prop := ∃ init, l = init ++ [10] ∧ 10 ∉ init

structure HeaderField where
  name : Str
  /-- The blanks between the colon and the value. -/
  before : Str
  value : Str
  after : Str
  name_ne : name ≠ []
  name_ok : ∀ c ∈ name, isSpace c = false ∧ c ≠ 58
  before_ok : ∀ c ∈ before, isBlank c = true
  value_ok : ∀ c ∈ value, c ≠ 13 ∧ c ≠ 10
  value_first : ∀ c ∈ value.head?, isBlank c = false
  value_last : ∀ c ∈ value.getLast?, isBlank c = false
  after_ok : ∀ c ∈ after, isBlank c = true

def HeaderField.line (f : HeaderField) : Str :=
  f.name ++ 58 :: (f.before ++ f.value ++ f.after ++ crlf)

structure HttpRequest where
  method : Str
  target : Str
  version : Str
  fields : List HeaderField
  body : Str
  method_ok : method ∈ methodNames
  target_ne : target ≠ []
  target_ok : ∀ c ∈ target, isSpace c = false
  version_ok : ∀ c ∈ version, isSpace c = false
  /-- `Content-Length`, in any letter case, is the length of the body in decimal digits. -/
  length_ok : ∀ f ∈ fields, makeLower f.name = contentLengthKey →
    f.value ≠ [] ∧ f.value.all isDigit ∧ decimal f.value = body.length
  /-- Without it there is no body. -/
  body_ok : (∀ f ∈ fields, makeLower f.name ≠ contentLengthKey) → body = []

namespace HttpRequest

def requestLine (r : HttpRequest) : Str :=
  r.method ++ 32 :: (r.target ++ 32 :: (httpSlash ++ r.version ++ crlf))

def lines (r : HttpRequest) : List Str := r.requestLine :: (r.fields.map HeaderField.line ++ [crlf])

def wire (r : HttpRequest) : Str := r.lines.flatten ++ r.body

end HttpRequest

/-! ## Lines -/

theorem isSpace_eq_false {c : UInt8} :
    isSpace c = false ↔ isBlank c = false ∧ c ≠ 13 ∧ c ≠ 10 := by
  simp only [isSpace, isBlank, chars, List.map_cons, List.map_nil, List.mem_cons,
    decide_eq_false_iff_not]
  show ¬(c = 32 ∨ c = 9 ∨ c = 13 ∨ c = 10 ∨ c ∈ []) ↔ ¬(c = 32 ∨ c = 9 ∨ c ∈ []) ∧ _
  simp only [List.not_mem_nil, or_false]
  tauto

theorem not_mem_of_isSpace {s : Str} (h : ∀ c ∈ s, isSpace c = false) : 10 ∉ s := by
  intro hmem
  exact absurd (h 10 hmem) (by decide)

theorem not_mem_of_isBlank {s : Str} (h : ∀ c ∈ s, isBlank c = true) : 10 ∉ s := by
  intro hmem
  exact absurd (h 10 hmem) (by decide)

theorem isSpace_of_mem_crlf : ∀ c ∈ crlf, isSpace c = true := by decide +kernel

theorem httpSlash_ok : ∀ c ∈ httpSlash, isSpace c = false := by decide +kernel

theorem methodNames_ok : ∀ name ∈ methodNames, name ≠ [] ∧ ∀ c ∈ name, isSpace c = false := by
  decide +kernel

/-- No method name is the beginning of another one. -/
theorem methodNames_inj : ∀ a ∈ methodNames, ∀ b ∈ methodNames, a <+: b → a = b := by decide

theorem HeaderField.isLine (f : HeaderField) : IsLine f.line := by
  refine ⟨f.name ++ 58 :: (f.before ++ f.value ++ f.after ++ [13]), ?_, ?_⟩
  · simp only [HeaderField.line, List.append_assoc, List.cons_append]
    rfl
  · have hname : 10 ∉ f.name := not_mem_of_isSpace fun c hc => (f.name_ok c hc).1
    have hbefore := not_mem_of_isBlank f.before_ok
    have hvalue : 10 ∉ f.value := fun hmem => (f.value_ok 10 hmem).2 rfl
    have hafter := not_mem_of_isBlank f.after_ok
    simp [hname, hbefore, hvalue, hafter]

theorem HttpRequest.requestLine_isLine (r : HttpRequest) : IsLine r.requestLine := by
  refine ⟨r.method ++ 32 :: (r.target ++ 32 :: (httpSlash ++ r.version ++ [13])),
    ?_, ?_⟩
  · simp only [requestLine, List.append_assoc, List.cons_append]
    rfl
  · have hmethod := not_mem_of_isSpace (methodNames_ok r.method r.method_ok).2
    have htarget := not_mem_of_isSpace r.target_ok
    have hversion := not_mem_of_isSpace r.version_ok
    have hname : 10 ∉ httpSlash := by decide
    simp [hmethod, htarget, hversion, hname]

/-! ## Parsing them -/

namespace HeaderField

theorem findFirst_name (f : HeaderField) :
    findFirst (fun c => !isBlank c) f.line 0 = some 0 := by
  obtain ⟨x, xs, hname⟩ := List.exists_cons_of_ne_nil f.name_ne
  have hx : isBlank x = false := (isSpace_eq_false.mp (f.name_ok x (by simp [hname])).1).1
  simp [findFirst, HeaderField.line, hname, List.findIdx?_cons, hx]

theorem findFirst_colon (f : HeaderField) : findFirst (· == 58) f.line 0 = some f.name.length := by
  have hno : ∀ y ∈ f.name, (y == 58) = false := fun y hy => beq_false_of_ne (f.name_ok y hy).2
  have hfound := findFirst_append (l := []) hno (beq_self_eq_true 58)
    (f.before ++ f.value ++ f.after ++ crlf)
  simpa [HeaderField.line] using hfound

end HeaderField

namespace HttpRequest

variable (r : HttpRequest)

/-- Where the version starts in the request line. -/
def versionAt : Nat := r.method.length + 1 + r.target.length + 1

theorem drop_versionAt : r.requestLine.drop r.versionAt = httpSlash ++ (r.version ++ crlf) := by
  have hline : r.requestLine =
      (r.method ++ 32 :: (r.target ++ [32])) ++ (httpSlash ++ (r.version ++ crlf)) := by
    simp [requestLine]
  have hlen : (r.method ++ 32 :: (r.target ++ [32])).length = r.versionAt := by
    simp only [versionAt, List.length_append, List.length_cons, List.length_nil]
    omega
  rw [hline, ← hlen, List.drop_left]

theorem findFirst_targetEnd : findFirst isSpace r.requestLine (r.method.length + 1 + 1) =
    some (r.method.length + 1 + r.target.length) := by
  obtain ⟨t, ts, htarget⟩ := List.exists_cons_of_ne_nil r.target_ne
  have hnoSpace : ∀ c ∈ ts, isSpace c = false := fun c hc => r.target_ok c (by simp [htarget, hc])
  have hfound := findFirst_append (l := r.method ++ [32, t]) hnoSpace
    (show isSpace 32 = true by decide) (httpSlash ++ r.version ++ crlf)
  simpa [requestLine, htarget, Nat.add_assoc, Nat.add_comm, Nat.add_left_comm] using hfound

theorem findFirst_version : findFirst (fun c => !isBlank c) r.requestLine
    (r.method.length + 1 + r.target.length) = some r.versionAt := by
  have hfound := findFirst_append (p := fun c => !isBlank c) (l := r.method ++ 32 :: r.target)
    (m := [32]) (by decide +kernel) (show (fun c => !isBlank c) 72 = true by decide)
    (httpSlash.tail ++ r.version ++ crlf)
  have hline : r.method ++ 32 :: r.target ++ [32] ++ 72 :: (httpSlash.tail ++ r.version ++ crlf) =
      r.requestLine := by
    rw [requestLine, List.append_assoc, List.append_assoc]
    rfl
  rw [hline] at hfound
  simpa [versionAt, Nat.add_assoc, Nat.add_comm, Nat.add_left_comm] using hfound

theorem findLast_version : findLast (fun c => !isSpace c) r.requestLine =
    some (r.versionAt + 4 + r.version.length) := by
  -- the last character of the version, or the slash
  obtain ⟨init, c, hname⟩ := (List.eq_nil_or_concat (httpSlash ++ r.version)).resolve_left nofun
  rw [List.concat_eq_append] at hname
  have hc : isSpace c = false := by
    have hmem : c ∈ httpSlash ++ r.version := by simp [hname]
    rcases List.mem_append.mp hmem with hmem | hmem
    · exact httpSlash_ok c hmem
    · exact r.version_ok c hmem
  have hfound := findLast_append (p := fun c => !isSpace c)
    (l := r.method ++ 32 :: (r.target ++ 32 :: init))
    (show (fun c => !isSpace c) c = true by simp [hc]) (r := crlf)
    (fun y hy => by simp [isSpace_of_mem_crlf y hy])
  have hline : r.method ++ 32 :: (r.target ++ 32 :: init) ++ c :: crlf = r.requestLine := by
    rw [requestLine, hname]
    simp
  have hlen : 5 + r.version.length = init.length + 1 := by
    have hlen := congrArg List.length hname
    rwa [List.length_append, List.length_append] at hlen
  rw [← hline, hfound]
  simp only [versionAt, List.length_append, List.length_cons, Option.some.injEq]
  omega

end HttpRequest

namespace IncomingHttpMessageAtServer

variable {m : IncomingHttpMessageAtServer}

theorem parseHeaderEntry_line (hstatus : m.readStatus = .inHdr) (f : HeaderField)
    (hvalue : f.value ≠ []) :
    m.parseHeaderEntry f.line =
      .ok ({ m with header := m.header.insert (makeLower f.name) f.value }, true) := by
  obtain ⟨v, vs, hfirst⟩ := List.exists_cons_of_ne_nil hvalue
  obtain ⟨init, c, hlast⟩ := (List.eq_nil_or_concat f.value).resolve_left hvalue
  rw [List.concat_eq_append] at hlast
  have hv : isBlank v = false := f.value_first v (by simp [hfirst])
  have hc : isSpace c = false :=
    isSpace_eq_false.mpr ⟨f.value_last c (by simp [hlast]), f.value_ok c (by simp [hlast])⟩
  -- the places the parser looks for
  have hend : findLast (fun c => !isSpace c) f.line =
      some (f.name ++ 58 :: (f.before ++ init)).length := by
    have hline : f.line = (f.name ++ 58 :: (f.before ++ init)) ++ c :: (f.after ++ crlf) := by
      simp [HeaderField.line, hlast]
    rw [hline]
    apply findLast_append (by simp [hc])
    intro y hy
    rcases List.mem_append.mp hy with hy | hy
    · simp [isSpace_of_isBlank (f.after_ok y hy)]
    · simp [isSpace_of_mem_crlf y hy]
  have hstart := f.findFirst_name
  have hcolon := f.findFirst_colon
  have hval : findFirst (fun c => !isBlank c) f.line (f.name.length + 1) =
      some (f.name.length + 1 + f.before.length) := by
    have hno : ∀ y ∈ f.before, (!isBlank y) = false := fun y hy => by simp [f.before_ok y hy]
    have hfound := findFirst_append (l := f.name ++ [58]) hno
      (show (fun c => !isBlank c) v = true by simp [hv]) (vs ++ f.after ++ crlf)
    simpa [HeaderField.line, hfirst] using hfound
  have hkey : substr f.line 0 (f.name.length - 0) = f.name := by
    simp [substr, HeaderField.line]
  have hvalue' : substr f.line (f.name.length + 1 + f.before.length)
      ((f.name ++ 58 :: (f.before ++ init)).length + 1 - (f.name.length + 1 + f.before.length)) =
        f.value := by
    have hpart := substr_append (f.name ++ 58 :: f.before) f.value (f.after ++ crlf)
    have hlen : (f.name ++ 58 :: (f.before ++ init)).length + 1 -
        (f.name.length + 1 + f.before.length) = f.value.length := by
      simp [hlast]
      omega
    rw [hlen]
    simpa [HeaderField.line, Nat.add_assoc, Nat.add_comm, Nat.add_left_comm] using hpart
  have hlt : ¬(f.name ++ 58 :: (f.before ++ init)).length ≤ f.name.length := by simp
  simp only [parseHeaderEntry, hstatus, hend, hstart, hcolon, hval, hkey, hvalue',
    if_neg hlt, ne_eq,
    not_true_eq_false, if_false]

theorem parseHeaderEntry_empty (hstatus : m.readStatus = .inHdr) (f : HeaderField)
    (hvalue : f.value = []) : m.parseHeaderEntry f.line = .ok (m, false) := by
  -- the colon is the last character that is not a space
  have hend : findLast (fun c => !isSpace c) f.line = some f.name.length := by
    rw [HeaderField.line]
    apply findLast_append (by decide)
    intro y hy
    simp only [hvalue, List.append_nil, List.mem_append] at hy
    rcases hy with (hy | hy) | hy
    · simp [isSpace_of_isBlank (f.before_ok y hy)]
    · simp [isSpace_of_isBlank (f.after_ok y hy)]
    · simp [isSpace_of_mem_crlf y hy]
  have hstart := f.findFirst_name
  have hcolon := f.findFirst_colon
  simp only [parseHeaderEntry, hstatus, hend, hstart, hcolon, Nat.le_refl, if_true, ne_eq,
    not_true_eq_false, if_false]

theorem parseHeaderEntry_crlf (hstatus : m.readStatus = .inHdr) :
    m.parseHeaderEntry crlf =
      .ok ({ m with toHttpMessageBase := m.parseContentLength, readStatus := .completed },
        false) := by
  have hend : findLast (fun c => !isSpace c) crlf = none := by decide
  simp only [parseHeaderEntry, hstatus, hend, HttpMessageBase.contentLength_parseContentLength,
    ne_eq, not_true_eq_false, if_false]

theorem find_isMethod (r : HttpRequest) :
    methodNames.find? (isMethod r.requestLine 0) = some r.method := by
  have hline : r.method <+: r.requestLine := List.prefix_append ..
  have hown : isMethod r.requestLine 0 r.method = true := by
    have hat : r.requestLine[r.method.length]? = some 32 := by
      simp [HttpRequest.requestLine]
    have hlen : r.method.length + 0 < r.requestLine.length := by
      simp [HttpRequest.requestLine]
    rw [isMethod, hat, List.drop_zero, List.isPrefixOf_iff_prefix.mpr hline, decide_eq_true hlen]
    rfl
  obtain ⟨name, hname⟩ := Option.isSome_iff_exists.mp
    (List.find?_isSome.mpr ⟨r.method, r.method_ok, hown⟩)
  have hmem := List.mem_of_find?_eq_some hname
  have his := List.find?_some hname
  simp only [isMethod, Bool.and_eq_true, List.drop_zero, List.isPrefixOf_iff_prefix] at his
  -- two names at the start of one line
  have heq : name = r.method := by
    rcases List.prefix_or_prefix_of_prefix his.1.2 hline with hle | hle
    · exact methodNames_inj _ hmem _ r.method_ok hle
    · exact (methodNames_inj _ r.method_ok _ hmem hle).symm
  rw [hname, heq]

theorem parseUri_requestLine (r : HttpRequest) :
    m.parseUri r.requestLine (r.method.length + 1) =
      .ok ({ m with url := r.target, version := r.version, readStatus := .inHdr }, true) := by
  have hend := r.findFirst_targetEnd
  have hurl : substr r.requestLine (r.method.length + 1)
      (r.method.length + 1 + r.target.length - (r.method.length + 1)) = r.target := by
    have hpart := substr_append (r.method ++ [32]) r.target
      (32 :: (httpSlash ++ r.version ++ crlf))
    rw [Nat.add_sub_cancel_left]
    simpa [HttpRequest.requestLine] using hpart
  have hhttp : httpSlash.isPrefixOf (r.requestLine.drop r.versionAt) = true := by
    rw [r.drop_versionAt, List.isPrefixOf_iff_prefix]
    exact List.prefix_append ..
  have hversion : substr r.requestLine (r.versionAt + 5)
      (r.versionAt + 4 + r.version.length + 1 - (r.versionAt + 5)) = r.version := by
    rw [substr, ← List.drop_drop, r.drop_versionAt,
      show r.versionAt + 4 + r.version.length + 1 - (r.versionAt + 5) = r.version.length by omega,
      show 5 = httpSlash.length from rfl, List.drop_left, List.take_left]
  have hne : ¬r.target.length = 0 := by simp [r.target_ne]
  simp only [parseUri, hend, hurl, if_neg hne, r.findFirst_version, r.findLast_version, hhttp,
    hversion, Bool.not_true, Bool.false_eq_true, if_false]

theorem parseMethod_requestLine (hstatus : m.readStatus = .noinit) (r : HttpRequest) :
    m.parseMethod r.requestLine =
      .ok ({ m with
        method := r.method
        url := r.target
        version := r.version
        readStatus := .inHdr }, true) := by
  obtain ⟨hne, hok⟩ := methodNames_ok r.method r.method_ok
  obtain ⟨x, xs, hmethod⟩ := List.exists_cons_of_ne_nil hne
  obtain ⟨t, ts, htarget⟩ := List.exists_cons_of_ne_nil r.target_ne
  have hx := isSpace_eq_false.mp (hok x (by simp [hmethod]))
  have hfirst : findFirst (fun c => !isBlank c) r.requestLine 0 = some 0 := by
    simp [findFirst, HttpRequest.requestLine, hmethod, List.findIdx?_cons, hx.1]
  have hat : r.requestLine[0]? = some x := by simp [HttpRequest.requestLine, hmethod]
  have hname : ¬(some x = some 13 ∨ some x = some (10 : UInt8)) := by simp [hx.2]
  have hstart : findFirst (fun c => !isBlank c) r.requestLine (0 + (r.method.length + 1)) =
      some (r.method.length + 1) := by
    have ht := (isSpace_eq_false.mp (r.target_ok t (by simp [htarget]))).1
    have hfound := findFirst_append (p := fun c => !isBlank c) (l := r.method ++ [32]) (m := [])
      (by simp) (show (fun c => !isBlank c) t = true by simp [ht])
      (ts ++ 32 :: (httpSlash ++ r.version ++ crlf))
    simpa [HttpRequest.requestLine, htarget] using hfound
  simp only [parseMethod, hstatus, hfirst, hat, if_neg hname, find_isMethod, hstart,
    parseUri_requestLine, ne_eq, not_true_eq_false, if_false]

end IncomingHttpMessageAtServer

end NodeCpp
