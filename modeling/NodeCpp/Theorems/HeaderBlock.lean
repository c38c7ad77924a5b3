import NodeCpp.Http.Fields

/-!
# The header block of a request

`getRequest` gives the lines behind the request line to `parseHeaderEntry`, one by one, for as long
as it returns true.

* `parseHeaderLines` -- that loop over given lines.
* `parseHeaderLines_fields` -- fields with values are all taken, and each name is mapped to the value
  of its first occurrence.
* `parseHeaderLines_stops` -- a field whose value is empty or blank ends the loop.
* `header_block_iff` -- so a block is taken exactly when all its values have something in them.
-/

namespace NodeCpp

open Lib Lib.Text

namespace IncomingHttpMessageAtServer

/-- The loop of `getRequest`: the message afterwards, and the lines that are left. -/
def parseHeaderLines (m : IncomingHttpMessageAtServer) :
    List Str → Except Failure (IncomingHttpMessageAtServer × List Str)
  | [] => .ok (m, [])
  | line :: lines => do
      let (m, more) ← m.parseHeaderEntry line
      if more then m.parseHeaderLines lines else .ok (m, lines)

def headerLines (fields : List RawField) : List Str := fields.map RawField.line ++ [crlf]

/-- The value of a key: that of the first field with this name, in any letter case. -/
def firstValue (fields : List RawField) (key : Str) : Option Str :=
  (fields.find? fun f => makeLower f.name = key).map fun f => trim f.value

/-- A header block is taken as it is meant: no line is left, the message is ready for its body or
complete, and the header has the first value of every name. -/
def TakesHeaderBlock (m : IncomingHttpMessageAtServer) (fields : List RawField) : Prop :=
  ∃ m', m.parseHeaderLines (headerLines fields) = .ok (m', []) ∧
    (m'.readStatus = .inBody ∨ m'.readStatus = .completed) ∧
    ∀ key, m'.header.find key = firstValue fields key

theorem firstValue_cons (f : RawField) (fields : List RawField) (key : Str) :
    firstValue (f :: fields) key =
      if key = makeLower f.name then some (trim f.value) else firstValue fields key := by
  by_cases hkey : key = makeLower f.name
  · simp [firstValue, hkey]
  · have hne : ¬makeLower f.name = key := Ne.symm hkey
    simp [firstValue, hkey, hne]

variable {m : IncomingHttpMessageAtServer}

theorem parseHeaderEntry_field (hstatus : m.readStatus = .inHdr) {f : RawField}
    (hvalue : trim f.value ≠ []) :
    m.parseHeaderEntry f.line =
      .ok ({ m with header := m.header.insert (makeLower f.name) (trim f.value) }, true) := by
  rw [← f.line_field]
  exact parseHeaderEntry_line hstatus f.field hvalue

theorem parseHeaderEntry_blank (hstatus : m.readStatus = .inHdr) {f : RawField}
    (hvalue : trim f.value = []) : m.parseHeaderEntry f.line = .ok (m, false) := by
  rw [← f.line_field]
  exact parseHeaderEntry_empty hstatus f.field hvalue

theorem parseHeaderLines_fields {fields : List RawField} (hstatus : m.readStatus = .inHdr)
    (hsorted : m.header.Sorted) (hvalues : ∀ f ∈ fields, trim f.value ≠ []) :
    ∃ m', m.parseHeaderLines (headerLines fields) = .ok (m', []) ∧
      (m'.readStatus = .inBody ∨ m'.readStatus = .completed) ∧
      ∀ key, m'.header.find key = (m.header.find key).or (firstValue fields key) := by
  induction fields generalizing m with
  | nil =>
    have hcrlf : m.parseHeaderLines [crlf] = .ok
        ({ m with toHttpMessageBase := m.parseContentLength, readStatus := .completed }, []) := by
      rw [parseHeaderLines, parseHeaderEntry_crlf hstatus]
      rfl
    refine ⟨_, hcrlf, .inr rfl, fun key => ?_⟩
    rw [firstValue, List.find?_nil, Option.map_none, Option.or_none]
    show m.parseContentLength.header.find key = _
    rw [HttpMessageBase.header_parseContentLength]
  | cons f fields ih =>
    obtain ⟨hf, hrest⟩ := List.forall_mem_cons.mp hvalues
    obtain ⟨m', hlines, hdone, hfind⟩ :=
      ih (m := { m with header := m.header.insert (makeLower f.name) (trim f.value) }) hstatus
        (hsorted.insert _ _) hrest
    refine ⟨m', ?_, hdone, fun key => ?_⟩
    · rw [headerLines, List.map_cons, List.cons_append, parseHeaderLines,
        parseHeaderEntry_field hstatus hf]
      exact hlines
    · rw [hfind key, HeaderMap.find_insert hsorted, firstValue_cons]
      by_cases hkey : key = makeLower f.name
      · rw [if_pos hkey, if_pos hkey, hkey]
        cases m.header.find (makeLower f.name) <;> rfl
      · rw [if_neg hkey, if_neg hkey]

/-- A field without a value leaves the lines behind it, of which there is at least the empty
one. -/
theorem parseHeaderLines_stops {fields : List RawField} (hstatus : m.readStatus = .inHdr)
    (hblank : ∃ f ∈ fields, trim f.value = []) :
    ∃ m' line lines, m.parseHeaderLines (headerLines fields) = .ok (m', line :: lines) := by
  induction fields generalizing m with
  | nil =>
    obtain ⟨f, hf, -⟩ := hblank
    cases hf
  | cons f fields ih =>
    rw [headerLines, List.map_cons, List.cons_append, parseHeaderLines]
    by_cases hf : trim f.value = []
    · rw [parseHeaderEntry_blank hstatus hf]
      obtain ⟨line, lines, hleft⟩ := List.exists_cons_of_ne_nil
        (List.append_ne_nil_of_right_ne_nil (fields.map RawField.line) (List.cons_ne_nil crlf []))
      rw [hleft]
      exact ⟨m, line, lines, rfl⟩
    · rw [parseHeaderEntry_field hstatus hf]
      obtain ⟨g, hg, hgblank⟩ := hblank
      rcases List.mem_cons.mp hg with rfl | hg
      · exact absurd hgblank hf
      · exact ih (m := { m with header := m.header.insert (makeLower f.name) (trim f.value) })
          hstatus ⟨g, hg, hgblank⟩

/-- A header block is taken as it is meant exactly when no value in it is empty or blank. -/
theorem header_block_iff (hstatus : m.readStatus = .inHdr) (hheader : m.header = [])
    (fields : List RawField) :
    m.TakesHeaderBlock fields ↔ ∀ f ∈ fields, trim f.value ≠ [] := by
  constructor
  · rintro ⟨m', hlines, -⟩
    by_contra hblank
    push Not at hblank
    obtain ⟨m'', line, lines, hstops⟩ := parseHeaderLines_stops hstatus hblank
    rw [hlines] at hstops
    cases hstops
  · intro hvalues
    have hsorted : m.header.Sorted := by
      rw [hheader]
      exact List.Pairwise.nil
    obtain ⟨m', hlines, hdone, hfind⟩ := parseHeaderLines_fields hstatus hsorted hvalues
    refine ⟨m', hlines, hdone, fun key => ?_⟩
    rw [hfind key, hheader]
    rfl

/-- `"A: b "`. -/
def fieldWithValue : RawField where
  name := chars ['A']
  value := chars [' ', 'b', ' ']
  name_ne := by decide
  name_ok := by decide +kernel
  value_ok := by decide +kernel

/-- `"E:f"`. -/
def otherField : RawField where
  name := chars ['E']
  value := chars ['f']
  name_ne := by decide
  name_ok := by decide +kernel
  value_ok := by decide +kernel

/-- `"C:"`. -/
def fieldWithoutValue : RawField where
  name := chars ['C']
  value := []
  name_ne := by decide
  name_ok := by decide +kernel
  value_ok := nofun

/-- A message whose request line has been read. -/
def inHeader : IncomingHttpMessageAtServer := { readStatus := .inHdr }

theorem header_block_two_fields :
    inHeader.TakesHeaderBlock [fieldWithValue, otherField] ∧
      firstValue [fieldWithValue, otherField] (chars ['a']) = some (chars ['b']) ∧
      firstValue [fieldWithValue, otherField] (chars ['e']) = some (chars ['f']) :=
  ⟨(header_block_iff rfl rfl [fieldWithValue, otherField]).mpr (by decide), by decide, by decide⟩

/-- An empty value: the line is not taken, and the field behind it and the empty line are left. The
message is still waiting for header fields, so the request fails. -/
theorem empty_value_ends_block :
    inHeader.parseHeaderLines (headerLines [fieldWithoutValue, fieldWithValue]) =
        .ok (inHeader, [fieldWithValue.line, crlf]) ∧
      ¬inHeader.TakesHeaderBlock [fieldWithoutValue, fieldWithValue] := by
  have hstops : inHeader.parseHeaderLines (headerLines [fieldWithoutValue, fieldWithValue]) =
      .ok (inHeader, [fieldWithValue.line, crlf]) := by decide +kernel
  refine ⟨hstops, ?_⟩
  rintro ⟨m', hlines, -⟩
  rw [hstops] at hlines
  cases hlines

end IncomingHttpMessageAtServer

end NodeCpp
