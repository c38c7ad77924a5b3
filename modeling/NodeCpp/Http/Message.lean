import NodeCpp.Lib.Text
import NodeCpp.Net.Os

/-!
# HTTP messages

`HttpMessageBase`, and the parser of `IncomingHttpMessageAtServer`: one call of
`parseMethod` for the request line and one of `parseHeaderEntry` for every line behind
it, up to the empty one. Strings are lists of bytes, and `npos` is `none`.

A position behind the end of the line, where the code would read or copy from, ends the
call with an error.
-/

namespace NodeCpp

open Lib Lib.Text

/-- `nodecpp::string`. -/
abbrev Str := List UInt8

/-- A literal. -/
def chars (cs : List Char) : Str := cs.map Char.toUInt8

/-- The characters of `" \t"`. -/
def isBlank (c : UInt8) : Bool := c ∈ chars [' ', '\t']

/-- The characters of `" \t\r\n"`. -/
def isSpace (c : UInt8) : Bool := c ∈ chars [' ', '\t', '\r', '\n']

def crlf : Str := chars ['\r', '\n']

def httpSlash : Str := chars ['H', 'T', 'T', 'P', '/']

theorem isSpace_of_isBlank {c : UInt8} (h : isBlank c = true) : isSpace c = true := by
  simp only [isBlank, isSpace, chars, List.map_cons, List.map_nil, List.mem_cons,
    decide_eq_true_eq] at h ⊢
  tauto

def toLower (c : UInt8) : UInt8 := if 65 ≤ c ∧ c ≤ 90 then c + 32 else c

def makeLower (str : Str) : Str := str.map toLower

def isDigit (c : UInt8) : Bool := 48 ≤ c && c ≤ 57

def decimal (digits : Str) : Nat := digits.foldl (fun n c => 10 * n + (c.toNat - 48)) 0

/-- `::atol`, which stops at the first character that is not a digit and saturates. -/
def atol (s : Str) : Int :=
  let s := s.dropWhile fun c => isSpace c || c == 11 || c == 12
  let negative := s.head? == some 45
  let s := if negative || s.head? == some 43 then s.tail else s
  let n := decimal (s.takeWhile isDigit)
  if negative then max (-2 ^ 63) (-n) else min (2 ^ 63 - 1) n

/-- `nodecpp::map<nodecpp::string, nodecpp::string>`, in the order of its keys. -/
abbrev HeaderMap := List (Str × Str)

/-- `insert`, which leaves an entry of the same key as it is. -/
def HeaderMap.insert (key value : Str) : HeaderMap → HeaderMap
  | [] => [(key, value)]
  | (k, v) :: rest =>
      if key < k then (key, value) :: (k, v) :: rest
      else if key = k then (k, v) :: rest
      else (k, v) :: insert key value rest

def HeaderMap.find (h : HeaderMap) (key : Str) : Option Str := h.lookup key

def methodNames : List Str :=
  [chars ['G', 'E', 'T'], chars ['H', 'E', 'A', 'D'], chars ['P', 'O', 'S', 'T'],
    chars ['P', 'U', 'T'], chars ['D', 'E', 'L', 'E', 'T', 'E'], chars ['T', 'R', 'A', 'C', 'E'],
    chars ['O', 'P', 'T', 'I', 'O', 'N', 'S'], chars ['C', 'O', 'N', 'N', 'E', 'C', 'T'],
    chars ['P', 'A', 'T', 'C', 'H']]

inductive ConnStatus
  | close
  | keepAlive
  deriving DecidableEq, Repr

structure HttpMessageBase where
  idx : Nat := 2 ^ 64 - 1
  connStatus : ConnStatus := .keepAlive
  contentLength : Nat := 0
  header : HeaderMap := []
  deriving DecidableEq, Repr

def contentLengthKey : Str :=
  chars ['c', 'o', 'n', 't', 'e', 'n', 't', '-', 'l', 'e', 'n', 'g', 't', 'h']

namespace HttpMessageBase

/-- The last assignment stands behind the `if`, not in an `else`. -/
def parseContentLength (m : HttpMessageBase) : HttpMessageBase :=
  let m := match m.header.find contentLengthKey with
    | some value => { m with contentLength := (atol value % 2 ^ 64).toNat }
    | none => m
  { m with contentLength := 0 }

def parseConnStatus (m : HttpMessageBase) : HttpMessageBase :=
  match m.header.find (chars ['c', 'o', 'n', 'n', 'e', 'c', 't', 'i', 'o', 'n']) with
  | some value =>
      if makeLower value = chars ['k', 'e', 'e', 'p', ' ', 'a', 'l', 'i', 'v', 'e'] then
        { m with connStatus := .keepAlive }
      else if makeLower value = chars ['c', 'l', 'o', 's', 'e'] then
        { m with connStatus := .close }
      else m
  | none => { m with connStatus := .close }

@[simp] theorem contentLength_parseContentLength (m : HttpMessageBase) :
    m.parseContentLength.contentLength = 0 := rfl

@[simp] theorem header_parseContentLength (m : HttpMessageBase) :
    m.parseContentLength.header = m.header := by
  unfold parseContentLength
  split <;> rfl

@[simp] theorem idx_parseContentLength (m : HttpMessageBase) :
    m.parseContentLength.idx = m.idx := by
  unfold parseContentLength
  split <;> rfl

@[simp] theorem idx_parseConnStatus (m : HttpMessageBase) : m.parseConnStatus.idx = m.idx := by
  unfold parseConnStatus
  repeat' split
  all_goals rfl

end HttpMessageBase

inductive ReadStatus
  | noinit
  | inHdr
  | inBody
  | completed
  deriving DecidableEq, Repr

structure IncomingHttpMessageAtServer extends HttpMessageBase where
  method : Str := []
  url : Str := []
  version : Str := []
  readStatus : ReadStatus := .noinit
  bodyBytesRetrieved : Nat := 0
  deriving DecidableEq, Repr

namespace IncomingHttpMessageAtServer

def clear (m : IncomingHttpMessageAtServer) : IncomingHttpMessageAtServer :=
  { m with
    method := []
    url := []
    version := []
    header := []
    contentLength := 0
    readStatus := .noinit
    bodyBytesRetrieved := 0 }

/-- The test for a method name: the blank is looked for at the length of the name, wherever the
name starts. -/
def isMethod (line : Str) (start : Nat) (name : Str) : Bool :=
  decide (name.length + start < line.length) && name.isPrefixOf (line.drop start) &&
    getElem? line name.length == some 32

/-- `parseMethod` behind the method name; `start` is where the URI starts. -/
def parseUri (m : IncomingHttpMessageAtServer) (line : Str) (start : Nat) :
    Except Failure (IncomingHttpMessageAtServer × Bool) :=
  match findFirst isSpace line (start + 1) with
  | none => .error .error
  | some endOfURI =>
      let m := { m with url := substr line start (endOfURI - start) }
      if m.url.length = 0 then .ok (m, false)
      else
        match findFirst (fun c => !isBlank c) line endOfURI,
            findLast (fun c => !isSpace c) line with
        | some start, some last =>
            if !httpSlash.isPrefixOf (line.drop start) then .ok (m, false)
            else
              let start := start + 5
              .ok ({ m with version := substr line start (last + 1 - start)
                            readStatus := .inHdr }, true)
        | _, _ => .error .error

/-- The message afterwards, and whether the line is a request line. -/
def parseMethod (m : IncomingHttpMessageAtServer) (line : Str) :
    Except Failure (IncomingHttpMessageAtServer × Bool) :=
  if m.readStatus ≠ .noinit then .error .assertion
  else
    match findFirst (fun c => !isBlank c) line 0 with
    | none => .ok (m, false)
    | some start =>
        if getElem? line start = some 13 ∨ getElem? line start = some 10 then .ok (m, false)
        else
          match methodNames.find? (isMethod line start) with
          | none => .ok (m, false)
          | some name =>
              let m := { m with method := name }
              match findFirst (fun c => !isBlank c) line (start + (name.length + 1)) with
              | none => .error .error
              | some start => m.parseUri line start

/-- The message afterwards, and whether another line is to follow. -/
def parseHeaderEntry (m : IncomingHttpMessageAtServer) (line : Str) :
    Except Failure (IncomingHttpMessageAtServer × Bool) :=
  if m.readStatus ≠ .inHdr then .error .assertion
  else
    match findLast (fun c => !isSpace c) line with
    | none =>
        if line ≠ crlf then .ok (m, true)
        else
          let m := { m with toHttpMessageBase := m.parseContentLength }
          .ok ({ m with readStatus := if m.contentLength ≠ 0 then .inBody else .completed }, false)
    | some last =>
        match findFirst (fun c => !isBlank c) line 0 with
        | none => .error .error
        | some start =>
            match findFirst (· == 58) line start with
            | none => .ok (m, false)
            | some idx =>
                if last ≤ idx then .ok (m, false)
                else
                  match findFirst (fun c => !isBlank c) line (idx + 1) with
                  | none => .error .error
                  | some valStart =>
                      let key := substr line start (idx - start)
                      let value := substr line valStart (last + 1 - valStart)
                      .ok ({ m with header := m.header.insert (makeLower key) value }, true)

end IncomingHttpMessageAtServer

end NodeCpp
