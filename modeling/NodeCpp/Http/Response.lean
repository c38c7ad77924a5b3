import NodeCpp.Buffer.Circular
import NodeCpp.Http.Message

/-!
# HttpServerResponse

The response keeps track of how far it has been written in `writeStatus`. Every function
that writes is cut at its `a_write`: what it does before (`...Writes`, with the bytes it
hands to the socket) and what follows when they are written (`...Written`). What follows
when `a_write` throws is up to the socket the response belongs to.

The class has members `header`, `contentLength` and `connStatus` of its own beside those of
`HttpMessageBase`, and `parseContentLength` and `parseConnStatus` work on the latter.
-/

namespace NodeCpp

open Lib

inductive WriteStatus
  | notyet
  | hdrSerialized
  | hdrFlushed
  | inBody
  | completed
  deriving DecidableEq, Repr

structure HttpServerResponse where
  base : HttpMessageBase := {}
  headerBuff : Buffer := { capacity := 0x1000 }
  header : HeaderMap := []
  contentLength : Nat := 0
  connStatus : ConnStatus := .keepAlive
  writeStatus : WriteStatus := .notyet
  replyStatus : Str := []
  deriving DecidableEq, Repr

/-- `format( "{}", n )`. -/
def natStr (n : Nat) : Str := chars (Nat.toDigits 10 n)

/-- `format( "{}: {}\r\n", key, value )`. -/
def headerLine (key value : Str) : Str := key ++ chars [':', ' '] ++ value ++ crlf

def contentLengthName : Str :=
  chars ['C', 'o', 'n', 't', 'e', 'n', 't', '-', 'L', 'e', 'n', 'g', 't', 'h']

/-- `HeaderHolder`, with its value as it is formatted. -/
structure HeaderHolder where
  key : Str
  value : Str
  deriving DecidableEq, Repr

/-- A call that sets up the head of a response. -/
inductive HeadCall
  /-- `writeHead( statusCode )` and `writeHead( statusCode, statusMessage )`. -/
  | writeHead (statusCode : Nat) (statusMessage : Option Str)
  /-- `writeHead` with an initializer list of headers. -/
  | writeHeadList (statusCode : Nat) (statusMessage : Option Str) (headers : List HeaderHolder)
  /-- `writeHead` with an array of headers. -/
  | writeHeadArray (statusCode : Nat) (statusMessage : Str) (headers : List (Str × Str))
  | addHeader (key value : Str)
  deriving DecidableEq, Repr

namespace HttpServerResponse

def clear (r : HttpServerResponse) : HttpServerResponse :=
  { r with
    replyStatus := []
    header := []
    headerBuff := r.headerBuff.clear
    contentLength := 0
    writeStatus := .notyet }

def setStatus (r : HttpServerResponse) (status : Str) : HttpServerResponse :=
  { r with replyStatus := status }

/-- `format( "{} {}", version, statusCode )`, and the message if there is one. -/
def statusText (version : Str) (statusCode : Nat) (statusMessage : Option Str) : Str :=
  version ++ 32 :: natStr statusCode ++ statusMessage.elim [] fun s => 32 :: s

def writeHead (r : HttpServerResponse) (version : Str) (statusCode : Nat)
    (statusMessage : Option Str) : HttpServerResponse :=
  r.setStatus (httpSlash ++ statusText version statusCode statusMessage)

/-- The headers become a part of the status text, except those whose key starts with
`Content-Length`. -/
def writeHeadList (r : HttpServerResponse) (version : Str) (statusCode : Nat)
    (statusMessage : Option Str) (headers : List HeaderHolder) : HttpServerResponse :=
  let status := httpSlash ++ statusText version statusCode statusMessage ++ crlf
  let status := headers.foldl
    (fun status h =>
      if !contentLengthName.isPrefixOf h.key then status ++ headerLine h.key h.value else status)
    status
  r.setStatus (status.take (status.length - 2))

def writeHeadArray (r : HttpServerResponse) (version : Str) (statusCode : Nat)
    (statusMessage : Str) (headers : List (Str × Str)) : HttpServerResponse :=
  let r := r.setStatus (statusText version statusCode (some statusMessage))
  { r with header := headers.foldl (fun header h => header.insert h.1 h.2) r.header }

def addHeader (r : HttpServerResponse) (key value : Str) : Except Failure HttpServerResponse :=
  if r.writeStatus ≠ .notyet then .error .assertion
  else if key ≠ contentLengthName then .ok { r with header := r.header.insert key value }
  else .ok r

/-- A call that sets up the head; `version` is the one of the request. -/
def head (version : Str) (r : HttpServerResponse) : HeadCall → Except Failure HttpServerResponse
  | .writeHead statusCode statusMessage => .ok (r.writeHead version statusCode statusMessage)
  | .writeHeadList statusCode statusMessage headers =>
      .ok (r.writeHeadList version statusCode statusMessage headers)
  | .writeHeadArray statusCode statusMessage headers =>
      .ok (r.writeHeadArray version statusCode statusMessage headers)
  | .addHeader key value => r.addHeader key value

def serializeHeaders (r : HttpServerResponse) : Except Failure HttpServerResponse :=
  if r.writeStatus ≠ .notyet then .error .assertion
  else
    let buff := if r.replyStatus.length ≠ 0 then r.headerBuff.append r.replyStatus else r.headerBuff
    let buff := buff.append crlf
    let buff := r.header.foldl
      (fun (buff : Buffer) h =>
        (((buff.append h.1).append (chars [':', ' '])).append h.2).append crlf) buff
    .ok { r with
      headerBuff := buff.append crlf
      base := r.base.parseContentLength.parseConnStatus
      writeStatus := .hdrSerialized
      header := [] }

/-- `if ( writeStatus == WriteStatus::notyet ) serializeHeaders();` -/
def serialized (r : HttpServerResponse) : Except Failure HttpServerResponse :=
  if r.writeStatus = .notyet then r.serializeHeaders else .ok r

/-- `flushHeaders` up to its `a_write`. -/
def flushHeadersWrites (r : HttpServerResponse) : Except Failure (HttpServerResponse × Str) := do
  let r ← r.serialized
  if r.writeStatus ≠ .hdrSerialized then .error .assertion else .ok (r, r.headerBuff.bytes)

def flushHeadersWritten (r : HttpServerResponse) : HttpServerResponse :=
  { r with headerBuff := r.headerBuff.clear, writeStatus := .hdrFlushed }

/-- `writeBodyPart` up to its `a_write`. -/
def writeBodyPartWrites (r : HttpServerResponse) (b : Str) :
    Except Failure (HttpServerResponse × Str) := do
  let r ← r.serialized
  if r.writeStatus = .hdrSerialized then
    let r := { r with headerBuff := r.headerBuff.append b }
    .ok (r, r.headerBuff.bytes)
  else if r.writeStatus = .hdrFlushed then .ok (r, b)
  else .error .assertion

def writeBodyPartWritten (r : HttpServerResponse) : HttpServerResponse :=
  let r := if r.writeStatus = .hdrSerialized then
    { r with headerBuff := r.headerBuff.clear, writeStatus := .hdrFlushed } else r
  { r with writeStatus := .inBody }

/-- `end( b )` up to the `a_write` of its `writeBodyPart`. -/
def endWithWrites (r : HttpServerResponse) (b : Str) :
    Except Failure (HttpServerResponse × Str) := do
  let r ← if r.writeStatus ≠ .inBody then
      if r.writeStatus ≠ .notyet then .error .assertion
      else .ok { r with header := r.header.insert contentLengthName (natStr b.length) }
    else .ok r
  r.writeBodyPartWrites b

/-- `end()` up to the `a_write` of its `flushHeaders`, if it makes one. -/
def endWrites (r : HttpServerResponse) : Except Failure (HttpServerResponse × Option Str) := do
  if r.writeStatus ≠ .hdrFlushed then
    let (r, bytes) ← r.flushHeadersWrites
    .ok (r, some bytes)
  else .ok (r, none)

end HttpServerResponse

end NodeCpp
