import NodeCpp.Http.Queue
import NodeCpp.Http.Request
import NodeCpp.Lib.Trace
import NodeCpp.Socket.Coroutine

/-!
# HttpSocketBase, reading

`run` takes the slot of the next request, reads the request line by line, hands it to the
server, and is suspended until the slot is released. The user reads the body with
`a_readBody` and ends the response.

A step is what happens between two points where other code may run: a line is looked for, a
read event comes, the user calls something. `HttpEvent` records what a step shows. A read
event that comes while no coroutine waits for data is received all the same and goes to the
data handlers of the socket, of which an HTTP socket has none.

A handler that responds before it has returned finds `run` not suspended yet; `run` then
goes on by itself, to the same state.
-/

namespace NodeCpp

open Lib

def maxHeaderSize : Nat := 0x4000

/-- Where `run` is; `first` says that the line is the request line. -/
inductive RunState
  | line (first : Bool)
  | waits (first : Bool) (b : Buffer)
  | suspended
  | ended
  deriving DecidableEq, Repr

def RunState.isWaiting : RunState → Bool
  | .waits _ _ => true
  | _ => false

theorem RunState.isWaiting_iff {s : RunState} :
    s.isWaiting = true ↔ ∃ first b, s = .waits first b := by
  cases s <;> simp [isWaiting]

structure HttpSocket where
  sock : SocketData := {}
  lineBuffer : Buffer := { capacity := maxHeaderSize }
  rrQueue : RRQueue 0 := {}
  request : IncomingHttpMessageAtServer := {}
  /-- `ahd_continueGetting` is set. -/
  continueGetting : Bool := false
  run : RunState := .line true
  /-- The reader of the body, if it is suspended. -/
  bodyReader : Option Await := none

inductive HttpEvent
  /-- `getRequest` is called for the next request. -/
  | getRequest
  /-- A line is parsed. -/
  | line (l : Str)
  /-- The request is handed over, with its `getContentLength()`. -/
  | request (contentLength : Nat)
  | body (bytes : Str)
  deriving DecidableEq, Repr

inductive HttpAct
  /-- `getRequest` calls `readLine`. -/
  | readLine
  /-- A read event in which the kernel delivers these bytes. -/
  | arrives (bytes : Str)
  /-- The user calls `a_readBody` with a buffer of this capacity. -/
  | readBody (capacity : Nat)
  /-- The response is ended. -/
  | respond
  deriving DecidableEq, Repr

namespace HttpSocket

/-- The loop of `run`, from its start: the next request is taken. -/
def takeRequest (w : HttpSocket) : Option (HttpSocket × List HttpEvent) :=
  match w.rrQueue.getHead with
  | .error _ => none
  | .ok (rrQueue, idx) =>
      some ({ w with
        rrQueue := rrQueue
        request := { w.request with idx := idx }
        run := .line true }, [.getRequest])

def proceedToNext (w : HttpSocket) : Option (HttpSocket × List HttpEvent) :=
  if w.rrQueue.canPush && w.continueGetting then
    takeRequest { w with continueGetting := false }
  else some (w, [])

/-- `getRequest` has returned `ok`, and `run` hands the request over and waits for its slot. -/
def onNewRequest (w : HttpSocket) : HttpSocket × List HttpEvent :=
  ({ w with continueGetting := true, run := .suspended }, [.request w.request.contentLength])

/-- `getRequest` with the next line. -/
def parseLine (w : HttpSocket) (first : Bool) (l : Str) : Option (HttpSocket × List HttpEvent) :=
  if first then
    match w.request.parseMethod l with
    | .error _ => none
    | .ok (request, true) => some ({ w with request := request, run := .line false }, [.line l])
    | .ok (request, false) => some ({ w with request := request, run := .ended }, [.line l])
  else
    match w.request.parseHeaderEntry l with
    | .error _ => none
    | .ok (request, true) => some ({ w with request := request, run := .line false }, [.line l])
    | .ok (request, false) =>
        let w := { w with request := request }
        if request.readStatus = .inBody ∨ request.readStatus = .completed then
          let (w, shown) := w.onNewRequest
          some (w, .line l :: shown)
        else some ({ w with run := .ended }, [.line l])

/-- `readLine` where its `a_readUntil` has returned or is suspended. -/
def lineRead (w : HttpSocket) (first : Bool) (c : CoroStep) :
    Option (HttpSocket × List HttpEvent) :=
  let w := { w with sock := c.data }
  match c.await, c.outcome with
  | some (.readUntil b _), _ => some ({ w with run := .waits first b }, [])
  | none, some .ok =>
      let lineBuffer :=
        { bytes := c.returned, capacity := max w.lineBuffer.capacity c.returned.length }
      parseLine { w with lineBuffer := lineBuffer } first c.returned
  | none, some .insufficientBuffer => some ({ w with run := .ended }, [])
  | _, _ => none

/-- `a_readBody` where its `a_read` has returned or is suspended. -/
def bodyRead (w : HttpSocket) (c : CoroStep) : Option (HttpSocket × List HttpEvent) :=
  let w := { w with sock := c.data }
  match c.await with
  | some reader => some ({ w with bodyReader := some reader }, [])
  | none => do
      let retrieved := w.request.bodyBytesRetrieved + c.returned.length
      let w := { w with request := { w.request with bodyBytesRetrieved := retrieved }
                        bodyReader := none }
      let (w, shown) ← if retrieved = w.request.contentLength then w.proceedToNext else some (w, [])
      return (w, .body c.returned :: shown)

def readBody (w : HttpSocket) (capacity : Nat) : Option (HttpSocket × List HttpEvent) :=
  if w.request.bodyBytesRetrieved < w.request.contentLength then
    match SocketBase.aRead w.sock { capacity := capacity }
        (w.request.contentLength - w.request.bodyBytesRetrieved) (2 ^ 64 - 1) with
    | .error _ => none
    | .ok c => w.bodyRead c
  else if w.request.bodyBytesRetrieved = w.request.contentLength then w.proceedToNext
  else some (w, [])

/-- `end` of the response, when what it writes is written. -/
def respond (w : HttpSocket) : Option (HttpSocket × List HttpEvent) :=
  match w.rrQueue.release w.request.idx with
  | .error _ => none
  | .ok (rrQueue, _) => proceedToNext { w with rrQueue := rrQueue, request := w.request.clear }

/-- A read event: the coroutine that waits for data is resumed; without one, the bytes go to the
data handlers. -/
def arrives (w : HttpSocket) (bytes : Str) : Option (HttpSocket × List HttpEvent) :=
  let s := NetSocketManager.infraProcessReadEvent w.sock { first := .data bytes }
  let w := { w with sock := s.data }
  match s.res, w.run, w.bodyReader with
  | .ok (.resume failed _), .waits first b, _ =>
      match SocketBase.resume s.data failed (.readUntil b 10) with
      | .error _ => none
      | .ok c => w.lineRead first c
  | .ok (.resume failed _), .suspended, some reader =>
      match SocketBase.resume s.data failed reader with
      | .error _ => none
      | .ok c => w.bodyRead c
  | .ok .wait, _, _ => some (w, [])
  | .ok (.dispatch _), _, _ => some (w, [])
  | _, _, _ => none

def exec (w : HttpSocket) : HttpAct → Option (HttpSocket × List HttpEvent)
  | .readLine =>
      match w.run with
      | .line first =>
          match SocketBase.aReadUntil w.sock w.lineBuffer.clear 10 with
          | .error _ => none
          | .ok c => w.lineRead first c
      | _ => none
  | .arrives bytes =>
      match w.run with
      | .line _ => none
      | _ => if bytes.length ≤ w.sock.readBuffer.offered then w.arrives bytes else none
  | .readBody capacity =>
      if w.run = .suspended ∧ w.bodyReader = none then w.readBody capacity else none
  | .respond => if w.run = .suspended ∧ w.bodyReader = none then w.respond else none

/-- The socket when its constructor has taken the slot of the first request. -/
def initial : HttpSocket where
  sock := { state := .Connected }
  rrQueue := { head := 1, active := [true] }
  request := { idx := 0 }

end HttpSocket

def httpSocket : Machine HttpSocket HttpAct where
  step w a := (w.exec a).map Prod.fst

def HttpAct.events (w : HttpSocket) (a : HttpAct) : List HttpEvent := (w.exec a).elim [] Prod.snd

end NodeCpp
