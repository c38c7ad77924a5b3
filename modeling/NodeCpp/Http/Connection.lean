import NodeCpp.Http.Queue
import NodeCpp.Http.Response
import NodeCpp.Lib.Trace

/-!
# HttpSocketBase, responding

`run`, the responses the user writes, and the slot they share. With `RRQueue<0>` there is one
request object and one response object for all requests of a connection; `getHead` gives them
the index of the request they are for.

How a request is read is left open: `getRequest` succeeds or fails at some point. A call of a
response that writes is in flight until its `a_write` returns or throws, at once or later.
When it throws, `flushHeaders` and `writeBodyPart` release the slot and call `proceedToNext`,
which may resume `run`; an `end` they were called from goes on behind that, when `run` is
suspended again (`frames`).

Requests are named by their index. `SlotEvent` records which call clears and releases what.
-/

namespace NodeCpp

open Lib

/-- Where `run` is: in `getRequest`, in `onNewRequest`, suspended in `a_continueGetting`, or at
its end. -/
inductive GetterState
  | getting
  | calling
  | suspended
  | ended
  deriving DecidableEq, Repr

/-- The function whose `a_write` is in flight, and whether `end` has called it. -/
inductive WriteKind
  | flushHeaders
  | writeBodyPart
  | endFlush
  | endPart
  deriving DecidableEq, Repr

structure PendingWrite where
  request : Nat
  kind : WriteKind
  deriving DecidableEq, Repr

structure HttpConnection where
  rrQueue : RRQueue 0 := {}
  request : IncomingHttpMessageAtServer := {}
  response : HttpServerResponse := {}
  /-- `ahd_continueGetting` is set. -/
  continueGetting : Bool := false
  getter : GetterState := .getting
  /-- The requests that have been handed over and whose response has not been ended. -/
  opened : List Nat := []
  writes : List PendingWrite := []
  /-- The `end` calls that go on when `run` is suspended again. -/
  frames : List Nat := []
  deriving DecidableEq, Repr

inductive SlotEvent
  /-- `getHead` takes the slot. -/
  | takes (idx : Nat)
  /-- `end` is called. -/
  | ends (request : Nat)
  /-- The response to `request` clears the request or response object, which is for `idx`. -/
  | clears (request idx : Nat)
  /-- The response to `request` calls `sock->release( idx )`. -/
  | releases (request idx : Nat)
  deriving DecidableEq, Repr

inductive ConnAct
  /-- `getRequest` has read `message` and returns `ok`, and `onNewRequest` is called. -/
  | requestRead (message : IncomingHttpMessageAtServer)
  | requestFailed
  /-- `onNewRequest` returns. -/
  | handlerReturns
  /-- `a_readBody` has read the whole body, and calls `proceedToNext`. -/
  | bodyRead
  | head (request : Nat) (call : HeadCall)
  | flushHeaders (request : Nat)
  | writeBodyPart (request : Nat) (b : Str)
  | «end» (request : Nat)
  | endWith (request : Nat) (b : Str)
  /-- The `a_write` returns, or throws. -/
  | written (write : PendingWrite) (ok : Bool)
  /-- `run` is suspended, and the innermost `end` goes on. -/
  | endGoesOn
  deriving DecidableEq, Repr

namespace HttpConnection

/-- The loop of `run`, from its start. -/
def takeRequest (w : HttpConnection) : Option (HttpConnection × List SlotEvent) :=
  match w.rrQueue.getHead with
  | .error _ => none
  | .ok (rrQueue, idx) =>
      some ({ w with
        rrQueue := rrQueue
        request := { w.request with idx := idx }
        response := { w.response with base := { w.response.base with idx := idx } }
        getter := .getting }, [.takes idx])

/-- `proceedToNext` resumes `run`. -/
def resumes (w : HttpConnection) : Bool := w.rrQueue.canPush && w.continueGetting

def proceedToNext (w : HttpConnection) : Option (HttpConnection × List SlotEvent) :=
  if w.resumes then takeRequest { w with continueGetting := false } else some (w, [])

/-- `clear()` and `sock->release( idx )`, as a part of the response to `request`. -/
def releaseSlot (w : HttpConnection) (request : Nat) : Option (HttpConnection × List SlotEvent) :=
  let idx := w.response.base.idx
  match w.rrQueue.release idx with
  | .error _ => none
  | .ok (rrQueue, _) =>
      some ({ w with rrQueue := rrQueue, response := w.response.clear },
        [.clears request idx, .releases request idx])

/-- What both `end` do behind their write. -/
def finish (w : HttpConnection) (request : Nat) : Option (HttpConnection × List SlotEvent) :=
  let cleared := .clears request w.request.idx
  let w := { w with request := w.request.clear }
  if w.response.connStatus ≠ .keepAlive then
    some ({ w with response := w.response.clear }, [cleared, .clears request w.response.base.idx])
  else do
    let (w, released) ← w.releaseSlot request
    let (w, taken) ← w.proceedToNext
    return (w, cleared :: released ++ taken)

/-- The handlers of `flushHeaders` and `writeBodyPart`, and what `end` does behind them if it has
called them. -/
def writeFailed (w : HttpConnection) (write : PendingWrite) :
    Option (HttpConnection × List SlotEvent) := do
  let (w, released) ← w.releaseSlot write.request
  let resumed := w.resumes
  let (w, taken) ← w.proceedToNext
  match write.kind with
  | .flushHeaders | .writeBodyPart => return (w, released ++ taken)
  | .endFlush | .endPart =>
      if resumed then
        return ({ w with frames := write.request :: w.frames }, released ++ taken)
      else
        let (w, rest) ← w.finish write.request
        return (w, released ++ taken ++ rest)

def written (w : HttpConnection) (write : PendingWrite) :
    Option (HttpConnection × List SlotEvent) :=
  match write.kind with
  | .flushHeaders => some ({ w with response := w.response.flushHeadersWritten }, [])
  | .writeBodyPart => some ({ w with response := w.response.writeBodyPartWritten }, [])
  | .endFlush => finish { w with response := w.response.flushHeadersWritten } write.request
  | .endPart => finish { w with response := w.response.writeBodyPartWritten } write.request

/-- The user may call a function of the response: it is not ended, and no call is in flight. -/
def mayCall (w : HttpConnection) (request : Nat) : Bool :=
  w.opened.contains request && w.writes.all fun write => write.request != request

/-- The call hands bytes to `a_write`. -/
def startWrite (w : HttpConnection) (request : Nat) (kind : WriteKind)
    (response : HttpServerResponse) : HttpConnection :=
  { w with response := response, writes := ⟨request, kind⟩ :: w.writes }

def exec (w : HttpConnection) : ConnAct → Option (HttpConnection × List SlotEvent)
  | .requestRead message =>
      if w.getter = .getting then
        some ({ w with
          getter := .calling
          request := { message with idx := w.request.idx }
          opened := w.request.idx :: w.opened }, [])
      else none
  | .requestFailed => if w.getter = .getting then some ({ w with getter := .ended }, []) else none
  | .handlerReturns =>
      if w.getter = .calling then
        if w.rrQueue.canPush then w.takeRequest
        else some ({ w with getter := .suspended, continueGetting := true }, [])
      else none
  | .bodyRead => w.proceedToNext
  | .head request call =>
      if w.mayCall request then
        match w.response.head w.request.version call with
        | .error _ => none
        | .ok response => some ({ w with response := response }, [])
      else none
  | .flushHeaders request =>
      if w.mayCall request then
        match w.response.flushHeadersWrites with
        | .error _ => none
        | .ok (response, _) => some (w.startWrite request .flushHeaders response, [])
      else none
  | .writeBodyPart request b =>
      if w.mayCall request then
        match w.response.writeBodyPartWrites b with
        | .error _ => none
        | .ok (response, _) => some (w.startWrite request .writeBodyPart response, [])
      else none
  | .end request =>
      if w.mayCall request then
        let w := { w with opened := w.opened.erase request }
        match w.response.endWrites with
        | .error _ => none
        | .ok (response, some _) => some (w.startWrite request .endFlush response, [.ends request])
        | .ok (response, none) => do
            let (w, shown) ← finish { w with response := response } request
            return (w, .ends request :: shown)
      else none
  | .endWith request b =>
      if w.mayCall request then
        let w := { w with opened := w.opened.erase request }
        match w.response.endWithWrites b with
        | .error _ => none
        | .ok (response, _) => some (w.startWrite request .endPart response, [.ends request])
      else none
  | .written write ok =>
      if write ∈ w.writes then
        let w := { w with writes := w.writes.erase write }
        if ok then w.written write else w.writeFailed write
      else none
  | .endGoesOn =>
      match w.frames with
      | [] => none
      | request :: frames =>
          if w.getter = .calling then none else finish { w with frames := frames } request

/-- The connection when its constructor has taken the slot of the first request. -/
def initial : HttpConnection where
  rrQueue := { head := 1, active := [true] }
  request := { idx := 0 }
  response := { base := { idx := 0 } }

end HttpConnection

/-- A connection under what its peer sends, what the user calls and how writes go. -/
def httpConnection : Machine HttpConnection ConnAct where
  step w a := (w.exec a).map Prod.fst

def ConnAct.events (w : HttpConnection) (a : ConnAct) : List SlotEvent :=
  (w.exec a).elim [] Prod.snd

end NodeCpp
