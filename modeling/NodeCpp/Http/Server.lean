import NodeCpp.Lib.Trace

/-!
# HttpServerBase

Where requests of all connections meet the coroutine that asks for them with `a_request`. There is
one place for a waiting coroutine, `ahd_request`; `onNewRequest` puts the request there and resumes
the handle, and otherwise leaves the request to the handler or the listeners, if there are any.

The handle names the coroutine and not the await it was registered in: a resumption continues
whatever the coroutine is suspended in. When a period expires, the timer sets the status of the
coroutine to `timeout` and resumes the handle it has kept; `ahd_request.h` stays as it is, and
`await_resume` of `a_request` looks at the exception only.

Requests are numbered in the order in which they are passed to `onNewRequest`, and the calls of
`a_request` in the order in which they are made.
-/

namespace NodeCpp

open Lib

/-- Where the coroutine is: running, suspended in another await, or suspended in `a_request`. -/
inductive ConsumerState
  | running
  | elsewhere
  | requesting (call : Nat) (timed : Bool)
  deriving DecidableEq, Repr

structure HttpServer where
  /-- `ahd_request.h` is set. -/
  h : Bool := false
  /-- `ahd_request.request`, with the response that goes with it. -/
  request : Option Nat := none
  /-- `isIncomingRequesEventHandler()`. -/
  handler : Bool := false
  /-- `eHttpRequest.listenerCount()`. -/
  listenerCount : Nat := 0
  consumer : ConsumerState := .running
  /-- `edata.isException` of the coroutine. -/
  isException : Bool := false
  calls : Nat := 0
  passed : Nat := 0
  deriving DecidableEq, Repr

inductive DeliveryEvent
  /-- A request is passed to `onNewRequest`. -/
  | passed (request : Nat)
  | returned (call request : Nat)
  | threw (call : Nat)
  /-- The period of the call expires. -/
  | expired (call : Nat)
  | handled (request : Nat)
  | emitted (request : Nat)
  deriving DecidableEq, Repr

inductive ServerAct
  -- the coroutine
  | aRequest (timed : Bool)
  | awaitsOther
  /-- Another await is over; `failed` if by `setCoroException`. -/
  | otherDone (failed : Bool)
  -- the connections, the timer and the closing of the server
  | onNewRequest
  | expires
  | forceReleasingAllCoroHandles
  deriving DecidableEq, Repr

namespace HttpServer

/-- `hr()`: the coroutine goes on, behind `await_resume` if it is in `a_request`. A coroutine that
runs cannot be resumed. -/
def resume (w : HttpServer) : Option (HttpServer × List DeliveryEvent) :=
  match w.consumer with
  | .running => none
  | .elsewhere => some ({ w with consumer := .running }, [])
  | .requesting call _ =>
      if w.isException then some ({ w with consumer := .running }, [.threw call])
      else
        match w.request with
        | none => none
        | some request => some ({ w with consumer := .running }, [.returned call request])

def onNewRequest (w : HttpServer) : Option (HttpServer × List DeliveryEvent) :=
  let request := w.passed
  let w := { w with passed := w.passed + 1 }
  if w.h then do
    let (w, shown) ← resume { w with request := some request, h := false }
    return (w, .passed request :: shown)
  else if w.handler then some (w, [.passed request, .handled request])
  else if w.listenerCount ≠ 0 then some (w, [.passed request, .emitted request])
  else some (w, [.passed request])

def forceReleasingAllCoroHandles (w : HttpServer) : Option (HttpServer × List DeliveryEvent) :=
  if w.h then resume { w with isException := true, h := false } else some (w, [])

def exec (w : HttpServer) : ServerAct → Option (HttpServer × List DeliveryEvent)
  | .aRequest timed =>
      if w.consumer = .running then
        some ({ w with consumer := .requesting w.calls timed, h := true, calls := w.calls + 1 }, [])
      else none
  | .awaitsOther =>
      if w.consumer = .running then some ({ w with consumer := .elsewhere }, []) else none
  | .otherDone failed =>
      if w.consumer = .elsewhere then
        some ({ w with consumer := .running, isException := w.isException || failed }, [])
      else none
  | .onNewRequest => w.onNewRequest
  | .expires =>
      match w.consumer with
      | .requesting call true => do
          let (w, shown) ← w.resume
          return (w, .expired call :: shown)
      | _ => none
  | .forceReleasingAllCoroHandles => w.forceReleasingAllCoroHandles

end HttpServer

/-- A server, the coroutine that asks for its requests, and everything that happens to them. -/
def httpServer : Machine HttpServer ServerAct where
  step w a := (w.exec a).map Prod.fst

def ServerAct.events (w : HttpServer) (a : ServerAct) : List DeliveryEvent :=
  (w.exec a).elim [] Prod.snd

end NodeCpp
