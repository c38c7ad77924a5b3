import NodeCpp.Lib.Machine

/-!
# awaitable and its promise

A coroutine that returns an `awaitable<T>`, and a coroutine that awaits it. The
outcome passes through three places: the promise in the frame of the first
(`hr`, the handle of the one that waits), the `awaitable` object the second holds
(`is_value`, `value`, `e_pending`), and the frame itself, which is destroyed
behind `final_suspend`.

* `Body` -- a body by what it does next, as the awaiting side can see it.
* `runBody` -- the body up to its next suspension or to its end.
* `coAwait` -- `await_ready`, `await_suspend`, `await_resume`.
* `awaiting` -- the two coroutines as a machine: whoever resumes the body, and
  when the other one starts to wait, is up to the run.
-/

namespace NodeCpp

/-- A coroutine body that comes to its end: some suspensions, then `co_return v` or a throw. -/
inductive Body (α ε : Type)
  | suspend (rest : Body α ε)
  | coReturn (v : α)
  | throw (e : ε)
  deriving DecidableEq, Repr

namespace Body

variable {α ε : Type}

def suspensions : Body α ε → Nat
  | suspend rest => rest.suspensions + 1
  | coReturn _ | throw _ => 0

def outcome : Body α ε → Except ε α
  | suspend rest => rest.outcome
  | coReturn v => .ok v
  | throw e => .error e

end Body

/-- `promise_type_struct`; `hr` says whether the handle of the coroutine that waits is set. -/
structure Promise where
  hr : Bool := false
  deriving DecidableEq, Repr

/-- `awaitable<T>`. -/
structure Awaitable (α ε : Type) [Inhabited α] where
  value : α := default
  ePending : Option ε := none
  isValue : Bool := false
  coroDestroyed : Bool := false

/-- The coroutine that awaits: before its `co_await`, suspended in it, or behind it. -/
inductive Awaiter
  | before
  | suspended
  | behind
  deriving DecidableEq, Repr

/-- Both coroutines. `promise` is `none` once the frame has been destroyed; `delivered` is what the
`co_await` has given to the coroutine that awaits, each time it went on behind it. -/
structure Awaited (α ε : Type) [Inhabited α] where
  body : Body α ε
  promise : Option Promise := some {}
  ret : Awaitable α ε := {}
  awaiter : Awaiter := .before
  delivered : List (Except ε α) := []

namespace Awaited

variable {α ε : Type} [Inhabited α]

/-- `await_resume`: what it yields, and the awaitable behind it. -/
def awaitResume (a : Awaitable α ε) : Except ε α × Awaitable α ε :=
  match a.ePending with
  | some e => (.error e, { a with ePending := none })
  | none => (.ok a.value, a)

def goOn (s : Awaited α ε) : Awaited α ε :=
  let (result, ret) := awaitResume s.ret
  { s with ret := ret, awaiter := .behind, delivered := s.delivered ++ [result] }

/-- `final_suspend` and the end of the frame. -/
def finalSuspend (s : Awaited α ε) (p : Promise) : Awaited α ε :=
  if p.hr then { s.goOn with promise := none } else { s with promise := none }

def returnValue (s : Awaited α ε) (v : α) : Awaited α ε :=
  { s with ret := { s.ret with value := v, isValue := true } }

def unhandledException (s : Awaited α ε) (e : ε) : Awaited α ε :=
  { s with ret := { s.ret with ePending := some e } }

def runBody (s : Awaited α ε) (p : Promise) : Awaited α ε :=
  match s.body with
  | .suspend rest => { s with body := rest }
  | .coReturn v => (s.returnValue v).finalSuspend p
  | .throw e => (s.unhandledException e).finalSuspend p

/-- The call of the coroutine: `initial_suspend` does not suspend. -/
def call (body : Body α ε) : Awaited α ε := runBody { body := body } {}

/-- `co_await`. `await_suspend` writes the handle into the promise; in a destroyed frame nobody
finds it. -/
def coAwait (s : Awaited α ε) : Option (Awaited α ε) :=
  if s.ret.isValue then some s.goOn
  else if s.ret.coroDestroyed then none
  else some { s with
    promise := s.promise.map fun p => { p with hr := true }
    awaiter := .suspended }

inductive Act
  | resume
  | coAwait
  deriving DecidableEq, Repr

/-- The suspended body is resumed, or the other coroutine comes to its `co_await`. -/
def awaiting : Lib.Machine (Awaited α ε) Act where
  step s
    | .resume => s.promise.map s.runBody
    | .coAwait => if s.awaiter = .before then s.coAwait else none

end Awaited

end NodeCpp
