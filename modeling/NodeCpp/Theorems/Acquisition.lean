import NodeCpp.Loop.Runs

/-!
# Sockets that could not be acquired

`createSocket` and `createServer` make the object first and register it then. If the
operating system refuses a socket, `Error` is thrown before the object has an index, and
the object is destructed on the way out. Its destructor addresses the table all the same:
a socket with the index 0 it is initialised with, a server with whatever its index
happens to be.

* `Registry.createSocket`, `Registry.createServer` -- the creation, with the answer of
  the operating system.
* `createSocket_refused`, `createServer_refused` -- without one, an assertion fails, or
  the entry of some other object is given up.
* `refused_creation_harms` -- neither leaves the table as it was.
-/

namespace NodeCpp

open Lib

/-- `OSLayer::appAcquireSocket`; `none` is `INVALID_SOCKET`. -/
def OSLayer.appAcquireSocket : Option Nat → Except Failure Nat
  | some osSocket => .ok osSocket
  | none => .error .error

namespace Registry

/-- `make_owning` of a socket: its data has its initial values, and nothing is registered. -/
def makeSocket (r : Registry) : Registry := { r with sockets := r.sockets ++ [{ data := {} }] }

/-- `make_owning` of a server, whose index and counter are not initialised. -/
def makeServer (r : Registry) (index : Nat) (cnt : UInt64) : Registry :=
  { r with servers := r.servers ++ [{ index := index, cnt := cnt }] }

def registerAndAssignSocket (r : Registry) (o : Nat) (obj : SocketObj) (osSocket : Nat) :
    Except Failure Registry :=
  if obj.data.state ≠ .Uninitialized then .error .assertion
  else do
    let t ← r.ioSockets.addEntry (.client o) osSocket
    .ok { r with ioSockets := t
                 accum := r.accumAdded
                 sockets := r.sockets.set o { obj with
                   data := { obj.data with index := r.ioSockets.freeIndex, osSocket := osSocket } } }

def addServerEntry (r : Registry) (s : Nat) (srv : ServerObj) (osSocket : Nat) :
    Except Failure Registry := do
  let t ← r.ioSockets.addEntry (.server s) osSocket
  .ok { r with ioSockets := t
               accum := r.accumAdded
               servers := r.servers.set s { srv with index := r.ioSockets.freeIndex } }

/-- The destructor of an object on the way out of a function that has thrown. -/
def unwind (r : Registry) (ops : List Op) : Except Failure Registry :=
  match registry.run r ops with
  | some r' => .ok r'
  | none => .error .assertion

/-- `createSocket`, with what the operating system makes of `internal_make_tcp_socket`. The name of
the new socket is returned, or `none` if `Error` was thrown. -/
def createSocket (r : Registry) (os : Option Nat) : Except Failure (Registry × Option Nat) :=
  let o := r.sockets.length
  match OSLayer.appAcquireSocket os with
  | .ok osSocket => do
      let r' ← r.makeSocket.registerAndAssignSocket o { data := {} } osSocket
      .ok (r', some o)
  | .error _ => do
      let r' ← r.makeSocket.unwind (Program.destructSocket o { data := {} })
      .ok (r', none)

/-- `createServer`, with `appAddServer`. The new server has no accepted sockets, so its destructor
comes down to `reportBeingDestructed()`. -/
def createServer (r : Registry) (index : Nat) (cnt : UInt64) (os : Option Nat) :
    Except Failure (Registry × Option Nat) :=
  let s := r.servers.length
  match OSLayer.appAcquireSocket os with
  | .ok osSocket => do
      let r' ← (r.makeServer index cnt).addServerEntry s { index := index, cnt := cnt } osSocket
      .ok (r', some s)
  | .error _ => do
      let r' ← (r.makeServer index cnt).unwind [.destruct (.server s)]
      .ok (r', none)

variable {r r' : Registry} {index : Nat} {cnt : UInt64}

/-- The index 0 is reserved, so `unref()` fails on every table. -/
theorem createSocket_refused (r : Registry) : r.createSocket none = .error .assertion := by
  have hslot : r.ioSockets.slotAt 0 = .error .assertion := by
    have hres : 0 < r.ioSockets.reservedCapacity := by
      unfold NetSockets.reservedCapacity
      split <;> decide
    simp only [NetSockets.slotAt, hres, if_true]
  have hunref : registry.step r.makeSocket (.setRefed 0 false) = none := by
    simp only [registry, Op.run, onTable, makeSocket, NetSockets.setRefed, hslot]
    rfl
  have hops : Program.destructSocket r.sockets.length { data := {} } =
      [.setRefed 0 false, .destruct (.client r.sockets.length)] := rfl
  simp only [createSocket, OSLayer.appAcquireSocket, unwind, hops, Machine.run, hunref]
  rfl

/-- The destructor of the server gives up the slot of its index, if there is one. -/
theorem createServer_refused {new : Option Nat}
    (h : r.createServer index cnt none = .ok (r', new)) :
    new = none ∧ r.ioSockets.setUnused index = .ok r'.ioSockets := by
  obtain ⟨r₁, hunwind, h⟩ := bind_eq_ok h
  cases h
  refine ⟨rfl, ?_⟩
  unfold unwind at hunwind
  split at hunwind
  · rename_i hrun
    cases hunwind
    have hdestruct : (r.makeServer index cnt).destruct (.server r.servers.length) = .ok r' :=
      Loop.run_singleton hrun
    have hlive : (r.makeServer index cnt).indexOf (.server r.servers.length) = some index := by
      simp [indexOf, liveServer, makeServer]
    obtain ⟨i, hindex, htable⟩ := destruct_indexOf hdestruct
    cases hlive.symm.trans hindex
    exact htable
  · cases hunwind

/-- What is expected of a creation that fails: `Error` is thrown and no assertion fails, and the
entries, the `pollfd`s and the counters of the table are as they were. -/
def Unharmed (r : Registry) (x : Except Failure (Registry × Option Nat)) : Prop :=
  ∃ r', x = .ok (r', none) ∧ r'.ioSockets.slots = r.ioSockets.slots ∧
    r'.ioSockets.usedCount = r.ioSockets.usedCount ∧
    r'.ioSockets.associatedCount = r.ioSockets.associatedCount

end Registry

/-- If the operating system refuses a socket, the creation of a socket fails an assertion, and the
creation of a server fails one or leaves `usedCount` one less: the table is never as it was. -/
theorem refused_creation_harms (r : Registry) (index : Nat) (cnt : UInt64) :
    ¬r.Unharmed (r.createSocket none) ∧ ¬r.Unharmed (r.createServer index cnt none) := by
  constructor
  · rintro ⟨r', h, -⟩
    rw [Registry.createSocket_refused] at h
    cases h
  · rintro ⟨r', h, -, hused, -⟩
    obtain ⟨-, hunused⟩ := Registry.createServer_refused h
    obtain ⟨s, -, -, heq⟩ := NetSockets.setUnused_eq_ok hunused
    have hless : r'.ioSockets.usedCount = r.ioSockets.usedCount - 1 := by rw [heq]
    rw [hless] at hused
    have hnat := congrArg UInt64.toNat hused
    have hlt := r.ioSockets.usedCount.toNat_lt
    rw [UInt64.toNat_sub, UInt64.toNat_one] at hnat
    omega

/-- On an empty table the creation of a socket fails. Beside a socket that is connecting, the creation
of a server whose index happens to be 1 gives up the entry of the socket and its descriptor, and
`associatedCount` drops to 0. -/
theorem refused_creation_fails :
    Registry.init.createSocket none = .error .assertion ∧
      ∃ w, Loop.run Loop.init [.call (.createSocket 5), .call (.connect 0)] = some w ∧
        w.2.used 1 = true ∧ w.2.ioSockets.associatedCount = 1 ∧
        ∃ r', w.2.createServer 1 0 none = .ok (r', none) ∧ r'.used 1 = false ∧
          (r'.ioSockets.slots[1]?).map (·.pfd.fd) = some invalidSocket ∧
          r'.ioSockets.associatedCount = 0 :=
  ⟨Registry.createSocket_refused _, _, rfl, rfl, rfl, _, rfl, rfl, rfl, rfl⟩

end NodeCpp
