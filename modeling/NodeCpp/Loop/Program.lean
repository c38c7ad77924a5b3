import NodeCpp.Loop.Registry

/-!
# The functions of the source as programs of the registry

What user code can call, and the parts of the infrastructure that run from end to
end without giving control to user code, each as the list of registry operations
it performs. The list is computed from the registry at the call.

Calls that fail in the operating system throw before they touch the registry and
are not modelled here, with the exception of `createSocket`; a failed assertion ends
the run. What a refused `createServer` does depends on an index that is not
initialised: it is left to `Theorems.Acquisition`.
-/

namespace NodeCpp

namespace Program

/-- `SocketBase::~SocketBase()`. -/
def destructSocket (o : Nat) (obj : SocketObj) : List Op :=
  (if obj.data.state = .Connecting ∨ obj.data.state = .Connected then [.sock o .destroy] else []) ++
    [.setRefed obj.data.index false, .destruct (.client o)]

/-- `createSocket` if the operating system refuses a socket: the destructor of the new object starts
with `unref()` on the index 0 (see `Theorems.Acquisition`). -/
def createSocketRefused : List Op := [.setRefed 0 false]

def appConnectSocket (o idx : Nat) : List Op :=
  [.setRefed idx true, .setAssociated idx, .changePoll idx .setPollin,
    .changePoll idx .setPollout, .sock o .connecting]

/-- `appPause` and `appResume`, which go through the entry. -/
def appPause (idx : Nat) (paused : Bool) : List Op :=
  [.at' idx, .entrySock idx (.pause paused)]

def appListen (s idx : Nat) : List Op :=
  [.setAssociated idx, .changePoll idx .setPollin, .setRefed idx true,
    .queue .listen (by decide) (.server s)]

def appReportAllAceptedConnectionsEnded (s idx : Nat) : List Op :=
  [.at' idx, .queue .serverClose (by decide) (.server s)]

/-- `ServerBase::closingProcedure`, with `appClose`. -/
def closingProcedure (r : Registry) (s idx : Nat) : List Op :=
  [Op.at' idx, .setSocketClosed (r.entry idx).index, .serverState s .BeingClosed] ++
    if r.getSockCount s = 0 then appReportAllAceptedConnectionsEnded s idx else []

/-- `ServerBase::~ServerBase()`: the accepted sockets go first. -/
def destructServer (r : Registry) (s : Nat) : List Op :=
  ((r.sockets.zipIdx.filter fun (obj, _) => obj.alive && decide (obj.server = some s)).flatMap
    fun (obj, o) => destructSocket o obj) ++ [Op.destruct (.server s)]

def infraAddAccepted (o idx : Nat) : List Op :=
  [.queue .accepted (by decide) (.client o), .sock o .accepted, .changePoll idx .unsetPollout,
    .at' idx, .setRefed idx true, .setAssociated idx, .changePoll idx .setPollin]

/-- `consumeAcceptedSocket` up to the connection handlers: `makeSocket` and `infraAddAccepted`. -/
def consumeAcceptedSocket (r : Registry) (i s osSocket : Nat) : List Op :=
  .construct osSocket (some s) ::
    infraAddAccepted r.sockets.length r.ioSockets.freeIndex ++ [Op.server i]

/-- `onFinalCleanup` behind the release of the coroutines: an accepted socket is removed from
its server and destructed, and the last one reports to a server that is being closed. -/
def onFinalCleanup (r : Registry) (o : Nat) (obj : SocketObj) : List Op :=
  match obj.server.bind fun s => (r.liveServer s).map fun srv => (s, srv) with
  | none => []
  | some (s, srv) =>
      destructSocket o obj ++
        if srv.state = .BeingClosed ∧ r.getSockCount s = 1 then
          appReportAllAceptedConnectionsEnded s srv.index
        else []

end Program

inductive Call
  | createSocket (osSocket : Nat)
  | createSocketRefused
  | connect (o : Nat)
  | sock (o : Nat) (c : SockCall)
  | setRefed (o : Nat) (refed : Bool)
  | destructSocket (o : Nat)
  | createServer (osSocket : Nat) (cnt : UInt64)
  | listen (s : Nat)
  | close (s : Nat)
  | destructServer (s : Nat)
  deriving DecidableEq, Repr

/-- The program of a call; `none` if user code cannot make it: the object is gone, or it is an
accepted socket, which its server owns, that would be destructed. -/
def Call.program (r : Registry) : Call → Option (List Op)
  | .createSocket osSocket => if osSocket = 0 then none else some [.construct osSocket none]
  | .createSocketRefused => some Program.createSocketRefused
  | .connect o => (r.liveSocket o).map fun obj => Program.appConnectSocket o obj.data.index
  | .sock o c =>
      (r.liveSocket o).bind fun obj =>
        match c with
        | .pause paused => some (Program.appPause obj.data.index paused)
        | _ => if c.ofUser then some [.sock o c] else none
  | .setRefed o refed => (r.liveSocket o).map fun obj => [.setRefed obj.data.index refed]
  | .destructSocket o =>
      (r.liveSocket o).bind fun obj =>
        if obj.server.isNone then some (Program.destructSocket o obj) else none
  | .createServer osSocket cnt =>
      if osSocket = 0 then none else some [.constructServer osSocket cnt]
  | .listen s => (r.liveServer s).map fun srv => Program.appListen s srv.index
  | .close s => (r.liveServer s).map fun srv => Program.closingProcedure r s srv.index
  | .destructServer s => (r.liveServer s).map fun _ => Program.destructServer r s

/-- The operations the calls of user code are made of. -/
def Op.ofUser : Op → Bool
  | .construct .. | .constructServer .. | .destruct _ | .setAssociated _ | .changePoll ..
  | .setRefed .. | .setSocketClosed _ | .at' _ | .sock .. | .entrySock .. | .serverState .. => true
  | .queue q _ _ => decide (q ≠ .accepted)
  | _ => false

namespace Program

theorem destructSocket_ofUser (o : Nat) (obj : SocketObj) :
    ∀ op ∈ destructSocket o obj, op.ofUser := by
  unfold destructSocket
  split <;> simp [Op.ofUser]

theorem closingProcedure_ofUser (r : Registry) (s idx : Nat) :
    ∀ op ∈ closingProcedure r s idx, op.ofUser := by
  unfold closingProcedure appReportAllAceptedConnectionsEnded
  split <;> simp [Op.ofUser]

theorem destructServer_ofUser (r : Registry) (s : Nat) :
    ∀ op ∈ destructServer r s, op.ofUser := by
  intro op hop
  rcases List.mem_append.mp hop with hop | hop
  · obtain ⟨⟨obj, o⟩, -, hop⟩ := List.mem_flatMap.mp hop
    exact destructSocket_ofUser o obj op hop
  · cases List.mem_singleton.mp hop
    rfl

end Program

theorem Call.program_ofUser {r : Registry} {c : Call} {ops : List Op}
    (h : c.program r = some ops) : ∀ op ∈ ops, op.ofUser := by
  cases c with
  | createSocket osSocket | createServer osSocket cnt =>
    simp only [program] at h
    split at h
    · cases h
    · cases h
      simp [Op.ofUser]
  | createSocketRefused =>
    cases h
    simp [Program.createSocketRefused, Op.ofUser]
  | connect o =>
    obtain ⟨obj, -, rfl⟩ := Option.map_eq_some_iff.mp h
    simp [Program.appConnectSocket, Op.ofUser]
  | sock o c =>
    obtain ⟨obj, -, h⟩ := Option.bind_eq_some_iff.mp h
    split at h
    · cases h
      simp [Program.appPause, Op.ofUser]
    · split at h
      · cases h
        simp [Op.ofUser]
      · cases h
  | setRefed o refed =>
    obtain ⟨obj, -, rfl⟩ := Option.map_eq_some_iff.mp h
    simp [Op.ofUser]
  | destructSocket o =>
    obtain ⟨obj, -, h⟩ := Option.bind_eq_some_iff.mp h
    split at h
    · cases h
      exact Program.destructSocket_ofUser o obj
    · cases h
  | listen s =>
    obtain ⟨srv, -, rfl⟩ := Option.map_eq_some_iff.mp h
    simp [Program.appListen, Op.ofUser]
  | close s =>
    obtain ⟨srv, -, rfl⟩ := Option.map_eq_some_iff.mp h
    exact Program.closingProcedure_ofUser r s srv.index
  | destructServer s =>
    obtain ⟨srv, -, rfl⟩ := Option.map_eq_some_iff.mp h
    exact Program.destructServer_ofUser r s

end NodeCpp
