import NodeCpp.Cluster.Requests
import NodeCpp.Lib.Machine

/-!
# Agent servers at the master

Workers do not listen themselves: they ask the master, which keeps one `AgentServer` for an address
and a request ID, and in it the workers and entries the agent stands for (`socketsToSlaves`).

`shared` is `NODECPP_USE_SHARED_SOCKS_FOR_LISTENERS`. Without it the master creates, binds and
listens on the socket itself, and the listeners only get it for polling; with it they do all this,
and the agent takes over the address of the request.
-/

namespace NodeCpp

open Lib

structure ThreadID where
  slotId : UInt64
  reincarnation : UInt64
  deriving DecidableEq, Repr

structure SlaveServerData where
  entryIndex : UInt64
  targetThreadId : ThreadID
  deriving DecidableEq, Repr

/-- `AgentServer::DataForCommandProcessing::State`. -/
inductive AgentState
  | Unused
  | Listening
  | BeingClosed
  | Closed
  deriving DecidableEq, Repr

/-- `Cluster::AgentServer`, with its `dataForCommandProcessing`. The port of `localAddress` is not
initialised. -/
structure AgentServer where
  localAddress : Address
  socketsToSlaves : List SlaveServerData := []
  requestID : UInt64 := 0xffffffffffffffff
  refed : Bool := false
  osSocket : UInt64 := 0
  state : AgentState := .Unused
  deriving DecidableEq, Repr

abbrev AgentServers := List (Option AgentServer)

inductive RequestToListenerType
  | Undefined
  | AddServerSocket
  | CreateSharedServerSocket
  | RemoveServerSocket
  | CloseSharedServerSocket
  deriving DecidableEq, Repr

structure RequestToListenerThread where
  type : RequestToListenerType
  entryIndex : UInt64
  socket : UInt64
  ip : UInt32
  port : UInt16
  backlog : Int32
  deriving DecidableEq, Repr

/-- What the master posts: to a listener, and to a worker. -/
inductive MasterMsg
  | requestToListeningThread (rq : RequestToListenerThread)
  | serverListening (requestID : UInt64)
  | serverClosedNotification (requestID entryIdx : UInt64) (hasError : Bool)
  deriving DecidableEq, Repr

/-- What the kernel answers while a new agent starts to listen: the new socket if there is one,
`bind`, the port of the bound socket, and `listen`; and the port a new `Address` happens to
contain. -/
structure AgentReplies where
  socket : Option UInt64
  bind : Bool
  port : UInt16
  listen : Bool
  memory : UInt16
  deriving DecidableEq, Repr

namespace AgentServer

def listening (server : AgentServer) : Bool := decide (server.state = .Listening)

/-- The test of `processRequestForListeningAtMaster`. -/
def answers (address : Address) (requestID : UInt64) (server : AgentServer) : Bool :=
  decide (server.localAddress = address ∧ server.requestID = requestID)

/-- The test of `processRequestForServerCloseAtMaster`; it does not look at the thread. -/
def answersClose (mh : ServerCloseRequest) (server : AgentServer) : Bool :=
  decide (server.requestID = mh.requestID) &&
    server.socketsToSlaves.any fun slave => decide (slave.entryIndex = mh.entryIdx)

def addSlave (slaveData : SlaveServerData) (server : AgentServer) : AgentServer :=
  { server with socketsToSlaves := server.socketsToSlaves ++ [slaveData] }

/-- The constructor, and `registerServer` in the build that has it. -/
def make (shared : Bool) (os : AgentReplies) : Except Failure AgentServer :=
  let newServer : AgentServer := { localAddress := { port := os.memory } }
  if shared then .ok newServer
  else
    match os.socket with
    | none => .error .error
    | some socket => .ok { newServer with osSocket := socket }

def appAgentAtMasterListen (os : AgentReplies) (ip : UInt32) (port : UInt16)
    (server : AgentServer) : Except Failure AgentServer :=
  if !os.bind then .error .error
  else
    let port := if port = 0 then os.port else port
    if port = 0 then .error .error
    else if !os.listen then .error .error
    else .ok { server with refed := true, localAddress := ⟨port, serverFamily, ip⟩ }

/-- What the new agent does with the address of the request. -/
def listen (shared : Bool) (os : AgentReplies) (address : Address) (server : AgentServer) :
    Except Failure AgentServer :=
  if shared then .ok { server with localAddress := address, state := .Listening }
  else server.appAgentAtMasterListen os address.ip address.port

/-- One `sendServerCloseNotification` for every worker and entry that is registered. -/
def closeNotifications (server : AgentServer) : List (ThreadID × MasterMsg) :=
  server.socketsToSlaves.map fun slave =>
    (slave.targetThreadId, .serverClosedNotification server.requestID slave.entryIndex false)

end AgentServer

namespace AgentServers

/-- The end of `createAgentServer`: the first slot that is free, or a new one. -/
def put (agentServers : AgentServers) (newServer : AgentServer) : AgentServers :=
  match agentServers.findIdx? Option.isNone with
  | some i => agentServers.set i (some newServer)
  | none => agentServers ++ [some newServer]

end AgentServers

namespace ListeningRequestMsg

def address (msg : ListeningRequestMsg) : Address := ⟨msg.port, msg.family, msg.ip⟩

/-- The request that listeners get for a new agent; the port is in network order only on its way. -/
def toListener (msg : ListeningRequestMsg) (shared : Bool) (socket : UInt64) :
    RequestToListenerThread :=
  { type := if shared then .CreateSharedServerSocket else .AddServerSocket
    entryIndex := msg.entryIndex
    socket := socket
    ip := msg.ip
    port := msg.port
    backlog := msg.backlog }

end ListeningRequestMsg

/-- What a request leaves behind: the agents, and what has been posted unless it has failed. -/
structure MasterDone where
  agentServers : AgentServers
  result : Except Failure (List (ThreadID × MasterMsg))

/-- `Cluster::processRequestForListeningAtMaster`, and the answer `processInterthreadRequest` gives
when the agent has been listening. A new server is in `agentServers` before it listens, and remains
there when that fails. -/
def processRequestForListeningAtMaster (shared : Bool) (listeners : List ThreadID)
    (os : AgentReplies) (agentServers : AgentServers) (targetThreadId : ThreadID)
    (msg : ListeningRequestMsg) : MasterDone :=
  let slaveData : SlaveServerData := ⟨msg.entryIndex, targetThreadId⟩
  match agentServers.findIdx? (Option.any (AgentServer.answers msg.address msg.requestID)) with
  | some i =>
      let already := (agentServers[i]?.join).any AgentServer.listening
      { agentServers := agentServers.modify i (Option.map (AgentServer.addSlave slaveData))
        result := .ok (if already then [(targetThreadId, .serverListening msg.requestID)] else []) }
  | none =>
      match AgentServer.make shared os with
      | .error e => ⟨agentServers, .error e⟩
      | .ok newServer =>
          let server := { newServer.addSlave slaveData with requestID := msg.requestID }
          match server.listen shared os msg.address with
          | .error e => ⟨agentServers.put server, .error e⟩
          | .ok server =>
              let rq := msg.toListener shared server.osSocket
              { agentServers := agentServers.put server
                result := .ok (listeners.map fun id => (id, .requestToListeningThread rq)) }

/-- `Cluster::processRequestForServerCloseAtMaster`. The index by which `appClose` looks for the
agent has never been assigned; `closes` tells whether the call comes back. -/
def processRequestForServerCloseAtMaster (closes : Bool) (agentServers : AgentServers)
    (mh : ServerCloseRequest) : MasterDone :=
  match agentServers.findIdx? (Option.any (AgentServer.answersClose mh)) with
  | none => ⟨agentServers, .error .assertion⟩
  | some i =>
      if !closes then ⟨agentServers, .error .error⟩
      else
        let agent := agentServers[i]?.join
        { agentServers := agentServers.modify i (Option.map ({ · with state := .BeingClosed }))
          result := .ok (agent.elim [] AgentServer.closeNotifications) }

/-! ## Workers and master -/

/-- The workers with the ID each has last given to a request, the requests on their way to the
master with the thread they come from, and the agents. `sent` counts the requests of each worker. -/
structure AgentWorld where
  requestIdBase : ThreadID → UInt64 := fun _ => 0
  sent : ThreadID → Nat := fun _ => 0
  queue : List (ThreadID × MasterCall) := []
  agentServers : AgentServers := []

inductive AgentAct
  /-- `sendListeningRequest` or `sendServerCloseRequest` of a worker. -/
  | send (worker : ThreadID) (request : WorkerRequest)
  /-- The master takes the next request. -/
  | receive (listeners : List ThreadID) (os : AgentReplies) (closes : Bool)

namespace AgentWorld

/-- The call that the master makes of a request. -/
def process (shared : Bool) (listeners : List ThreadID) (os : AgentReplies) (closes : Bool)
    (agentServers : AgentServers) (thread : ThreadID) : MasterCall → MasterDone
  | .threadStarted => ⟨agentServers, .ok []⟩
  | .listening msg =>
      processRequestForListeningAtMaster shared listeners os agentServers thread msg
  | .serverClose mh => processRequestForServerCloseAtMaster closes agentServers mh

def send (w : AgentWorld) (worker : ThreadID) (request : WorkerRequest) : AgentWorld :=
  let requestID := w.requestIdBase worker + 1
  { w with
    requestIdBase := Function.update w.requestIdBase worker requestID
    sent := Function.update w.sent worker (w.sent worker + 1)
    queue := w.queue ++ [(worker, request.meant requestID)] }

/-- The master goes on with the agents a request leaves behind, also if it has failed. -/
def step (shared : Bool) (w : AgentWorld) : AgentAct → Option AgentWorld
  | .send worker request => some (w.send worker request)
  | .receive listeners os closes =>
      match w.queue with
      | [] => none
      | (thread, call) :: rest =>
          let done := process shared listeners os closes w.agentServers thread call
          some { w with queue := rest, agentServers := done.agentServers }

end AgentWorld

def agentWorld (shared : Bool) : Machine AgentWorld AgentAct := ⟨AgentWorld.step shared⟩

end NodeCpp
