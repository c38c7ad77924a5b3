import NodeCpp.Lib.Bytes
import NodeCpp.Net.Address
import NodeCpp.Net.Os

/-!
# Requests of workers to the master

A worker asks the master to listen, or to close a server, by posting the bytes of a struct with a
type; the master looks at the type, compares the size of the struct it expects with the number of
bytes there are, and reads the struct. Struct members are laid out as on a 64-bit machine.

`InternalMsg`, which carries the bytes, belongs to another library. `InternalMsgLib` is what is
used of it: a message of at most a page, appended as a whole, is read as it was appended.
-/

namespace NodeCpp

open Lib

/-- `nodecpp::platform::internal_msg::InternalMsg`, with `getReadIter()`. -/
structure InternalMsgLib where
  Msg : Type
  empty : Msg
  append : Msg → List UInt8 → Msg
  availableSize : Msg → Nat
  read : Msg → Nat → List UInt8
  pageSize : Nat
  pageSize_ge : 64 ≤ pageSize
  availableSize_append : ∀ bytes, bytes.length ≤ pageSize →
    availableSize (append empty bytes) = bytes.length
  read_append : ∀ bytes n, bytes.length ≤ pageSize → n ≤ bytes.length →
    read (append empty bytes) n = bytes.take n

inductive InterThreadMsgType
  | userDefined
  | threadStarted
  | threadTerminate
  | serverListening
  | connAccepted
  | serverError
  | serverCloseRequest
  | serverClosedNotification
  | requestToListeningThread
  | infrastructural
  | globalMQ
  | undefined
  deriving DecidableEq, Repr

structure ListeningRequestMsg where
  requestID : UInt64
  entryIndex : UInt64
  ip : UInt32
  port : UInt16
  backlog : Int32
  family : IpFamily
  deriving DecidableEq, Repr

namespace ListeningRequestMsg

/-- The widths of the members, with the padding in front of `backlog`. -/
def layout : List Nat := [8, 8, 4, 2, 2, 4, 4]

def size : Nat := 32

/-- The bytes of the struct; the padding contains anything. -/
def bytes (m : ListeningRequestMsg) (padding : UInt16) : List UInt8 :=
  toRecord [(8, m.requestID.toNat), (8, m.entryIndex.toNat), (4, m.ip.toNat), (2, m.port.toNat),
    (2, padding.toNat), (4, m.backlog.toUInt32.toNat), (4, m.family.toNum)]

/-- The struct at the front of the bytes. -/
def ofBytes (bytes : List UInt8) : ListeningRequestMsg :=
  match ofRecord layout bytes with
  | [requestID, entryIndex, ip, port, _, backlog, family] =>
      { requestID := .ofNat requestID
        entryIndex := .ofNat entryIndex
        ip := .ofNat ip
        port := .ofNat port
        backlog := (UInt32.ofNat backlog).toInt32
        family := .ofNum family }
  | _ => ⟨0, 0, 0, 0, 0, .undefined⟩

end ListeningRequestMsg

structure ServerCloseRequest where
  requestID : UInt64
  entryIdx : UInt64
  deriving DecidableEq, Repr

namespace ServerCloseRequest

def layout : List Nat := [8, 8]

def size : Nat := 16

def bytes (m : ServerCloseRequest) : List UInt8 :=
  toRecord [(8, m.requestID.toNat), (8, m.entryIdx.toNat)]

def ofBytes (bytes : List UInt8) : ServerCloseRequest :=
  match ofRecord layout bytes with
  | [requestID, entryIdx] => ⟨.ofNat requestID, .ofNat entryIdx⟩
  | _ => ⟨0, 0⟩

end ServerCloseRequest

/-- What the master takes a message for. -/
inductive MasterCall
  | threadStarted
  /-- `processRequestForListeningAtMaster`. -/
  | listening (msg : ListeningRequestMsg)
  /-- `processRequestForServerCloseAtMaster`. -/
  | serverClose (msg : ServerCloseRequest)
  deriving DecidableEq, Repr

/-- `InterThreadMsg`, as far as the master looks at it. -/
structure InterThreadMsg (lib : InternalMsgLib) where
  msgType : InterThreadMsgType
  msg : lib.Msg

def processInterthreadRequest (lib : InternalMsgLib) (m : InterThreadMsg lib) :
    Except Failure MasterCall :=
  let sz := lib.availableSize m.msg
  match m.msgType with
  | .threadStarted => .ok .threadStarted
  | .serverListening =>
      if ListeningRequestMsg.size ≤ sz then
        .ok (.listening (.ofBytes (lib.read m.msg ListeningRequestMsg.size)))
      else .error .assertion
  | .serverCloseRequest =>
      if ServerCloseRequest.size ≤ sz then
        .ok (.serverClose (.ofBytes (lib.read m.msg ServerCloseRequest.size)))
      else .error .assertion
  | _ => .error .assertion

inductive WorkerRequest
  | listen (entryIndex : UInt64) (ip : UInt32) (port : UInt16) (family : IpFamily) (backlog : Int32)
  | serverClose (entryIndex : UInt64)
  deriving DecidableEq, Repr

/-- What the request is to be taken for, with the ID it has been given. -/
def WorkerRequest.meant (requestID : UInt64) : WorkerRequest → MasterCall
  | listen entryIndex ip port family backlog =>
      .listening ⟨requestID, entryIndex, ip, port, backlog, family⟩
  | serverClose entryIndex => .serverClose ⟨requestID, entryIndex⟩

/-- `serializeAndSendListeningRequest` and `serializeAndSendServerCloseRequest`: the message that is
posted. -/
def WorkerRequest.serializeAndSend (lib : InternalMsgLib) (padding : UInt16) (requestID : UInt64) :
    WorkerRequest → InterThreadMsg lib
  | listen entryIndex ip port family backlog =>
      let msg : ListeningRequestMsg := ⟨requestID, entryIndex, ip, port, backlog, family⟩
      { msgType := .serverListening, msg := lib.append lib.empty (msg.bytes padding) }
  | serverClose entryIndex =>
      let msg : ServerCloseRequest := ⟨requestID, entryIndex⟩
      { msgType := .serverListening, msg := lib.append lib.empty msg.bytes }

/-- A request that has been sent: its ID, what was asked, and the message. -/
structure SentRequest (lib : InternalMsgLib) where
  requestID : UInt64
  request : WorkerRequest
  msg : InterThreadMsg lib

/-- `SlaveProcessor`s: every worker numbers its own requests (`requestIdBase`). The padding is
whatever the stack contains. -/
def sendRequests (lib : InternalMsgLib) (base : Nat → UInt64) :
    List (Nat × WorkerRequest × UInt16) → List (SentRequest lib)
  | [] => []
  | (worker, request, padding) :: rest =>
      let requestID := base worker + 1
      ⟨requestID, request, request.serializeAndSend lib padding requestID⟩ ::
        sendRequests lib (fun i => if i = worker then requestID else base i) rest

end NodeCpp
