import NodeCpp.Cluster.Requests

/-!
# What the master makes of requests

A request to listen is read as it was sent, with its ID, entry and address. A request to close a
server is posted with the type of a request to listen, and fails the assertion on its size.

* `processInterthreadRequest_listen`, `processInterthreadRequest_serverClose`.
* `requests_understood_iff` -- any mixture of requests of any workers.
* `close_request_asserts` -- one request to close a server.
-/

namespace NodeCpp

open Lib

namespace ListeningRequestMsg

theorem length_bytes (m : ListeningRequestMsg) (padding : UInt16) :
    (m.bytes padding).length = size :=
  length_toRecord _

theorem ofBytes_bytes (m : ListeningRequestMsg) (padding : UInt16) :
    ofBytes (m.bytes padding) = m := by
  have hfits : ∀ f ∈ [(8, m.requestID.toNat), (8, m.entryIndex.toNat), (4, m.ip.toNat),
      (2, m.port.toNat), (2, padding.toNat), (4, m.backlog.toUInt32.toNat), (4, m.family.toNum)],
      f.2 < 256 ^ f.1 := by
    have hid := m.requestID.toNat_lt
    have hentry := m.entryIndex.toNat_lt
    have hip := m.ip.toNat_lt
    have hport := m.port.toNat_lt
    have hpadding := padding.toNat_lt
    have hbacklog := m.backlog.toUInt32.toNat_lt
    have hfamily : m.family.toNum < 3 := by
      cases m.family <;> decide
    intro f hf
    simp only [List.mem_cons, List.not_mem_nil, or_false] at hf
    rcases hf with rfl | rfl | rfl | rfl | rfl | rfl | rfl <;> dsimp only <;> omega
  have hround := ofRecord_toRecord hfits []
  rw [List.append_nil] at hround
  rw [ofBytes, bytes, show layout = List.map Prod.fst [(8, m.requestID.toNat),
    (8, m.entryIndex.toNat), (4, m.ip.toNat), (2, m.port.toNat), (2, padding.toNat),
    (4, m.backlog.toUInt32.toNat), (4, m.family.toNum)] from rfl, hround]
  simp

end ListeningRequestMsg

variable (lib : InternalMsgLib)

theorem processInterthreadRequest_listen (padding : UInt16) (requestID entryIndex : UInt64)
    (ip : UInt32) (port : UInt16) (family : IpFamily) (backlog : Int32) :
    processInterthreadRequest lib
        ((WorkerRequest.listen entryIndex ip port family backlog).serializeAndSend lib padding
          requestID) =
      .ok ((WorkerRequest.listen entryIndex ip port family backlog).meant requestID) := by
  have hlen := ListeningRequestMsg.length_bytes ⟨requestID, entryIndex, ip, port, backlog, family⟩
    padding
  have hpage : ListeningRequestMsg.size ≤ lib.pageSize := by
    have := lib.pageSize_ge
    unfold ListeningRequestMsg.size
    omega
  have hread := lib.read_append _ ListeningRequestMsg.size (hlen ▸ hpage) (Nat.le_of_eq hlen.symm)
  have hsize := lib.availableSize_append _ (hlen ▸ hpage)
  rw [List.take_of_length_le (Nat.le_of_eq hlen)] at hread
  simp only [processInterthreadRequest, WorkerRequest.serializeAndSend, WorkerRequest.meant, hsize,
    hlen, Nat.le_refl, if_true, hread, ListeningRequestMsg.ofBytes_bytes]

/-- A request to close a server is too short for what its type says. -/
theorem processInterthreadRequest_serverClose (padding : UInt16) (requestID entryIndex : UInt64) :
    processInterthreadRequest lib
        ((WorkerRequest.serverClose entryIndex).serializeAndSend lib padding requestID) =
      .error .assertion := by
  have hlen : (ServerCloseRequest.bytes ⟨requestID, entryIndex⟩).length = 16 := length_toRecord _
  have hpage : 16 ≤ lib.pageSize := by
    have := lib.pageSize_ge
    omega
  have hsize := lib.availableSize_append _ (hlen ▸ hpage)
  have hshort : ¬ListeningRequestMsg.size ≤ 16 := by decide
  simp only [processInterthreadRequest, WorkerRequest.serializeAndSend, hsize, hlen,
    hshort, if_false]

variable {lib}

theorem understood_iff (request : WorkerRequest) (padding : UInt16) (requestID : UInt64) :
    processInterthreadRequest lib (request.serializeAndSend lib padding requestID) =
        .ok (request.meant requestID) ↔
      ∀ entryIndex, request ≠ .serverClose entryIndex := by
  cases request with
  | listen entryIndex ip port family backlog =>
    refine ⟨fun _ _ => nofun, fun _ => ?_⟩
    exact processInterthreadRequest_listen lib padding requestID entryIndex ip port family backlog
  | serverClose entryIndex =>
    rw [processInterthreadRequest_serverClose]
    refine ⟨nofun, fun h => ?_⟩
    exact absurd rfl (h entryIndex)

/-- Every message of a sequence of requests of any workers is taken for the request that was sent,
with its ID, entry index and address, and fails no assertion, exactly if there is no request to
close a server among them. -/
theorem requests_understood_iff (lib : InternalMsgLib) (base : Nat → UInt64)
    (requests : List (Nat × WorkerRequest × UInt16)) :
    (∀ sent ∈ sendRequests lib base requests,
        processInterthreadRequest lib sent.msg = .ok (sent.request.meant sent.requestID)) ↔
      ∀ rq ∈ requests, ∀ entryIndex, rq.2.1 ≠ .serverClose entryIndex := by
  induction requests generalizing base with
  | nil => exact ⟨nofun, nofun⟩
  | cons rq requests ih =>
    obtain ⟨worker, request, padding⟩ := rq
    rw [sendRequests, List.forall_mem_cons, List.forall_mem_cons, understood_iff, ih]

/-- Messages that are plain lists of bytes. -/
def byteMsgs : InternalMsgLib where
  Msg := List UInt8
  empty := []
  append := (· ++ ·)
  availableSize := List.length
  read msg n := msg.take n
  pageSize := 4096
  pageSize_ge := by decide
  availableSize_append := fun _ _ => rfl
  read_append := fun _ _ _ _ => rfl

/-- The requests of two workers to listen are understood. -/
theorem requests_understood_listen :
    ∀ sent ∈ sendRequests byteMsgs (fun _ => 0)
        [(1, .listen 5 0x0100007f 2000 .ipv4 64, 0), (2, .listen 6 0x0100007f 2001 .ipv4 64, 7)],
      processInterthreadRequest byteMsgs sent.msg = .ok (sent.request.meant sent.requestID) := by
  refine (requests_understood_iff byteMsgs _ _).mpr ?_
  simp

/-- A worker asks to close the server in entry 3: the message fails the assertion on the size of a
request to listen. -/
theorem close_request_asserts :
    (sendRequests byteMsgs (fun _ => 0) [(0, .serverClose 3, 0)]).map
        (fun sent => processInterthreadRequest byteMsgs sent.msg) = [.error .assertion] := by
  rw [sendRequests, sendRequests, List.map_cons, List.map_nil,
    processInterthreadRequest_serverClose]

end NodeCpp
