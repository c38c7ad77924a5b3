import NodeCpp.Cluster.Agents
import NodeCpp.Lib.Position

/-!
# Which agent a request is registered in, and which one is closed

A request to close a server carries a request ID of its own, one that its worker has not given to
any request to listen before; an agent is found by its ID, so it is never the one that was asked
for. A request to listen joins the first agent with its address and ID; an agent has the port and
the family `listen` has given it, so requests for port 0, or for another family, get one each.

* `AgentWorld.IdsApart.step` -- the IDs of the two kinds of requests of a worker never meet.
* `close_never_finds` -- over any run of workers and master.
* `ListenCall.run_runsAs` -- one request to listen, with what it does to every agent.
* `equal_requests_share_iff` -- any sequence of requests to listen.
-/

namespace NodeCpp

open Lib

/-! ## What is registered -/

namespace AgentServers

def Registered (agentServers : AgentServers) (requestID : UInt64) (s : SlaveServerData) : Prop :=
  ∃ server, some server ∈ agentServers ∧ server.requestID = requestID ∧ s ∈ server.socketsToSlaves

variable {agentServers : AgentServers} {requestID : UInt64} {s : SlaveServerData}

theorem mem_put {newServer server : AgentServer} (h : some server ∈ agentServers.put newServer) :
    some server ∈ agentServers ∨ server = newServer := by
  unfold put at h
  split at h
  · rcases List.mem_or_eq_of_mem_set h with h | h
    · exact .inl h
    · exact .inr (Option.some.inj h)
  · rcases List.mem_append.mp h with h | h
    · exact .inl h
    · exact .inr (Option.some.inj (List.mem_singleton.mp h))

theorem registered_put {newServer : AgentServer}
    (h : (agentServers.put newServer).Registered requestID s) :
    agentServers.Registered requestID s ∨
      newServer.requestID = requestID ∧ s ∈ newServer.socketsToSlaves := by
  obtain ⟨server, hmem, hid, hs⟩ := h
  rcases mem_put hmem with hmem | rfl
  · exact .inl ⟨server, hmem, hid, hs⟩
  · exact .inr ⟨hid, hs⟩

theorem mem_modify_map {f : AgentServer → AgentServer} {i : Nat} {server : AgentServer}
    (h : some server ∈ agentServers.modify i (Option.map f)) :
    some server ∈ agentServers ∨ ∃ old, agentServers[i]? = some (some old) ∧ server = f old := by
  rcases mem_modify h with h | ⟨slot, hslot, hmap⟩
  · exact .inl h
  · obtain ⟨old, rfl, rfl⟩ := Option.map_eq_some_iff.mp hmap.symm
    exact .inr ⟨old, hslot, rfl⟩

theorem findIdx?_any {p : AgentServer → Bool} {i : Nat}
    (h : agentServers.findIdx? (Option.any p) = some i) :
    ∃ server, agentServers[i]? = some (some server) ∧ p server = true := by
  obtain ⟨hlt, hany, -⟩ := List.findIdx?_eq_some_iff_getElem.mp h
  cases hslot : agentServers[i] with
  | none =>
    rw [hslot] at hany
    cases hany
  | some server =>
    rw [hslot] at hany
    exact ⟨server, by rw [List.getElem?_eq_getElem hlt, hslot], hany⟩

end AgentServers

open AgentServers

namespace AgentServer

variable {shared : Bool} {os : AgentReplies} {address : Address} {server server' : AgentServer}

theorem make_socketsToSlaves (h : make shared os = .ok server) : server.socketsToSlaves = [] := by
  unfold make at h
  split at h
  · cases h
    rfl
  · split at h <;> cases h
    rfl

/-- After `appAgentAtMasterListen` the agent has the family of the manager, and a port: the one that
was asked for, if it was not 0. -/
theorem appAgentAtMasterListen_eq_ok {ip : UInt32} {port : UInt16}
    (h : server.appAgentAtMasterListen os ip port = .ok server') :
    ∃ p, p ≠ 0 ∧ (port ≠ 0 → p = port) ∧
      server' = { server with refed := true, localAddress := ⟨p, serverFamily, ip⟩ } := by
  unfold appAgentAtMasterListen at h
  by_cases hport : (if port = 0 then os.port else port) = 0
  · rw [hport] at h
    split at h <;> cases h
  · dsimp only at h
    rw [if_neg hport] at h
    split at h
    · cases h
    split at h
    · cases h
    · cases h
      exact ⟨_, hport, fun hne => if_neg hne, rfl⟩

theorem listen_same (h : server.listen shared os address = .ok server') :
    server'.requestID = server.requestID ∧ server'.socketsToSlaves = server.socketsToSlaves := by
  unfold listen at h
  split at h
  · cases h
    exact ⟨rfl, rfl⟩
  · obtain ⟨p, -, -, rfl⟩ := appAgentAtMasterListen_eq_ok h
    exact ⟨rfl, rfl⟩

end AgentServer

theorem listening_registered {shared : Bool} {listeners : List ThreadID} {os : AgentReplies}
    {agentServers : AgentServers} {thread : ThreadID} {msg : ListeningRequestMsg}
    {requestID : UInt64} {s : SlaveServerData}
    (h : (processRequestForListeningAtMaster shared listeners os agentServers thread
      msg).agentServers.Registered requestID s) :
    agentServers.Registered requestID s ∨
      msg.requestID = requestID ∧ s = ⟨msg.entryIndex, thread⟩ := by
  unfold processRequestForListeningAtMaster at h
  split at h
  · rename_i i hfind
    obtain ⟨server, hmem, hid, hs⟩ := h
    rcases mem_modify_map hmem with hmem | ⟨old, hold, rfl⟩
    · exact .inl ⟨server, hmem, hid, hs⟩
    · obtain ⟨found, hfound, hanswers⟩ := findIdx?_any hfind
      obtain rfl : old = found := by
        rw [hold] at hfound
        cases hfound
        rfl
      rcases List.mem_append.mp hs with hs | hs
      · exact .inl ⟨old, List.mem_of_getElem? hold, hid, hs⟩
      · have hanswers := of_decide_eq_true hanswers
        exact .inr ⟨hanswers.2.symm.trans hid, List.mem_singleton.mp hs⟩
  · split at h
    · exact .inl h
    · rename_i newServer hmake
      have hnew := AgentServer.make_socketsToSlaves hmake
      dsimp only at h
      split at h
      · rcases registered_put h with h | ⟨hid, hs⟩
        · exact .inl h
        · simp only [AgentServer.addSlave, hnew, List.nil_append, List.mem_singleton] at hs
          exact .inr ⟨hid, hs⟩
      · rename_i server hlisten
        obtain ⟨hid', hslaves⟩ := AgentServer.listen_same hlisten
        rcases registered_put h with h | ⟨hid, hs⟩
        · exact .inl h
        · simp only [hslaves, AgentServer.addSlave, hnew, List.nil_append, List.mem_singleton] at hs
          exact .inr ⟨hid'.symm.trans hid, hs⟩

theorem serverClose_registered {closes : Bool} {agentServers : AgentServers}
    {mh : ServerCloseRequest} {requestID : UInt64} {s : SlaveServerData}
    (h : (processRequestForServerCloseAtMaster closes agentServers
      mh).agentServers.Registered requestID s) :
    agentServers.Registered requestID s := by
  unfold processRequestForServerCloseAtMaster at h
  split at h
  · exact h
  · split at h
    · exact h
    · obtain ⟨server, hmem, hid, hs⟩ := h
      rcases mem_modify_map hmem with hmem | ⟨old, hold, rfl⟩
      · exact ⟨server, hmem, hid, hs⟩
      · exact ⟨old, List.mem_of_getElem? hold, hid, hs⟩

/-! ## The IDs of a worker's requests -/

namespace AgentWorld

/-- The worker has sent a request to listen with this ID: it is on its way, or registered. -/
def ListenId (w : AgentWorld) (worker : ThreadID) (requestID : UInt64) : Prop :=
  (∃ msg, (worker, .listening msg) ∈ w.queue ∧ msg.requestID = requestID) ∨
    ∃ entryIndex, w.agentServers.Registered requestID ⟨entryIndex, worker⟩

/-- A request of the worker to close a server is on its way with this ID. -/
def CloseId (w : AgentWorld) (worker : ThreadID) (requestID : UInt64) : Prop :=
  ∃ mh, (worker, .serverClose mh) ∈ w.queue ∧ mh.requestID = requestID

/-- As long as the counter of a worker has not wrapped around, it bounds the IDs of its requests,
and no ID belongs to requests of both kinds. -/
structure IdsApart (w : AgentWorld) (worker : ThreadID) : Prop where
  base : (w.requestIdBase worker).toNat = w.sent worker
  listen_le : ∀ r, w.ListenId worker r → r.toNat ≤ w.sent worker
  close_le : ∀ r, w.CloseId worker r → r.toNat ≤ w.sent worker
  apart : ∀ r, w.ListenId worker r → ¬ w.CloseId worker r

namespace IdsApart

variable {w : AgentWorld} {worker : ThreadID}

theorem init (worker : ThreadID) : IdsApart {} worker := by
  have hlisten : ∀ r, ¬ ListenId {} worker r := by
    rintro r (⟨msg, hmem, -⟩ | ⟨e, server, hmem, -⟩)
    · cases hmem
    · cases hmem
  have hclose : ∀ r, ¬ CloseId {} worker r := by
    rintro r ⟨mh, hmem, -⟩
    cases hmem
  exact ⟨rfl, fun r h => absurd h (hlisten r), fun r h => absurd h (hclose r), fun r _ => hclose r⟩

/-- A state in which requests of the worker have only been processed or lost. -/
theorem mono {w' : AgentWorld} (h : IdsApart w worker)
    (hbase : w'.requestIdBase worker = w.requestIdBase worker)
    (hsent : w'.sent worker = w.sent worker)
    (hlisten : ∀ r, w'.ListenId worker r → w.ListenId worker r)
    (hclose : ∀ r, w'.CloseId worker r → w.CloseId worker r) : IdsApart w' worker := by
  constructor
  · rw [hbase, hsent]
    exact h.base
  · intro r hr
    rw [hsent]
    exact h.listen_le r (hlisten r hr)
  · intro r hr
    rw [hsent]
    exact h.close_le r (hclose r hr)
  · intro r hl hc
    exact h.apart r (hlisten r hl) (hclose r hc)

theorem send_other {sender : ThreadID} {request : WorkerRequest} (hne : worker ≠ sender)
    (h : IdsApart w worker) : IdsApart (w.send sender request) worker := by
  have hold : ∀ call, (worker, call) ∈ (w.send sender request).queue →
      (worker, call) ∈ w.queue := by
    intro call hmem
    rcases List.mem_append.mp hmem with hmem | hmem
    · exact hmem
    · exact absurd (congrArg Prod.fst (List.mem_singleton.mp hmem)) hne
  refine h.mono (Function.update_of_ne hne _ _) (Function.update_of_ne hne _ _) ?_ ?_
  · rintro r (⟨msg, hmem, hid⟩ | hreg)
    · exact .inl ⟨msg, hold _ hmem, hid⟩
    · exact .inr hreg
  · rintro r ⟨mh, hmem, hid⟩
    exact ⟨mh, hold _ hmem, hid⟩

theorem send_self {request : WorkerRequest} (hlt : w.sent worker + 1 < 2 ^ 64)
    (h : IdsApart w worker) : IdsApart (w.send worker request) worker := by
  have hnew : (w.requestIdBase worker + 1).toNat = w.sent worker + 1 := by
    rw [UInt64.toNat_add, h.base]
    exact Nat.mod_eq_of_lt hlt
  have hsent : (w.send worker request).sent worker = w.sent worker + 1 := Function.update_self ..
  have hlisten : ∀ r, (w.send worker request).ListenId worker r →
      w.ListenId worker r ∨
        r = w.requestIdBase worker + 1 ∧ ∃ e ip port f b, request = .listen e ip port f b := by
    rintro r (⟨msg, hmem, rfl⟩ | hreg)
    · rcases List.mem_append.mp hmem with hmem | hmem
      · exact .inl (.inl ⟨msg, hmem, rfl⟩)
      · cases request <;> cases List.mem_singleton.mp hmem
        exact .inr ⟨rfl, _, _, _, _, _, rfl⟩
    · exact .inl (.inr hreg)
  have hclose : ∀ r, (w.send worker request).CloseId worker r →
      w.CloseId worker r ∨
        r = w.requestIdBase worker + 1 ∧ ∃ e, request = .serverClose e := by
    rintro r ⟨mh, hmem, rfl⟩
    rcases List.mem_append.mp hmem with hmem | hmem
    · exact .inl ⟨mh, hmem, rfl⟩
    · cases request <;> cases List.mem_singleton.mp hmem
      exact .inr ⟨rfl, _, rfl⟩
  constructor
  · rw [hsent]
    exact (congrArg UInt64.toNat (Function.update_self ..)).trans hnew
  · intro r hr
    rw [hsent]
    rcases hlisten r hr with hr | ⟨rfl, -⟩
    · exact Nat.le_succ_of_le (h.listen_le r hr)
    · exact Nat.le_of_eq hnew
  · intro r hr
    rw [hsent]
    rcases hclose r hr with hr | ⟨rfl, -⟩
    · exact Nat.le_succ_of_le (h.close_le r hr)
    · exact Nat.le_of_eq hnew
  · intro r hl hc
    rcases hlisten r hl with hl | ⟨rfl, _, _, _, _, _, rfl⟩
    · rcases hclose r hc with hc | ⟨rfl, -⟩
      · exact h.apart r hl hc
      · -- the new identifier is past all those in use
        have := h.listen_le _ hl
        omega
    · rcases hclose _ hc with hc | ⟨-, _, heq⟩
      · have := h.close_le _ hc
        omega
      · cases heq

/-- The master only moves the ID of a request to listen from the queue into an agent. -/
theorem receive {shared : Bool} {listeners : List ThreadID} {os : AgentReplies} {closes : Bool}
    {thread : ThreadID} {call : MasterCall} {rest : List (ThreadID × MasterCall)}
    (hqueue : w.queue = (thread, call) :: rest) (h : IdsApart w worker) :
    IdsApart { w with
      queue := rest
      agentServers :=
        (process shared listeners os closes w.agentServers thread call).agentServers } worker := by
  have hrest : ∀ x ∈ rest, x ∈ w.queue := by
    intro x hx
    rw [hqueue]
    exact List.mem_cons_of_mem _ hx
  refine h.mono rfl rfl ?_ ?_
  · rintro r (⟨msg, hmem, hid⟩ | ⟨e, hreg⟩)
    · exact .inl ⟨msg, hrest _ hmem, hid⟩
    · cases call with
      | threadStarted => exact .inr ⟨e, hreg⟩
      | listening msg =>
        rcases listening_registered hreg with hreg | ⟨hid, hslave⟩
        · exact .inr ⟨e, hreg⟩
        · cases hslave
          exact .inl ⟨msg, hqueue ▸ List.mem_cons_self .., hid⟩
      | serverClose mh => exact .inr ⟨e, serverClose_registered hreg⟩
  · rintro r ⟨mh, hmem, hid⟩
    exact ⟨mh, hrest _ hmem, hid⟩

theorem step {shared : Bool} {a : AgentAct} {w' : AgentWorld}
    (h : w.sent worker < 2 ^ 64 → IdsApart w worker)
    (hstep : (agentWorld shared).step w a = some w')
    (hlt : w'.sent worker < 2 ^ 64) : IdsApart w' worker := by
  cases a with
  | send sender request =>
    cases hstep
    by_cases hne : worker = sender
    · subst hne
      have hsent : (w.send worker request).sent worker = w.sent worker + 1 :=
        Function.update_self ..
      rw [hsent] at hlt
      exact send_self hlt (h (by omega))
    · have hsent : (w.send sender request).sent worker = w.sent worker :=
        Function.update_of_ne hne _ _
      rw [hsent] at hlt
      exact send_other hne (h hlt)
  | receive listeners os closes =>
    cases hqueue : w.queue with
    | nil => simp [agentWorld, AgentWorld.step, hqueue] at hstep
    | cons head rest =>
      obtain ⟨thread, call⟩ := head
      simp only [agentWorld, AgentWorld.step, hqueue, Option.some.injEq] at hstep
      subst hstep
      exact receive hqueue (h hlt)

theorem run {shared : Bool} {acts : List AgentAct}
    (hrun : (agentWorld shared).run {} acts = some w) (hlt : w.sent worker < 2 ^ 64) :
    IdsApart w worker := by
  refine (agentWorld shared).run_kept (J := fun w => w.sent worker < 2 ^ 64 → IdsApart w worker)
    ?_ (fun _ => init worker) hrun hlt
  intro w a w' hJ hstep hlt
  exact step hJ hstep hlt

end IdsApart

end AgentWorld

/-! ## Requests to close a server -/

/-- The request `mh` of a worker is served: the agent that is found stands for the worker and the
entry of the request, and every worker and entry it stands for is notified, once. -/
def ClosesServer (closes : Bool) (agentServers : AgentServers) (worker : ThreadID)
    (mh : ServerCloseRequest) : Prop :=
  ∃ i agent, agentServers.findIdx? (Option.any (AgentServer.answersClose mh)) = some i ∧
    agentServers[i]? = some (some agent) ∧ ⟨mh.entryIdx, worker⟩ ∈ agent.socketsToSlaves ∧
    (processRequestForServerCloseAtMaster closes agentServers mh).result =
      .ok agent.closeNotifications

/-- No request to close a server is served, in any run of workers and master, unless its worker has
already sent as many requests as there are IDs. -/
theorem close_never_finds {shared closes : Bool} {acts : List AgentAct} {w : AgentWorld}
    {worker : ThreadID} {mh : ServerCloseRequest} {rest : List (ThreadID × MasterCall)}
    (hrun : (agentWorld shared).run {} acts = some w)
    (hqueue : w.queue = (worker, .serverClose mh) :: rest) (hsent : w.sent worker < 2 ^ 64) :
    ¬ ClosesServer closes w.agentServers worker mh := by
  rintro ⟨i, agent, hfind, hagent, hslave, -⟩
  obtain ⟨server, hserver, hanswers⟩ := findIdx?_any hfind
  obtain rfl : server = agent := by
    rw [hserver] at hagent
    cases hagent
    rfl
  have hid : server.requestID = mh.requestID := by
    rw [AgentServer.answersClose, Bool.and_eq_true] at hanswers
    exact of_decide_eq_true hanswers.1
  refine (AgentWorld.IdsApart.run hrun hsent).apart mh.requestID ?_ ?_
  · exact .inr ⟨mh.entryIdx, server, List.mem_of_getElem? hserver, hid, hslave⟩
  · exact ⟨mh, hqueue ▸ List.mem_cons_self .., rfl⟩

/-- The run of a worker that listens with entry 5 and then closes it. -/
def listenThenClose (worker : ThreadID) : List AgentAct :=
  [.send worker (.listen 5 0x7f000001 8080 serverFamily 16),
    .receive [] ⟨some 3, true, 8080, true, 0⟩ true, .send worker (.serverClose 5)]

theorem close_never_finds_listened :
    ∃ w, (agentWorld false).run {} (listenThenClose ⟨1, 1⟩) = some w ∧
      w.queue = [(⟨1, 1⟩, .serverClose ⟨2, 5⟩)] ∧
      ¬ ClosesServer true w.agentServers ⟨1, 1⟩ ⟨2, 5⟩ :=
  ⟨_, rfl, rfl, @close_never_finds false true (listenThenClose ⟨1, 1⟩) _ _ _ _ rfl rfl (by decide)⟩

/-- The agent of the worker is there, under the ID of the request to listen. -/
theorem close_after_listen_asserts :
    ∃ w, (agentWorld false).run {} (listenThenClose ⟨1, 1⟩) = some w ∧
      w.queue = [(⟨1, 1⟩, .serverClose ⟨2, 5⟩)] ∧
      w.agentServers.Registered 1 ⟨5, ⟨1, 1⟩⟩ ∧
      (processRequestForServerCloseAtMaster true w.agentServers ⟨2, 5⟩).result =
        .error .assertion :=
  ⟨_, rfl, rfl, ⟨_, List.mem_cons_self .., rfl, List.mem_cons_self ..⟩, rfl⟩

/-! ## Requests to listen -/

/-- A request to listen at the master, with the listeners there are and the kernel's answers. -/
structure ListenCall where
  thread : ThreadID
  msg : ListeningRequestMsg
  listeners : List ThreadID := []
  os : AgentReplies
  deriving DecidableEq, Repr

/-- Creating the socket, `bind` and `listen` succeed, and a bound socket has a port. -/
def AgentReplies.succeed (os : AgentReplies) : Prop :=
  os.socket.isSome ∧ os.bind = true ∧ os.port ≠ 0 ∧ os.listen = true

instance (os : AgentReplies) : Decidable os.succeed := inferInstanceAs (Decidable (_ ∧ _))

/-- The slave data of the slot with this index. -/
def AgentServers.slavesAt (agentServers : AgentServers) (i : Nat) : List SlaveServerData :=
  (agentServers[i]?.join).elim [] AgentServer.socketsToSlaves

/-- From one state of the agents to the next, `s` has been registered in agent `i` and nowhere
else. -/
def RegistersIn (before after : AgentServers) (s : SlaveServerData) (i : Nat) : Prop :=
  after.slavesAt i = before.slavesAt i ++ [s] ∧ ∀ j, j ≠ i → after.slavesAt j = before.slavesAt j

theorem RegistersIn.unique {before after : AgentServers} {s : SlaveServerData} {i j : Nat}
    (hi : RegistersIn before after s i) (hj : RegistersIn before after s j) : i = j := by
  by_contra hne
  have hlen := congrArg List.length (hi.1.symm.trans (hj.2 i hne))
  simp at hlen

/-- The agents as they are when every request has been successful: all slots are used, and every
agent has a port and the family of the manager. -/
def AgentServers.Bound (agentServers : AgentServers) : Prop :=
  ∀ slot ∈ agentServers, ∃ server, slot = some server ∧ server.localAddress.port ≠ 0 ∧
    server.localAddress.family = serverFamily

namespace ListenCall

def slave (call : ListenCall) : SlaveServerData := ⟨call.msg.entryIndex, call.thread⟩

/-- `processRequestForListeningAtMaster` in the build without shared sockets. -/
def run (call : ListenCall) (agentServers : AgentServers) : MasterDone :=
  processRequestForListeningAtMaster false call.listeners call.os agentServers call.thread call.msg

/-- The test for the agents the request can join. -/
def joins (call : ListenCall) : Option AgentServer → Bool :=
  Option.any (AgentServer.answers call.msg.address call.msg.requestID)

def Same (call other : ListenCall) : Prop :=
  call.msg.address = other.msg.address ∧ call.msg.requestID = other.msg.requestID

instance (call other : ListenCall) : Decidable (call.Same other) :=
  inferInstanceAs (Decidable (_ ∧ _))

/-- The agent of the request: the first it can join, or the next one. -/
def agentOf (call : ListenCall) (agentServers : AgentServers) : Nat :=
  agentServers.findIdx call.joins

/-- The address is one an agent can have. -/
def Kept (call : ListenCall) : Prop := call.msg.port ≠ 0 ∧ call.msg.family = serverFamily

/-- What a successful request does: it joins its agent, or there is a new one at the end. -/
inductive RunsAs (call : ListenCall) (agentServers : AgentServers) : AgentServers → Prop
  | joined (hlt : call.agentOf agentServers < agentServers.length) :
      RunsAs call agentServers (agentServers.modify (call.agentOf agentServers)
        (Option.map (AgentServer.addSlave call.slave)))
  | created {server : AgentServer} (heq : call.agentOf agentServers = agentServers.length)
      (hslaves : server.socketsToSlaves = [call.slave])
      (hid : server.requestID = call.msg.requestID)
      (hport : server.localAddress.port ≠ 0) (hfamily : server.localAddress.family = serverFamily)
      (haddress : call.Kept → server.localAddress = call.msg.address) :
      RunsAs call agentServers (agentServers ++ [some server])

variable {call other : ListenCall} {agentServers after : AgentServers}

theorem put_bound (hbound : agentServers.Bound) (server : AgentServer) :
    agentServers.put server = agentServers ++ [some server] := by
  have hnone : agentServers.findIdx? Option.isNone = none := by
    rw [List.findIdx?_eq_none_iff]
    intro slot hslot
    obtain ⟨server, rfl, -⟩ := hbound slot hslot
    rfl
  rw [AgentServers.put, hnone]

theorem appAgentAtMasterListen_succeeds {os : AgentReplies} (hos : os.succeed) (ip : UInt32)
    (port : UInt16) (server : AgentServer) :
    ∃ server', server.appAgentAtMasterListen os ip port = .ok server' := by
  obtain ⟨-, hbind, hport, hlisten⟩ := hos
  have hne : (if port = 0 then os.port else port) ≠ 0 := by
    split
    · exact hport
    · assumption
  simp [AgentServer.appAgentAtMasterListen, hbind, hlisten, hne]

theorem run_runsAs (hbound : agentServers.Bound) (hos : call.os.succeed) :
    (call.run agentServers).result.isOk = true ∧
      call.RunsAs agentServers (call.run agentServers).agentServers := by
  unfold run processRequestForListeningAtMaster
  split
  · rename_i i hfind
    obtain ⟨hlt, rfl⟩ := List.findIdx?_eq_some_iff_findIdx_eq.mp hfind
    exact ⟨rfl, .joined hlt⟩
  · rename_i hfind
    have heq : call.agentOf agentServers = agentServers.length :=
      List.findIdx?_eq_none_iff_findIdx_eq.mp hfind
    obtain ⟨socket, hsocket⟩ := Option.isSome_iff_exists.mp hos.1
    have hmake : AgentServer.make false call.os =
        .ok { localAddress := { port := call.os.memory }, osSocket := socket } := by
      simp [AgentServer.make, hsocket]
    obtain ⟨server, hserver⟩ := appAgentAtMasterListen_succeeds hos call.msg.address.ip
      call.msg.address.port _
    simp only [hmake, AgentServer.listen, Bool.false_eq_true, if_false]
    rw [hserver]
    dsimp only
    rw [put_bound hbound]
    obtain ⟨p, hp, hport, rfl⟩ := AgentServer.appAgentAtMasterListen_eq_ok hserver
    refine ⟨rfl, .created heq rfl rfl hp rfl ?_⟩
    rintro ⟨hkept, hfamily⟩
    show (⟨p, serverFamily, _⟩ : Address) = _
    rw [hport hkept, ← hfamily]
    rfl

theorem RunsAs.bound (h : call.RunsAs agentServers after) (hbound : agentServers.Bound) :
    after.Bound := by
  cases h with
  | joined hlt =>
    intro slot hslot
    rcases mem_modify hslot with hslot | ⟨old, hold, rfl⟩
    · exact hbound slot hslot
    · obtain ⟨server, rfl, haddress⟩ := hbound old (List.mem_of_getElem? hold)
      exact ⟨_, rfl, haddress⟩
  | created heq hslaves hid hport hfamily haddress =>
    intro slot hslot
    rcases List.mem_append.mp hslot with hslot | hslot
    · exact hbound slot hslot
    · exact ⟨_, List.mem_singleton.mp hslot, hport, hfamily⟩

theorem RunsAs.registers (h : call.RunsAs agentServers after) (hbound : agentServers.Bound) :
    RegistersIn agentServers after call.slave (call.agentOf agentServers) := by
  cases h with
  | joined hlt =>
    constructor
    · obtain ⟨server, hserver, -⟩ := hbound _ (List.getElem_mem hlt)
      simp [AgentServers.slavesAt, List.getElem?_eq_getElem hlt, hserver, AgentServer.addSlave]
    · intro j hj
      rw [AgentServers.slavesAt, List.getElem?_modify_ne _ _ (Ne.symm hj)]
      rfl
  | created heq hslaves hid hport hfamily haddress =>
    rw [heq]
    constructor
    · simp [AgentServers.slavesAt, hslaves]
    · intro j hj
      rw [AgentServers.slavesAt, getElem?_concat_of_ne hj]
      rfl

theorem RunsAs.length_le (h : call.RunsAs agentServers after) :
    agentServers.length ≤ after.length := by
  cases h with
  | joined hlt => simp
  | created heq hslaves hid hport hfamily haddress => simp

theorem RunsAs.agentOf_eq (h : call.RunsAs agentServers after)
    (hlt : other.agentOf agentServers < agentServers.length) :
    other.agentOf after = other.agentOf agentServers := by
  cases h with
  | joined _ =>
    -- registering changes neither the address nor the ID of an agent
    have hsame : ∀ slot, other.joins (Option.map (AgentServer.addSlave call.slave) slot) =
        other.joins slot := by
      rintro (_ | server) <;> rfl
    exact findIdx_modify hsame ..
  | created heq hslaves hid hport hfamily haddress =>
    exact List.findIdx_append.trans (if_pos hlt)

theorem agentOf_of_not_kept (hbound : agentServers.Bound) (hkept : ¬ call.Kept) :
    call.agentOf agentServers = agentServers.length := by
  rw [agentOf, List.findIdx_eq_length]
  intro slot hslot
  obtain ⟨server, rfl, hport, hfamily⟩ := hbound slot hslot
  rw [← Bool.not_eq_true]
  intro hanswers
  have haddress : server.localAddress = ⟨call.msg.port, call.msg.family, call.msg.ip⟩ :=
    (of_decide_eq_true hanswers).1
  rw [haddress] at hport hfamily
  exact hkept ⟨hport, hfamily⟩

theorem RunsAs.length_of_not_kept (h : call.RunsAs agentServers after) (hbound : agentServers.Bound)
    (hkept : ¬ call.Kept) : after.length = agentServers.length + 1 := by
  cases h with
  | joined hlt =>
    rw [agentOf_of_not_kept hbound hkept] at hlt
    exact absurd hlt (Nat.lt_irrefl _)
  | created heq hslaves hid hport hfamily haddress => simp

theorem Same.kept (hsame : call.Same other) (h : other.Kept) : call.Kept :=
  ⟨(congrArg Address.port hsame.1).trans_ne h.1, (congrArg Address.family hsame.1).trans h.2⟩

/-- After a request whose address is kept, its agent is found by every equal request. -/
theorem RunsAs.agentOf_same (h : call.RunsAs agentServers after) (hkept : call.Kept)
    (hsame : call.Same other) :
    other.agentOf after = call.agentOf agentServers ∧ other.agentOf after < after.length := by
  have heq : other.agentOf = call.agentOf := by
    funext servers
    rw [agentOf, agentOf, joins, joins, hsame.1, hsame.2]
  rw [heq]
  cases h with
  | joined hlt =>
    have hrun : call.RunsAs agentServers _ := .joined hlt
    refine ⟨hrun.agentOf_eq hlt, ?_⟩
    rw [hrun.agentOf_eq hlt, List.length_modify]
    exact hlt
  | @created server hlen hslaves hid hport hfamily haddress =>
    have hjoins : call.joins (some server) = true := decide_eq_true ⟨haddress hkept, hid⟩
    have hfind : call.agentOf (agentServers ++ [some server]) = agentServers.length := by
      have hnot : ¬ call.agentOf agentServers < agentServers.length := by omega
      refine List.findIdx_append.trans ((if_neg hnot).trans ?_)
      simp [List.findIdx_cons, hjoins]
    rw [hfind, hlen]
    exact ⟨rfl, by simp⟩

end ListenCall

/-! ## Sequences of requests to listen -/

/-- The requests are processed one after the other, each registered in the agent beside it and
nowhere else. -/
def Placed : AgentServers → List (ListenCall × Nat) → Prop
  | _, [] => True
  | agentServers, (call, i) :: rest =>
      (call.run agentServers).result.isOk = true ∧
        RegistersIn agentServers (call.run agentServers).agentServers call.slave i ∧
        Placed (call.run agentServers).agentServers rest

section Placed

variable {agentServers : AgentServers} {placed : List (ListenCall × Nat)}

theorem Placed.head {call : ListenCall} {i : Nat} (hbound : agentServers.Bound)
    (hos : call.os.succeed) (h : Placed agentServers ((call, i) :: placed)) :
    i = call.agentOf agentServers :=
  h.2.1.unique ((ListenCall.run_runsAs hbound hos).2.registers hbound)

theorem Placed.joined (hbound : agentServers.Bound) (hos : ∀ x ∈ placed, x.1.os.succeed)
    (h : Placed agentServers placed) :
    ∀ x ∈ placed, x.1.agentOf agentServers < agentServers.length →
      x.2 = x.1.agentOf agentServers := by
  induction placed generalizing agentServers with
  | nil => nofun
  | cons head rest ih =>
    obtain ⟨call, i⟩ := head
    obtain ⟨hcall, hrest⟩ := List.forall_mem_cons.mp hos
    have hrun := (ListenCall.run_runsAs hbound hcall).2
    refine List.forall_mem_cons.mpr ⟨fun _ => Placed.head hbound hcall h, ?_⟩
    intro x hx hlt
    have hlt' := Nat.lt_of_lt_of_le hlt hrun.length_le
    rw [← hrun.agentOf_eq hlt] at hlt' ⊢
    exact ih (hrun.bound hbound) hrest h.2.2 x hx hlt'

theorem Placed.created (hbound : agentServers.Bound) (hos : ∀ x ∈ placed, x.1.os.succeed)
    (h : Placed agentServers placed) :
    ∀ x ∈ placed, ¬ x.1.Kept → agentServers.length ≤ x.2 := by
  induction placed generalizing agentServers with
  | nil => nofun
  | cons head rest ih =>
    obtain ⟨call, i⟩ := head
    obtain ⟨hcall, hrest⟩ := List.forall_mem_cons.mp hos
    have hrun := (ListenCall.run_runsAs hbound hcall).2
    refine List.forall_mem_cons.mpr ⟨fun hkept => ?_, ?_⟩
    · show agentServers.length ≤ i
      exact Nat.le_of_eq
        ((Placed.head hbound hcall h).trans (ListenCall.agentOf_of_not_kept hbound hkept)).symm
    · intro x hx hkept
      exact Nat.le_trans hrun.length_le (ih (hrun.bound hbound) hrest h.2.2 x hx hkept)

/-- Equal requests share an agent exactly if their address is kept. -/
theorem placed_iff {calls : List ListenCall} (hbound : agentServers.Bound)
    (hos : ∀ call ∈ calls, call.os.succeed) :
    (∃ placed, placed.map Prod.fst = calls ∧ Placed agentServers placed ∧
      placed.Pairwise fun x y => x.1.Same y.1 → x.2 = y.2) ↔
    calls.Pairwise fun call other => call.Same other → call.Kept := by
  induction calls generalizing agentServers with
  | nil => exact ⟨fun _ => .nil, fun _ => ⟨[], rfl, trivial, .nil⟩⟩
  | cons call calls ih =>
    obtain ⟨hcall, hrest⟩ := List.forall_mem_cons.mp hos
    obtain ⟨hok, hrun⟩ := ListenCall.run_runsAs hbound hcall
    have hbound' := hrun.bound hbound
    have hcalls : ∀ placed : List (ListenCall × Nat), placed.map Prod.fst = calls →
        ∀ x ∈ placed, x.1 ∈ calls := by
      rintro placed rfl x hx
      exact List.mem_map_of_mem hx
    rw [List.pairwise_cons, ← ih hbound' hrest]
    constructor
    · rintro ⟨placed, hmap, hplaced, hpair⟩
      obtain ⟨⟨c, i⟩, placed, rfl, rfl, hrestmap⟩ := List.map_eq_cons_iff.mp hmap
      have hos' : ∀ x ∈ placed, x.1.os.succeed :=
        fun x hx => hrest _ (hcalls placed hrestmap x hx)
      obtain ⟨hhead, htail⟩ := List.pairwise_cons.mp hpair
      refine ⟨?_, placed, hrestmap, hplaced.2.2, htail⟩
      intro other hother hsame
      obtain ⟨⟨d, j⟩, hmem, rfl⟩ := List.mem_map.mp (hrestmap ▸ hother)
      by_contra hkept
      -- the agent of the second request comes after that of the first
      have hafter := Placed.created hbound' hos' hplaced.2.2 (d, j) hmem fun h =>
        hkept (hsame.kept h)
      have hplace : i = agentServers.length :=
        (Placed.head hbound hcall hplaced).trans (ListenCall.agentOf_of_not_kept hbound hkept)
      have hshared : i = j := hhead (d, j) hmem hsame
      have hlength := hrun.length_of_not_kept hbound hkept
      dsimp only at hafter hlength
      omega
    · rintro ⟨hhead, placed, hmap, hplaced, hpair⟩
      have hos' : ∀ x ∈ placed, x.1.os.succeed := fun x hx => hrest _ (hcalls placed hmap x hx)
      refine ⟨(call, call.agentOf agentServers) :: placed, by rw [List.map_cons, hmap],
        ⟨hok, hrun.registers hbound, hplaced⟩, List.pairwise_cons.mpr ⟨?_, hpair⟩⟩
      intro x hx hsame
      have hkept := hhead x.1 (hcalls placed hmap x hx) hsame
      obtain ⟨heq, hlt⟩ := hrun.agentOf_same hkept hsame
      rw [Placed.joined hbound' hos' hplaced x hx hlt]
      exact heq.symm

end Placed

/-- In any sequence of requests to listen each is registered in exactly one agent; equal requests
are all registered in the same one if and only if no two of them have port 0, or a family other
than that of the manager. -/
theorem equal_requests_share_iff (calls : List ListenCall)
    (hos : ∀ call ∈ calls, call.os.succeed) :
    (∃ placed, placed.map Prod.fst = calls ∧ Placed [] placed ∧
      placed.Pairwise fun x y => x.1.Same y.1 → x.2 = y.2) ↔
    calls.Pairwise fun call other =>
      call.Same other → call.msg.port ≠ 0 ∧ call.msg.family = serverFamily :=
  placed_iff nofun hos

def listenCall (slotId : UInt64) (port : UInt16) : ListenCall :=
  { thread := ⟨slotId, 1⟩, msg := ⟨1, 5, 0x7f000001, port, 16, serverFamily⟩,
    os := ⟨some slotId, true, 0xc000 + slotId.toUInt16, true, 0⟩ }

theorem equal_requests_share_iff_port :
    ∃ placed, placed.map Prod.fst = [listenCall 1 8080, listenCall 2 8080] ∧ Placed [] placed ∧
      placed.Pairwise fun x y => x.1.Same y.1 → x.2 = y.2 :=
  (equal_requests_share_iff [listenCall 1 8080, listenCall 2 8080]
    (by decide)).mpr (by decide)

/-- Two equal requests for port 0, both successful, and two agents. -/
theorem requests_for_port_zero_apart :
    (listenCall 1 0).Same (listenCall 2 0) ∧
      let first := ((listenCall 1 0).run []).agentServers
      let second := ((listenCall 2 0).run first).agentServers
      second.length = 2 ∧ second.slavesAt 0 = [(listenCall 1 0).slave] ∧
        second.slavesAt 1 = [(listenCall 2 0).slave] :=
  ⟨⟨rfl, rfl⟩, rfl, rfl, rfl⟩

end NodeCpp
