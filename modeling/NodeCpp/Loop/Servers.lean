import NodeCpp.Loop.Runs

/-!
# Servers and their accepted sockets

What the operations of the registry do to the states of the servers and to the
sockets they own (`Op.run_roster`), and in which phases of the loop the
infrastructure performs them (`Loop.step_ops`).
-/

namespace NodeCpp

open Lib

variable {i idx n o s : Nat} {obj : SocketObj} {ops : List Op} {q : QueueId} {slot : Slot}
  {srv : ServerObj}

/-! ## The roster -/

def ServerState.closed : ServerState → Bool
  | .BeingClosed | .Closed => true
  | .Unused | .Listening => false

/-- The states of the servers, for every socket whether it is alive and its `myServerSocket`, and
what the counters of the servers started from. -/
@[ext]
structure Roster where
  states : List ServerState
  owners : List (Bool × Option Nat)
  counters : List UInt64
  deriving DecidableEq, Repr

namespace Registry

@[simps]
def roster (r : Registry) : Roster where
  states := r.servers.map (·.state)
  owners := r.sockets.map fun obj => (obj.alive, obj.server)
  counters := r.servers.map (·.cnt)

/-- The state of a server, destructed or not. -/
def stateOf (r : Registry) (s : Nat) : Option ServerState := r.roster.states[s]?

def closedServer (r : Registry) (s : Nat) : Bool := (r.stateOf s).any ServerState.closed

theorem acceptedCount_eq (r : Registry) (s : Nat) :
    r.acceptedCount s = r.roster.owners.countP fun x => x.1 && decide (x.2 = some s) := by
  rw [roster_owners, List.countP_map]
  rfl

end Registry

def Op.onRoster (r : Registry) : Op → Roster
  | .construct _ owner => { r.roster with owners := r.roster.owners ++ [(true, owner)] }
  | .constructServer _ cnt =>
      { r.roster with
        states := r.roster.states ++ [ServerState.Unused]
        counters := r.roster.counters ++ [cnt] }
  | .destruct (.client o) =>
      { r.roster with owners := r.roster.owners.modify o fun x => (false, x.2) }
  | .serverState s state => { r.roster with states := r.roster.states.set s state }
  | .listening i =>
      match r.server i with
      | .ok (s, _) => { r.roster with states := r.roster.states.set s .Listening }
      | .error _ => r.roster
  | _ => r.roster

namespace Registry

variable {r r' : Registry}

theorem map_setSocket {obj' : SocketObj} (h : r.liveSocket o = some obj)
    (halive : obj'.alive = obj.alive) (hserver : obj'.server = obj.server) :
    (r.sockets.set o obj').map (fun obj => (obj.alive, obj.server)) = r.roster.owners := by
  obtain ⟨hget, -⟩ := liveSocket_eq_some h
  exact Lib.map_set_of_eq hget (by rw [halive, hserver])

theorem sockAt_roster {c : SockCall} (hobj : r.liveSocket o = some obj)
    (h : r.sockAt o obj idx c = .ok r') : r'.roster = r.roster := by
  obtain ⟨u, -, h⟩ := bind_eq_ok h
  obtain ⟨t, -, h⟩ := bind_eq_ok h
  cases h
  exact Roster.ext rfl (map_setSocket hobj rfl rfl) rfl

theorem destruct_roster {e : Emitter} (h : r.destruct e = .ok r') :
    r'.roster = (Op.destruct e).onRoster r := by
  cases destruct_cases h with
  | client hobj ht =>
    refine Roster.ext rfl ?_ rfl
    simp only [roster_owners, Op.onRoster, List.map_set]
    rw [List.modify_eq_set_getElem?, List.getElem?_map, (liveSocket_eq_some hobj).1]
    rfl
  | server hobj ht =>
    have hget := (liveServer_eq_some hobj).1
    exact Roster.ext (Lib.map_set_of_eq hget rfl) rfl (Lib.map_set_of_eq hget rfl)

theorem updateIndices_roster (r : Registry) (t : NetSockets) :
    (r.updateIndices t).roster = r.roster := by
  refine Roster.ext (List.ext_getElem? fun k => ?_) (List.ext_getElem? fun k => ?_)
    (List.ext_getElem? fun k => ?_)
  all_goals simp [updateIndices, Function.comp_def]

end Registry

open Registry in
theorem Op.run_roster {r r' : Registry} {op : Op} (h : op.run r = .ok r') :
    r'.roster = op.onRoster r := by
  cases op with
  | construct osSocket owner =>
    obtain ⟨t, -, h⟩ := bind_eq_ok h
    cases h
    exact Roster.ext rfl (List.map_append ..) rfl
  | constructServer osSocket cnt =>
    obtain ⟨t, -, h⟩ := bind_eq_ok h
    cases h
    exact Roster.ext (List.map_append ..) rfl (List.map_append ..)
  | destruct e => exact destruct_roster h
  -- the table only
  | setAssociated idx | setSocketClosed idx | resetEntry idx | changePoll idx c
  | setRefed idx refed =>
    obtain ⟨t, -, rfl⟩ := onTable_eq_ok h
    rfl
  | poll ready | start q =>
    cases h
    rfl
  | reworkIfNecessary =>
    obtain ⟨-, t, t', -, -, rfl⟩ := reworkIfNecessary_eq_ok h
    split
    · -- the objects get new indices, which the roster leaves out
      exact updateIndices_roster r t'
    · rfl
  | check holds =>
    simp only [run] at h
    split at h <;> cases h
    rfl
  | at' idx | client i | server i =>
    rw [map_const_eq_ok h]
    rfl
  -- the data of one socket
  | sock o c =>
    simp only [run, Registry.sock] at h
    split at h
    · cases h
    · rename_i hobj
      exact sockAt_roster hobj h
  | entrySock i c =>
    obtain ⟨⟨o, obj⟩, hclient, h⟩ := bind_eq_ok h
    obtain ⟨-, -, -, -, hobj⟩ := client_eq_ok hclient
    exact sockAt_roster hobj h
  -- these two set the state of a server
  | serverState s state =>
    simp only [run, Registry.serverState] at h
    split at h
    · cases h
    · rename_i hobj
      cases h
      exact Roster.ext (List.map_set ..) rfl
        (Lib.map_set_of_eq (liveServer_eq_some hobj).1 rfl)
  | listening i =>
    obtain ⟨-, -, h⟩ := bind_eq_ok h
    obtain ⟨⟨n, obj⟩, hserver, h⟩ := bind_eq_ok h
    cases h
    obtain ⟨-, -, -, -, hobj⟩ := server_eq_ok hserver
    simp only [onRoster, hserver]
    exact Roster.ext (List.map_set ..) rfl (Lib.map_set_of_eq (liveServer_eq_some hobj).1 rfl)
  -- the vectors of events only
  | queue q hq e =>
    simp only [run, Registry.queueEvent] at h
    split at h <;> cases h
    rfl
  | queueServerError i =>
    simp only [run, Registry.queueServerError] at h
    split at h <;> cases h
    rfl
  | clear q =>
    obtain ⟨-, -, -, rfl⟩ := clear_eq_ok h
    rfl
  | finish q =>
    obtain ⟨-, -, rfl⟩ := endPass_eq_ok h
    rfl
  | take q =>
    obtain ⟨ev, rest, -, -, rfl⟩ := take_eq_ok h
    rfl
  | beginClose =>
    simp only [run, Registry.beginClose] at h
    split at h
    · obtain ⟨s, -, h⟩ := bind_eq_ok h
      obtain ⟨⟨o, obj⟩, hclient, h⟩ := bind_eq_ok h
      obtain ⟨t, -, h⟩ := bind_eq_ok h
      cases h
      obtain ⟨-, -, -, -, hobj⟩ := client_eq_ok hclient
      exact Roster.ext rfl (map_setSocket hobj rfl rfl) rfl
    · cases h
  | endClose i =>
    simp only [run, Registry.endClose] at h
    split at h
    · obtain ⟨t, -, h⟩ := bind_eq_ok h
      cases h
      rfl
    · cases h

namespace Registry

variable {r r' : Registry} {op : Op}

theorem stateOf_live (h : r.liveServer s = some srv) : r.stateOf s = some srv.state := by
  obtain ⟨hget, -⟩ := liveServer_eq_some h
  rw [stateOf, roster_states, List.getElem?_map, hget]
  rfl

theorem stateOf_server (h : r.server i = .ok (s, srv)) : r.stateOf s = some srv.state := by
  obtain ⟨-, -, -, -, hlive⟩ := server_eq_ok h
  exact stateOf_live hlive

inductive StateStep (r : Registry) (s : Nat) (op : Op) (r' : Registry) : Prop
  | same (hop : ∀ state, op ≠ .serverState s state) (h : r'.stateOf s = r.stateOf s)
  | new (osSocket : Nat) (cnt : UInt64) (hop : op = .constructServer osSocket cnt)
      (h : r.stateOf s = none)
      (h' : r'.stateOf s = some .Unused)
  | set (state : ServerState) (hop : op = .serverState s state) (h' : r'.stateOf s = some state)
  | listening (i : Nat) (srv : ServerObj) (hop : op = .listening i)
      (hserver : r.server i = .ok (s, srv)) (h' : r'.stateOf s = some .Listening)

theorem stateStep (h : op.run r = .ok r') (s : Nat) : StateStep r s op r' := by
  have hroster := op.run_roster h
  have hsame : (∀ state, op ≠ .serverState s state) → r'.roster.states = r.roster.states →
      StateStep r s op r' := fun hop heq => .same hop (by rw [stateOf, stateOf, heq])
  cases op with
  | constructServer osSocket cnt =>
    have hstate : r'.stateOf s = (r.roster.states ++ [ServerState.Unused])[s]? := by
      rw [stateOf, hroster]
      rfl
    by_cases hs : s = r.roster.states.length
    · -- the new server itself
      subst hs
      refine .new osSocket cnt rfl (List.getElem?_eq_none (Nat.le_refl _)) ?_
      rw [hstate, List.getElem?_concat_length]
    · exact .same (by simp) (hstate.trans (Lib.getElem?_concat_of_ne hs))
  | serverState n state =>
    by_cases hn : n = s
    · -- the state of the server itself
      subst hn
      refine .set state rfl ?_
      simp only [Op.run, serverState] at h
      split at h
      · cases h
      rename_i obj hobj
      cases h
      obtain ⟨hget, -⟩ := liveServer_eq_some hobj
      obtain ⟨hlt, -⟩ := List.getElem?_eq_some_iff.mp hget
      simp [stateOf, hlt]
    · refine .same (by simp [hn]) ?_
      rw [stateOf, hroster]
      exact List.getElem?_set_ne hn
  | listening i =>
    obtain ⟨-, -, h⟩ := bind_eq_ok h
    obtain ⟨⟨n, srv⟩, hserver, h⟩ := bind_eq_ok h
    simp only [Op.onRoster, hserver] at hroster
    by_cases hn : n = s
    · subst hn
      -- an event of the server itself
      refine .listening i srv rfl hserver ?_
      have hlive := stateOf_server hserver
      obtain ⟨hlt, -⟩ := List.getElem?_eq_some_iff.mp hlive
      rw [stateOf, hroster]
      exact List.getElem?_set_self hlt
    · refine .same (by simp) ?_
      rw [stateOf, hroster]
      exact List.getElem?_set_ne hn
  | destruct e => cases e <;> exact hsame (by simp) (by rw [hroster]; rfl)
  | _ => exact hsame (by simp) (by rw [hroster]; rfl)

end Registry

/-! ## The sockets of a server -/

/-- `myServerSocket` of the sockets, in the order of their construction. -/
def Registry.origins (r : Registry) : List (Option Nat) := r.roster.owners.map Prod.snd

def Op.origin : Op → List (Option Nat)
  | .construct _ owner => [owner]
  | _ => []

theorem Op.run_origins {r r' : Registry} {op : Op} (h : op.run r = .ok r') :
    r'.origins = r.origins ++ op.origin := by
  rw [Registry.origins, op.run_roster h]
  cases op with
  | construct osSocket owner => exact List.map_append ..
  | destruct e =>
    refine Eq.trans ?_ (List.append_nil _).symm
    cases e with
    | client o =>
      refine List.ext_getElem? fun k => ?_
      simp only [onRoster, Registry.origins, List.getElem?_map, List.getElem?_modify]
      split <;> cases r.roster.owners[k]? <;> rfl
    | server n => rfl
  | listening i =>
    simp only [onRoster, origin, List.append_nil]
    split <;> rfl
  | _ => exact (List.append_nil _).symm

theorem Registry.run_origins {r r' : Registry} (h : registry.run r ops = some r') :
    r'.origins = r.origins ++ ops.flatMap Op.origin := by
  induction ops generalizing r with
  | nil =>
    cases h
    exact (List.append_nil _).symm
  | cons op ops ih =>
    obtain ⟨r₁, hstep, hrest⟩ := registry.run_cons h
    rw [ih hrest, op.run_origins (toOption_eq_some hstep), List.append_assoc, List.flatMap_cons]

/-- The accepted sockets of a server are the same unless one of them is constructed or destructed. -/
theorem Op.run_acceptedCount {r r' : Registry} {op : Op} (h : op.run r = .ok r')
    (hconstruct : ∀ osSocket, op ≠ .construct osSocket (some n))
    (hdestruct : ∀ o, op = .destruct (.client o) → r.origins[o]? ≠ some (some n)) :
    r'.acceptedCount n = r.acceptedCount n := by
  have hroster := op.run_roster h
  have hsame : r'.roster.owners = r.roster.owners → r'.acceptedCount n = r.acceptedCount n := by
    intro heq
    rw [Registry.acceptedCount_eq, heq, ← Registry.acceptedCount_eq]
  cases op with
  | construct osSocket owner =>
    have hne : owner ≠ some n := by
      rintro rfl
      exact hconstruct osSocket rfl
    rw [Registry.acceptedCount_eq, hroster, Registry.acceptedCount_eq]
    simp [onRoster, hne]
  | destruct e =>
    cases e with
    | server s => exact hsame (by rw [hroster]; rfl)
    | client o =>
      have hother := hdestruct o rfl
      rw [Registry.acceptedCount_eq, hroster, Registry.acceptedCount_eq]
      simp only [onRoster, List.modify_eq_set_getElem?]
      cases hget : r.roster.owners[o]? with
      -- no socket under that number
      | none => rfl
      | some x =>
        -- a socket of another server, or of none
        have hne : x.2 ≠ some n := by
          intro hx
          exact hother (by rw [Registry.origins, List.getElem?_map, hget, ← hx]; rfl)
        have hcount := Lib.countP_set_add (p := fun x => x.1 && decide (x.2 = some n))
          (b := (false, x.2)) hget
        simpa [hne] using hcount
  | listening i =>
    refine hsame ?_
    rw [hroster, onRoster]
    split <;> rfl
  | _ => exact hsame (by rw [hroster]; rfl)

theorem Registry.owner_of_live {r : Registry} (h : r.liveSocket o = some obj) :
    r.roster.owners[o]? = some (true, obj.server) := by
  obtain ⟨hget, halive⟩ := liveSocket_eq_some h
  rw [roster_owners, List.getElem?_map, hget, Option.map_some, halive]

theorem Registry.origin_of_live {r : Registry} (h : r.liveSocket o = some obj) :
    r.origins[o]? = some obj.server := by
  rw [origins, List.getElem?_map, owner_of_live h]
  rfl

theorem Registry.acceptedCount_destruct {r r' : Registry}
    (howner : r.roster.owners[o]? = some (true, some n))
    (h : (Op.destruct (.client o)).run r = .ok r') : r'.acceptedCount n + 1 = r.acceptedCount n := by
  rw [acceptedCount_eq, (Op.destruct (.client o)).run_roster h, acceptedCount_eq]
  simp only [Op.onRoster, List.modify_eq_set_getElem?, howner]
  have hcount := Lib.countP_set_add (p := fun x => x.1 && decide (x.2 = some n))
    (b := (false, some n)) howner
  simpa using hcount

theorem Op.run_acceptedCount_le {r r' : Registry} {op : Op} (h : op.run r = .ok r')
    (hconstruct : ∀ osSocket, op ≠ .construct osSocket (some n)) :
    r'.acceptedCount n ≤ r.acceptedCount n := by
  by_cases hdestruct : ∃ o, op = .destruct (.client o) ∧ r.origins[o]? = some (some n)
  · obtain ⟨o, rfl, horigin⟩ := hdestruct
    obtain ⟨obj, hlive⟩ : ∃ obj, r.liveSocket o = some obj := by
      cases Registry.destruct_cases (e := .client o) h with
      | client hlive => exact ⟨_, hlive⟩
    have howner := Registry.owner_of_live hlive
    rw [Registry.origin_of_live hlive, Option.some.injEq] at horigin
    rw [horigin] at howner
    have hcount := Registry.acceptedCount_destruct howner h
    omega
  · refine le_of_eq (op.run_acceptedCount h hconstruct fun o hop horigin => ?_)
    exact hdestruct ⟨o, hop, horigin⟩

theorem Registry.acceptedCount_pos {r : Registry} (h : r.liveSocket o = some obj)
    (hserver : obj.server = some s) : 0 < r.acceptedCount s := by
  obtain ⟨hget, halive⟩ := liveSocket_eq_some h
  exact List.countP_pos_iff.mpr ⟨obj, List.mem_of_getElem? hget, by simp [halive, hserver]⟩

/-! ## What the counter of a server says -/

/-- The counters of the servers started from 0 and can count all sockets. -/
structure Registry.CountsExactly (r : Registry) : Prop where
  zero : ∀ c ∈ r.roster.counters, c = 0
  few : r.roster.owners.length < 2 ^ 64

/-- The condition on an operation: a new server finds 0 in the place of its counter, and there are
fewer than `2 ^ 64` sockets. -/
def Op.countsExactly (r : Registry) : Op → Bool
  | .constructServer _ cnt => decide (cnt = 0)
  | .construct .. => decide (r.sockets.length + 1 < 2 ^ 64)
  | _ => true

namespace Registry.CountsExactly

variable {r r' : Registry} {op : Op}

theorem init : Registry.init.CountsExactly := ⟨nofun, by decide⟩

/-- The step lemma. -/
theorem step (h : r.CountsExactly) (hop : op.countsExactly r) (hrun : op.run r = .ok r') :
    r'.CountsExactly := by
  obtain ⟨hzero, hfew⟩ := h
  have hroster := op.run_roster hrun
  have hsame : r'.roster.counters = r.roster.counters →
      r'.roster.owners.length = r.roster.owners.length → r'.CountsExactly :=
    fun hcounters howners => ⟨hcounters ▸ hzero, howners ▸ hfew⟩
  cases op with
  | construct osSocket owner =>
    refine ⟨by rw [hroster]; exact hzero, ?_⟩
    rw [hroster]
    simpa [Op.onRoster, Op.countsExactly] using hop
  | constructServer osSocket cnt =>
    refine ⟨?_, by rw [hroster]; exact hfew⟩
    rw [hroster]
    intro c hc
    rcases List.mem_append.mp hc with hc | hc
    · exact hzero c hc
    · rw [List.mem_singleton.mp hc]
      exact of_decide_eq_true hop
  | destruct e =>
    cases e <;> exact hsame (by rw [hroster]; rfl) (by rw [hroster]; simp [Op.onRoster])
  | listening i =>
    refine hsame ?_ ?_ <;>
    · rw [hroster, Op.onRoster]
      split <;> rfl
  | _ => exact hsame (by rw [hroster]; rfl) (by rw [hroster]; rfl)

theorem toNat_getSockCount (h : r.CountsExactly) (s : Nat) :
    (r.getSockCount s).toNat = r.acceptedCount s := by
  have hcnt : ((r.servers[s]?).map ServerObj.cnt).getD 0 = 0 := by
    cases hs : r.servers[s]? with
    | none => rfl
    | some srv => exact h.zero _ (List.mem_map_of_mem (List.mem_of_getElem? hs))
  have hle : r.acceptedCount s ≤ r.sockets.length := List.countP_le_length
  have hfew : r.sockets.length < 2 ^ 64 := by simpa using h.few
  rw [getSockCount, hcnt, UInt64.add_zero, UInt64.toNat_ofNat_of_lt' (Nat.lt_of_le_of_lt hle hfew)]

theorem getSockCount_eq_iff (h : r.CountsExactly) (s : Nat) {c : UInt64} :
    r.getSockCount s = c ↔ r.acceptedCount s = c.toNat := by
  rw [← UInt64.toNat_inj, h.toNat_getSockCount]

end Registry.CountsExactly

theorem Registry.run_roster {r r' : Registry} (h : registry.run r ops = some r')
    (hops : ∀ op ∈ ops, ∀ r, op.onRoster r = r.roster) : r'.roster = r.roster := by
  refine registry.run_kept_of_mem (J := fun r₁ => r₁.roster = r.roster) ?_ rfl hops h
  intro r₁ op r₂ hJ hop hstep
  rw [op.run_roster (toOption_eq_some hstep), hop, hJ]

/-! ## Closed slots of servers -/

/-- The operations behind some steps of the ownership model. -/
def ViewOp.ComesFrom (op : Op) : ViewOp → Prop
  | .renumber => op = .reworkIfNecessary
  | .shut i => op = .setSocketClosed i
  | .clear q => op = .clear q
  | .beginClose e _ => ∃ o, e = .client o
  | _ => True

theorem Op.abs_comesFrom (r : Registry) (op : Op) : (op.abs r).ComesFrom op := by
  cases op
  case beginClose =>
    simp only [abs]
    split
    · split
      · exact ⟨_, rfl⟩
      · trivial
    · trivial
  all_goals
    simp only [abs, Registry.absSock]
    (try split) <;> trivial

/-- The closed slot of a server was closed before, or is closed now by `setSocketClosed`. -/
theorem Op.closed_slot {r r' : Registry} {op : Op} (hsound : r.Sound) (hrun : op.run r = .ok r')
    {s : SlotView} (hs : r'.view.slot i = some s) (hclosed : s.state = .SockClosed)
    (he : s.emitter = some (.server n)) :
    (∃ j s₀, r.view.slot j = some s₀ ∧ s₀.state = .SockClosed ∧ s₀.emitter = some (.server n) ∧
        (j = i ∨ op = .reworkIfNecessary)) ∨
      (op = .setSocketClosed i ∧ r.view.holder i = some (.server n)) := by
  have hstep := op.run_step hsound hrun
  have hfrom := op.abs_comesFrom r
  by_cases hop : op.abs r = .renumber
  · -- the compaction moves closed slots
    have hrework : op = .reworkIfNecessary := by rwa [hop] at hfrom
    rw [hop] at hstep
    cases hstep with
    | renumber hcurrent hrenum =>
      obtain ⟨j, s₀, hs₀, -, rfl⟩ := hrenum.moved i s hs (by simp [SlotView.used, hclosed])
      exact .inl ⟨j, s₀, hs₀, hclosed, he, .inr hrework⟩
  · obtain ⟨s₀, hs₀, hclosed₀, he₀⟩ | ⟨hshut, hholder⟩ | ⟨e, hbegin, he'⟩ :=
      hstep.closed_at hsound.consistent hop hs hclosed
    · exact .inl ⟨i, s₀, hs₀, hclosed₀, he₀.trans he, .inl rfl⟩
    · rw [hshut] at hfrom
      exact .inr ⟨hfrom, hholder.trans he⟩
    · -- a close event is processed: the slot is that of a client
      rw [hbegin] at hfrom
      obtain ⟨o, rfl⟩ := hfrom
      cases he'.symm.trans he

/-! ## What the operations push and take -/

/-- An event is pushed for a live object under the index it remembers, or it is the error of a
server. -/
theorem Op.mem_pushed {r r' : Registry} {op : Op} (hq : q ≠ .close) (hrun : op.run r = .ok r')
    {ev : Pending} (h : ev ∈ (op.abs r).pushed q) :
    (∃ hq', op = .queue q hq' ev.owner ∧ r.indexOf ev.owner = some ev.idx) ∨
      ∃ i, op = .queueServerError i ∧ q = .serverClose := by
  cases op
  case queue q' hq' e =>
    simp only [abs, ViewOp.pushed] at h
    split at h
    · rename_i heq
      subst heq
      cases List.mem_singleton.mp h
      simp only [run, Registry.queueEvent] at hrun
      split at hrun
      · cases hrun
      · rename_i idx hidx
        exact .inl ⟨hq', rfl, by rw [hidx]; rfl⟩
    · cases h
  case queueServerError i =>
    refine .inr ⟨i, rfl, ?_⟩
    simp only [abs] at h
    split at h
    · simp only [ViewOp.pushed] at h
      split at h
      · assumption
      · cases h
    · cases h
  -- no other operation pushes onto a vector but that of close events
  all_goals
    simp only [abs, Registry.absSock] at h
    (try split at h) <;> (try split at h) <;> simp [ViewOp.pushed, hq] at h

theorem Op.taken_eq_nil {r : Registry} {op : Op} (hq : q ≠ .close) (h : op ≠ .take q) :
    (op.abs r).taken r.view q = [] := by
  cases op
  case take q' => exact if_neg fun heq => h (by rw [heq])
  all_goals
    simp only [abs, Registry.absSock]
    (try split) <;> (try split) <;> simp [ViewOp.taken, hq]

def Registry.pendingOf (r : Registry) (q : QueueId) (e : Emitter) : Nat :=
  (r.queue q).events.countP fun ev => decide (ev.owner = e)

def Op.queues (q : QueueId) (e : Emitter) : Op → Bool
  | .queue q' _ e' => decide (q' = q) && decide (e' = e)
  | _ => false

def Op.takes (r : Registry) (q : QueueId) (e : Emitter) : Op → Bool
  | .take q' => decide (q' = q) && (r.queue q).batch.head?.any fun ev => decide (ev.owner = e)
  | _ => false

theorem Op.countP_pushed {r : Registry} {op : Op} (hq : q ≠ .close)
    (herror : q = .serverClose → ∀ i, op ≠ .queueServerError i) (e : Emitter) :
    ((op.abs r).pushed q).countP (fun ev => decide (ev.owner = e)) = (op.queues q e).toNat := by
  cases op
  case queue q' hq' e' =>
    simp only [abs, ViewOp.pushed, queues]
    by_cases hqq : q = q'
    · by_cases he : e' = e <;> simp [hqq, he]
    · simp [hqq, Ne.symm hqq]
  case queueServerError i =>
    have hne : q ≠ .serverClose := fun h => herror h i rfl
    simp only [abs, queues]
    split <;> simp [ViewOp.pushed, hne]
  all_goals
    simp only [abs, Registry.absSock, queues]
    (try split) <;> (try split) <;> simp [ViewOp.pushed, hq]

theorem Op.takes_of_ne {r : Registry} {op : Op} {e : Emitter} (h : op ≠ .take q) :
    op.takes r q e = false := by
  cases op
  case take q' =>
    have hne : q' ≠ q := fun heq => h (by rw [heq])
    simp [takes, hne]
  all_goals rfl

theorem Op.countP_taken {r r' : Registry} {op : Op} (hq : q ≠ .close) (hrun : op.run r = .ok r')
    (e : Emitter) :
    ((op.abs r).taken r.view q).countP (fun ev => decide (ev.owner = e)) =
      (op.takes r q e).toNat := by
  by_cases hop : op = .take q
  · subst hop
    obtain ⟨ev, rest, hbatch, -⟩ := Registry.take_eq_ok hrun
    have htaken : ((Op.take q).abs r).taken r.view q = [ev] := by
      show (if q = q then (r.queue q).batch.take 1 else []) = _
      rw [if_pos rfl, hbatch]
      rfl
    rw [htaken]
    by_cases he : ev.owner = e <;> simp [takes, hbatch, he]
  · rw [Op.taken_eq_nil hq hop, Op.takes_of_ne hop]
    rfl

/-- The balance of the events of an object. -/
theorem Op.run_pendingOf {r r' : Registry} {op : Op} (hsound : r.Sound) (hq : q ≠ .close)
    (hclear : op ≠ .clear q) (herror : q = .serverClose → ∀ i, op ≠ .queueServerError i)
    (hrun : op.run r = .ok r') (e : Emitter) :
    r'.pendingOf q e + (op.takes r q e).toNat = r.pendingOf q e + (op.queues q e).toNat := by
  have hevents := (op.run_step hsound hrun).events_eq (q := q) fun habs => by
    have hfrom := op.abs_comesFrom r
    rw [habs] at hfrom
    exact hclear hfrom
  have hcount := congrArg (List.countP fun ev => decide (ev.owner = e)) hevents
  rw [List.countP_append, List.countP_append, Op.countP_taken hq hrun e,
    Op.countP_pushed hq herror e] at hcount
  rw [Nat.add_comm]
  exact hcount

/-! ## Where the operations are performed -/

/-- The phase that takes the events of a vector. -/
def QueueId.pass : QueueId → Phase
  | .close => .infraGetCloseEvent
  | .accepted => .infraProcessSockAcceptedEvents
  | .serverClose => .infraGetCloseEvents
  | .listen => .infraEmitListeningEvents

/-- The phases in which the infrastructure performs the operations on objects and event vectors. -/
def Op.Belongs (ph : Phase) : Op → Prop
  | .construct .. => ∃ pos, ph = .pollPhase2 pos
  | .constructServer .. | .setSocketClosed _ => False
  | .destruct _ => ∃ idx o, ph = .onFinalCleanup idx o
  | .reworkIfNecessary => ph = .reworkIfNecessary
  | .serverState _ state => ph = .infraGetCloseEvents ∧ state = .Closed
  | .queue q _ e =>
      (q = .accepted ∧ (∃ o, e = .client o) ∧ ∃ pos, ph = .pollPhase2 pos) ∨
        (q = .serverClose ∧ (∃ s, e = .server s) ∧ ∃ idx o, ph = .onFinalCleanup idx o)
  | .take q | .finish q => ph = q.pass
  | .clear q => ph = q.pass ∧ (q = .close ∨ q = .serverClose)
  | .resetEntry idx => ph = .resetServer idx
  | _ => True

namespace Loop

variable {k : Ctl} {r : Registry} {env : Env} {p : Plan}

/-- The poll pass reads from and writes to the socket it is at, or the server it is at accepts a
connection. -/
inductive PollOps (r : Registry) (i : Nat) : List Op → Prop
  | entry {ops : List Op} (h : ∀ op ∈ ops, ∃ c, op = .entrySock i c) : PollOps r i ops
  | accept {slot : Slot} {s : Nat} {srv : ServerObj} (osSocket : Nat)
      (hslot : r.ioSockets.slots[i]? = some slot) (hassociated : slot.associated)
      (hserver : r.server i = .ok (s, srv)) :
      PollOps r i (Program.consumeAcceptedSocket r i s osSocket)

theorem infraCheckPollFdSet_ops (cur : Nat) (revents : Revents) (pos : PollPos) :
    PollOps r cur (infraCheckPollFdSet k r cur revents pos env).1 := by
  refine .entry ?_
  unfold infraCheckPollFdSet infraProcessReadEvent failed
  repeat' split
  all_goals simp

theorem infraCheckServer_ops {cur : Nat} (hslot : r.ioSockets.slots[cur]? = some slot)
    (hassociated : slot.associated) (revents : Revents) (pos : PollPos) :
    PollOps r cur (infraCheckServer k r cur revents pos env).1 := by
  unfold infraCheckServer
  cases hserver : r.server cur with
  | error e => exact .entry (by simp [failed])
  | ok x =>
    dsimp only
    split
    · cases env.accepted with
      | none => exact .entry (by simp)
      | some osSocket => exact .accept osSocket hslot hassociated hserver
    · exact .entry (by simp)

theorem pollPhase2_ops (pos : PollPos) : PollOps r pos.i (pollPhase2 k r pos env).1 := by
  have hnone : ∀ {f : Registry → Ctl}, PollOps r pos.i (([], f) : Plan).1 := .entry (by simp)
  unfold pollPhase2
  split
  · exact hnone
  · split
    · exact hnone
    · split
      · exact hnone
      · rename_i slot hslot
        split
        · exact hnone
        · split
          · exact hnone
          · split
            · exact hnone
            · rename_i hassociated
              dsimp only
              split
              · exact infraCheckPollFdSet_ops _ _ _
              · exact infraCheckServer_ops hslot (by simpa using hassociated) _ _
              · exact hnone

theorem PollOps.belongs (h : PollOps r i ops) (pos : PollPos) :
    ∀ op ∈ ops, op.Belongs (.pollPhase2 pos) := by
  cases h with
  | entry h =>
    intro op hop
    obtain ⟨c, rfl⟩ := h op hop
    trivial
  | accept osSocket hslot hassociated hserver =>
    simp [Program.consumeAcceptedSocket, Program.infraAddAccepted, Op.Belongs]

theorem onFinalCleanup_ops (idx o : Nat) {ph : Phase} (hph : ph = .onFinalCleanup idx o) :
    ∀ op ∈ (onFinalCleanup k r idx o).1, op.Belongs ph := by
  subst hph
  simp only [onFinalCleanup, Program.onFinalCleanup, Program.destructSocket,
    Program.appReportAllAceptedConnectionsEnded, failed]
  repeat' split
  all_goals simp [Op.Belongs]

theorem step_ops (hp : step k r env = some p) : ∀ op ∈ p.1, op.Belongs k.phase := by
  unfold step at hp
  generalize hphase : k.phase = ph at hp
  cases ph with
  | pollPhase2 pos =>
    cases hp
    exact (pollPhase2_ops pos).belongs pos
  | onFinalCleanup idx o =>
    cases hp
    exact onFinalCleanup_ops idx o rfl
  | timers handlers =>
    cases handlers <;> cases hp <;> simp
  | emitInmediates left =>
    cases left <;> cases hp <;> simp [emitInmediates, Op.Belongs]
  | returned =>
    cases hp
  | infraEmitListeningEvents | infraTimeoutEvents | wait | infraProcessRemoteEnded
  | infraProcessWriteEvent | infraGetCloseEvent | emitClose | closed
  | infraProcessSockAcceptedEvents | infraGetCloseEvents =>
    cases hp
    simp only [infraEmitListeningEvents, infraTimeoutEvents, wait, infraProcessRemoteEnded,
      infraProcessWriteEvent, infraGetCloseEvent, emitClose, closed,
      infraProcessSockAcceptedEvents, infraGetCloseEvents, failed]
    repeat' split
    all_goals simp [Op.Belongs, QueueId.pass]
  | _ =>
    cases hp
    simp [Op.Belongs]

end Loop

/-! ## The close events of servers -/

namespace Loop

variable {k : Ctl} {r r' : Registry}

/-- `infraGetCloseEvents` on an event, with the assertions of `rrOnClose`. -/
def rrOnClose (r : Registry) (idx s : Nat) (srv : ServerObj) (slot : Slot) : List Op :=
  [.take .serverClose, .at' idx, .check (decide (slot.pfd.fd = invalidSocket)),
    .check (decide (srv.state = .BeingClosed)), .check (decide (r.getSockCount s = 0)),
    .serverState s .Closed]

/-- What `infraGetCloseEvents` does next. -/
inductive CloseEvent (k : Ctl) (r : Registry) : Plan → Prop
  | done (hbatch : (r.queue .serverClose).batch = []) :
      CloseEvent k r ([.clear .serverClose], fun _ => k.go .reworkIfNecessary)
  | skipped {ev : Pending} {rest : List Pending}
      (hbatch : (r.queue .serverClose).batch = ev :: rest) (hsize : ¬ev.idx < r.ioSockets.size) :
      CloseEvent k r ([.take .serverClose], fun _ => k)
  | lost {ev : Pending} {rest : List Pending} (hbatch : (r.queue .serverClose).batch = ev :: rest)
      (hserver : ∀ s srv slot, r.server ev.idx = .ok (s, srv) →
        r.ioSockets.slots[ev.idx]? ≠ some slot) : CloseEvent k r (failed k)
  | event {ev : Pending} {rest : List Pending} {s : Nat} {srv : ServerObj} {slot : Slot}
      (hbatch : (r.queue .serverClose).batch = ev :: rest) (hsize : ev.idx < r.ioSockets.size)
      (hserver : r.server ev.idx = .ok (s, srv)) (hslot : r.ioSockets.slots[ev.idx]? = some slot) :
      CloseEvent k r (rrOnClose r ev.idx s srv slot, fun _ => k.user (.resetServer ev.idx))

theorem infraGetCloseEvents_cases (k : Ctl) (r : Registry) :
    CloseEvent k r (infraGetCloseEvents k r) := by
  unfold infraGetCloseEvents
  split
  · rename_i hbatch
    exact .done hbatch
  · rename_i ev rest hbatch
    split
    · rename_i hsize
      split
      · rename_i hserver hslot
        exact .event hbatch hsize hserver hslot
      · rename_i hlost
        exact .lost hbatch fun s srv slot hserver hslot => hlost s srv slot hserver hslot
    · rename_i hsize
      exact .skipped hbatch hsize

theorem rrOnClose_run (hslot : r.ioSockets.slots[idx]? = some slot)
    (h : registry.run r (rrOnClose r idx s srv slot) = some r') :
    slot.used ∧ slot.pfd.fd = invalidSocket ∧ srv.state = .BeingClosed ∧ r.getSockCount s = 0 ∧
      ∃ r₁, (Op.take .serverClose).run r = .ok r₁ ∧ (Op.serverState s .Closed).run r₁ = .ok r' := by
  have hcheck : ∀ {b : Bool} {r₁ r₂ : Registry}, registry.step r₁ (.check b) = some r₂ →
      b = true ∧ r₂ = r₁ := by
    intro b r₁ r₂ h
    cases b <;> cases h
    exact ⟨rfl, rfl⟩
  obtain ⟨r₁, htake, h⟩ := registry.run_cons h
  obtain ⟨r₂, hat, h⟩ := registry.run_cons h
  obtain ⟨r₃, hfd, h⟩ := registry.run_cons h
  obtain ⟨r₄, hstate, h⟩ := registry.run_cons h
  obtain ⟨r₅, hcount, h⟩ := registry.run_cons h
  obtain ⟨r₆, hclosed, h⟩ := registry.run_cons h
  cases h
  -- the checks leave the registry as it is, and so does `at`
  obtain ⟨hinvalid, rfl⟩ := hcheck hfd
  obtain ⟨hclosing, rfl⟩ := hcheck hstate
  obtain ⟨hempty, rfl⟩ := hcheck hcount
  obtain ⟨slot', hat'⟩ := Registry.map_const_isOk (toOption_eq_some hat)
  cases Registry.map_const_eq_ok (toOption_eq_some hat)
  obtain ⟨-, hslot', hused⟩ := NetSockets.at'_eq_ok hat'
  obtain ⟨ev, rest, -, -, rfl⟩ := Registry.take_eq_ok (toOption_eq_some htake)
  cases hslot.symm.trans hslot'
  exact ⟨hused, of_decide_eq_true hinvalid, of_decide_eq_true hclosing, of_decide_eq_true hempty, _,
    toOption_eq_some htake, toOption_eq_some hclosed⟩

theorem rrOnClose_ok {ev : Pending} {rest : List Pending} {slot' : Slot}
    (hbatch : (r.queue .serverClose).batch = ev :: rest)
    (hat : r.ioSockets.at' ev.idx = .ok slot') (hfd : slot.pfd.fd = invalidSocket)
    (hstate : srv.state = .BeingClosed) (hzero : r.getSockCount s = 0)
    (hlive : r.liveServer s = some srv) :
    ∃ r', registry.run r (rrOnClose r ev.idx s srv slot) = some r' ∧
      (r'.queue .serverClose).batch = rest := by
  let r₁ : Registry :=
    { r with queue := Function.update r.queue .serverClose (r.queue .serverClose).take }
  have htake : r.take .serverClose = .ok r₁ := by simp [Registry.take, hbatch, r₁]
  have hat₁ : r₁.ioSockets.at' ev.idx = .ok slot' := hat
  have hlive₁ : r₁.liveServer s = some srv := hlive
  have hbatch₁ : (r₁.queue .serverClose).batch = rest := by simp [r₁, EventQueue.take, hbatch]
  simp [rrOnClose, Machine.run, registry, Op.run, htake, hat₁, hfd, hstate, hzero, hlive₁,
    Registry.serverState, Except.toOption, Except.map, hbatch₁]

end Loop

/-! ## What user code can do -/

def Op.OfDestructor : Op → Prop
  | .sock _ c => c = .destroy
  | .setRefed _ refed => refed = false
  | .destruct _ => True
  | _ => False

theorem Op.OfDestructor.cases {op : Op} (h : op.OfDestructor) :
    (∃ o, op = .sock o .destroy) ∨ (∃ idx, op = .setRefed idx false) ∨ ∃ e, op = .destruct e := by
  cases op with
  | sock o c =>
    obtain rfl : c = .destroy := h
    exact .inl ⟨o, rfl⟩
  | setRefed idx refed =>
    obtain rfl : refed = false := h
    exact .inr (.inl ⟨idx, rfl⟩)
  | destruct e => exact .inr (.inr ⟨e, rfl⟩)
  | _ => exact h.elim

namespace Program

theorem destructSocket_ops (o : Nat) (obj : SocketObj) :
    ∀ op ∈ destructSocket o obj, op.OfDestructor := by
  unfold destructSocket
  split <;> simp [Op.OfDestructor]

theorem destructServer_ops (r : Registry) (s : Nat) :
    ∀ op ∈ destructServer r s, op.OfDestructor := by
  intro op hop
  rcases List.mem_append.mp hop with hop | hop
  · obtain ⟨⟨obj, o⟩, -, hop⟩ := List.mem_flatMap.mp hop
    exact destructSocket_ops o obj op hop
  · cases List.mem_singleton.mp hop
    trivial

theorem destructServer_origins {r : Registry} (h : .destruct (.client o) ∈ destructServer r s) :
    r.origins[o]? = some (some s) := by
  rcases List.mem_append.mp h with h | h
  · obtain ⟨⟨obj, o'⟩, hmem, h⟩ := List.mem_flatMap.mp h
    obtain ⟨hmem, hserver⟩ := List.mem_filter.mp hmem
    have ho : o = o' := by
      simp only [destructSocket, List.mem_append] at h
      rcases h with h | h
      · split at h <;> simp at h
      · simpa using h
    subst ho
    have hget : r.sockets[o]? = some obj := by simpa using List.mem_zipIdx_iff_getElem?.mp hmem
    simp only [Bool.and_eq_true, decide_eq_true_eq] at hserver
    simp [Registry.origins, hget, hserver.2]
  · simp at h

end Program

/-- The operations of the calls other than `close()` and the destructor of a server. -/
def Op.OfCall (r : Registry) : Op → Prop
  | .construct _ owner => owner = none
  | .destruct e => ∃ o obj, e = .client o ∧ r.liveSocket o = some obj ∧ obj.server = none
  | .setSocketClosed _ | .serverState .. => False
  | .queue q _ _ => q = .listen
  | op => op.ofUser

/-- What user code can make the registry do. -/
inductive CallOps (r : Registry) (c : Call) : List Op → Prop
  | plain {ops : List Op} (h : ∀ op ∈ ops, op.OfCall r) : CallOps r c ops
  | close {s : Nat} {srv : ServerObj} (hc : c = .close s) (hlive : r.liveServer s = some srv) :
      CallOps r c (Program.closingProcedure r s srv.index)
  | destructServer {s : Nat} {srv : ServerObj} (hlive : r.liveServer s = some srv) :
      CallOps r c (Program.destructServer r s)

theorem Call.program_ops {r : Registry} {c : Call} (h : c.program r = some ops) :
    CallOps r c ops := by
  cases c with
  | createSocket osSocket | createServer osSocket cnt =>
    simp only [program] at h
    split at h
    · cases h
    · cases h
      exact .plain (by simp [Op.OfCall, Op.ofUser])
  | createSocketRefused =>
    cases h
    exact .plain (by simp [Program.createSocketRefused, Op.OfCall, Op.ofUser])
  | connect o =>
    obtain ⟨obj, -, rfl⟩ := Option.map_eq_some_iff.mp h
    exact .plain (by simp [Program.appConnectSocket, Op.OfCall, Op.ofUser])
  | sock o c =>
    obtain ⟨obj, -, h⟩ := Option.bind_eq_some_iff.mp h
    split at h
    · cases h
      exact .plain (by simp [Program.appPause, Op.OfCall, Op.ofUser])
    · split at h
      · cases h
        exact .plain (by simp [Op.OfCall, Op.ofUser])
      · cases h
  | setRefed o refed =>
    obtain ⟨obj, -, rfl⟩ := Option.map_eq_some_iff.mp h
    exact .plain (by simp [Op.OfCall, Op.ofUser])
  | destructSocket o =>
    obtain ⟨obj, hobj, h⟩ := Option.bind_eq_some_iff.mp h
    split at h
    · -- only a socket of the user is destructed by a call
      rename_i hserver
      cases h
      refine .plain ?_
      unfold Program.destructSocket
      split <;> simp_all [Op.OfCall, Op.ofUser]
    · cases h
  | listen s =>
    obtain ⟨srv, -, rfl⟩ := Option.map_eq_some_iff.mp h
    exact .plain (by simp [Program.appListen, Op.OfCall, Op.ofUser])
  | close s =>
    obtain ⟨srv, hlive, rfl⟩ := Option.map_eq_some_iff.mp h
    exact .close rfl hlive
  | destructServer s =>
    obtain ⟨srv, hlive, rfl⟩ := Option.map_eq_some_iff.mp h
    exact .destructServer hlive

/-- Where the operations of a plan come from. -/
inductive Loop.PlanOps (k : Ctl) (r : Registry) (p : Plan) : Prop
  | call (c : Call) (h : CallOps r c p.1)
  | none (h : p.1 = [])
  | infra (env : Env) (h : step k r env = some p)

theorem Loop.plan_ops {k : Ctl} {r : Registry} {a : Action} {p : Plan} (h : plan k r a = some p) :
    PlanOps k r p := by
  unfold plan at h
  split at h
  · cases h
  cases a with
  | call c =>
    dsimp only at h
    split at h
    · obtain ⟨ops, hops, rfl⟩ := Option.map_eq_some_iff.mp h
      exact .call c (Call.program_ops hops)
    · cases h
  | timer c | ret =>
    dsimp only at h
    split at h <;> cases h
    exact .none rfl
  | infra env =>
    dsimp only at h
    split at h
    · cases h
    split at h
    · cases h
      exact .none rfl
    · exact .infra env h

/-- The operations of the plans in which no server and no accepted socket comes or goes and no close
event of a server is taken. -/
def Op.Plain (r : Registry) : Op → Prop
  | .construct _ owner => owner = none
  | .destruct e => ∃ o obj, e = .client o ∧ r.liveSocket o = some obj ∧ obj.server = none
  | .setSocketClosed _ | .serverState .. | .reworkIfNecessary => False
  | .queue q _ _ => q = .listen
  | .take q => q ≠ .serverClose
  | _ => True

theorem Op.OfCall.plain {r : Registry} {op : Op} (h : op.OfCall r) : op.Plain r := by
  cases op with
  | construct | destruct | setSocketClosed | serverState | queue => exact h
  | reworkIfNecessary | take => cases h
  | _ => trivial

theorem Op.Belongs.plain {ph : Phase} {r : Registry} {op : Op} (h : op.Belongs ph)
    (hpoll : ∀ pos, ph ≠ .pollPhase2 pos) (hcleanup : ∀ idx o, ph ≠ .onFinalCleanup idx o)
    (hevents : ph ≠ .infraGetCloseEvents) (hrework : ph ≠ .reworkIfNecessary) : op.Plain r := by
  cases op with
  | construct osSocket owner =>
    obtain ⟨pos, hpos⟩ := h
    exact absurd hpos (hpoll pos)
  | destruct e =>
    obtain ⟨idx, o, hidx⟩ := h
    exact absurd hidx (hcleanup idx o)
  | setSocketClosed idx => exact h
  | serverState s state => exact absurd h.1 hevents
  | reworkIfNecessary => exact absurd h hrework
  | queue q hq e =>
    rcases h with ⟨-, -, pos, hpos⟩ | ⟨-, -, idx, o, hidx⟩
    · exact absurd hpos (hpoll pos)
    · exact absurd hidx (hcleanup idx o)
  | take q =>
    rintro rfl
    exact hevents h
  | _ => trivial

/-- The plans, seen from the servers. -/
inductive Loop.ServerPlan (k : Ctl) (r : Registry) : List Op → Prop
  | plain {ops : List Op} (h : ∀ op ∈ ops, op.Plain r) : ServerPlan k r ops
  | accept {i : Nat} {slot : Slot} {s : Nat} {srv : ServerObj} (osSocket : Nat)
      (hslot : r.ioSockets.slots[i]? = some slot) (hassociated : slot.associated)
      (hserver : r.server i = .ok (s, srv)) :
      ServerPlan k r (Program.consumeAcceptedSocket r i s osSocket)
  | close {s : Nat} {srv : ServerObj} (hlive : r.liveServer s = some srv) :
      ServerPlan k r (Program.closingProcedure r s srv.index)
  | destructServer {s : Nat} {srv : ServerObj} (hlive : r.liveServer s = some srv) :
      ServerPlan k r (Program.destructServer r s)
  | cleanup {o : Nat} {obj : SocketObj} (idx : Nat) (hlive : r.liveSocket o = some obj) :
      ServerPlan k r (Program.onFinalCleanup r o obj ++ [Op.endClose idx])
  | skipped {ev : Pending} {rest : List Pending} (hphase : k.phase = .infraGetCloseEvents)
      (hbatch : (r.queue .serverClose).batch = ev :: rest) (hsize : ¬ev.idx < r.ioSockets.size) :
      ServerPlan k r [.take .serverClose]
  | event {ev : Pending} {rest : List Pending} {s : Nat} {srv : ServerObj} {slot : Slot}
      (hphase : k.phase = .infraGetCloseEvents) (hbatch : (r.queue .serverClose).batch = ev :: rest)
      (hserver : r.server ev.idx = .ok (s, srv)) (hslot : r.ioSockets.slots[ev.idx]? = some slot) :
      ServerPlan k r (rrOnClose r ev.idx s srv slot)
  | rework (hphase : k.phase = .reworkIfNecessary) : ServerPlan k r [.reworkIfNecessary]

theorem Loop.step_server {k : Ctl} {r : Registry} {env : Env} {p : Plan}
    (hp : step k r env = some p) : ServerPlan k r p.1 := by
  have hops := step_ops hp
  unfold step at hp
  generalize hphase : k.phase = ph at hp
  cases ph with
  | pollPhase2 pos =>
    cases hp
    have hpoll : PollOps r pos.i (pollPhase2 k r pos env).1 := pollPhase2_ops pos
    generalize (pollPhase2 k r pos env).1 = ops at hpoll
    cases hpoll with
    | entry h =>
      -- a step on one entry
      refine .plain fun op hop => ?_
      obtain ⟨c, rfl⟩ := h op hop
      trivial
    | accept osSocket hslot hassociated hserver => exact .accept osSocket hslot hassociated hserver
  | onFinalCleanup idx o =>
    cases hp
    unfold onFinalCleanup
    split
    · exact .plain (by simp [failed])
    · rename_i hlive
      exact .cleanup idx hlive
  | infraGetCloseEvents =>
    cases hp
    have hcases := infraGetCloseEvents_cases k r
    generalize infraGetCloseEvents k r = p at hcases
    cases hcases with
    | done hbatch => exact .plain (by simp [Op.Plain])
    | skipped hbatch hsize => exact .skipped hphase hbatch hsize
    | lost hbatch hserver => exact .plain (by simp [failed])
    | event hbatch hsize hserver hslot => exact .event hphase hbatch hserver hslot
  | reworkIfNecessary =>
    cases hp
    exact .rework hphase
  | _ =>
    refine .plain fun op hop => (hops op hop).plain ?_ ?_ ?_ ?_ <;>
    · rw [hphase]
      simp

theorem Loop.plan_server {k : Ctl} {r : Registry} {a : Action} {p : Plan}
    (h : plan k r a = some p) : ServerPlan k r p.1 := by
  cases plan_ops h with
  | call c hcall =>
    generalize p.1 = ops at hcall
    cases hcall with
    | plain hops => exact .plain fun op hop => (hops op hop).plain
    | close hc hlive => exact .close hlive
    | destructServer hlive => exact .destructServer hlive
  | none hnil => exact .plain (by simp [hnil])
  | infra env hstep => exact step_server hstep

/-- The end of a socket: nothing, or an accepted socket is destructed, and its server told. -/
theorem Program.onFinalCleanup_cases (r : Registry) (o : Nat) (obj : SocketObj) :
    onFinalCleanup r o obj = [] ∨
      ∃ s srv, obj.server = some s ∧ r.liveServer s = some srv ∧
        onFinalCleanup r o obj = destructSocket o obj ++
          if srv.state = .BeingClosed ∧ r.getSockCount s = 1 then
            appReportAllAceptedConnectionsEnded s srv.index
          else [] := by
  unfold onFinalCleanup
  split
  · exact .inl rfl
  · rename_i s srv hbind
    obtain ⟨s', hs', hmap⟩ := Option.bind_eq_some_iff.mp hbind
    obtain ⟨srv', hlive, heq⟩ := Option.map_eq_some_iff.mp hmap
    cases heq
    exact .inr ⟨s, srv, hs', hlive, rfl⟩

theorem Program.onFinalCleanup_ops (r : Registry) (o : Nat) (obj : SocketObj) :
    ∀ op ∈ onFinalCleanup r o obj, op.OfDestructor ∨ (∃ i, op = .at' i) ∨
      ∃ hq s, op = .queue .serverClose hq (.server s) := by
  intro op hop
  obtain hnil | ⟨s, srv, -, -, hops⟩ := onFinalCleanup_cases r o obj
  · rw [hnil] at hop
    cases hop
  · rw [hops] at hop
    rcases List.mem_append.mp hop with hop | hop
    · exact .inl (destructSocket_ops o obj op hop)
    · unfold appReportAllAceptedConnectionsEnded at hop
      split at hop <;> simp at hop
      rcases hop with rfl | rfl
      · exact .inr (.inl ⟨_, rfl⟩)
      · exact .inr (.inr ⟨_, _, rfl⟩)

theorem Program.closingProcedure_ops {r : Registry} {op : Op} (h : op ∈ closingProcedure r s idx) :
    (∃ i, op = .at' i) ∨ (∃ i, op = .setSocketClosed i) ∨ op = .serverState s .BeingClosed ∨
      ∃ hq, op = .queue .serverClose hq (.server s) := by
  simp only [closingProcedure, appReportAllAceptedConnectionsEnded] at h
  split at h <;> simp at h <;> rcases h with rfl | rfl | rfl | rfl | rfl <;> simp

end NodeCpp
