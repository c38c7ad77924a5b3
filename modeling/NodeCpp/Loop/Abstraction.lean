import NodeCpp.Lib.Position
import NodeCpp.Loop.Ownership
import NodeCpp.Loop.TableSteps

/-!
# The ownership model of a registry

`Registry.view` forgets what the ownership model does not have, and `Op.abs` names
the step an operation takes there. The lemmas say what the pieces of the registry
are in the view; `Loop.Refinement` has the simulation.
-/

namespace NodeCpp

variable {e : Emitter} {i n o : Nat} {obj : SocketObj} {s : Slot} {v : View}

def Slot.view (s : Slot) : SlotView where
  state := s.entry.state
  emitter := s.entry.emitter
  index := s.entry.index

namespace Registry

/-- The ownership model of a registry. -/
def view (r : Registry) : View where
  slot i := (r.ioSockets.slots[i]?).map Slot.view
  index := r.indexOf
  known
    | .client o => decide (o < r.sockets.length)
    | .server s => decide (s < r.servers.length)
  state
    | .client o => (r.sockets[o]?).elim .Uninitialized (·.data.state)
    | .server _ => .Uninitialized
  closes
    | .client o => (r.sockets[o]?).elim 0 (·.closes)
    | .server _ => 0
  queue := r.queue
  current := r.current

def absSock (o : Nat) (obj : SocketObj) (idx : Nat) (c : SockCall) : ViewOp :=
  .move (.client o) (c.run obj.data).data.state
    ((closeEvents (c.run obj.data).fx).map fun err =>
      { idx := idx, err := err, owner := .client o })

end Registry

def Op.abs (r : Registry) : Op → ViewOp
  | .construct .. => .issue (.client r.sockets.length) r.ioSockets.freeIndex
  | .constructServer .. => .issue (.server r.servers.length) r.ioSockets.freeIndex
  | .destruct e => .release e ((r.indexOf e).getD 0)
  | .setAssociated idx => .associate idx
  | .changePoll .. | .setRefed .. | .poll _ | .check _ | .at' _ | .client _ | .server _
  | .serverState .. => .skip
  | .setSocketClosed idx => .shut idx
  | .resetEntry idx => .wipe idx
  | .reworkIfNecessary => if r.ioSockets.compacts then .renumber else .skip
  | .sock o c =>
      match r.liveSocket o with
      | some obj => Registry.absSock o obj obj.data.index c
      | none => .skip
  | .entrySock i c =>
      match r.client i with
      | .ok (o, obj) => Registry.absSock o obj (r.stepIndex i obj c) c
      | .error _ => .skip
  | .listening i =>
      match r.server i with
      | .ok (s, _) => .reindex (.server s) i
      | .error _ => .skip
  | .queue q _ e => .push q { idx := (r.indexOf e).getD 0, owner := e }
  | .queueServerError i =>
      match (r.entry i).emitter with
      | some e => .push .serverClose { idx := (r.entry i).index, err := true, owner := e }
      | none => .skip
  | .start q => .start q
  | .take q => .take q
  | .clear q => .clear q
  | .finish q => .finish q
  | .beginClose =>
      match (r.queue .close).batch with
      | ev :: _ =>
          match r.client ev.idx with
          | .ok (o, _) => .beginClose (.client o) ev.idx
          | .error _ => .skip
      | [] => .skip
  | .endClose i => .endClose i

/-! ## What the pieces of the registry are in the view -/

namespace View

theorem setIndex_self {x : Option Nat} (h : v.index e = x) : v.setIndex e x = v := by
  ext1 <;> try rfl
  exact Function.update_eq_self_iff.mpr h.symm

theorem setState_self {st : SockState} (h : v.state e = st) : v.setState e st = v := by
  ext1 <;> try rfl
  exact Function.update_eq_self_iff.mpr h.symm

theorem setCloses_self (h : v.closes e = n) : v.setCloses e n = v := by
  ext1 <;> try rfl
  exact Function.update_eq_self_iff.mpr h.symm

end View

namespace Registry

variable {r r' : Registry}

theorem liveSocket_eq_some (h : r.liveSocket o = some obj) : r.sockets[o]? = some obj ∧ obj.alive :=
  Option.filter_eq_some_iff.mp h

theorem liveServer_eq_some {s : Nat} {obj : ServerObj} (h : r.liveServer s = some obj) :
    r.servers[s]? = some obj ∧ obj.alive :=
  Option.filter_eq_some_iff.mp h

theorem view_index_client (h : r.liveSocket o = some obj) :
    r.view.index (.client o) = some obj.data.index := by
  simp only [view, indexOf, h, Option.map_some]

theorem view_index_server {s : Nat} {obj : ServerObj} (h : r.liveServer s = some obj) :
    r.view.index (.server s) = some obj.index := by
  simp only [view, indexOf, h, Option.map_some]

theorem view_slot (h : r.ioSockets.slots[i]? = some s) : r.view.slot i = some s.view := by
  simp only [view, h, Option.map_some]

theorem view_slot_eq_some {s : SlotView} (h : r.view.slot i = some s) :
    ∃ t, r.ioSockets.slots[i]? = some t ∧ s = t.view := by
  obtain ⟨t, ht, rfl⟩ := Option.map_eq_some_iff.mp h
  exact ⟨t, ht, rfl⟩

theorem entry_of_slot (h : r.ioSockets.slots[i]? = some s) : r.entry i = s.entry := by
  simp only [entry, h]

theorem slot_of_emitter (h : (r.entry i).emitter = some e) :
    ∃ s, r.ioSockets.slots[i]? = some s ∧ s.entry.emitter = some e ∧ r.entry i = s.entry := by
  unfold entry at h ⊢
  cases hs : r.ioSockets.slots[i]? with
  | none => rw [hs] at h; cases h
  | some s => rw [hs] at h; exact ⟨s, rfl, h, rfl⟩

theorem client_eq_ok (h : r.client i = .ok (o, obj)) :
    ∃ s, r.ioSockets.slots[i]? = some s ∧ s.entry.emitter = some (.client o) ∧
      r.entry i = s.entry ∧ r.liveSocket o = some obj := by
  unfold client at h
  split at h
  · rename_i o' he
    obtain ⟨s, hs, hem, hentry⟩ := slot_of_emitter he
    split at h
    · rename_i hlive
      cases h
      exact ⟨s, hs, hem, hentry, hlive⟩
    · cases h
  · cases h

theorem server_eq_ok {obj : ServerObj} (h : r.server i = .ok (n, obj)) :
    ∃ s, r.ioSockets.slots[i]? = some s ∧ s.entry.emitter = some (.server n) ∧
      r.entry i = s.entry ∧ r.liveServer n = some obj := by
  unfold server at h
  split at h
  · rename_i n' he
    obtain ⟨s, hs, hem, hentry⟩ := slot_of_emitter he
    split at h
    · rename_i hlive
      cases h
      exact ⟨s, hs, hem, hentry, hlive⟩
    · cases h
  · cases h

theorem view_setSlot {t : NetSockets} {s' : Slot} (hs : r.ioSockets.slots[i]? = some s)
    (ht : t.slots = r.ioSockets.slots.set i s') :
    { r with ioSockets := t }.view = r.view.setSlot i s'.view := by
  ext1 <;> try rfl
  funext k
  obtain ⟨hi, -⟩ := List.getElem?_eq_some_iff.mp hs
  simp only [view, View.setSlot_slot_apply, ht, List.getElem?_set]
  by_cases hk : k = i
  · subst hk
    simp [hi]
  · rw [if_neg hk, if_neg fun h => hk h.symm]

/-- A rewrite that only touches what the view forgets. -/
theorem view_slots_forget {t : NetSockets}
    (ht : ∀ k : Nat, (t.slots[k]?).map Slot.view = (r.ioSockets.slots[k]?).map Slot.view) :
    { r with ioSockets := t }.view = r.view := by
  ext1 <;> try rfl
  funext k
  exact ht k

theorem view_setSocket (obj' : SocketObj) (h : r.sockets[o]? = some obj) :
    { r with sockets := r.sockets.set o obj' }.view =
      ((r.view.setIndex (.client o) (if obj'.alive then some obj'.data.index else none)).setState
        (.client o) obj'.data.state).setCloses (.client o) obj'.closes := by
  obtain ⟨hlt, -⟩ := List.getElem?_eq_some_iff.mp h
  have hself : (r.sockets.set o obj')[o]? = some obj' := List.getElem?_set_self hlt
  have hother : ∀ k, Emitter.client k ≠ .client o →
      (r.sockets.set o obj')[k]? = r.sockets[k]? := by
    intro k hk
    exact List.getElem?_set_ne fun h => hk (by rw [h])
  ext1
  case index =>
    refine Function.eq_update_iff.mpr ⟨?_, ?_⟩
    · cases halive : obj'.alive <;>
        simp [view, indexOf, liveSocket, hself, Option.filter_some, halive]
    · rintro (k | n) hne
      · simp only [view, indexOf, liveSocket, hother k hne]
      · rfl
  case state =>
    refine Function.eq_update_iff.mpr ⟨by simp [view, hself], ?_⟩
    rintro (k | n) hne
    · simp only [view, hother k hne, View.setIndex_state]
    · rfl
  case closes =>
    refine Function.eq_update_iff.mpr ⟨by simp [view, hself], ?_⟩
    rintro (k | n) hne
    · simp only [view, hother k hne, View.setIndex_closes, View.setState_closes]
    · rfl
  case known =>
    funext e
    cases e <;> simp [view]
  all_goals rfl

theorem view_setServer {obj : ServerObj} (obj' : ServerObj) (h : r.servers[n]? = some obj) :
    { r with servers := r.servers.set n obj' }.view =
      r.view.setIndex (.server n) (if obj'.alive then some obj'.index else none) := by
  obtain ⟨hlt, -⟩ := List.getElem?_eq_some_iff.mp h
  have hself : (r.servers.set n obj')[n]? = some obj' := List.getElem?_set_self hlt
  ext1
  case index =>
    refine Function.eq_update_iff.mpr ⟨?_, ?_⟩
    · cases halive : obj'.alive <;>
        simp [view, indexOf, liveServer, hself, Option.filter_some, halive]
    · rintro (k | k) hne
      · rfl
      · have hk : (r.servers.set n obj')[k]? = r.servers[k]? :=
          List.getElem?_set_ne fun h => hne (by rw [h])
        simp only [view, indexOf, liveServer, hk]
  case known =>
    funext e
    cases e <;> simp [view]
  all_goals rfl

theorem view_newSocket (obj : SocketObj) (halive : obj.alive)
    (hstate : obj.data.state = .Uninitialized) (hcloses : obj.closes = 0) :
    { r with sockets := r.sockets ++ [obj] }.view =
      r.view.born (.client r.sockets.length) obj.data.index := by
  have hne : ∀ {k}, Emitter.client k ≠ .client r.sockets.length → k ≠ r.sockets.length :=
    fun hk h => hk (by rw [h])
  ext1
  case index =>
    refine Function.eq_update_iff.mpr ⟨?_, ?_⟩
    · simp [view, indexOf, liveSocket, Option.filter_some, halive]
    · rintro (k | n) hk
      · simp only [view, indexOf, liveSocket, Lib.getElem?_concat_of_ne (hne hk)]
      · rfl
  case known =>
    refine Function.eq_update_iff.mpr ⟨by simp [view], ?_⟩
    rintro (k | n) hk
    · have := hne hk
      simp only [view, List.length_append, List.length_singleton, decide_eq_decide]
      omega
    · rfl
  case state =>
    funext e
    rcases e with k | n
    · by_cases hk : k = r.sockets.length
      · simp [view, hk, hstate]
      · simp only [view, View.born_state, Lib.getElem?_concat_of_ne hk]
    · rfl
  case closes =>
    funext e
    rcases e with k | n
    · by_cases hk : k = r.sockets.length
      · simp [view, hk, hcloses]
      · simp only [view, View.born_closes, Lib.getElem?_concat_of_ne hk]
    · rfl
  all_goals rfl

theorem view_newServer (obj : ServerObj) (halive : obj.alive) :
    { r with servers := r.servers ++ [obj] }.view =
      r.view.born (.server r.servers.length) obj.index := by
  have hne : ∀ {k}, Emitter.server k ≠ .server r.servers.length → k ≠ r.servers.length :=
    fun hk h => hk (by rw [h])
  ext1
  case index =>
    refine Function.eq_update_iff.mpr ⟨?_, ?_⟩
    · simp [view, indexOf, liveServer, Option.filter_some, halive]
    · rintro (k | n) hk
      · rfl
      · simp only [view, indexOf, liveServer, Lib.getElem?_concat_of_ne (hne hk)]
  case known =>
    refine Function.eq_update_iff.mpr ⟨by simp [view], ?_⟩
    rintro (k | n) hk
    · rfl
    · have := hne hk
      simp only [view, List.length_append, List.length_singleton, decide_eq_decide]
      omega
  all_goals rfl

end Registry

end NodeCpp
