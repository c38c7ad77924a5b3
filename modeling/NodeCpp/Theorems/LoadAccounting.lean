import Mathlib.Data.List.Perm.Basic
import NodeCpp.Cluster.WorkerLoad
import NodeCpp.Lib.Position

/-!
# Loads and connections

As long as workers close no sockets but accepted ones, the load of each worker is the number of its
connections, and `totalLoadCtr` is the sum of the loads. A worker that closes a socket it has
connected itself counts down for a connection that nobody has counted.

* `LoadWorld.Tracked` -- the invariant: the array of loads, slot by slot.
* `LoadWorld.Tracked.dispatch`, `LoadWorld.Tracked.close` -- the two steps that count.
* `loads_exact` -- over any run in which only accepted sockets are closed.
-/

namespace NodeCpp

open Lib

/-- The slot of `WorkerLoad` that belongs to a thread. -/
def WorkerThread.tracked (t : WorkerThread) : LoadedWorker := ⟨UInt64.ofNat t.connections, t.id⟩

namespace LoadWorld

/-- The action does not close a socket that the worker has connected itself. -/
def ClosesAccepted (w : LoadWorld) : LoadAct → Prop
  | .close worker socket => ∀ t ∈ w.threads[worker]?, t.sockets[socket]? ≠ some .outbound
  | _ => True

instance (w : LoadWorld) : DecidablePred w.ClosesAccepted
  | .close worker _ => inferInstanceAs (Decidable (∀ t ∈ w.threads[worker]?, _ ≠ _))
  | .start _ | .dispatch | .accept _ | .connect _ => isTrue trivial

/-- Slot by slot, the array contains what belongs to the threads, and then unused slots. -/
structure Tracked (w : LoadWorld) : Prop where
  used : w.workerLoad.usedSlotCnt = w.threads.length
  fits : w.threads.length ≤ maxThreads
  slots : w.workerLoad.workers =
    w.threads.map WorkerThread.tracked ++
      List.replicate (maxThreads - w.threads.length) ({} : LoadedWorker)
  total : w.workerLoad.totalLoadCtr = UInt64.ofNat w.connections
  bounded : w.connections ≤ 2 ^ 31
  own : ∀ k (t : WorkerThread), w.threads[k]? = some t → t.workerIdxInLoadCollector = k
  names : (w.threads.map WorkerThread.id).Nodup
  /-- The search goes up to `current`, which has to be a slot in use. -/
  current : w.workerLoad.current < w.threads.length ∨ w.workerLoad.current = 0

namespace Tracked

variable {w : LoadWorld} {l : WorkerLoad} {k : Nat} {t t' : WorkerThread}

theorem init : Tracked {} where
  used := rfl
  fits := Nat.zero_le _
  slots := rfl
  total := rfl
  bounded := by decide
  own := nofun
  names := .nil
  current := .inr rfl

theorem slot (h : Tracked w) (hk : w.threads[k]? = some t) :
    w.workerLoad.workers[k]? = some t.tracked := by
  obtain ⟨hlt, -⟩ := List.getElem?_eq_some_iff.mp hk
  rw [h.slots, List.getElem?_append_left (by simpa using hlt), List.getElem?_map, hk]
  rfl

theorem connections_set (hk : w.threads[k]? = some t) (t' : WorkerThread) (l : WorkerLoad) :
    (LoadWorld.mk l (w.threads.set k t')).connections + t.connections =
      w.connections + t'.connections :=
  sum_map_set hk t'

theorem connections_le (hk : w.threads[k]? = some t) : t.connections ≤ w.connections := by
  have hnone := connections_set hk { t with arriving := 0, sockets := [] } w.workerLoad
  have hzero : ({ t with arriving := 0, sockets := [] } : WorkerThread).connections = 0 := rfl
  omega

/-- The update rule: one thread has changed, and its slot with it. -/
theorem update (h : Tracked w) (hk : w.threads[k]? = some t) (hid : t'.id = t.id)
    (hidx : t'.workerIdxInLoadCollector = t.workerIdxInLoadCollector)
    (hused : l.usedSlotCnt = w.workerLoad.usedSlotCnt)
    (hslots : l.workers = w.workerLoad.workers.set k t'.tracked)
    (htotal : l.totalLoadCtr = UInt64.ofNat (LoadWorld.mk l (w.threads.set k t')).connections)
    (hbounded : (LoadWorld.mk l (w.threads.set k t')).connections ≤ 2 ^ 31)
    (hcurrent : l.current < w.threads.length ∨ l.current = 0) :
    Tracked ⟨l, w.threads.set k t'⟩ := by
  obtain ⟨hlt, -⟩ := List.getElem?_eq_some_iff.mp hk
  have hlength : (w.threads.set k t').length = w.threads.length := List.length_set
  refine ⟨?_, ?_, ?_, htotal, hbounded, ?_, ?_, ?_⟩
  · rw [hused, hlength, h.used]
  · rw [hlength]
    exact h.fits
  · rw [hslots, h.slots, hlength, List.set_append_left _ _ (by simpa using hlt), List.map_set]
  · intro j s hj
    rw [List.getElem?_set] at hj
    split at hj
    · subst k
      cases hj
      rw [hidx]
      exact h.own j t hk
    · exact h.own j s hj
  · rw [map_set_of_eq hk hid]
    exact h.names
  · rw [hlength]
    exact hcurrent

theorem uncounted (h : Tracked w) (hk : w.threads[k]? = some t) (hid : t'.id = t.id)
    (hidx : t'.workerIdxInLoadCollector = t.workerIdxInLoadCollector)
    (hsame : t'.connections = t.connections) :
    Tracked { w with threads := w.threads.set k t' } := by
  have hconns := connections_set hk t' w.workerLoad
  have htracked : t'.tracked = t.tracked := by
    rw [WorkerThread.tracked, WorkerThread.tracked, hsame, hid]
  have heq : (LoadWorld.mk w.workerLoad (w.threads.set k t')).connections = w.connections := by
    omega
  refine h.update hk hid hidx rfl ?_ ?_ ?_ h.current
  · obtain ⟨hlt, hget⟩ := List.getElem?_eq_some_iff.mp (h.slot hk)
    rw [htracked, ← hget, List.set_getElem_self]
  · rw [heq]
    exact h.total
  · rw [heq]
    exact h.bounded

/-- The slot that is chosen belongs to a thread. -/
theorem candidate_lt {i : Nat} (h : Tracked w) (hused : w.workerLoad.usedSlotCnt ≠ 0)
    (hi : i ∈ w.workerLoad.candidates) : i < w.threads.length := by
  rw [h.used] at hused
  rcases List.mem_append.mp hi with hi | hi
  · have := List.mem_range.mp (List.mem_of_mem_drop hi)
    rwa [h.used] at this
  · have := List.mem_range.mp hi
    have := h.current
    omega

theorem receive_tracked (t : WorkerThread) :
    t.receive.tracked = { t.tracked with load := t.tracked.load + 1 } := by
  have hconns : t.receive.connections = t.connections + 1 := Nat.add_right_comm ..
  rw [WorkerThread.tracked, hconns, UInt64.ofNat_add]
  rfl

theorem increment (h : Tracked w) (hopen : w.connections < 2 ^ 31) (hk : w.threads[k]? = some t) :
    Tracked ⟨w.workerLoad.incrementLoad k, w.threads.set k t.receive⟩ := by
  have hconns := connections_set hk t.receive (w.workerLoad.incrementLoad k)
  have hreceive : t.receive.connections = t.connections + 1 := Nat.add_right_comm ..
  have heq : (LoadWorld.mk (w.workerLoad.incrementLoad k) (w.threads.set k t.receive)).connections =
      w.connections + 1 := by
    omega
  refine h.update hk rfl rfl rfl ?_ ?_ ?_ (.inl (List.getElem?_eq_some_iff.mp hk).1)
  · rw [WorkerLoad.incrementLoad, List.modify_eq_set_getElem?, h.slot hk, receive_tracked]
    rfl
  · rw [heq, UInt64.ofNat_add, ← h.total]
    rfl
  · rw [heq]
    exact hopen

theorem dispatch {id : ThreadID} {l : WorkerLoad} (h : Tracked w) (hopen : w.connections < 2 ^ 31)
    (hget : w.workerLoad.getCandidateAndIncrementLoad = .ok (id, l)) :
    Tracked ⟨l, w.threads.modify (w.threads.findIdx fun t => decide (t.id = id)) .receive⟩ := by
  unfold WorkerLoad.getCandidateAndIncrementLoad at hget
  split at hget
  · cases hget
  rename_i hused
  split at hget
  · cases hget
  rename_i i hfind
  have hlt := h.candidate_lt hused (List.mem_of_find?_eq_some hfind)
  have hk : w.threads[i]? = some w.threads[i] := List.getElem?_eq_getElem hlt
  rw [h.slot hk] at hget
  cases hget
  -- the message goes to the thread whose slot was chosen
  have htarget : (w.threads.findIdx fun t => decide (t.id = w.threads[i].tracked.id)) = i :=
    findIdx_name h.names hk
  rw [htarget, List.modify_eq_set_getElem?, hk]
  exact h.increment hopen hk

theorem ofNat_succ_sub_one (n : Nat) : UInt64.ofNat (n + 1) - 1 = UInt64.ofNat n := by
  rw [UInt64.ofNat_add]
  exact UInt64.add_sub_cancel ..

theorem close_connections {j : Nat} (hj : t.sockets[j]? = some .accepted) :
    (t.close j).connections + 1 = t.connections := by
  obtain ⟨hlt, hget⟩ := List.getElem?_eq_some_iff.mp hj
  have hcount := (List.getElem_cons_eraseIdx_perm hlt).count_eq SocketOrigin.accepted
  rw [hget, List.count_cons_self] at hcount
  rw [WorkerThread.connections, WorkerThread.connections, ← hcount]
  rfl

theorem close {j : Nat} (h : Tracked w) (hk : w.threads[k]? = some t)
    (hj : t.sockets[j]? = some .accepted)
    (hdec : w.workerLoad.decrementLoadCtr t.workerIdxInLoadCollector = .ok l) :
    Tracked ⟨l, w.threads.set k (t.close j)⟩ := by
  rw [h.own k t hk, WorkerLoad.decrementLoadCtr] at hdec
  split at hdec
  · cases hdec
    have hclose := close_connections hj
    have heq : (LoadWorld.mk w.workerLoad (w.threads.set k (t.close j))).connections + 1 =
        w.connections := by
      have := connections_set hk (t.close j) w.workerLoad
      omega
    refine h.update hk rfl rfl rfl ?_ ?_ ?_ h.current
    · rw [List.modify_eq_set_getElem?, h.slot hk]
      show w.workerLoad.workers.set k ⟨UInt64.ofNat t.connections - 1, t.id⟩ = _
      rw [← hclose, ofNat_succ_sub_one]
      rfl
    · show w.workerLoad.totalLoadCtr - 1 = _
      rw [h.total, ← heq, ofNat_succ_sub_one]
      rfl
    · have := h.bounded
      show (LoadWorld.mk w.workerLoad (w.threads.set k (t.close j))).connections ≤ 2 ^ 31
      omega
  · cases hdec

theorem start {id : ThreadID} {idx : Nat} (h : Tracked w)
    (hnew : id ∉ w.threads.map WorkerThread.id) (hadd : w.workerLoad.addWorker id = .ok (idx, l)) :
    Tracked ⟨l, w.threads ++ [⟨id, idx, 0, []⟩]⟩ := by
  unfold WorkerLoad.addWorker at hadd
  split at hadd
  · rename_i hlt
    cases hadd
    rw [h.used] at hlt
    have hconns : (LoadWorld.mk w.workerLoad
        (w.threads ++ [⟨id, w.workerLoad.usedSlotCnt, 0, []⟩])).connections = w.connections := by
      simp [connections, WorkerThread.connections]
    refine ⟨?_, ?_, ?_, ?_, ?_, ?_, ?_, ?_⟩
    · rw [List.length_append, h.used]
      rfl
    · rw [List.length_append]
      exact hlt
    · -- the first free slot becomes that of the new thread
      have hfree : maxThreads - w.threads.length = maxThreads - (w.threads.length + 1) + 1 := by
        omega
      have hslot : w.workerLoad.workers[w.threads.length]? = some {} := by
        rw [h.slots, hfree]
        simp
      rw [List.modify_eq_set_getElem?, h.used, hslot, h.slots, hfree, List.replicate_succ]
      simp [WorkerThread.tracked, WorkerThread.connections]
    · exact h.total.trans (congrArg UInt64.ofNat hconns.symm)
    · exact Nat.le_trans (Nat.le_of_eq hconns) h.bounded
    · intro j s hj
      by_cases hnew : j = w.threads.length
      · subst hnew
        rw [List.getElem?_concat_length] at hj
        cases hj
        exact h.used
      · exact h.own j s (getElem?_concat_of_ne hnew ▸ hj)
    · rw [List.map_append]
      refine List.nodup_append.mpr ⟨h.names, List.pairwise_singleton .., ?_⟩
      rintro a ha b hb rfl
      cases List.mem_singleton.mp hb
      exact hnew ha
    · rw [List.length_append]
      exact h.current.imp_left fun hlt => Nat.lt_add_right _ hlt
  · cases hadd

theorem step {a : LoadAct} {w' : LoadWorld} (h : Tracked w) (hclose : w.ClosesAccepted a)
    (hstep : loadWorld.step w a = some w') : Tracked w' := by
  cases a with
  | start id =>
    simp only [loadWorld, LoadWorld.step] at hstep
    split at hstep
    · cases hstep
    rename_i hnew
    cases hadd : w.workerLoad.addWorker id with
    | error e => simp [hadd] at hstep
    | ok r =>
      simp only [hadd, Option.some.injEq] at hstep
      subst hstep
      exact h.start hnew hadd
  | dispatch =>
    simp only [loadWorld, LoadWorld.step] at hstep
    split at hstep
    · rename_i hopen
      cases hget : w.workerLoad.getCandidateAndIncrementLoad with
      | error e => simp [hget] at hstep
      | ok r =>
        simp only [hget, Option.some.injEq] at hstep
        subst hstep
        exact h.dispatch hopen hget
    · cases hstep
  | accept worker =>
    simp only [loadWorld, LoadWorld.step] at hstep
    split at hstep
    · cases hstep
    rename_i t hk
    split at hstep
    · cases hstep
    rename_i harriving
    cases hstep
    -- on its way or accepted, the connection is counted once
    refine h.uncounted hk rfl rfl ?_
    simp only [WorkerThread.connections, WorkerThread.accept, List.count_append,
      List.count_singleton_self]
    omega
  | connect worker =>
    simp only [loadWorld, LoadWorld.step] at hstep
    split at hstep
    · cases hstep
    rename_i t hk
    cases hstep
    -- an outbound socket is not counted
    refine h.uncounted hk rfl rfl ?_
    simp [WorkerThread.connections, WorkerThread.connect, List.count_append]
  | close worker socket =>
    simp only [loadWorld, LoadWorld.step] at hstep
    split at hstep
    · cases hstep
    rename_i t hk
    split at hstep
    · rename_i hlt
      cases hdec : w.workerLoad.decrementLoadCtr t.workerIdxInLoadCollector with
      | error e => simp [hdec] at hstep
      | ok l =>
        simp only [hdec, Option.some.injEq] at hstep
        subst hstep
        refine h.close hk ?_ hdec
        -- by `hclose` only an accepted socket decrements the counter
        have hsocket := List.getElem?_eq_getElem hlt
        cases horigin : t.sockets[socket] with
        | accepted => rw [hsocket, horigin]
        | outbound => exact absurd (hsocket.trans (congrArg some horigin)) (hclose t hk)
    · cases hstep

end Tracked

/-- The loads are exact: each worker's is the number of the connections that were dispatched to it
and are not closed, none of them is counted below 0, and the total is their sum. -/
structure LoadsExact (w : LoadWorld) : Prop where
  load : ∀ (k : Nat) (t : WorkerThread), w.threads[k]? = some t →
    ∃ worker : LoadedWorker, w.workerLoad.workers[k]? = some worker ∧ worker.id = t.id ∧
      worker.load.toNat = t.connections
  positive : ∀ (k : Nat) (t : WorkerThread), w.threads[k]? = some t → .accepted ∈ t.sockets →
    ∃ worker : LoadedWorker, w.workerLoad.workers[k]? = some worker ∧ 0 < worker.load.toNat
  total : w.workerLoad.totalLoadCtr.toNat =
    (w.workerLoad.workers.map fun worker : LoadedWorker => worker.load.toNat).sum

namespace Tracked

variable {w : LoadWorld} {k : Nat} {t : WorkerThread}

theorem load_toNat (h : Tracked w) (hk : w.threads[k]? = some t) :
    t.tracked.load.toNat = t.connections := by
  have hle := connections_le hk
  have hbounded := h.bounded
  exact Nat.mod_eq_of_lt (by omega)

theorem exact (h : Tracked w) : LoadsExact w := by
  refine ⟨?_, ?_, ?_⟩
  · intro k t hk
    exact ⟨_, h.slot hk, rfl, h.load_toNat hk⟩
  · intro k t hk haccepted
    refine ⟨_, h.slot hk, ?_⟩
    rw [h.load_toNat hk]
    exact Nat.lt_add_left _ (List.count_pos_iff.mpr haccepted)
  · have hloads : w.threads.map (fun t => t.tracked.load.toNat) =
        w.threads.map WorkerThread.connections := by
      refine List.map_congr_left fun t ht => ?_
      obtain ⟨k, hk⟩ := List.mem_iff_getElem?.mp ht
      exact h.load_toNat hk
    have hunused : ((List.replicate (maxThreads - w.threads.length) ({} : LoadedWorker)).map
        fun worker => worker.load.toNat).sum = 0 := by
      simp
    have htotal : (UInt64.ofNat w.connections).toNat = w.connections := by
      have hbounded := h.bounded
      exact Nat.mod_eq_of_lt (by omega)
    rw [h.slots, List.map_append, List.map_map, List.sum_append_nat, hunused, h.total, htotal]
    exact congrArg List.sum hloads.symm

end Tracked

end LoadWorld

/-- In every run in which the workers close no sockets but accepted ones, the loads are exact. -/
theorem loads_exact {acts : List LoadAct} {w : LoadWorld}
    (hclose : loadWorld.obeys LoadWorld.ClosesAccepted {} acts)
    (hrun : loadWorld.run {} acts = some w) : w.LoadsExact := by
  refine LoadWorld.Tracked.exact
    (loadWorld.run_invariant (J := LoadWorld.Tracked) ?_ .init hclose hrun)
  intro w a w' hJ hG hstep
  exact hJ.step hG hstep

/-- Two connections go to two workers, one of which takes and closes its own while it has a socket
of its own connected. -/
def twoWorkers : List LoadAct :=
  [.start ⟨1, 1⟩, .start ⟨2, 1⟩, .dispatch, .dispatch, .accept 0, .connect 0, .close 0 0]

theorem loads_exact_twoWorkers :
    ∃ w, loadWorld.run {} twoWorkers = some w ∧ w.threads.map WorkerThread.connections = [0, 1] ∧
      w.LoadsExact :=
  ⟨_, rfl, rfl, @loads_exact twoWorkers _ (by decide) rfl⟩

/-- A worker without connections connects a socket and closes it. -/
theorem load_of_outbound_socket :
    ∃ w t worker, loadWorld.run {} [.start ⟨1, 1⟩, .connect 0, .close 0 0] = some w ∧
      w.threads[0]? = some t ∧ t.connections = 0 ∧ w.workerLoad.workers[0]? = some worker ∧
      worker.load = 0xffffffffffffffff :=
  ⟨_, _, _, rfl, rfl, rfl, rfl, rfl⟩

end NodeCpp
