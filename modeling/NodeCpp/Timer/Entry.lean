import Mathlib.Data.List.Nodup
import NodeCpp.Timer.Manager

/-!
# One timer at a time

What an operation does to a timer depends on its entry and on nothing else in the
store. `TimeoutOp.entry` says so for each operation, and `Exact.run` is the
refinement: in a store whose pairs are exactly those of the active timers, in order
of their due times, every operation succeeds, does to each timer what
`TimeoutOp.entry` says, and leaves such a store. `Exact.pairs_cases` says what an
operation can do to the pairs.
-/

namespace NodeCpp

variable {i : UInt64} {l : List (UInt64 × UInt64)}

namespace TimeoutEntry

/-- `appSetTimeout( entry, now )`, on the entry. -/
def schedule (now : UInt64) (e : TimeoutEntry) : TimeoutEntry :=
  { e with lastSchedule := now, nextTimeout := now + e.delay, active := true }

def deactivate (e : TimeoutEntry) : TimeoutEntry := { e with active := false }

/-- The handle is gone: the entry stays as long as it is active. -/
def release (e : TimeoutEntry) : Option TimeoutEntry :=
  if e.active then some { e with handleDestroyed := true } else none

def due (now : UInt64) (e : TimeoutEntry) : Bool := e.active && decide (e.nextTimeout ≤ now)

/-- The timer fires: the entry stays as long as there is a handle. -/
def fire (e : TimeoutEntry) : Option TimeoutEntry :=
  if e.handleDestroyed then none else some e.deactivate

end TimeoutEntry

def TimeoutOp.entry (lastId id : UInt64) : TimeoutOp → Option TimeoutEntry → Option TimeoutEntry
  | .appSetTimeout ms now, none =>
      if id = lastId + 1 then
        some (TimeoutEntry.schedule now { delay := TimeoutManager.delayOf ms })
      else none
  | .appSetTimeout _ _, some e => some e
  | .appClearTimeout i, x => if id = i then x.map (·.deactivate) else x
  | .appRefresh i now, x => if id = i then x.map (·.schedule now) else x
  | .appTimeoutDestructor i, x => if id = i then x.bind (·.release) else x
  | .infraTimeoutEvents now, x => x.bind fun e => if e.due now then e.fire else some e

def TimeoutOp.lastId (lastId : UInt64) : TimeoutOp → UInt64
  | .appSetTimeout _ _ => lastId + 1
  | _ => lastId

def TimeoutOp.pairs (m : TimeoutManager) : TimeoutOp → List (UInt64 × UInt64)
  | .appSetTimeout ms now =>
      match m.timers (m.lastId + 1) with
      | none =>
          TimeoutManager.insertTimeout (now + TimeoutManager.delayOf ms, m.lastId + 1)
            m.nextTimeouts
      | some _ => m.nextTimeouts
  | .appClearTimeout i =>
      match m.timers i with
      | none => m.nextTimeouts
      | some e => m.nextTimeouts.erase (e.nextTimeout, i)
  | .appRefresh i now =>
      match m.timers i with
      | none => m.nextTimeouts
      | some e =>
          TimeoutManager.insertTimeout (now + e.delay, i)
            (m.nextTimeouts.erase (e.nextTimeout, i))
  | .appTimeoutDestructor _ => m.nextTimeouts
  | .infraTimeoutEvents now => m.nextTimeouts.dropWhile (·.1 ≤ now)

def TimeoutOp.scheduled (m : TimeoutManager) : TimeoutOp → Option UInt64
  | .appSetTimeout _ _ =>
      if (m.timers (m.lastId + 1)).isNone then some (m.lastId + 1) else none
  | .appRefresh i _ => if (m.timers i).isSome then some i else none
  | _ => none

namespace TimeoutManager

/-- The pairs are exactly those of the active timers, one for each, in order. -/
structure Exact (m : TimeoutManager) : Prop where
  scheduled : m.Scheduled
  paired : m.Paired
  sorted : m.nextTimeouts.Pairwise (fun p q => p.1 ≤ q.1)

variable {m m' : TimeoutManager} {id : UInt64} {e : TimeoutEntry}

theorem Exact.init : Exact {} := ⟨fun _ _ h => (nomatch h), ⟨by simp, by simp⟩, .nil⟩

theorem Exact.mem_iff (h : m.Exact) (p : UInt64 × UInt64) :
    p ∈ m.nextTimeouts ↔ ∃ e, m.timers p.2 = some e ∧ e.active ∧ e.nextTimeout = p.1 := by
  constructor
  · exact h.paired.active p
  · rintro ⟨e, he, hactive, hnext⟩
    have hmem := h.scheduled p.2 e he hactive
    rwa [hnext] at hmem

theorem Paired.not_mem (h : m.Paired) (hinactive : ∀ e, m.timers id = some e → e.active = false) :
    ∀ p ∈ m.nextTimeouts, p.2 ≠ id := by
  rintro p hp rfl
  obtain ⟨e, he, hactive, -⟩ := h.active p hp
  rw [hinactive e he] at hactive
  cases hactive

theorem Exact.mem_erase (h : m.Exact) (he : m.timers i = some e) (p : UInt64 × UInt64) :
    p ∈ m.nextTimeouts.erase (e.nextTimeout, i) ↔ p ∈ m.nextTimeouts ∧ p.2 ≠ i := by
  rw [(List.Nodup.of_map _ h.paired.nodup).mem_erase_iff]
  constructor
  · rintro ⟨hne, hp⟩
    refine ⟨hp, ?_⟩
    rintro rfl
    obtain ⟨e', he', -, hnext⟩ := h.paired.active p hp
    cases he.symm.trans he'
    exact hne (Prod.ext hnext.symm rfl)
  · rintro ⟨hp, hne⟩
    refine ⟨?_, hp⟩
    rintro rfl
    exact hne rfl

/-! ## The order of the pairs -/

theorem insertTimeout_perm (p : UInt64 × UInt64) (l : List (UInt64 × UInt64)) :
    (insertTimeout p l).Perm (p :: l) := by
  induction l with
  | nil => exact .refl _
  | cons q qs ih =>
    unfold insertTimeout
    split
    · exact (ih.cons q).trans (.swap p q qs)
    · exact .refl _

theorem mem_insertTimeout {p q : UInt64 × UInt64} : q ∈ insertTimeout p l ↔ q = p ∨ q ∈ l := by
  rw [(insertTimeout_perm p l).mem_iff, List.mem_cons]

/-- What holds of the pairs on both sides of the new one holds of all pairs. -/
theorem insertTimeout_pairwise {R : UInt64 × UInt64 → UInt64 × UInt64 → Prop}
    {p : UInt64 × UInt64} (hl : l.Pairwise R) (hsorted : l.Pairwise (fun p q => p.1 ≤ q.1))
    (hbefore : ∀ q ∈ l, q.1 ≤ p.1 → R q p) (hafter : ∀ q ∈ l, p.1 < q.1 → R p q) :
    (insertTimeout p l).Pairwise R := by
  induction l with
  | nil => simp [insertTimeout]
  | cons q qs ih =>
    obtain ⟨hq, hqs⟩ := List.pairwise_cons.mp hl
    obtain ⟨hle, hqs'⟩ := List.pairwise_cons.mp hsorted
    obtain ⟨hqp, hbefore⟩ := List.forall_mem_cons.mp hbefore
    unfold insertTimeout
    split
    · rename_i hqle
      refine List.pairwise_cons.mpr ⟨fun r hr => ?_, ?_⟩
      · rcases mem_insertTimeout.mp hr with rfl | hr
        · exact hqp hqle
        · exact hq r hr
      · exact ih hqs hqs' hbefore fun r hr => hafter r (List.mem_cons_of_mem _ hr)
    · rename_i hlt
      have hpq : p.1 < q.1 := UInt64.not_le.mp hlt
      refine List.pairwise_cons.mpr ⟨fun r hr => hafter r hr ?_, hl⟩
      rcases List.mem_cons.mp hr with rfl | hr
      · exact hpq
      · exact UInt64.lt_of_lt_of_le hpq (hle r hr)

/-- In an ordered multimap `upper_bound( now )` parts the pairs that are due from the others. -/
theorem takeWhile_due {now : UInt64} (h : l.Pairwise (fun p q => p.1 ≤ q.1)) :
    l.takeWhile (·.1 ≤ now) = l.filter (·.1 ≤ now) ∧
      l.dropWhile (·.1 ≤ now) = l.filter (now < ·.1) := by
  induction l with
  | nil => exact ⟨rfl, rfl⟩
  | cons p l ih =>
    obtain ⟨hp, hl⟩ := List.pairwise_cons.mp h
    by_cases hle : p.1 ≤ now
    · simp [hle, ih hl]
    · -- nothing behind it is due either
      have hlate : ∀ q ∈ l, ¬q.1 ≤ now := fun q hq hdue => hle (UInt64.le_trans (hp q hq) hdue)
      have hnone : l.filter (·.1 ≤ now) = [] := by simpa [List.filter_eq_nil_iff] using hlate
      have hall : l.filter (now < ·.1) = l := by simpa [List.filter_eq_self] using hlate
      simp [hnone, hall, UInt64.not_le.mp hle]

/-! ## The operations as equations -/

theorem appSetTimeoutEntry_eq (hinactive : e.active = false) (now : UInt64) :
    m.appSetTimeoutEntry i e now = .ok { m.setEntry i (some (e.schedule now)) with
      nextTimeouts := insertTimeout (now + e.delay, i) m.nextTimeouts } := by
  simp [appSetTimeoutEntry, hinactive, TimeoutEntry.schedule]

theorem Exact.appClearTimeoutEntry_eq (h : m.Exact) (he : m.timers id = some e) :
    m.appClearTimeoutEntry id e = .ok ({ m.setEntry id (some e.deactivate) with
      nextTimeouts := m.nextTimeouts.erase (e.nextTimeout, id) }, e.deactivate) := by
  unfold appClearTimeoutEntry
  cases hactive : e.active with
  | true =>
    have hmem := h.scheduled id e he hactive
    simp [hmem, TimeoutEntry.deactivate]
  | false =>
    have hsame : e.deactivate = e := by
      cases e
      simp only [TimeoutEntry.deactivate] at hactive ⊢
      rw [hactive]
    have hset : m.setEntry id (some e) = m := by
      unfold setEntry
      rw [← he, Function.update_eq_self]
    have hnot : (e.nextTimeout, id) ∉ m.nextTimeouts := by
      intro hmem
      refine h.paired.not_mem (fun e' he' => ?_) _ hmem rfl
      cases he.symm.trans he'
      exact hactive
    simp only [Bool.not_false, if_true, hsame, hset, List.erase_of_not_mem hnot]

/-- `detach` goes through: the timers of its pairs are active until it reaches them. -/
theorem detach_eq {due : List (UInt64 × UInt64)} (hnodup : (due.map Prod.snd).Nodup)
    (hactive : ∀ p ∈ due, ∃ e, m.timers p.2 = some e ∧ e.active) :
    ∃ m', detach due m = .ok (m', due.map Prod.snd) ∧ m'.lastId = m.lastId ∧
      m'.nextTimeouts = m.nextTimeouts ∧ ∀ i, m'.timers i =
        if i ∈ due.map Prod.snd then (m.timers i).bind (·.fire) else m.timers i := by
  induction due generalizing m with
  | nil => exact ⟨m, rfl, rfl, rfl, fun i => by simp⟩
  | cons p due ih =>
    obtain ⟨hp, hrest⟩ := List.nodup_cons.mp hnodup
    obtain ⟨e, he, hact⟩ := hactive p (List.mem_cons_self ..)
    have hothers : ∀ q ∈ due, ∃ e', (m.setEntry p.2 e.fire).timers q.2 = some e' ∧ e'.active := by
      intro q hq
      have hne : q.2 ≠ p.2 := fun heq => hp (heq ▸ List.mem_map_of_mem hq)
      obtain ⟨e', he', hact'⟩ := hactive q (List.mem_cons_of_mem _ hq)
      exact ⟨e', (Function.update_of_ne hne ..).trans he', hact'⟩
    obtain ⟨m', hdetach, hlast, hnext, hentry⟩ := ih hrest hothers
    refine ⟨m', ?_, hlast, hnext, fun i => ?_⟩
    · have hfire : (if e.handleDestroyed then none else some { e with active := false }) =
          e.fire := rfl
      obtain ⟨t, i⟩ := p
      simp only [detach, he, hact, Bool.not_true, Bool.false_eq_true, if_false, hfire, hdetach]
      rfl
    · rw [hentry i]
      by_cases hi : i = p.2
      · subst hi
        have hnot : p.2 ∉ due.map Prod.snd := hp
        rw [if_neg hnot, if_pos (List.mem_map_of_mem (List.mem_cons_self ..)), he]
        exact Function.update_self ..
      · have hother : (m.setEntry p.2 e.fire).timers i = m.timers i :=
          Function.update_of_ne hi ..
        rw [hother]
        simp only [List.map_cons, List.mem_cons, hi, false_or]

theorem Exact.mem_due (h : m.Exact) (now : UInt64) :
    id ∈ (m.nextTimeouts.takeWhile (·.1 ≤ now)).map Prod.snd ↔
      ∃ e, m.timers id = some e ∧ e.due now := by
  rw [(takeWhile_due h.sorted).1]
  constructor
  · intro hmem
    obtain ⟨p, hp, rfl⟩ := List.mem_map.mp hmem
    obtain ⟨hin, hle⟩ := List.mem_filter.mp hp
    obtain ⟨e, he, hactive, hnext⟩ := (h.mem_iff p).mp hin
    exact ⟨e, he, by simpa [TimeoutEntry.due, hactive, hnext] using hle⟩
  · rintro ⟨e, he, hdue⟩
    simp only [TimeoutEntry.due, Bool.and_eq_true, decide_eq_true_eq] at hdue
    refine List.mem_map.mpr ⟨(e.nextTimeout, id), List.mem_filter.mpr ⟨?_, ?_⟩, rfl⟩
    · exact h.scheduled id e he hdue.1
    · simpa using hdue.2

/-! ## The refinement -/

theorem setEntry_timers (m : TimeoutManager) (i : UInt64) (x : Option TimeoutEntry) :
    (m.setEntry i x).timers id = if id = i then x else m.timers id := by
  show Function.update m.timers i x id = _
  by_cases hi : id = i
  · rw [hi, Function.update_self, if_pos rfl]
  · rw [Function.update_of_ne hi, if_neg hi]

theorem entry_none (he : m.timers i = none) (f : Option TimeoutEntry → Option TimeoutEntry)
    (hf : f none = none) : m.timers id = if id = i then f (m.timers id) else m.timers id := by
  split
  · rename_i hi
    rw [hi, he, hf]
  · rfl

theorem entry_some (he : m.timers i = some e) (f : Option TimeoutEntry → Option TimeoutEntry) :
    (m.setEntry i (f (some e))).timers id = if id = i then f (m.timers id) else m.timers id := by
  rw [setEntry_timers]
  split
  · rename_i hi
    rw [hi, he]
  · rfl

theorem entry_taken {ms : Int32} {now : UInt64} (htaken : m.timers (m.lastId + 1) = some e) :
    m.timers id = TimeoutOp.entry m.lastId id (.appSetTimeout ms now) (m.timers id) := by
  cases he : m.timers id with
  | some e => rfl
  | none =>
    have hne : id ≠ m.lastId + 1 := by
      rintro rfl
      rw [htaken] at he
      cases he
    simp only [TimeoutOp.entry, if_neg hne]

theorem entry_other {ms : Int32} {now : UInt64} (hne : id ≠ m.lastId + 1) :
    TimeoutOp.entry m.lastId id (.appSetTimeout ms now) (m.timers id) = m.timers id := by
  cases m.timers id with
  | some e => rfl
  | none => simp only [TimeoutOp.entry, if_neg hne]

theorem appSetTimeout_eq (ms : Int32) (now : UInt64) :
    ∃ r, m.appSetTimeout ms now = .ok r ∧ r.1.lastId = m.lastId + 1 ∧
      r.2 = (if (m.timers (m.lastId + 1)).isNone then m.lastId + 1 else 0) ∧
      (∀ id, r.1.timers id = TimeoutOp.entry m.lastId id (.appSetTimeout ms now) (m.timers id)) ∧
      r.1.nextTimeouts = TimeoutOp.pairs m (.appSetTimeout ms now) := by
  simp only [appSetTimeout, TimeoutOp.pairs]
  cases htaken : m.timers (m.lastId + 1) with
  | some e₀ => exact ⟨_, rfl, rfl, rfl, fun id => entry_taken htaken, rfl⟩
  | none =>
    simp only [appSetTimeoutEntry_eq (e := { delay := delayOf ms }) rfl now]
    refine ⟨_, rfl, rfl, rfl, fun id => ?_, rfl⟩
    refine (setEntry_timers _ _ _).trans ?_
    by_cases hi : id = m.lastId + 1
    · subst hi
      simp only [htaken, TimeoutOp.entry, if_true]
    · rw [if_neg hi, entry_other hi]

theorem Exact.appClearTimeout_eq (h : m.Exact) (i : UInt64) :
    ∃ m', m.appClearTimeout i = .ok m' ∧ m'.lastId = m.lastId ∧
      (∀ id, m'.timers id = TimeoutOp.entry m.lastId id (.appClearTimeout i) (m.timers id)) ∧
      m'.nextTimeouts = TimeoutOp.pairs m (.appClearTimeout i) := by
  simp only [appClearTimeout, TimeoutOp.pairs]
  cases he : m.timers i with
  | none => exact ⟨m, rfl, rfl, fun id => entry_none he (·.map (·.deactivate)) rfl, rfl⟩
  | some e =>
    simp only [h.appClearTimeoutEntry_eq he]
    exact ⟨_, rfl, rfl, fun id => (entry_some he (Option.map TimeoutEntry.deactivate) :), rfl⟩

theorem Exact.appRefresh_eq (h : m.Exact) (i now : UInt64) :
    ∃ m', m.appRefresh i now = .ok m' ∧ m'.lastId = m.lastId ∧
      (∀ id, m'.timers id = TimeoutOp.entry m.lastId id (.appRefresh i now) (m.timers id)) ∧
      m'.nextTimeouts = TimeoutOp.pairs m (.appRefresh i now) := by
  simp only [appRefresh, TimeoutOp.pairs]
  cases he : m.timers i with
  | none => exact ⟨m, rfl, rfl, fun id => entry_none he (·.map (·.schedule now)) rfl, rfl⟩
  | some e =>
    have hset := fun m : TimeoutManager =>
      appSetTimeoutEntry_eq (m := m) (i := i) (e := e.deactivate) rfl now
    simp only [h.appClearTimeoutEntry_eq he]
    refine ⟨_, hset _, rfl, fun id => ?_, rfl⟩
    refine Eq.trans ?_ (entry_some he (·.map (·.schedule now)))
    simp only [setEntry_timers]
    split
    · rfl
    · rfl

theorem appTimeoutDestructor_eq (m : TimeoutManager) (i : UInt64) :
    (m.appTimeoutDestructor i).lastId = m.lastId ∧
      (∀ id, (m.appTimeoutDestructor i).timers id =
        TimeoutOp.entry m.lastId id (.appTimeoutDestructor i) (m.timers id)) ∧
      (m.appTimeoutDestructor i).nextTimeouts = m.nextTimeouts := by
  unfold appTimeoutDestructor
  cases he : m.timers i with
  | none => exact ⟨rfl, fun id => entry_none he (·.bind (·.release)) rfl, rfl⟩
  | some e => exact ⟨rfl, fun id => entry_some he (·.bind (·.release)), rfl⟩

theorem Exact.infraTimeoutEvents_eq (h : m.Exact) (now : UInt64) :
    ∃ m', m.infraTimeoutEvents now =
        .ok (m', (m.nextTimeouts.takeWhile (·.1 ≤ now)).map Prod.snd) ∧ m'.lastId = m.lastId ∧
      (∀ id, m'.timers id = TimeoutOp.entry m.lastId id (.infraTimeoutEvents now) (m.timers id)) ∧
      m'.nextTimeouts = m.nextTimeouts.dropWhile (·.1 ≤ now) := by
  have hsub := List.takeWhile_sublist (fun p : UInt64 × UInt64 => p.1 ≤ now) (l := m.nextTimeouts)
  obtain ⟨m', hdetach, hlast, hnext, hentry⟩ := detach_eq (h.paired.nodup.sublist (hsub.map _))
    (fun p hp => by
      obtain ⟨e, he, hactive, -⟩ := h.paired.active p (hsub.subset hp)
      exact ⟨e, he, hactive⟩)
  refine ⟨{ m' with nextTimeouts := m'.nextTimeouts.dropWhile (·.1 ≤ now) }, ?_, hlast,
    fun id => ?_, by rw [hnext]⟩
  · simp only [infraTimeoutEvents, hdetach]
    rfl
  · refine (hentry id).trans ?_
    simp only [TimeoutOp.entry, h.mem_due now]
    cases he : m.timers id with
    | none => simp
    | some e =>
      simp only [Option.some.injEq, exists_eq_left', Option.bind_some]

/-! ## The pairs after an operation -/

/-- An operation takes pairs away, or it inserts the pair of the timer it gives a due time, which
has no other. -/
theorem Exact.pairs_cases (h : m.Exact) (op : TimeoutOp) :
    (op.scheduled m = none ∧ (op.pairs m).Sublist m.nextTimeouts) ∨
    ∃ t i l, op.scheduled m = some i ∧ l.Sublist m.nextTimeouts ∧ (∀ p ∈ l, p.2 ≠ i) ∧
      op.pairs m = insertTimeout (t, i) l := by
  cases op with
  | appSetTimeout ms now =>
    simp only [TimeoutOp.pairs, TimeoutOp.scheduled]
    cases he : m.timers (m.lastId + 1) with
    | none =>
      refine .inr ⟨_, _, _, rfl, .refl _, h.paired.not_mem fun e he' => ?_, rfl⟩
      cases he.symm.trans he'
    | some e => exact .inl ⟨rfl, .refl _⟩
  | appClearTimeout i =>
    refine .inl ⟨rfl, ?_⟩
    simp only [TimeoutOp.pairs]
    split
    · exact .refl _
    · exact List.erase_sublist
  | appRefresh i now =>
    simp only [TimeoutOp.pairs, TimeoutOp.scheduled]
    cases he : m.timers i with
    | none => exact .inl ⟨rfl, .refl _⟩
    | some e =>
      exact .inr ⟨_, _, _, rfl, List.erase_sublist, fun p hp => ((h.mem_erase he p).mp hp).2, rfl⟩
  | appTimeoutDestructor i => exact .inl ⟨rfl, .refl _⟩
  | infraTimeoutEvents now => exact .inl ⟨rfl, List.dropWhile_sublist _⟩

theorem Exact.mem_pairs_cases (h : m.Exact) {op : TimeoutOp} {p : UInt64 × UInt64}
    (hp : p ∈ op.pairs m) :
    op.scheduled m = some p.2 ∨ (p ∈ m.nextTimeouts ∧ op.scheduled m ≠ some p.2) := by
  rcases h.pairs_cases op with ⟨hnone, hsub⟩ | ⟨t, i, l, hsome, hsub, hnot, hpairs⟩
  · rw [hnone]
    exact .inr ⟨hsub.subset hp, nofun⟩
  · rw [hpairs] at hp
    rw [hsome]
    rcases mem_insertTimeout.mp hp with rfl | hp
    · exact .inl rfl
    · exact .inr ⟨hsub.subset hp, fun heq => hnot p hp (Option.some.inj heq).symm⟩

theorem Exact.pairs_sorted (h : m.Exact) (op : TimeoutOp) :
    (op.pairs m).Pairwise (fun p q => p.1 ≤ q.1) := by
  rcases h.pairs_cases op with ⟨-, hsub⟩ | ⟨t, i, l, -, hsub, -, hpairs⟩
  · exact h.sorted.sublist hsub
  · have hl := h.sorted.sublist hsub
    rw [hpairs]
    exact insertTimeout_pairwise hl hl (fun _ _ hle => hle) fun _ _ hlt => UInt64.le_of_lt hlt

theorem Exact.pairs_nodup (h : m.Exact) (op : TimeoutOp) : ((op.pairs m).map Prod.snd).Nodup := by
  rcases h.pairs_cases op with ⟨-, hsub⟩ | ⟨t, i, l, -, hsub, hnot, hpairs⟩
  · exact h.paired.nodup.sublist (hsub.map _)
  · rw [hpairs, ((insertTimeout_perm (t, i) l).map Prod.snd).nodup_iff]
    refine List.nodup_cons.mpr ⟨fun hmem => ?_, h.paired.nodup.sublist (hsub.map _)⟩
    obtain ⟨p, hp, heq⟩ := List.mem_map.mp hmem
    exact hnot p hp heq

theorem Exact.mem_pairs (h : m.Exact) (op : TimeoutOp) (p : UInt64 × UInt64) :
    p ∈ op.pairs m ↔ ∃ e, op.entry m.lastId p.2 (m.timers p.2) = some e ∧ e.active ∧
      e.nextTimeout = p.1 := by
  cases op with
  | appSetTimeout ms now =>
    simp only [TimeoutOp.pairs]
    cases hnew : m.timers (m.lastId + 1) with
    | some e₀ =>
      -- the identifier is taken: nothing changes
      rw [← entry_taken hnew]
      exact h.mem_iff p
    | none =>
      rw [mem_insertTimeout, h.mem_iff]
      by_cases hp : p.2 = m.lastId + 1
      · simpa [hp, hnew, TimeoutOp.entry, TimeoutEntry.schedule, Prod.ext_iff] using eq_comm
      · rw [entry_other hp]
        simp [hp, Prod.ext_iff]
  | appClearTimeout i =>
    simp only [TimeoutOp.pairs, TimeoutOp.entry]
    cases he : m.timers i with
    | none =>
      rw [← entry_none he (·.map (·.deactivate)) rfl]
      exact h.mem_iff p
    | some e =>
      -- the pair of `i` goes, and its entry is not active
      rw [h.mem_erase he, h.mem_iff]
      by_cases hp : p.2 = i
      · simp [hp, he, TimeoutEntry.deactivate]
      · simp [hp]
  | appRefresh i now =>
    simp only [TimeoutOp.pairs, TimeoutOp.entry]
    cases he : m.timers i with
    | none =>
      rw [← entry_none he (·.map (·.schedule now)) rfl]
      exact h.mem_iff p
    | some e =>
      -- the old pair of `i` makes room for the new one
      rw [mem_insertTimeout, h.mem_erase he, h.mem_iff]
      by_cases hp : p.2 = i
      · simpa [hp, he, TimeoutEntry.schedule, Prod.ext_iff] using eq_comm
      · simp [hp, Prod.ext_iff]
  | appTimeoutDestructor i =>
    refine (h.mem_iff p).trans ?_
    simp only [TimeoutOp.entry]
    split
    · -- an entry that is not active may go
      cases m.timers p.2 with
      | none => simp
      | some e => cases hactive : e.active <;> simp [TimeoutEntry.release, hactive]
    · rfl
  | infraTimeoutEvents now =>
    simp only [TimeoutOp.pairs, TimeoutOp.entry, (takeWhile_due h.sorted).2, List.mem_filter,
      h.mem_iff]
    cases m.timers p.2 with
    | none => simp
    | some e =>
      simp only [Option.some.injEq, exists_eq_left', Option.bind_some, decide_eq_true_eq]
      split
      · -- a timer that fires is gone or not active
        rename_i hdue
        simp only [TimeoutEntry.due, Bool.and_eq_true, decide_eq_true_eq] at hdue
        constructor
        · rintro ⟨⟨-, hnext⟩, hlt⟩
          exact absurd (hnext ▸ hdue.2) (UInt64.not_le.mpr hlt)
        · rintro ⟨e', hfire, hactive, -⟩
          rw [TimeoutEntry.fire] at hfire
          split at hfire
          · cases hfire
          · cases hfire
            cases hactive
      · -- a timer that is not due keeps its pair
        rename_i hdue
        simp only [Option.some.injEq, exists_eq_left']
        refine and_iff_left_of_imp ?_
        rintro ⟨hactive, hnext⟩
        simpa [TimeoutEntry.due, hactive, hnext] using hdue

/-- The refinement: every operation succeeds, does to each timer what it does to a single one,
and keeps the store exact. -/
theorem Exact.run (h : m.Exact) (op : TimeoutOp) :
    ∃ m', op.run m = .ok m' ∧ m'.Exact ∧ m'.lastId = op.lastId m.lastId ∧
      (∀ id, m'.timers id = op.entry m.lastId id (m.timers id)) ∧
      m'.nextTimeouts = op.pairs m := by
  obtain ⟨m', hrun, hlast, hentry, hpairs⟩ : ∃ m', op.run m = .ok m' ∧
      m'.lastId = op.lastId m.lastId ∧
      (∀ id, m'.timers id = op.entry m.lastId id (m.timers id)) ∧
      m'.nextTimeouts = op.pairs m := by
    cases op with
    | appSetTimeout ms now =>
      obtain ⟨r, hr, hlast, -, hspec⟩ := appSetTimeout_eq (m := m) ms now
      exact ⟨r.1, by simp only [TimeoutOp.run, hr]; rfl, hlast, hspec⟩
    | appClearTimeout i => exact h.appClearTimeout_eq i
    | appRefresh i now => exact h.appRefresh_eq i now
    | appTimeoutDestructor i => exact ⟨_, rfl, appTimeoutDestructor_eq m i⟩
    | infraTimeoutEvents now =>
      obtain ⟨m', hm, hspec⟩ := h.infraTimeoutEvents_eq now
      exact ⟨m', by simp only [TimeoutOp.run, hm]; rfl, hspec⟩
  refine ⟨m', hrun, ⟨fun id e he hactive => ?_, ⟨fun p hp => ?_, ?_⟩, ?_⟩, hlast, hentry, hpairs⟩
  · rw [hpairs, h.mem_pairs]
    exact ⟨e, (hentry id).symm.trans he, hactive, rfl⟩
  · rw [hpairs, h.mem_pairs] at hp
    rwa [hentry]
  · rw [hpairs]
    exact h.pairs_nodup op
  · rw [hpairs]
    exact h.pairs_sorted op

theorem Exact.step (h : m.Exact) {op : TimeoutOp} (hrun : op.run m = .ok m') :
    m'.Exact ∧ m'.lastId = op.lastId m.lastId ∧
      (∀ id, m'.timers id = op.entry m.lastId id (m.timers id)) ∧
      m'.nextTimeouts = op.pairs m := by
  obtain ⟨m₁, hm₁, hspec⟩ := h.run op
  cases hrun.symm.trans hm₁
  exact hspec

end TimeoutManager

end NodeCpp
