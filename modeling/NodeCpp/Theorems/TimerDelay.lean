import NodeCpp.Timer.Entry

/-!
# When timers fire

A timer fires in the first `infraTimeoutEvents` whose clock reading has reached
the key of its pair in `nextTimeouts`. The key is the clock reading at
`appSetTimeout` plus `entry.delay`, and `entry.delay` is a 32-bit product widened
to 64 bits, so the key can lie before the time that was asked for.
-/

namespace NodeCpp

open Lib

namespace TimeoutManager

variable {m m' : TimeoutManager} {id : UInt64} {e : TimeoutEntry}

/-! ## One timer through a run -/

/-- The operation gives a due time to the timer: it is refreshed, or a new timer gets the id. -/
def schedules (m : TimeoutManager) (id : UInt64) : TimeoutOp → Prop
  | .appSetTimeout _ _ => m.lastId + 1 = id
  | .appRefresh i _ => i = id
  | _ => False

instance (m : TimeoutManager) (id : UInt64) : DecidablePred (m.schedules id)
  | .appSetTimeout _ _ => inferInstanceAs (Decidable (m.lastId + 1 = id))
  | .appRefresh i _ => inferInstanceAs (Decidable (i = id))
  | .appClearTimeout _ | .appTimeoutDestructor _ | .infraTimeoutEvents _ => isFalse not_false

theorem schedules_of_scheduled {op : TimeoutOp} (h : op.scheduled m = some id) :
    m.schedules id op := by
  cases op with
  | appSetTimeout ms now => exact Option.some.inj (Option.ite_none_right_eq_some.mp h).2
  | appRefresh i now => exact Option.some.inj (Option.ite_none_right_eq_some.mp h).2
  | _ => cases h

/-- The step lemma: a pair of the timer has been there before. -/
theorem Exact.pair_kept {op : TimeoutOp} (h : m.Exact) (hsched : ¬m.schedules id op)
    (hrun : op.run m = .ok m') {t : UInt64} (hp : (t, id) ∈ m'.nextTimeouts) :
    (t, id) ∈ m.nextTimeouts := by
  obtain ⟨-, -, -, hpairs⟩ := h.step hrun
  rw [hpairs] at hp
  rcases h.mem_pairs_cases hp with hnew | ⟨hold, -⟩
  · exact absurd (schedules_of_scheduled hnew) hsched
  · exact hold

/-- The run lemma: as long as it gets no other due time, a timer fires no earlier than at the one
it was set up with. -/
theorem Exact.fires_after {due now : UInt64} (h : m.Exact)
    (hdue : ∀ t, (t, id) ∈ m.nextTimeouts → t = due) {ops : List TimeoutOp}
    (hobeys : timeoutManager.obeys (fun m op => ¬m.schedules id op) m ops)
    (hrun : timeoutManager.run m ops = some m') {r : TimeoutManager × List UInt64}
    (hfire : m'.infraTimeoutEvents now = .ok r) (hmem : id ∈ r.2) : due ≤ now := by
  have hinv : m'.Exact ∧ ∀ t, (t, id) ∈ m'.nextTimeouts → t = due := by
    refine timeoutManager.run_invariant
      (J := fun m => m.Exact ∧ ∀ t, (t, id) ∈ m.nextTimeouts → t = due) ?_ ⟨h, hdue⟩ hobeys hrun
    rintro m₁ op m₂ ⟨hexact, hkeep⟩ hsched hstep
    have hok : op.run m₁ = .ok m₂ := toOption_eq_some hstep
    exact ⟨(hexact.step hok).1, fun t ht => hkeep t (hexact.pair_kept hsched hok ht)⟩
  obtain ⟨m'', hm'', -⟩ := hinv.1.infraTimeoutEvents_eq now
  cases hfire.symm.trans hm''
  obtain ⟨e, he, hle⟩ := (hinv.1.mem_due now).mp hmem
  simp only [TimeoutEntry.due, Bool.and_eq_true, decide_eq_true_eq] at hle
  rw [← hinv.2 _ (hinv.1.scheduled id e he hle.1)]
  exact hle.2

/-! ## The delay that was asked for -/

/-- The delay in milliseconds: `0` means 1, a negative one the longest. -/
def msOf (ms : Int32) : Nat :=
  if ms = 0 then 1 else if ms < 0 then 2147483647 else ms.toInt.toNat

/-- The timer never fires early: whatever has happened to the timers before and whatever happens
afterwards, as long as it is not refreshed and its id not used again. -/
def NeverEarly (ms : Int32) (now : UInt64) : Prop :=
  ∀ (before : List TimeoutOp) (m : TimeoutManager) (id : UInt64) (m₁ : TimeoutManager)
    (after : List TimeoutOp) (m₂ : TimeoutManager) (t : UInt64) (r : TimeoutManager × List UInt64),
    timeoutManager.run {} before = some m → m.timers (m.lastId + 1) = none →
    m.appSetTimeout ms now = .ok (m₁, id) →
    timeoutManager.obeys (fun m op => ¬m.schedules id op) m₁ after →
    timeoutManager.run m₁ after = some m₂ → m₂.infraTimeoutEvents t = .ok r → id ∈ r.2 →
    now.toNat + msOf ms * 1000 ≤ t.toNat

/-- The condition: the product fits 32 bits, or it is negative there and takes the due time below
zero, so that it wraps around to the far end of the clock. -/
def delayFits (ms : Int32) (now : UInt64) : Prop :=
  msOf ms * 1000 < 2 ^ 31 ∨
    (2 ^ 31 ≤ msOf ms * 1000 % 2 ^ 32 ∧ now.toNat + msOf ms * 1000 % 2 ^ 32 < 2 ^ 32)

instance (ms : Int32) (now : UInt64) : Decidable (delayFits ms now) :=
  inferInstanceAs (Decidable (_ ∨ _))

theorem msOf_bounds (ms : Int32) : 0 < msOf ms ∧ msOf ms ≤ 2147483647 := by
  unfold msOf
  split
  · decide
  · split
    · decide
    · rename_i hne hneg
      have hlt := ms.toInt_lt
      have hpos : ms.toInt ≠ 0 := fun h => hne (Int32.toInt_inj.mp h)
      rw [Int32.lt_iff_toInt_lt] at hneg
      simp only [Int32.toInt_zero] at hneg
      omega

/-- `entry.delay` as a signed number is the product wrapped to 32 bits. -/
theorem delayOf_toInt (ms : Int32) :
    ((delayOf ms).toNat : Int).bmod (2 ^ 64) = ((msOf ms : Int) * 1000).bmod (2 ^ 32) := by
  have hms : ∀ x : Int32, (((x * 1000).toInt64.toUInt64.toNat : Int)).bmod (2 ^ 64) =
      (x.toInt * 1000).bmod (2 ^ 32) := by
    intro x
    rw [← Int64.toNat_toBitVec, ← BitVec.toInt_eq_toNat_bmod, Int64.toInt_toBitVec,
      Int32.toInt_toInt64, Int32.toInt_mul]
    rfl
  unfold delayOf msOf
  rw [hms]
  split
  · rfl
  · split
    · rfl
    · rename_i hneg
      rw [Int32.lt_iff_toInt_lt] at hneg
      simp only [Int32.toInt_zero] at hneg
      rw [Int.toNat_of_nonneg (by omega)]

theorem delayOf_toNat (ms : Int32) : (delayOf ms).toNat =
    if msOf ms * 1000 % 2 ^ 32 < 2 ^ 31 then msOf ms * 1000 % 2 ^ 32
    else 2 ^ 64 - 2 ^ 32 + msOf ms * 1000 % 2 ^ 32 := by
  have hdelay := delayOf_toInt ms
  have hlt : (delayOf ms).toNat < 2 ^ 64 := (delayOf ms).toNat_lt
  have hcast : (msOf ms : Int) * 1000 % ((2 ^ 32 : Nat) : Int) =
      ((msOf ms * 1000 % 2 ^ 32 : Nat) : Int) := by
    omega
  simp only [Int.bmod, hcast] at hdelay
  generalize msOf ms * 1000 % 2 ^ 32 = p at *
  split at hdelay <;> split at hdelay <;> split <;> omega

/-- The due time lies before the time that was asked for unless the delay fits. -/
theorem due_iff (ms : Int32) {now : UInt64} (hnow : now.toNat + 2147483647 * 1000 < 2 ^ 64) :
    now.toNat + msOf ms * 1000 ≤ (now + delayOf ms).toNat ↔ delayFits ms now := by
  have hms := msOf_bounds ms
  rw [UInt64.toNat_add, delayOf_toNat]
  unfold delayFits
  generalize msOf ms = k at *
  split
  · -- no sign bit: the sum does not wrap
    rw [Nat.mod_eq_of_lt (by omega)]
    omega
  · by_cases hwrap : now.toNat + k * 1000 % 2 ^ 32 < 2 ^ 32
    · rw [Nat.mod_eq_of_lt (by omega)]
      omega
    · rw [show now.toNat + (2 ^ 64 - 2 ^ 32 + k * 1000 % 2 ^ 32) =
        now.toNat + k * 1000 % 2 ^ 32 - 2 ^ 32 + 2 ^ 64 by omega, Nat.add_mod_right,
        Nat.mod_eq_of_lt (by omega)]
      omega

theorem appSetTimeout_new {ms : Int32} {now : UInt64} (hnone : m.timers (m.lastId + 1) = none)
    (hset : m.appSetTimeout ms now = .ok (m', id)) :
    m'.timers id = some { lastSchedule := now, delay := delayOf ms,
                          nextTimeout := now + delayOf ms, active := true } := by
  simp only [appSetTimeout, hnone] at hset
  cases hset
  exact Function.update_self ..

theorem infraTimeoutEvents_single {due : UInt64} (hnext : m.nextTimeouts = [(due, id)])
    (he : m.timers id = some e) (hactive : e.active) :
    ∃ r, m.infraTimeoutEvents due = .ok r ∧ r.2 = [id] := by
  simp [infraTimeoutEvents, hnext, detach, he, hactive, bind, Except.bind]

end TimeoutManager

open TimeoutManager in
/-- A timer never fires early exactly if its delay fits. -/
theorem neverEarly_iff (ms : Int32) (now : UInt64)
    (hnow : now.toNat + 2147483647 * 1000 < 2 ^ 64) :
    NeverEarly ms now ↔ delayFits ms now := by
  rw [← due_iff ms hnow]
  constructor
  · intro hnever
    -- nothing but the timer itself
    obtain ⟨m₁, hset, hnext⟩ : ∃ m₁, appSetTimeout {} ms now = .ok (m₁, 1) ∧
      m₁.nextTimeouts = [(now + delayOf ms, 1)] := ⟨_, rfl, rfl⟩
    obtain ⟨r, hfire, hids⟩ := infraTimeoutEvents_single hnext (appSetTimeout_new rfl hset) rfl
    exact hnever [] {} 1 m₁ [] m₁ _ r rfl rfl hset trivial rfl hfire (by simp [hids])
  · intro hdue before m id m₁ after m₂ t r hbefore hnone hset hobeys hafter hfire hmem
    have hnew := appSetTimeout_new hnone hset
    have hle : now + delayOf ms ≤ t := by
      have hexact : m₁.Exact := by
        have hreach : m.Exact := timeoutManager.run_kept
          (fun _ _ _ hJ hstep => (hJ.step (toOption_eq_some hstep)).1) .init hbefore
        have hrun : (TimeoutOp.appSetTimeout ms now).run m = .ok m₁ := by
          rw [TimeoutOp.run, hset]
          rfl
        exact (hreach.step hrun).1
      refine hexact.fires_after (fun t ht => ?_) hobeys hafter hfire hmem
      obtain ⟨e, he, -, hnext⟩ := hexact.paired.active _ ht
      cases hnew.symm.trans he
      exact hnext.symm
    exact Nat.le_trans hdue (UInt64.le_iff_toNat_le.mp hle)

open TimeoutManager in
theorem neverEarly_second : NeverEarly 1000 5000000 :=
  (neverEarly_iff 1000 5000000 (by decide)).mpr (by decide)

open TimeoutManager in
/-- A timer of 2147484 milliseconds, set an hour after the start of the clock, fires at once. -/
theorem timer_fires_at_once :
    (3600000000 : UInt64).toNat + 2147483647 * 1000 < 2 ^ 64 ∧ ¬NeverEarly 2147484 3600000000 ∧
      ∃ m r, appSetTimeout {} 2147484 3600000000 = .ok (m, 1) ∧
        m.infraTimeoutEvents 3600000000 = .ok r ∧ r.2 = [1] := by
  refine ⟨by decide, fun hnever => ?_, _, _, rfl, rfl, rfl⟩
  have hearly := hnever [] {} 1 _ [] _ 3600000000 _ rfl rfl rfl trivial rfl rfl
    (List.mem_singleton_self _)
  exact absurd hearly (by decide)

end NodeCpp
