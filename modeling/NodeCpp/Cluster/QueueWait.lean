import Mathlib.Algebra.Order.Ring.Nat

/-!
# Waiting for messages

Without sockets, a node waits for messages on the queue of its thread, until the first of its timers
is due. `getPollTimeout` says for how long in milliseconds, with -1 for a node without timers, as
`poll()` has it. The queue waits with `wait_for`, for which -1 is over at once.
-/

namespace NodeCpp

def timeOutNever : UInt64 := 0xffffffffffffffff

def intMax : UInt64 := 0x7fffffff

/-- Times are in microseconds, and the result is an `int` in milliseconds. -/
def getPollTimeout (nextTimeoutAt now : UInt64) : Int :=
  if nextTimeoutAt = timeOutNever then -1
  else if nextTimeoutAt ≤ now then 0
  else if (nextTimeoutAt - now) / 1000 + 1 ≤ intMax then
    ((nextTimeoutAt - now) / 1000 + 1).toNat
  else intMax.toNat

/-- `timeoutToUse` becomes the `uint64_t` of `pop_front`, and that the signed number of
`std::chrono::milliseconds`. -/
def milliseconds (timeoutToUse : Int) : Int := Int.bmod (timeoutToUse % 2 ^ 64) (2 ^ 64)

/-- When a `wait_for` of `ms` milliseconds expires. -/
def waitFor (start : Nat) (ms : Int) : Nat := start + 1000 * ms.toNat

/-- The loop of `pop_front` on a queue that stays empty, from `start` on, may expire at a given time.
When it is woken, it waits again. -/
inductive Expires (ms : Int) : Nat → Nat → Prop
  | timeout (start : Nat) : Expires ms start (waitFor start ms)
  | woken {start woken expiry : Nat} (hstart : start ≤ woken) (h : woken ≤ waitFor start ms)
      (hexp : Expires ms woken expiry) : Expires ms start expiry

theorem Expires.le {ms : Int} {start expiry : Nat} (h : Expires ms start expiry) :
    waitFor start ms ≤ expiry := by
  induction h with
  | timeout start => exact Nat.le_refl _
  | woken hstart _ _ ih =>
    unfold waitFor at *
    omega

/-- The wait that a node begins after `now` lasts until the next timer, or as long as `int` allows,
and does not expire without timers. -/
def WaitsForTimers (nextTimeoutAt now : UInt64) : Prop :=
  ∀ start expiry : Nat, now.toNat ≤ start →
    Expires (milliseconds (getPollTimeout nextTimeoutAt now)) start expiry →
      nextTimeoutAt ≠ timeOutNever ∧
        min nextTimeoutAt.toNat (now.toNat + 1000 * intMax.toNat) ≤ expiry

theorem getPollTimeout_ge {nextTimeoutAt now : UInt64} (h : nextTimeoutAt ≠ timeOutNever) :
    min nextTimeoutAt.toNat (now.toNat + 1000 * intMax.toNat) ≤
      waitFor now.toNat (milliseconds (getPollTimeout nextTimeoutAt now)) := by
  have hmax : intMax.toNat = 2147483647 := rfl
  unfold getPollTimeout
  rw [if_neg h]
  split
  · next hdue =>
    have := UInt64.le_iff_toNat_le.mp hdue
    exact Nat.le_trans (Nat.min_le_left ..) (Nat.le_trans this (Nat.le_add_right ..))
  · next hdue =>
    have hlt : now ≤ nextTimeoutAt := UInt64.le_of_lt (UInt64.not_le.mp hdue)
    have hnext := nextTimeoutAt.toNat_lt
    have hms : ((nextTimeoutAt - now) / 1000 + 1).toNat =
        (nextTimeoutAt.toNat - now.toNat) / 1000 + 1 := by
      rw [UInt64.toNat_add, UInt64.toNat_div, UInt64.toNat_sub_of_le _ _ hlt]
      refine Nat.mod_eq_of_lt ?_
      show _ / 1000 + 1 < _
      omega
    simp only [UInt64.le_iff_toNat_le, hms, hmax, waitFor, milliseconds, Int.bmod_def]
    omega

theorem waitsForTimers_iff (nextTimeoutAt now : UInt64) :
    WaitsForTimers nextTimeoutAt now ↔ nextTimeoutAt ≠ timeOutNever := by
  constructor
  · intro h
    exact (h _ _ (Nat.le_refl _) (.timeout _)).1
  · intro h start expiry hstart hexp
    refine ⟨h, ?_⟩
    have hge := @getPollTimeout_ge nextTimeoutAt now h
    have hle := hexp.le
    unfold waitFor at hge hle
    omega

/-- A node without timers does not wait at all. -/
theorem not_waitsForTimers_never : ¬ WaitsForTimers timeOutNever 0 := by
  intro h
  have hexp : Expires (milliseconds (getPollTimeout timeOutNever 0)) 0 0 := .timeout 0
  exact (h 0 0 (Nat.le_refl 0) hexp).1 rfl

end NodeCpp
