import Mathlib.Algebra.Order.Ring.Nat

/-!
# Fields in memory

Numbers as bytes, the least significant one first, and records as the bytes of their fields one
after the other. What fits into its field is read back as it was written.
-/

namespace NodeCpp.Lib

/-- The `k` low bytes of `n`. -/
def toBytes : Nat → Nat → List UInt8
  | 0, _ => []
  | k + 1, n => UInt8.ofNat n :: toBytes k (n / 256)

def ofBytes : List UInt8 → Nat
  | [] => 0
  | b :: bs => b.toNat + 256 * ofBytes bs

@[simp] theorem length_toBytes (k n : Nat) : (toBytes k n).length = k := by
  induction k generalizing n with
  | zero => rfl
  | succ k ih => rw [toBytes, List.length_cons, ih]

theorem ofBytes_toBytes {k n : Nat} (h : n < 256 ^ k) : ofBytes (toBytes k n) = n := by
  induction k generalizing n with
  | zero =>
    rw [Nat.pow_zero] at h
    rw [toBytes, ofBytes]
    omega
  | succ k ih =>
    have hdiv : n / 256 < 256 ^ k := by
      apply Nat.div_lt_of_lt_mul
      rw [Nat.mul_comm, ← Nat.pow_succ]
      exact h
    rw [toBytes, ofBytes, ih hdiv, UInt8.toNat_ofNat']
    exact Nat.mod_add_div n 256

/-! ## Records -/

/-- The bytes of a record, given as the width and the value of every field. -/
def toRecord (fields : List (Nat × Nat)) : List UInt8 :=
  (fields.map fun f => toBytes f.1 f.2).flatten

/-- The values of fields of the given widths. -/
def ofRecord : List Nat → List UInt8 → List Nat
  | [], _ => []
  | k :: ks, bytes => ofBytes (bytes.take k) :: ofRecord ks (bytes.drop k)

theorem length_toRecord (fields : List (Nat × Nat)) :
    (toRecord fields).length = (fields.map Prod.fst).sum := by
  induction fields with
  | nil => rfl
  | cons f fields ih =>
    rw [List.map_cons, List.sum_cons, ← ih, toRecord, List.map_cons, List.flatten_cons,
      List.length_append, length_toBytes]
    rfl

theorem ofRecord_toRecord {fields : List (Nat × Nat)} (h : ∀ f ∈ fields, f.2 < 256 ^ f.1)
    (rest : List UInt8) :
    ofRecord (fields.map Prod.fst) (toRecord fields ++ rest) = fields.map Prod.snd := by
  induction fields with
  | nil => rfl
  | cons f fields ih =>
    have hcons : toRecord (f :: fields) ++ rest = toBytes f.1 f.2 ++ (toRecord fields ++ rest) := by
      simp [toRecord]
    have hlen : (toBytes f.1 f.2).length = f.1 := length_toBytes ..
    rw [List.map_cons, List.map_cons, ofRecord, hcons, List.take_left' hlen, List.drop_left' hlen,
      ofBytes_toBytes (h f List.mem_cons_self), ih]
    intro g hg
    exact h g (List.mem_cons_of_mem _ hg)

end NodeCpp.Lib
