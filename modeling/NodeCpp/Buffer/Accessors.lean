import NodeCpp.Lib.Bytes
import NodeCpp.Lib.Segment
import NodeCpp.Net.Os

/-!
# The 32-bit accessors of Buffer

`writeUInt32LE` stores its four bytes at `begin() + size()`, not at `offset`, and `readUInt32LE`
returns a `uint8_t`. So a value can be read back at `offset` only if it is less than 256, and is
stored at the end of the buffer or is there already.
-/

namespace NodeCpp

open Lib

/-- A `Buffer` with all the cells of its block, those behind `size()` too. -/
structure BufferBlock where
  mem : Nat → UInt8
  size : Nat
  capacity : Nat

namespace BufferBlock

variable {b : BufferBlock} {value : UInt32} {offset : Nat}

/-- `writeUInt32LE`, of a `uint32_t`. -/
def writeUInt32LE (b : BufferBlock) (value : UInt32) (offset : Nat) :
    Except Failure BufferBlock :=
  if offset + 4 ≤ b.capacity then
    -- `memcpy` does not ask whether there is room at the end
    if b.size + 4 ≤ b.capacity then
      .ok { b with
        mem := store b.mem b.size (toBytes 4 value.toNat)
        size := max b.size (offset + 4) }
    else .error .error
  else .error .assertion

/-- `readUInt32LE`; the `uint32_t` is returned as a `uint8_t`. -/
def readUInt32LE (b : BufferBlock) (offset : Nat) : Except Failure UInt8 :=
  if offset + 4 ≤ b.size then
    .ok (UInt8.ofNat (ofBytes (segment b.mem offset (offset + 4))))
  else .error .assertion

/-- The value is read back at `offset`, the buffer contains it, and the other bytes that were in use
are as before. -/
def Writes (b : BufferBlock) (value : UInt32) (offset : Nat) : Prop :=
  ∃ b', b.writeUInt32LE value offset = .ok b' ∧
    (b'.readUInt32LE offset).map UInt8.toNat = .ok value.toNat ∧
    b'.size = max b.size (offset + 4) ∧
    ∀ i < b.size, i < offset ∨ offset + 4 ≤ i → b'.mem i = b.mem i

theorem readUInt32LE_eq (h : offset + 4 ≤ b.size) : b.readUInt32LE offset = .ok (b.mem offset) := by
  have hmod : ∀ n : Nat, UInt8.ofNat ((b.mem offset).toNat + 256 * n) = b.mem offset := by
    intro n
    apply UInt8.toNat_inj.mp
    rw [UInt8.toNat_ofNat', Nat.add_mul_mod_self_left, Nat.mod_eq_of_lt (b.mem offset).toNat_lt]
  rw [readUInt32LE, if_pos h, segment_cons _ (by omega), ofBytes, hmod]

theorem store_value (i : Nat) (h : i ≤ b.size) :
    store b.mem b.size (toBytes 4 value.toNat) i =
      if i = b.size then UInt8.ofNat value.toNat else b.mem i := by
  unfold store
  split
  · next hin =>
    obtain rfl : i = b.size := by omega
    simp [toBytes]
  · next hout =>
    rw [length_toBytes] at hout
    rw [if_neg (by omega)]

/-- Only small values are written, at the end of the buffer or where they are already. -/
theorem writes_iff (hsize : offset ≤ b.size) (hcap : offset + 4 ≤ b.capacity) :
    b.Writes value offset ↔
      value.toNat < 256 ∧
        (offset = b.size ∨ b.size + 4 ≤ b.capacity ∧ (b.mem offset).toNat = value.toNat) := by
  by_cases hroom : b.size + 4 ≤ b.capacity
  · have hread := @readUInt32LE_eq { b with
      mem := store b.mem b.size (toBytes 4 value.toNat)
      size := max b.size (offset + 4) } offset (Nat.le_max_right ..)
    simp only [store_value offset hsize] at hread
    have hlow : (UInt8.ofNat value.toNat).toNat = value.toNat ↔ value.toNat < 256 := by
      rw [UInt8.toNat_ofNat']
      omega
    have hsmall := (b.mem offset).toNat_lt
    constructor
    · rintro ⟨b', hwrite, hvalue, -⟩
      rw [writeUInt32LE, if_pos hcap, if_pos hroom] at hwrite
      cases hwrite
      rw [hread] at hvalue
      have hvalue := Except.ok.inj hvalue
      split at hvalue
      · next heq => exact ⟨hlow.mp hvalue, .inl heq⟩
      · exact ⟨by omega, .inr ⟨hroom, hvalue⟩⟩
    · rintro ⟨hlt, hat⟩
      refine ⟨_, by rw [writeUInt32LE, if_pos hcap, if_pos hroom], ?_, rfl, ?_⟩
      · rw [hread]
        refine congrArg Except.ok ?_
        split
        · exact hlow.mpr hlt
        · next hne => exact (hat.resolve_left hne).2
      · intro i hi _
        exact (store_value i (Nat.le_of_lt hi)).trans (if_neg (Nat.ne_of_lt hi))
  · -- the four bytes would go beyond the block
    constructor
    · rintro ⟨b', hwrite, -⟩
      rw [writeUInt32LE, if_pos hcap, if_neg hroom] at hwrite
      cases hwrite
    · rintro ⟨-, hat⟩
      omega

/-- Four zero bytes with room behind them. -/
def fourZeros : BufferBlock := ⟨fun _ => 0, 4, 1024⟩

theorem fourZeros_writes : fourZeros.Writes 7 4 :=
  (writes_iff (by decide) (by decide)).mpr ⟨by decide, .inl rfl⟩

/-- 7, written over the first four bytes, does not arrive there. -/
theorem fourZeros_not_writes : ¬ fourZeros.Writes 7 0 := by
  rintro ⟨b', hwrite, hvalue, -⟩
  cases hwrite
  revert hvalue
  decide

end BufferBlock

end NodeCpp
