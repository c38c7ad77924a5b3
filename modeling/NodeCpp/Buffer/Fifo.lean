import Mathlib.Data.Nat.Log
import NodeCpp.Net.Os

/-!
# CircularByteBuffer as an ideal FIFO

The sending side of the sockets uses `CircularByteBuffer` only through its
contents and its free space. `Fifo` is that view: `append` adds at the back and
grows the block when the free space does not suffice, `write` hands the writer a
prefix and drops exactly what the writer accepted.
-/

namespace NodeCpp

variable {b : Fifo} {os : WriteReplies}

/-- The bytes held and the size exponent of the block behind them. -/
structure Fifo where
  contents : List UInt8 := []
  sizeExp : Nat := 12
  deriving DecidableEq, Repr

namespace Fifo

def usedSize (b : Fifo) : Nat := b.contents.length

def empty (b : Fifo) : Bool := b.contents.isEmpty

/-- `remaining_capacity()`: one cell of the block always stays unused. -/
def remainingCapacity (b : Fifo) : Nat := 2 ^ b.sizeExp - 1 - b.usedSize

/-- The exponent `resize_up_and_append` settles on: at least one more, and enough for
`totalSz` bytes and the unused cell. -/
def grownSizeExp (b : Fifo) (totalSz : Nat) : Nat := max (b.sizeExp + 1) (Nat.clog 2 (totalSz + 1))

def append (b : Fifo) (data : List UInt8) : Fifo where
  contents := b.contents ++ data
  sizeExp :=
    if b.remainingCapacity < data.length then b.grownSizeExp (b.usedSize + data.length)
    else b.sizeExp

/-- The kernel's answers to the one or two sends of `write`. The contents lie in one or two
ranges of the block; `cut` is the length of the first one when there are two. -/
structure WriteReplies where
  cut : Nat := 0
  first : SendReply
  second : SendReply := .wouldBlock
  deriving DecidableEq, Repr

def firstLen (b : Fifo) (cut : Nat) : Nat := if cut = 0 then b.usedSize else min cut b.usedSize

/-- `write`: the first range and, if the writer takes all of it, the second one. -/
def write (b : Fifo) (os : WriteReplies) : Fifo × SendResult :=
  let len := b.firstLen os.cut
  let r := internalSendPacket len os.first
  if r.ret = .ok ∧ r.sentSize = len ∧ len < b.usedSize then
    let r₂ := internalSendPacket (b.usedSize - len) os.second
    ({ b with contents := b.contents.drop (len + r₂.sentSize) }, ⟨r₂.ret, len + r₂.sentSize⟩)
  else ({ b with contents := b.contents.drop r.sentSize }, r)

@[simp] theorem contents_append (b : Fifo) (data : List UInt8) :
    (b.append data).contents = b.contents ++ data := rfl

@[simp] theorem usedSize_eq_zero : b.usedSize = 0 ↔ b.contents = [] :=
  List.length_eq_zero_iff

@[simp] theorem empty_iff : b.empty = true ↔ b.contents = [] :=
  List.isEmpty_iff

@[simp] theorem empty_eq_false_iff : b.empty = false ↔ b.contents ≠ [] := by
  simp [Bool.eq_false_iff]

@[simp] theorem write_contents (b : Fifo) (os : WriteReplies) :
    (b.write os).1.contents = b.contents.drop (b.write os).2.sentSize := by
  simp only [write]
  split <;> rfl

theorem firstLen_le (b : Fifo) (cut : Nat) : b.firstLen cut ≤ b.usedSize := by
  unfold firstLen
  split
  · exact le_rfl
  · exact Nat.min_le_right ..

theorem write_sentSize_le (b : Fifo) (os : WriteReplies) :
    (b.write os).2.sentSize ≤ b.usedSize := by
  have hlen := b.firstLen_le os.cut
  have hfirst := internalSendPacket_sentSize_le (b.firstLen os.cut) os.first
  have hsecond := internalSendPacket_sentSize_le (b.usedSize - b.firstLen os.cut) os.second
  simp only [write]
  split <;> dsimp only <;> omega

theorem write_failed_lt (hne : b.contents ≠ []) (h : (b.write os).2.ret = .failed) :
    (b.write os).2.sentSize < b.usedSize := by
  have hpos : 0 < b.usedSize := List.length_pos_iff.mpr hne
  simp only [write] at h ⊢
  split at h
  · rename_i hmore
    have hnone := internalSendPacket_failed h
    rw [if_pos hmore]
    dsimp only
    omega
  · rename_i hmore
    rw [if_neg hmore, internalSendPacket_failed h]
    exact hpos

theorem write_contents_eq_nil :
    (b.write os).1.contents = [] ↔ (b.write os).2.sentSize = b.usedSize := by
  have hle := b.write_sentSize_le os
  rw [write_contents, List.drop_eq_nil_iff]
  exact ⟨fun h => le_antisymm hle h, fun h => h.ge⟩

theorem write_ret_ne_failed (b : Fifo) (h₁ : os.first ≠ .error) (h₂ : os.second ≠ .error) :
    (b.write os).2.ret ≠ .failed := by
  simp only [write]
  split
  · exact internalSendPacket_ret_ne_failed _ h₂
  · exact internalSendPacket_ret_ne_failed _ h₁

end Fifo

end NodeCpp
