import NodeCpp.Buffer.Accessors
import NodeCpp.Buffer.Circular
import NodeCpp.Lib.Machine
import Mathlib.Logic.Function.Basic

/-!
# Buffer as a list of bytes

The calls of `Buffer` on the blocks behind it, with growing, lazy allocation and the moves that
swap. A block that `new` returns has arbitrary content (`fresh`).

Every call does to the bytes of the buffers what the same operation does to lists, with two
exceptions: `append` of a part of the buffer itself frees the block it is about to read when the
block has to grow, and the sum `start + count` that is asserted can wrap around.
-/

namespace NodeCpp

open Lib

namespace BufferBlock

/-! ## The calls on one buffer -/

/-- `Buffer()`. -/
def empty : BufferBlock := ⟨fun _ => 0, 0, 0⟩

def reserve (fresh : Nat → UInt8) (b : BufferBlock) (sz : Nat) : Except Failure BufferBlock :=
  if b.size = 0 ∧ b.capacity = 0 then .ok { b with mem := fresh, capacity := max sz minBuffer }
  else .error .assertion

def ensureCapacity (fresh : Nat → UInt8) (b : BufferBlock) (sz : Nat) :
    Except Failure BufferBlock :=
  if b.capacity = 0 then b.reserve fresh sz
  else if b.capacity < sz then
    .ok { b with mem := store fresh 0 (segment b.mem 0 b.size), capacity := max sz minBuffer }
  else .ok b

/-- `append( dt, sz )`, of bytes that are not in the block of this buffer. -/
def append (fresh : Nat → UInt8) (b : BufferBlock) (dt : List UInt8) :
    Except Failure BufferBlock := do
  let b ← b.ensureCapacity fresh (b.size + dt.length)
  .ok { b with mem := store b.mem b.size dt, size := b.size + dt.length }

def writeInt8 (fresh : Nat → UInt8) (b : BufferBlock) (val : UInt8) (pos : Nat) :
    Except Failure BufferBlock := do
  let b ← b.ensureCapacity fresh (pos + 1)
  .ok { b with
    mem := store b.mem pos [val]
    size := if b.size < pos + 1 then pos + 1 else b.size }

def trim (b : BufferBlock) (sz : Nat) : Except Failure BufferBlock :=
  if sz ≤ b.size ∧ (b.capacity ≠ 0 ∨ b.size = 0 ∧ sz = 0) then .ok { b with size := b.size - sz }
  else .error .assertion

def popFront (b : BufferBlock) (sz : Nat) : Except Failure BufferBlock :=
  if sz ≤ b.size then { b with mem := store b.mem 0 (segment b.mem sz b.size) }.trim sz
  else .error .assertion

def clone (fresh : Nat → UInt8) (b : BufferBlock) : Except Failure BufferBlock := do
  let cp ← empty.reserve fresh b.size
  cp.append fresh (segment b.mem 0 b.size)

/-! ## What they do to the bytes -/

/-- The bytes in use are `l`, and the block has room for them. -/
structure Holds (b : BufferBlock) (l : List UInt8) : Prop where
  bytes : segment b.mem 0 b.size = l
  le : b.size ≤ b.capacity

/-- What a call leads to and what the operation on lists leads to: both to a result, or the one to
a failed assertion where the other is not defined. -/
def Matches {β γ : Type} (R : β → γ → Prop) : Except Failure β → Option γ → Prop
  | .ok b, some l => R b l
  | .error .assertion, none => True
  | _, _ => False

variable {b : BufferBlock} {l : List UInt8}

theorem Holds.length (h : b.Holds l) : l.length = b.size := by
  rw [← h.bytes, length_segment, Nat.sub_zero]

theorem holds_empty : empty.Holds [] := ⟨rfl, Nat.le_refl 0⟩

theorem Holds.ensureCapacity (h : b.Holds l) (fresh : Nat → UInt8) (sz : Nat) :
    ∃ b', b.ensureCapacity fresh sz = .ok b' ∧ b'.Holds l ∧ b'.size = b.size ∧
      sz ≤ b'.capacity := by
  have hle := h.le
  unfold BufferBlock.ensureCapacity reserve
  by_cases hnone : b.capacity = 0
  · have hsize : b.size = 0 := by omega
    rw [if_pos hnone, if_pos ⟨hsize, hnone⟩]
    refine ⟨_, rfl, ⟨?_, ?_⟩, rfl, Nat.le_max_left ..⟩
    · rw [← h.bytes, hsize, segment_self, segment_self]
    · rw [hsize]
      exact Nat.zero_le _
  · rw [if_neg hnone]
    by_cases hgrow : b.capacity < sz
    · rw [if_pos hgrow]
      refine ⟨_, rfl, ⟨?_, ?_⟩, rfl, Nat.le_max_left ..⟩
      · rw [segment_store_segment _ _ (Nat.le_refl _), h.bytes]
      · exact Nat.le_trans (Nat.le_trans hle (Nat.le_of_lt hgrow)) (Nat.le_max_left ..)
    · rw [if_neg hgrow]
      exact ⟨b, rfl, h, rfl, by omega⟩

theorem Holds.store (h : b.Holds l) {pos n : Nat} (bytes : List UInt8) (hpos : pos ≤ b.size)
    (hn : n = max b.size (pos + bytes.length)) (hcap : n ≤ b.capacity) :
    Holds { b with mem := Lib.store b.mem pos bytes, size := n }
      (l.take pos ++ bytes ++ l.drop (pos + bytes.length)) := by
  refine ⟨?_, hcap⟩
  have hfirst : segment (Lib.store b.mem pos bytes) 0 pos = l.take pos := by
    rw [segment_store_of_disjoint _ _ _ (.inl (Nat.le_refl _)), ← h.bytes, take_segment,
      Nat.min_eq_left hpos]
  have hlast : segment (Lib.store b.mem pos bytes) (pos + bytes.length) n =
      l.drop (pos + bytes.length) := by
    rw [segment_store_of_disjoint _ _ _ (.inr (Nat.le_refl _)), ← h.bytes]
    by_cases hin : pos + bytes.length ≤ b.size
    · rw [hn, Nat.max_eq_left hin, ← segment_append b.mem (Nat.zero_le _) hin]
      exact (List.drop_left' (by rw [length_segment, Nat.sub_zero])).symm
    · rw [segment_of_le _ (by omega), List.drop_eq_nil_of_le (by rw [length_segment]; omega)]
  rw [← segment_append _ (Nat.zero_le pos) (by omega : pos ≤ n),
    ← segment_append _ (Nat.le_add_right pos bytes.length) (by omega), hfirst, hlast,
    segment_store_self, List.append_assoc]

theorem Holds.append (h : b.Holds l) (fresh : Nat → UInt8) (dt : List UInt8) :
    Matches Holds (b.append fresh dt) (some (l ++ dt)) := by
  obtain ⟨b', heq, h', hsize, hcap⟩ := h.ensureCapacity fresh (b.size + dt.length)
  rw [BufferBlock.append, heq]
  have hput := h'.store dt (Nat.le_refl _) (Nat.max_eq_right (Nat.le_add_right ..)).symm
    (by omega)
  rwa [← h'.length, List.take_length, List.drop_eq_nil_of_le (Nat.le_add_right ..),
    List.append_nil, h'.length] at hput

theorem Holds.writeInt8 (h : b.Holds l) (fresh : Nat → UInt8) (val : UInt8) {pos : Nat}
    (hpos : pos ≤ b.size) :
    Matches Holds (b.writeInt8 fresh val pos) (some (l.take pos ++ [val] ++ l.drop (pos + 1))) := by
  obtain ⟨b', heq, h', hsize, hcap⟩ := h.ensureCapacity fresh (pos + 1)
  have hle := h'.le
  rw [BufferBlock.writeInt8, heq]
  refine h'.store [val] (by omega) ?_ ?_
  · rw [List.length_singleton]
    split <;> omega
  · split <;> omega

theorem Holds.trim (h : b.Holds l) (sz : Nat) :
    Matches Holds (b.trim sz)
      (if sz ≤ l.length then some (l.take (l.length - sz)) else none) := by
  have hle := h.le
  rw [BufferBlock.trim, h.length]
  by_cases hsz : sz ≤ b.size
  · rw [if_pos ⟨hsz, by omega⟩, if_pos hsz]
    refine ⟨?_, Nat.le_trans (Nat.sub_le ..) hle⟩
    rw [← h.bytes, take_segment, Nat.min_eq_left (Nat.sub_le ..)]
  · rw [if_neg (fun hand => hsz hand.1), if_neg hsz]
    trivial

theorem Holds.popFront (h : b.Holds l) (sz : Nat) :
    Matches Holds (b.popFront sz) (if sz ≤ l.length then some (l.drop sz) else none) := by
  have hle := h.le
  rw [BufferBlock.popFront, h.length]
  by_cases hsz : sz ≤ b.size
  · have hdrop : l.drop sz = segment b.mem sz b.size := by
      rw [← h.bytes, ← segment_append b.mem (Nat.zero_le sz) hsz]
      exact List.drop_left' (by rw [length_segment, Nat.sub_zero])
    rw [if_pos hsz, if_pos hsz, BufferBlock.trim, if_pos ⟨hsz, by dsimp only; omega⟩, hdrop]
    refine ⟨?_, Nat.le_trans (Nat.sub_le ..) hle⟩
    exact segment_store_eq _ (by rw [length_segment, Nat.zero_add])
  · rw [if_neg hsz, if_neg hsz]
    trivial

theorem holds_reserve (fresh : Nat → UInt8) (sz : Nat) :
    Matches Holds (empty.reserve fresh sz) (some []) :=
  ⟨rfl, Nat.zero_le _⟩

theorem Holds.clone (h : b.Holds l) (fresh : Nat → UInt8) :
    Matches Holds (b.clone fresh) (some l) := by
  rw [BufferBlock.clone, h.bytes]
  exact Holds.append ⟨rfl, Nat.zero_le _⟩ fresh l

end BufferBlock

/-! ## The buffers of a program -/

namespace Buffers

open BufferBlock

/-- The calls, on the buffers `i` and `j` of a program. -/
inductive Call
  /-- `Buffer(size_t res)`. -/
  | construct (i res : Nat)
  /-- `append( dt, sz )`, of memory that is no buffer's. -/
  | append (i : Nat) (dt : List UInt8)
  /-- `append( dt, sz )`, of a pointer to `n` bytes of buffer `j`. -/
  | appendInside (i j off n : Nat)
  /-- `append( b )`. -/
  | appendBuffer (i j : Nat)
  /-- `append( b, offset )`. -/
  | appendFrom (i j offset : Nat)
  /-- `append( b, start, count )`. -/
  | appendRange (i j : Nat) (start count : UInt64)
  /-- `appendString( const nodecpp::string& )`. -/
  | appendString (i : Nat) (str : List UInt8)
  /-- `appendString( nodecpp::string_literal )`. -/
  | appendLiteral (i : Nat) (str : List UInt8)
  | appendUint8 (i : Nat) (val : UInt8)
  | writeInt8 (i : Nat) (val : UInt8) (pos : Nat)
  | popFront (i sz : Nat)
  | trim (i sz : Nat)
  | clear (i : Nat)
  /-- Buffer `i` becomes `j.clone()`. -/
  | clone (i j : Nat)
  /-- `Buffer(Buffer&&)`: buffer `i` is built from `j`. -/
  | moveConstruct (i j : Nat)
  /-- `operator = (Buffer&&)`. -/
  | moveAssign (i j : Nat)

/-- `strlen`: the bytes up to the first zero. -/
def literal (str : List UInt8) : List UInt8 := str.takeWhile (· ≠ 0)

variable {w : Nat → BufferBlock} {r : Nat → List UInt8}

def set (w : Nat → BufferBlock) (i : Nat) (b : Except Failure BufferBlock) :
    Except Failure (Nat → BufferBlock) :=
  b.map (Function.update w i)

/-- `append( b.begin() + off, n )`, with the bytes of buffer `j`. -/
def appendBytes (fresh : Nat → UInt8) (w : Nat → BufferBlock) (i j off n : Nat) :
    Except Failure (Nat → BufferBlock) :=
  if off + n ≤ (w j).size then
    -- the block is replaced, and the old one is freed, before `memcpy` reads it
    if i = j ∧ (w i).capacity < (w i).size + n then .error .error
    else set w i ((w i).append fresh (segment (w j).mem off (off + n)))
  else .error .error

/-- Both move operations swap the fields. -/
def swap {β : Type} (w : Nat → β) (i j : Nat) : Nat → β :=
  Function.update (Function.update w i (w j)) j (w i)

/-- A call; `fresh` is the content of a block that it may allocate. -/
def exec (fresh : Nat → UInt8) (w : Nat → BufferBlock) :
    Call → Except Failure (Nat → BufferBlock)
  | .construct i res => set w i (empty.reserve fresh res)
  | .append i dt => set w i ((w i).append fresh dt)
  | .appendInside i j off n => appendBytes fresh w i j off n
  | .appendBuffer i j => appendBytes fresh w i j 0 (w j).size
  | .appendFrom i j offset =>
      if offset ≤ (w j).size then appendBytes fresh w i j offset ((w j).size - offset)
      else .error .assertion
  | .appendRange i j start count =>
      if (w j).size ≠ 0 ∧ (start + count).toNat ≤ (w j).size then
        appendBytes fresh w i j start.toNat count.toNat
      else .error .assertion
  | .appendString i str => set w i ((w i).append fresh str)
  | .appendLiteral i str => set w i ((w i).append fresh (literal str))
  | .appendUint8 i val => set w i ((w i).append fresh [val])
  | .writeInt8 i val pos => set w i ((w i).writeInt8 fresh val pos)
  | .popFront i sz => set w i ((w i).popFront sz)
  | .trim i sz => set w i ((w i).trim sz)
  | .clear i => set w i ((w i).trim (w i).size)
  | .clone i j => set w i ((w j).clone fresh)
  | .moveConstruct i j => .ok (swap (Function.update w i empty) i j)
  | .moveAssign i j => .ok (swap w i j)

/-! ## The same on lists -/

/-- A part of a list that lies within it. -/
def part (l : List UInt8) (off n : Nat) : Option (List UInt8) :=
  if off + n ≤ l.length then some ((l.drop off).take n) else none

/-- The lists with the result of an operation in the place of list `i`. -/
def setList (r : Nat → List UInt8) (i : Nat) (l : Option (List UInt8)) :
    Option (Nat → List UInt8) :=
  l.map (Function.update r i)

/-- The operation on lists that a call is meant to be; none outside of its precondition. -/
def spec (r : Nat → List UInt8) : Call → Option (Nat → List UInt8)
  | .construct i _ => setList r i (some [])
  | .append i dt => setList r i (some (r i ++ dt))
  | .appendInside i j off n => setList r i ((part (r j) off n).map (r i ++ ·))
  | .appendBuffer i j => setList r i (some (r i ++ r j))
  | .appendFrom i j offset =>
      setList r i (if offset ≤ (r j).length then some (r i ++ (r j).drop offset) else none)
  | .appendRange i j start count =>
      if r j = [] then none
      else setList r i ((part (r j) start.toNat count.toNat).map (r i ++ ·))
  | .appendString i str => setList r i (some (r i ++ str))
  | .appendLiteral i str => setList r i (some (r i ++ literal str))
  | .appendUint8 i val => setList r i (some (r i ++ [val]))
  | .writeInt8 i val pos =>
      setList r i (some ((r i).take pos ++ [val] ++ (r i).drop (pos + 1)))
  | .popFront i sz => setList r i (if sz ≤ (r i).length then some ((r i).drop sz) else none)
  | .trim i sz =>
      setList r i
        (if sz ≤ (r i).length then some ((r i).take ((r i).length - sz)) else none)
  | .clear i => setList r i (some [])
  | .clone i j => setList r i (some (r j))
  | .moveConstruct i j => some (swap (Function.update r i []) i j)
  | .moveAssign i j => some (swap r i j)

/-! ## The two side by side -/

/-- What the caller has to see to: a position up to the size, a pointer to bytes in use, and another
buffer to be built from. -/
def within (w : Nat → BufferBlock) : Call → Bool
  | .writeInt8 i _ pos => pos ≤ (w i).size
  | .appendInside _ j off n => off + n ≤ (w j).size
  | .moveConstruct i j => i ≠ j
  | _ => true

/-- Every buffer holds its list. -/
def Hold (w : Nat → BufferBlock) (r : Nat → List UInt8) : Prop := ∀ i, (w i).Holds (r i)

/-- The buffers and the lists; an action is a call with the content of the block it may allocate. -/
def machine : Machine ((Nat → BufferBlock) × (Nat → List UInt8)) (Call × (Nat → UInt8)) where
  step s a :=
    match within s.1 a.1, exec a.2 s.1 a.1, spec s.2 a.1 with
    | true, .ok w, some r => some (w, r)
    | _, _, _ => none

/-- The call does what its operation on lists does, and every block has room for its bytes. -/
def Agrees (s : (Nat → BufferBlock) × (Nat → List UInt8)) (a : Call × (Nat → UInt8)) : Prop :=
  within s.1 a.1 → Matches Hold (exec a.2 s.1 a.1) (spec s.2 a.1)

/-- A buffer that gets `n` bytes of its own has room for them. -/
def Room (w : Nat → BufferBlock) (i j n : Nat) : Prop :=
  i = j → (w i).size + n ≤ (w i).capacity

/-- No buffer grows for a part of itself, and no sum wraps around and passes. -/
def Sound (w : Nat → BufferBlock) : Call → Prop
  | .appendInside i j off n => off + n ≤ (w j).size → Room w i j n
  | .appendBuffer i j => Room w i j (w j).size
  | .appendFrom i j offset => offset ≤ (w j).size → Room w i j ((w j).size - offset)
  | .appendRange i j start count =>
      (w j).size ≠ 0 → (start + count).toNat ≤ (w j).size →
        start.toNat + count.toNat ≤ (w j).size ∧ Room w i j count.toNat
  | _ => True

theorem Hold.update (h : Hold w r) {b : BufferBlock} {l : List UInt8} (hb : b.Holds l) (i : Nat) :
    Hold (Function.update w i b) (Function.update r i l) := by
  intro k
  by_cases hk : k = i
  · subst hk
    rwa [Function.update_self, Function.update_self]
  · rw [Function.update_of_ne hk, Function.update_of_ne hk]
    exact h k

theorem Hold.swap (h : Hold w r) (i j : Nat) : Hold (swap w i j) (swap r i j) :=
  (h.update (h j) i).update (h i) j

theorem Hold.set (h : Hold w r) {i : Nat} {b : Except Failure BufferBlock}
    {l : Option (List UInt8)} (hb : Matches Holds b l) :
    Matches Hold (set w i b) (setList r i l) := by
  revert hb
  cases b with
  | ok b =>
    cases l with
    | some l => exact fun hb => h.update hb i
    | none => exact id
  | error e => cases e <;> cases l <;> exact id

/-- Bytes of a buffer are appended as the part of its list, unless the block has to grow for bytes
of its own. -/
theorem Hold.appendBytes_iff (h : Hold w r) (fresh : Nat → UInt8) {i j off n : Nat}
    (hin : off + n ≤ (w j).size) :
    Matches Hold (appendBytes fresh w i j off n)
      (setList r i ((part (r j) off n).map (r i ++ ·))) ↔ Room w i j n := by
  have hpart : part (r j) off n = some (segment (w j).mem off (off + n)) := by
    rw [part, if_pos (by rwa [(h j).length]), ← (h j).bytes,
      ← segment_append (w j).mem (Nat.zero_le off) (Nat.le_trans (Nat.le_add_right ..) hin),
      List.drop_left' (by rw [length_segment, Nat.sub_zero]),
      ← segment_append (w j).mem (Nat.le_add_right off n) hin,
      List.take_left' (by rw [length_segment, Nat.add_sub_cancel_left])]
  rw [hpart, appendBytes, if_pos hin]
  by_cases hgrow : i = j ∧ (w i).capacity < (w i).size + n
  · rw [if_pos hgrow]
    exact ⟨False.elim, fun hroom => absurd (hroom hgrow.1) (Nat.not_le_of_lt hgrow.2)⟩
  · rw [if_neg hgrow]
    exact ⟨fun _ heq => Nat.le_of_not_lt fun hlt => hgrow ⟨heq, hlt⟩,
      fun _ => h.set ((h i).append fresh _)⟩

theorem part_rest (l : List UInt8) {off : Nat} (h : off ≤ l.length) :
    part l off (l.length - off) = some (l.drop off) := by
  rw [part, if_pos (by omega), List.take_of_length_le (by rw [List.length_drop])]

/-- The range overload: the sum that is asserted is the one of the machine words. -/
theorem Hold.appendRange_iff (h : Hold w r) (fresh : Nat → UInt8) (i j : Nat)
    (start count : UInt64) :
    Agrees (w, r) (.appendRange i j start count, fresh) ↔
      Sound w (.appendRange i j start count) := by
  have hnil : r j = [] ↔ (w j).size = 0 := by rw [← (h j).length, List.length_eq_zero_iff]
  have hsum := UInt64.toNat_add start count
  simp only [Agrees, within, forall_const, exec, spec, Sound, hnil]
  by_cases hsize : (w j).size = 0
  · simp [hsize, Matches]
  · rw [if_neg hsize]
    by_cases hpass : (start + count).toNat ≤ (w j).size
    · rw [if_pos ⟨hsize, hpass⟩]
      simp only [ne_eq, hsize, not_false_eq_true, hpass, forall_const]
      by_cases hin : start.toNat + count.toNat ≤ (w j).size
      · rw [h.appendBytes_iff fresh hin, and_iff_right hin]
      · rw [appendBytes, if_neg hin]
        exact ⟨False.elim, fun hand => hin hand.1⟩
    · -- a sum that does not pass is too large without the wrap, too
      have hout : ¬ start.toNat + count.toNat ≤ (r j).length := by
        rw [(h j).length]
        omega
      rw [if_neg (fun hand => hpass hand.2), part, if_neg hout]
      exact ⟨fun _ _ hle => absurd hle hpass, fun _ => trivial⟩

theorem Hold.agrees_set (h : Hold w r) {c : Call} {fresh : Nat → UInt8} {i : Nat}
    {b : Except Failure BufferBlock} {l : Option (List UInt8)}
    (hexec : exec fresh w c = Buffers.set w i b) (hspec : spec r c = setList r i l)
    (hsound : Sound w c) (hb : within w c → Matches Holds b l) :
    Agrees (w, r) (c, fresh) ↔ Sound w c := by
  refine iff_of_true (fun hwithin => ?_) hsound
  dsimp only
  rw [hexec, hspec]
  exact h.set (hb hwithin)

/-- One call: it agrees with its operation on lists exactly if it is sound. -/
theorem Hold.agrees_iff (h : Hold w r) (c : Call) (fresh : Nat → UInt8) :
    Agrees (w, r) (c, fresh) ↔ Sound w c := by
  cases c with
  | construct i res => exact h.agrees_set rfl rfl trivial fun _ => holds_reserve fresh res
  | append i dt => exact h.agrees_set rfl rfl trivial fun _ => (h i).append fresh dt
  | appendInside i j off n =>
    simp only [Agrees, within, decide_eq_true_eq, Sound]
    exact forall_congr' fun hin => h.appendBytes_iff fresh hin
  | appendBuffer i j =>
    simp only [Agrees, within, forall_const, exec, spec, Sound]
    have hpart := part_rest (r j) (Nat.zero_le _)
    rw [Nat.sub_zero, (h j).length] at hpart
    rw [← h.appendBytes_iff fresh (Nat.le_of_eq (Nat.zero_add _)), hpart]
    rfl
  | appendFrom i j offset =>
    simp only [Agrees, within, forall_const, exec, spec, Sound, (h j).length]
    by_cases hoff : offset ≤ (w j).size
    · rw [if_pos hoff, if_pos hoff, forall_prop_of_true hoff,
        ← h.appendBytes_iff fresh (Nat.le_of_eq (Nat.add_sub_cancel' hoff)), ← (h j).length,
        part_rest (r j) (by rwa [(h j).length])]
      rfl
    · rw [if_neg hoff, if_neg hoff]
      exact iff_of_true trivial fun hle => absurd hle hoff
  | appendRange i j start count => exact h.appendRange_iff fresh i j start count
  | appendString i str => exact h.agrees_set rfl rfl trivial fun _ => (h i).append fresh str
  | appendLiteral i str => exact h.agrees_set rfl rfl trivial fun _ => (h i).append fresh _
  | appendUint8 i val => exact h.agrees_set rfl rfl trivial fun _ => (h i).append fresh [val]
  | writeInt8 i val pos =>
    refine h.agrees_set rfl rfl trivial fun hpos => (h i).writeInt8 fresh val ?_
    exact of_decide_eq_true hpos
  | popFront i sz => exact h.agrees_set rfl rfl trivial fun _ => (h i).popFront sz
  | trim i sz => exact h.agrees_set rfl rfl trivial fun _ => (h i).trim sz
  | clear i =>
    refine h.agrees_set rfl rfl trivial fun _ => ?_
    have htrim := (h i).trim (w i).size
    rwa [(h i).length, if_pos (Nat.le_refl _), Nat.sub_self, List.take_zero] at htrim
  | clone i j => exact h.agrees_set rfl rfl trivial fun _ => (h j).clone fresh
  | moveConstruct i j => exact iff_of_true (fun _ => (h.update holds_empty i).swap i j) trivial
  | moveAssign i j => exact iff_of_true (fun _ => h.swap i j) trivial

theorem hold_step {s s' : (Nat → BufferBlock) × (Nat → List UInt8)} {a : Call × (Nat → UInt8)}
    (hagrees : Agrees s a) (hstep : machine.step s a = some s') : Hold s'.1 s'.2 := by
  simp only [machine] at hstep
  split at hstep
  · next w r hwithin hexec hspec =>
    cases hstep
    have hmatch := hagrees hwithin
    rwa [hexec, hspec] at hmatch
  · cases hstep

/-- In every run from empty buffers, every call does what its operation on lists does, exactly if
the calls are sound where they are made. -/
theorem refines_iff (cs : List (Call × (Nat → UInt8))) :
    machine.obeys Agrees (fun _ => empty, fun _ => []) cs ↔
      machine.obeys (fun s a => Sound s.1 a.1) (fun _ => empty, fun _ => []) cs :=
  machine.obeys_congr (fun _ a h => Hold.agrees_iff h a.1 a.2)
    (fun _ _ _ _ hagrees hstep => hold_step hagrees hstep) (fun _ => holds_empty) cs

/-- A buffer of 1024 bytes that is appended to itself. -/
theorem append_self_freed :
    ¬ machine.obeys Agrees (fun _ => empty, fun _ => [])
      [(.append 0 (List.replicate 1024 7), fun _ => 0), (.appendBuffer 0 0, fun _ => 0)] := by
  have hlen : (List.replicate 1024 (7 : UInt8)).length = 1024 := List.length_replicate
  revert hlen
  generalize List.replicate 1024 (7 : UInt8) = dt
  rintro hlen ⟨hfirst, hrest⟩
  have hstep : machine.step (fun _ => empty, fun _ => []) (.append 0 dt, fun _ => 0) =
      some (Function.update (fun _ => empty) 0
          ⟨store (fun _ => 0) 0 dt, 0 + dt.length, max (0 + dt.length) 1024⟩,
        Function.update (fun _ => []) 0 dt) := rfl
  have hsound := (Hold.agrees_iff (hold_step hfirst hstep) _ _).mp (hrest _ hstep).1
  have hroom : 0 + dt.length + (0 + dt.length) ≤ max (0 + dt.length) 1024 := hsound rfl
  omega

end Buffers

end NodeCpp
