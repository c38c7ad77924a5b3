import NodeCpp.Lib.Segment

/-!
# Messages as pointers

To be put into a queue of pointers, an `InterThreadMsg` writes its other members into the
application area of its `InternalMsg`, and is made from there again. The last call has offset and
size the wrong way round, when writing and when reading: it takes 52 bytes from `recipientID` on to
offset 4, over what the calls before it have written.

`InternalMsg` belongs to another library. `AppAreaLib` is what is used of it: `appWriteData` and
`appReadData` copy between an object and the application area, and `restoreFromPointer` undoes
`convertToPointer`.
-/

namespace NodeCpp

open Lib

/-- An `InterThreadMsg` by the bytes in its memory, and the application area of its `msg`. -/
structure RawMsg where
  mem : Nat → UInt8
  area : Nat → UInt8

/-- `nodecpp::platform::internal_msg::InternalMsg`, with the object at `ptr` that is copied. -/
structure AppAreaLib where
  Ptr : Type
  appWriteData (mem : Nat → UInt8) (ptr offset size : Nat) (area : Nat → UInt8) : Nat → UInt8
  appReadData (area : Nat → UInt8) (ptr offset size : Nat) (mem : Nat → UInt8) : Nat → UInt8
  convertToPointer (msg area : Nat → UInt8) : Ptr
  restoreFromPointer : Ptr → (Nat → UInt8) × (Nat → UInt8)
  appWriteData_eq : ∀ mem ptr offset size area,
    appWriteData mem ptr offset size area = store area offset (segment mem ptr (ptr + size))
  appReadData_eq : ∀ area ptr offset size mem,
    appReadData area ptr offset size mem = store mem ptr (segment area offset (offset + size))
  restore_convert : ∀ msg area, restoreFromPointer (convertToPointer msg area) = (msg, area)

namespace RawMsg

/-! The members. A `NodeAddress` is three numbers of 8 bytes. -/

def sourceThreadID (m : RawMsg) : List UInt8 := segment m.mem 0 24
def targetThreadID (m : RawMsg) : List UInt8 := segment m.mem 24 48
def recipientID (m : RawMsg) : List UInt8 := segment m.mem 48 52
def msgType (m : RawMsg) : List UInt8 := segment m.mem 52 56
def msg (m : RawMsg) : Nat → UInt8 := fun i => m.mem (56 + i)

def convertToPointer (lib : AppAreaLib) (m : RawMsg) : lib.Ptr :=
  lib.convertToPointer m.msg <|
    lib.appWriteData m.mem 48 4 (24 + 24 + 4) <|
    lib.appWriteData m.mem 52 (24 + 24) 4 <|
    lib.appWriteData m.mem 24 24 24 <|
    lib.appWriteData m.mem 0 0 24 m.area

/-- The constructor, in memory that contains `fresh`. -/
def ofPointer (lib : AppAreaLib) (fresh : Nat → UInt8) (ptr : lib.Ptr) : RawMsg :=
  let (msg, area) := lib.restoreFromPointer ptr
  { mem :=
      lib.appReadData area 48 4 (24 + 24 + 4) <|
      lib.appReadData area 52 (24 + 24) 4 <|
      lib.appReadData area 24 24 24 <|
      lib.appReadData area 0 0 24 fun i => if i < 56 then fresh i else msg (i - 56)
    area }

structure Same (m m' : RawMsg) : Prop where
  source : m.sourceThreadID = m'.sourceThreadID
  target : m.targetThreadID = m'.targetThreadID
  recipient : m.recipientID = m'.recipientID
  type : m.msgType = m'.msgType
  contents : m.msg = m'.msg

theorem same_iff {m m' : RawMsg} : Same m m' ↔ ∀ i, m.mem i = m'.mem i := by
  constructor
  · intro h i
    have hsource := segment_inj.mp h.source i (Nat.zero_le i)
    have htarget := segment_inj.mp h.target i
    have hrecipient := segment_inj.mp h.recipient i
    have htype := segment_inj.mp h.type i
    by_cases hi : i < 56
    · grind
    · have hmsg := congrFun h.contents (i - 56)
      simpa only [msg, Nat.add_sub_cancel' (Nat.le_of_not_lt hi)] using hmsg
  · intro h
    have hmem : m.mem = m'.mem := funext h
    exact ⟨congrArg (segment · 0 24) hmem, congrArg (segment · 24 48) hmem,
      congrArg (segment · 48 52) hmem, congrArg (segment · 52 56) hmem, funext fun i => h (56 + i)⟩

theorem mem_ofPointer (lib : AppAreaLib) (m : RawMsg) (fresh : Nat → UInt8) (i : Nat) :
    (ofPointer lib fresh (m.convertToPointer lib)).mem i =
      if 4 ≤ i ∧ i < 48 then m.mem (i + 44) else m.mem i := by
  simp only [ofPointer, convertToPointer, lib.restore_convert, lib.appReadData_eq,
    lib.appWriteData_eq, store_segment, msg]
  grind

/-- The message is the same if what the last call writes is what was there before. -/
theorem same_ofPointer_iff (lib : AppAreaLib) (m : RawMsg) (fresh : Nat → UInt8) :
    Same (ofPointer lib fresh (m.convertToPointer lib)) m ↔
      ∀ i, 4 ≤ i → i < 48 → m.mem (i + 44) = m.mem i := by
  rw [same_iff]
  refine forall_congr' fun i => ?_
  rw [mem_ofPointer]
  by_cases hi : 4 ≤ i ∧ i < 48
  · simp [hi]
  · simp only [if_neg hi, true_iff]
    intro h₁ h₂
    exact absurd ⟨h₁, h₂⟩ hi

def copies : AppAreaLib where
  Ptr := (Nat → UInt8) × (Nat → UInt8)
  appWriteData mem ptr offset size area := store area offset (segment mem ptr (ptr + size))
  appReadData area ptr offset size mem := store mem ptr (segment area offset (offset + size))
  convertToPointer := Prod.mk
  restoreFromPointer := id
  appWriteData_eq := fun _ _ _ _ _ => rfl
  appReadData_eq := fun _ _ _ _ _ => rfl
  restore_convert := fun _ _ => rfl

/-- A message of zeros from the thread in slot 7 is the same. -/
theorem same_ofPointer_zeros :
    let m : RawMsg := ⟨fun i => if i = 0 then 7 else 0, fun _ => 0⟩
    Same (ofPointer copies (fun _ => 255) (m.convertToPointer copies)) m := by
  intro m
  refine (same_ofPointer_iff copies m fun _ => 255).mpr fun i hlo _ => ?_
  have hi : i ≠ 0 := by omega
  simp [m, hi]

/-- A message to the thread in slot 1 arrives as one to slot 0. -/
theorem target_ofPointer :
    let m : RawMsg := ⟨fun i => if i = 24 then 1 else 0, fun _ => 0⟩
    m.targetThreadID.head? = some 1 ∧
      (ofPointer copies (fun _ => 0) (m.convertToPointer copies)).targetThreadID.head? =
        some 0 := by
  decide

end RawMsg

end NodeCpp
