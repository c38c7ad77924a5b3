import NodeCpp.Replay.LogAccess
import NodeCpp.Theorems.LogRoundTrip

/-!
# The recording log and the end of its block

Every frame is followed by the type 0 of the frame that may come next. The assertions of the calls
that record ask for room for the frame, and not for that type; and `addFrame` with a null pointer
asks for nothing but a `writePos` inside the block, and writes a header.

* `stored_of_fails` -- a call that fails an assertion has stored nothing before.
* `Bounded` -- where `writePos` and `fh` are, between the calls.
* `withinBlock_iff` -- one call stays inside the block exactly when the type behind the frame does.
* `recording_within_block_iff` -- the same for whole runs.
-/

namespace NodeCpp

open Lib

namespace BinaryLog

def logCalls : Machine BinaryLog LogCall where
  step log c := (log.exec c).toOption

/-! ## Assertions come first -/

/-- No assertion is checked behind a store. -/
def assertsFirst : List LogAccess → Bool
  | [] => true
  | .store .. :: rest => rest.all fun
      | .check _ => false
      | _ => true
  | _ :: rest => assertsFirst rest

theorem passes_of_no_check {steps : List LogAccess}
    (h : (steps.all fun
      | .check _ => false
      | _ => true) = true) : passes steps = true := by
  induction steps with
  | nil => rfl
  | cons step rest ih =>
    rw [List.all_cons, Bool.and_eq_true] at h
    cases step with
    | check holds => cases h.1
    | load off => exact ih h.2
    | store off bytes => exact ih h.2

theorem stored_eq_nil {steps : List LogAccess} (hfirst : assertsFirst steps = true)
    (hfails : passes steps = false) : stored steps = [] := by
  induction steps with
  | nil => rfl
  | cons step rest ih =>
    cases step with
    | check holds =>
      cases holds with
      | false => rfl
      | true => exact ih hfirst hfails
    | load off => exact ih hfirst hfails
    | store off bytes =>
      have hpasses : passes rest = true := passes_of_no_check hfirst
      exact absurd (hpasses.symm.trans hfails) nofun

theorem assertsFirst_accesses (log : BinaryLog) (c : LogCall) :
    assertsFirst (log.accesses c) = true := by
  cases c with
  | addFrame frameType data =>
    obtain ⟨ptr, sz, hlen⟩ := data
    cases ptr <;> rfl
  | startAddingFrame frameType data => rfl
  | continueAddingFrame data => rfl
  | addingFrameDone => rfl

theorem stored_of_fails {log : BinaryLog} {c : LogCall} (h : passes (log.accesses c) = false) :
    stored (log.accesses c) = [] :=
  stored_eq_nil (assertsFirst_accesses log c) h

/-! ## One call -/

/-- What a call stores is inside the block, and if it fails an assertion it has stored nothing. -/
structure WithinBlock (log : BinaryLog) (c : LogCall) : Prop where
  inside : ∀ s ∈ stored (log.accesses c), s.1 + s.2.length ≤ log.size
  untouched : passes (log.accesses c) = false → stored (log.accesses c) = []

/-- The call passes its assertions, and the type behind its frame is not inside the block. -/
def TerminatorOutside (log : BinaryLog) (c : LogCall) : Prop :=
  passes (log.accesses c) = true ∧
    match c with
    | .addFrame _ data => log.size < log.writePos + sizeofFrameHeader + data.sz.toNat + 4
    | .addingFrameDone => log.size < log.writePos + 4
    | _ => False

instance (log : BinaryLog) (c : LogCall) : Decidable (log.TerminatorOutside c) :=
  match c with
  | .addFrame .. => inferInstanceAs (Decidable (_ ∧ _ < _))
  | .startAddingFrame .. => inferInstanceAs (Decidable (_ ∧ False))
  | .continueAddingFrame _ => inferInstanceAs (Decidable (_ ∧ False))
  | .addingFrameDone => inferInstanceAs (Decidable (_ ∧ _ < _))

/-- Between the frames the type behind the last one is inside the block; within a frame its header
and what there is of it are. -/
structure Bounded (log : BinaryLog) : Prop where
  idle : log.fh = none → log.writePos + 4 ≤ log.size
  adding : ∀ h, log.fh = some h → h + sizeofFrameHeader ≤ log.writePos ∧ log.writePos ≤ log.size

section

variable {log log' : BinaryLog} {c : LogCall}

/-- What the assertions of `addFrame` leave open is the room for the type behind the frame. -/
theorem inside_addFrame {frameType : UInt32} {data : LogData}
    (hp : passes (log.accesses (.addFrame frameType data)) = true) :
    (∀ s ∈ stored (log.accesses (.addFrame frameType data)), s.1 + s.2.length ≤ log.size) ↔
      log.writePos + sizeofFrameHeader + data.sz.toNat + 4 ≤ log.size := by
  rw [stored_of_passes hp]
  obtain ⟨ptr, sz, hlen⟩ := data
  cases ptr with
  | none =>
    simp only [accesses, List.cons_append, List.nil_append, List.filterMap_cons,
      LogAccess.stored?, List.filterMap_nil, List.forall_mem_cons, length_toBytes,
      sizeofFrameHeader]
    constructor
    · rintro ⟨-, hterminator, -⟩
      exact hterminator
    · intro hroom
      exact ⟨by omega, hroom, by omega, (by simp)⟩
  | some bytes =>
    have hbytes : bytes.length = sz.toNat := hlen bytes rfl
    simp only [accesses, List.cons_append, List.nil_append, List.filterMap_cons,
      LogAccess.stored?, List.filterMap_nil, List.forall_mem_cons, length_toBytes,
      sizeofFrameHeader, ← hbytes, List.take_length]
    constructor
    · rintro ⟨-, -, hterminator, -⟩
      exact hterminator
    · intro hroom
      exact ⟨by omega, by omega, hroom, by omega, (by simp)⟩

theorem inside_startAddingFrame {frameType : UInt32} {data : LogData}
    (hp : passes (log.accesses (.startAddingFrame frameType data)) = true) :
    ∀ s ∈ stored (log.accesses (.startAddingFrame frameType data)),
      s.1 + s.2.length ≤ log.size := by
  rw [stored_of_passes hp]
  simp only [accesses, passes, Bool.and_eq_true, decide_eq_true_eq] at hp
  obtain ⟨-, -, -, hroom, -⟩ := hp
  have hlen := List.length_take_le data.sz.toNat (data.ptr.getD [])
  simp only [accesses, List.filterMap_cons, LogAccess.stored?, List.filterMap_nil,
    List.forall_mem_cons]
  exact ⟨by omega, (by simp)⟩

theorem inside_continueAddingFrame {data : LogData}
    (hp : passes (log.accesses (.continueAddingFrame data)) = true) :
    ∀ s ∈ stored (log.accesses (.continueAddingFrame data)), s.1 + s.2.length ≤ log.size := by
  rw [stored_of_passes hp]
  simp only [accesses, passes, Bool.and_eq_true, decide_eq_true_eq] at hp
  obtain ⟨-, -, hroom, -⟩ := hp
  have hlen := List.length_take_le data.sz.toNat (data.ptr.getD [])
  simp only [accesses, List.filterMap_cons, LogAccess.stored?, List.filterMap_nil,
    List.forall_mem_cons]
  exact ⟨by omega, (by simp)⟩

theorem inside_addingFrameDone (hb : log.Bounded)
    (hp : passes (log.accesses .addingFrameDone) = true) :
    (∀ s ∈ stored (log.accesses .addingFrameDone), s.1 + s.2.length ≤ log.size) ↔
      log.writePos + 4 ≤ log.size := by
  rw [stored_of_passes hp]
  simp only [accesses, passes, Bool.and_eq_true, decide_eq_true_eq] at hp
  obtain ⟨h, hfh⟩ := Option.ne_none_iff_exists'.mp hp.2.2.2.1
  obtain ⟨hheader, hwrite⟩ := hb.adding h hfh
  simp only [accesses, hfh, Option.getD_some, List.filterMap_cons, LogAccess.stored?,
    List.filterMap_nil, List.forall_mem_cons, length_toBytes]
  rw [sizeofFrameHeader] at hheader
  constructor
  · rintro ⟨hterminator, -⟩
    exact hterminator
  · intro hroom
    exact ⟨hroom, by omega, by omega, (by simp)⟩

/-- A call stays inside the block exactly when the type behind its frame does. -/
theorem withinBlock_iff (hb : log.Bounded) : log.WithinBlock c ↔ ¬log.TerminatorOutside c := by
  cases hp : passes (log.accesses c) with
  | false =>
    have hnone := stored_of_fails hp
    refine iff_of_true ⟨?_, fun _ => hnone⟩ fun hout => ?_
    · rw [hnone]
      nofun
    · exact absurd (hp.symm.trans hout.1) nofun
  | true =>
    have hwithin : log.WithinBlock c ↔
        ∀ s ∈ stored (log.accesses c), s.1 + s.2.length ≤ log.size :=
      ⟨fun h => h.inside, fun h => ⟨h, fun hfails => absurd (hp.symm.trans hfails) nofun⟩⟩
    rw [hwithin]
    cases c with
    | addFrame frameType data =>
      rw [inside_addFrame hp, ← not_lt]
      exact not_congr (and_iff_right hp).symm
    | startAddingFrame frameType data =>
      exact iff_of_true (inside_startAddingFrame hp) And.right
    | continueAddingFrame data =>
      exact iff_of_true (inside_continueAddingFrame hp) And.right
    | addingFrameDone =>
      rw [inside_addingFrameDone hb hp, ← not_lt]
      exact not_congr (and_iff_right hp).symm

/-! ## Runs -/

theorem Bounded.exec (hb : log.Bounded) (hin : ¬log.TerminatorOutside c)
    (hexec : log.exec c = .ok log') : log'.Bounded := by
  obtain ⟨hp, mem, rfl⟩ := exec_ok hexec
  have hin' := fun hout => hin ⟨hp, hout⟩
  cases c with
  | addFrame frameType data =>
    -- no frame is being added, so `fh` stays null
    simp only [accesses, List.cons_append, passes, Bool.and_eq_true, decide_eq_true_eq] at hp
    have hfh : log.fh = none := hp.2.2.2.1
    refine ⟨fun _ => Nat.not_lt.mp hin', fun h hsome => ?_⟩
    exact absurd (hfh.symm.trans hsome) (by simp)
  | startAddingFrame frameType data =>
    simp only [accesses, passes, Bool.and_eq_true, decide_eq_true_eq] at hp
    refine ⟨by rintro ⟨⟩, fun h hsome => ?_⟩
    cases hsome
    exact ⟨Nat.le_add_right _ _, hp.2.2.2.1⟩
  | continueAddingFrame data =>
    simp only [accesses, passes, Bool.and_eq_true, decide_eq_true_eq] at hp
    refine ⟨fun hnone => absurd hnone hp.2.2.2.2.2.1, fun h hsome => ?_⟩
    exact ⟨Nat.le_add_right_of_le (hb.adding h hsome).1, hp.2.2.1⟩
  | addingFrameDone => exact ⟨fun _ => Nat.not_lt.mp hin', by rintro h ⟨⟩⟩

theorem Bounded.initForRecording {allocated : Nat → UInt8} {szExp : Nat}
    (h : BinaryLog.initForRecording {} allocated szExp = .ok log) : log.Bounded := by
  obtain ⟨hexp, rfl⟩ := (succeeds_initForRecording allocated szExp).of_ok h
  exact ⟨fun _ => freshLog_room allocated hexp.1, nofun⟩

end

/-- A recording log stays inside its block in exactly those runs in which the type behind each
frame does. -/
theorem recording_within_block_iff {allocated : Nat → UInt8} {szExp : Nat} {log : BinaryLog}
    (hinit : BinaryLog.initForRecording {} allocated szExp = .ok log) (calls : List LogCall) :
    logCalls.obeys WithinBlock log calls ↔
      logCalls.obeys (fun log c => ¬log.TerminatorOutside c) log calls := by
  refine logCalls.obeys_congr (J := Bounded) (fun log c hb => withinBlock_iff hb) ?_
    (Bounded.initForRecording hinit) calls
  intro log c log' hb hwithin hstep
  exact hb.exec ((withinBlock_iff hb).mp hwithin) (toOption_eq_some hstep)

/-- The smallest log, in memory of zeros. -/
def smallestLog : BinaryLog := freshLog (fun _ => 0) 16

/-- A frame without a payload, and one in two parts. -/
theorem recording_within_block_two_frames :
    BinaryLog.initForRecording {} (fun _ => 0) 16 = .ok smallestLog ∧
      logCalls.obeys WithinBlock smallestLog
        [.addFrame 1 ⟨none, 0, nofun⟩, .startAddingFrame 2 ⟨some [7], 1, by decide⟩,
          .continueAddingFrame ⟨some [8, 9], 2, by decide⟩, .addingFrameDone] := by
  have hinit : BinaryLog.initForRecording {} (fun _ => 0) 16 = .ok smallestLog := rfl
  exact ⟨hinit, (recording_within_block_iff hinit _).mpr (by decide)⟩

/-- A frame that fills the smallest log to its end. -/
def fillingFrame : LogCall :=
  .addFrame 1 ⟨some (List.replicate 65488 0), 65488, by
    intro bytes hbytes
    cases hbytes
    exact List.length_replicate⟩

/-- Its assertions pass, and the type behind it is stored right behind the block. -/
theorem terminator_behind_block :
    BinaryLog.initForRecording {} (fun _ => 0) 16 = .ok smallestLog ∧ smallestLog.size = 65536 ∧
      passes (smallestLog.accesses fillingFrame) = true ∧
      (65536, toBytes 4 0) ∈ stored (smallestLog.accesses fillingFrame) ∧
      ¬logCalls.obeys WithinBlock smallestLog [fillingFrame] := by
  have hpasses : passes (smallestLog.accesses fillingFrame) = true := by decide
  have hstored : (65536, toBytes 4 0) ∈ stored (smallestLog.accesses fillingFrame) := by
    rw [stored_of_passes hpasses]
    exact List.mem_of_mem_tail (List.mem_of_mem_tail (List.mem_cons_self ..))
  refine ⟨rfl, rfl, hpasses, hstored, ?_⟩
  rintro ⟨hwithin, -⟩
  exact absurd (hwithin.inside _ hstored) (by decide)

end BinaryLog

end NodeCpp
