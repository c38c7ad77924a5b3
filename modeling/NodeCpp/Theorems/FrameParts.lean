import NodeCpp.Replay.Frames

/-!
# A frame in parts and a frame as a whole

`startAddingFrame`, any number of `continueAddingFrame` and `addingFrameDone` leave the log as
`addFrame` does with all the bytes at once.

* `addFrame_refused`, `startAddingFrame_refused` -- a log that is not ready for a frame.
* `addParts_eq_addFrame` -- both ways end in `withFrame`, or in a failed assertion.
-/

namespace NodeCpp

open Lib

namespace BinaryLog

variable {log : BinaryLog} {frameType : UInt32}

theorem load32_eq {off : Nat} (h : off + 4 ≤ log.size) : log.load32 off = .ok (log.u32At off) :=
  if_pos h

theorem addFrame_refused (hnot : ¬(log.Ready ∧ frameType ≠ 0)) (data : Block)
    (hroom : log.writePos + 4 ≤ log.size) :
    log.addFrame frameType (some data.bytes) data.sz = .error .assertion := by
  simp only [addFrame, assert_bind, load32_eq hroom, ok_bind]
  split_ifs with hmode hsize hcurrent hfh htype hdata hterminator <;> try rfl
  exact absurd ⟨⟨hmode, hsize, hcurrent, hfh, hterminator⟩, htype⟩ hnot

theorem startAddingFrame_refused (hnot : ¬(log.Ready ∧ frameType ≠ 0)) (first : Block)
    (hroom : log.writePos + 4 ≤ log.size) :
    log.startAddingFrame frameType (some first.bytes) first.sz = .error .assertion := by
  simp only [startAddingFrame, assert_bind, load32_eq hroom, ok_bind]
  split_ifs with hmode htype hdata hfits hsize hcurrent hfh hterminator <;> try rfl
  exact absurd ⟨⟨hmode, hsize, hcurrent, hfh, hterminator⟩, htype⟩ hnot

/-- A frame in parts, of which the first one is not empty, and the frame as a whole leave the same
log behind: with the frame added if the log and the type are ready for it, and otherwise both fail
an assertion. -/
theorem addParts_eq_addFrame (log : BinaryLog) (frameType : UInt32) {first : Block}
    (hne : first.bytes ≠ []) (rest : List Block) {whole : Block}
    (hwhole : whole.bytes = first.bytes ++ rest.flatMap Block.bytes)
    (hroom : log.writePos + 8 + whole.bytes.length + 4 ≤ log.size) :
    log.addParts frameType first rest = log.addFrame frameType (some whole.bytes) whole.sz ∧
      (log.Ready → frameType ≠ 0 →
        log.addParts frameType first rest = .ok (log.withFrame frameType whole.bytes)) := by
  by_cases hboth : log.Ready ∧ frameType ≠ 0
  · obtain ⟨hready, htype⟩ := hboth
    have hparts : log.addParts frameType first rest =
        .ok (log.withFrame frameType whole.bytes) := by
      rw [hwhole] at hroom ⊢
      obtain ⟨log', heq, rfl⟩ := (hready.addParts htype first rest).of_cond ⟨hne, hroom⟩
      exact heq
    rw [← whole.toNat_sz] at hroom
    obtain ⟨log', heq, rfl⟩ := (hready.addFrame htype whole.data (.inl rfl)).of_cond hroom
    exact ⟨hparts.trans heq.symm, fun _ _ => hparts⟩
  · refine ⟨?_, fun hready htype => absurd ⟨hready, htype⟩ hboth⟩
    rw [addParts, startAddingFrame_refused hboth first (by omega), error_bind,
      addFrame_refused hboth whole (by omega)]

/-- Three bytes, one in the first part and two in the second one. -/
theorem addParts_three_bytes :
    let log := freshLog (fun _ => 0) 16
    log.addParts 5 ⟨[1], by decide⟩ [⟨[2, 3], by decide⟩] = log.addFrame 5 (some [1, 2, 3]) 3 ∧
      log.addParts 5 ⟨[1], by decide⟩ [⟨[2, 3], by decide⟩] =
        .ok (log.withFrame 5 [1, 2, 3]) := by
  intro log
  have hready : log.Ready := ⟨rfl, rfl, rfl, rfl, by decide⟩
  have h := @addParts_eq_addFrame log 5 ⟨[1], by decide⟩ (by decide) [⟨[2, 3], by decide⟩]
    ⟨[1, 2, 3], by decide⟩ rfl (by decide)
  exact ⟨h.1, h.2 hready (by decide)⟩

end BinaryLog

end NodeCpp
