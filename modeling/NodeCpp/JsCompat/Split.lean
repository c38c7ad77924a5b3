import NodeCpp.Lib.Text
import NodeCpp.Net.Os

/-!
# split

`JSVar::split` cuts a string at a separator of at most one character. With a separator the loop over
the positions stops after `maxCount` pieces; without one the string is cut into its characters, and
`maxCount` is not looked at.

* `JSString.splitLoop_eq` -- the loop gives the first pieces.
* `JSString.split_iff` -- when `split` does what it should.
-/

namespace NodeCpp

open Lib

namespace JSString

/-- The loop of `split`, for `left` more pieces from `start` on. -/
def splitLoop (str : List UInt8) (separ : UInt8) : (left start : Nat) → List (List UInt8)
  | 0, _ => []
  | left + 1, start =>
      match Text.findFirst (· == separ) str start with
      | none => [str.drop start]
      | some stop =>
          Text.substr str start (stop - start) :: splitLoop str separ left (stop + 1)

/-- `split`: the strings in the array; `maxCount` is the number that its argument is converted to. -/
def split (str separator : List UInt8) (maxCount : Nat) : Except Failure (List (List UInt8)) :=
  match separator with
  | [] => .ok (str.map fun ch => [ch])
  | [separ] => .ok (splitLoop str separ maxCount 0)
  | _ => .error .assertion

def pieces (str : List UInt8) : List UInt8 → List (List UInt8)
  | [] => str.map fun ch => [ch]
  | separ :: _ => str.splitOn separ

/-- The first `maxCount` pieces; joined they are the string, if they are all. -/
structure Splits (str separator : List UInt8) (maxCount : Nat) (result : List (List UInt8)) :
    Prop where
  first : result = (pieces str separator).take maxCount
  few : result.length ≤ maxCount
  joined : (pieces str separator).length ≤ maxCount → separator.intercalate result = str

/-- The loop gives the first pieces of the rest of the string. -/
theorem splitLoop_eq (str : List UInt8) (separ : UInt8) (left start : Nat) :
    splitLoop str separ left start = ((str.drop start).splitOn separ).take left := by
  induction left generalizing start with
  | zero => rfl
  | succ left ih =>
    rw [splitLoop, List.splitOn]
    cases hfind : Text.findFirst (· == separ) str start with
    | none => rw [List.splitOnP_eq_singleton (Text.findFirst_eq_none hfind), List.take_succ_cons,
        List.take_nil]
    | some stop =>
      obtain ⟨piece, c, rest, hdrop, hpiece, hc, rfl⟩ := Text.findFirst_eq_some hfind
      have hcut : Text.substr str start (start + piece.length - start) = piece := by
        rw [Nat.add_sub_cancel_left]
        exact Text.substr_of_drop_eq hdrop
      simp only [hcut, ih, Text.drop_succ_of_drop_eq hdrop]
      rw [hdrop, List.splitOnP_append_cons_of_forall_mem hpiece c hc, List.take_succ_cons]
      rfl

theorem intercalate_pieces {str separator : List UInt8} (hsep : separator.length ≤ 1) :
    separator.intercalate (pieces str separator) = str := by
  match separator with
  | [] =>
    induction str with
    | nil => rfl
    | cons c str ih =>
      cases str with
      | nil => rfl
      | cons d str => simpa [pieces, List.intercalate] using ih
  | [separ] => exact List.intercalate_splitOn separ

/-- Without a separator the string must be short enough by itself. -/
theorem split_iff (str : List UInt8) {separator : List UInt8} (maxCount : Nat)
    (hsep : separator.length ≤ 1) :
    (∃ result, split str separator maxCount = .ok result ∧
      Splits str separator maxCount result) ↔ separator ≠ [] ∨ str.length ≤ maxCount := by
  have hsplit : split str separator maxCount =
      .ok (if separator = [] then pieces str [] else (pieces str separator).take maxCount) := by
    match separator with
    | [] => rfl
    | [separ] => rw [split, splitLoop_eq, List.drop_zero, if_neg (List.cons_ne_nil _ _), pieces]
  by_cases hnone : separator = []
  · subst hnone
    have hlength : (pieces str []).length = str.length := List.length_map ..
    simp only [hsplit, ne_eq, not_true_eq_false, false_or, if_true]
    constructor
    · rintro ⟨result, h, hsplits⟩
      cases h
      rw [← hlength]
      exact hsplits.few
    · intro hle
      rw [← hlength] at hle
      exact ⟨_, rfl, (List.take_of_length_le hle).symm, hle, fun _ => intercalate_pieces hsep⟩
  · refine iff_of_true ⟨_, hsplit, ?_, ?_, ?_⟩ (.inl hnone)
    · rw [if_neg hnone]
    · rw [if_neg hnone]
      exact List.length_take_le ..
    · intro hle
      rw [if_neg hnone, List.take_of_length_le hle]
      exact intercalate_pieces hsep

/-- "a.b.c", cut at dots into two pieces at most. -/
theorem split_two :
    split [0x61, 0x2E, 0x62, 0x2E, 0x63] [0x2E] 2 = .ok [[0x61], [0x62]] ∧
      ∃ result, split [0x61, 0x2E, 0x62, 0x2E, 0x63] [0x2E] 2 = .ok result ∧
        Splits [0x61, 0x2E, 0x62, 0x2E, 0x63] [0x2E] 2 result :=
  ⟨by decide, (split_iff _ 2 (by decide)).mpr (.inl (by decide))⟩

/-- "abc", cut into one character at most, is cut into three. -/
theorem split_characters : split [0x61, 0x62, 0x63] [] 1 = .ok [[0x61], [0x62], [0x63]] := by
  decide

end JSString

end NodeCpp
