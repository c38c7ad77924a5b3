import NodeCpp.Buffer.Storage
import NodeCpp.Buffer.Until
import NodeCpp.Lib.Machine

/-!
# CircularByteBuffer at its limits

Two places where the code is off by one step.

* `ring_growth_limited_iff` -- the block grows up to `2 ^ max_allowed_size_exp`, except that a
  block of just that size is doubled once more: `resize_up_and_append` compares the exponent with
  the limit inside its loop, and takes the first step before the loop.
* `delimiter_search_iff` -- `read_ready_data_until` looks for the delimiter within the capacity of
  its target, except that it also takes a delimiter right behind it; unless the contents wrap
  around at that very place.
-/

namespace NodeCpp

open Lib

variable {c : CircularByteBuffer} {k : Nat} {what : UInt8}

namespace CircularByteBuffer

/-! ## The limit of the growth -/

/-- An append: the data, and what a new block contains if one is needed. -/
structure RingAppend where
  block : Nat → UInt8
  data : List UInt8

/-- Appends one after the other; one that returns false leaves the buffer as it is. -/
def ringAppends : Machine CircularByteBuffer RingAppend where
  step b a := some (b.append a.block a.data).1

/-- The data and the cell that stays unused fit into a block of the largest size. -/
def FitsLimit (b : CircularByteBuffer) (a : RingAppend) : Prop :=
  b.usedSize + a.data.length + 1 ≤ 2 ^ maxAllowedSizeExp

/-- What the limit asks of an append: it is done if its data fit, and the block is not larger than
the limit afterwards. -/
def RespectsLimit (b : CircularByteBuffer) (a : RingAppend) : Prop :=
  ((b.append a.block a.data).2 = true ↔ b.FitsLimit a) ∧
    (b.append a.block a.data).1.allocSize ≤ 2 ^ maxAllowedSizeExp

/-- The block has the largest size already, and one doubling would be enough for the data. -/
def DoublesOnceMore (b : CircularByteBuffer) (a : RingAppend) : Prop :=
  b.sizeExp = maxAllowedSizeExp ∧ ¬b.FitsLimit a ∧
    b.usedSize + a.data.length + 1 ≤ 2 ^ (maxAllowedSizeExp + 1)

instance (b : CircularByteBuffer) (a : RingAppend) : Decidable (b.FitsLimit a) :=
  inferInstanceAs (Decidable (_ ≤ _))

instance (b : CircularByteBuffer) (a : RingAppend) : Decidable (b.DoublesOnceMore a) :=
  inferInstanceAs (Decidable (_ ∧ _))

section

variable {b : CircularByteBuffer} {a : RingAppend}

/-- Below the limit the exponent of a block that has been replaced is below it as well. -/
theorem sizeExp_append_le (hwf : b.WF) (hexp : b.sizeExp ≤ maxAllowedSizeExp)
    (hnot : ¬b.DoublesOnceMore a) :
    (b.append a.block a.data).1.sizeExp ≤ maxAllowedSizeExp := by
  rcases sizeExp_append b a.block a.data with hsame | ⟨hshort, hdone, hgrown⟩
  · rw [hsame]
    exact hexp
  · have hroom := usedSize_add_remainingCapacity hwf
    have hfits := (append_returns_iff hwf a.block a.data).mp hdone
    -- a block of the largest size that is too small would have been doubled once more
    have hlt : b.sizeExp < maxAllowedSizeExp := by
      refine Nat.lt_of_le_of_ne hexp fun hmax => hnot ⟨hmax, ?_, ?_⟩
      · unfold FitsLimit
        rw [← hmax]
        show ¬_ ≤ b.allocSize
        omega
      · rwa [hmax, Nat.max_eq_left (Nat.le_succ _)] at hfits
    rw [Nat.max_eq_right hlt] at hfits
    rw [hgrown]
    exact Nat.max_le.mpr ⟨hlt, Nat.clog_le_of_le_pow hfits⟩

theorem respectsLimit_iff (hwf : b.WF) (hexp : b.sizeExp ≤ maxAllowedSizeExp) :
    b.RespectsLimit a ↔ ¬b.DoublesOnceMore a := by
  have hdone := append_returns_iff hwf a.block a.data
  constructor
  · rintro ⟨hreturns, -⟩ ⟨hmax, hnofit, htwice⟩
    rw [hmax, Nat.max_eq_left (Nat.le_succ _)] at hdone
    exact hnofit (hreturns.mp (hdone.mpr htwice))
  · intro hnot
    refine ⟨hdone.trans ⟨fun hle => ?_, fun hfits => hfits.trans ?_⟩, ?_⟩
    · by_contra hnofit
      rcases Nat.eq_or_lt_of_le hexp with hmax | hlt
      · rw [hmax, Nat.max_eq_left (Nat.le_succ _)] at hle
        exact hnot ⟨hmax, hnofit, hle⟩
      · rw [Nat.max_eq_right hlt] at hle
        exact hnofit hle
    · exact Nat.pow_le_pow_right (by decide) (Nat.le_max_right _ _)
    · exact Nat.pow_le_pow_right (by decide) (sizeExp_append_le hwf hexp hnot)

end

/-- The growth keeps to its limit in exactly those runs of appends in which no block of the largest
size is doubled once more. -/
theorem ring_growth_limited_iff {b : CircularByteBuffer} (hwf : b.WF)
    (hexp : b.sizeExp ≤ maxAllowedSizeExp) (appends : List RingAppend) :
    ringAppends.obeys RespectsLimit b appends ↔
      ringAppends.obeys (fun b a => ¬b.DoublesOnceMore a) b appends := by
  refine ringAppends.obeys_congr (J := fun b => b.WF ∧ b.sizeExp ≤ maxAllowedSizeExp)
    (fun b a hJ => respectsLimit_iff hJ.1 hJ.2) ?_ ⟨hwf, hexp⟩ appends
  intro b a b' hJ hlimit hstep
  cases hstep
  refine ⟨(append_contents hJ.1 a.block a.data).1, ?_⟩
  exact sizeExp_append_le hJ.1 hJ.2 ((respectsLimit_iff hJ.1 hJ.2).mp hlimit)

/-- Two appends to a small buffer, of which the second one doubles it. -/
theorem ring_growth_limited_small :
    ringAppends.obeys RespectsLimit (ofSizeExp (fun _ => 0) 2)
      [⟨fun _ => 0, [1, 2, 3]⟩, ⟨fun _ => 0, [4, 5]⟩] :=
  (ring_growth_limited_iff (ofSizeExp_wf _ 2) (by decide) _).mpr (by decide)

/-- A full block of the largest size. -/
def fullBlock : CircularByteBuffer where
  mem := fun _ => 0
  sizeExp := maxAllowedSizeExp
  endOff := 2 ^ maxAllowedSizeExp - 1

theorem fullBlock_wf : fullBlock.WF := ⟨by decide, by decide⟩

/-- One more byte for it: the append returns true, with a block of twice the largest size. -/
theorem full_block_doubled :
    ¬fullBlock.FitsLimit ⟨fun _ => 0, [0]⟩ ∧ (fullBlock.append (fun _ => 0) [0]).2 = true ∧
      (fullBlock.append (fun _ => 0) [0]).1.allocSize = 2 * 2 ^ maxAllowedSizeExp ∧
      ¬ringAppends.obeys RespectsLimit fullBlock [⟨fun _ => 0, [0]⟩] := by
  have hdone : (fullBlock.append (fun _ => 0) [0]).2 = true :=
    (append_returns_iff fullBlock_wf _ _).mpr (by decide)
  refine ⟨by decide, hdone, ?_, ?_⟩
  · decide
  · rintro ⟨⟨hreturns, -⟩, -⟩
    exact absurd (hreturns.mp hdone) (by decide)

/-! ## The delimiter search -/

/-- What the search for a delimiter in `l` comes to with a target of capacity `k`: the outcome, and
how many bytes are moved. -/
def search (what : UInt8) (k : Nat) (l : List UInt8) : Outcome × Nat :=
  if l.idxOf what < l.length ∧ l.idxOf what < k then (.ok, l.idxOf what + 1)
  else if k ≤ l.length then (.insufficientBuffer, k)
  else (.inProgress, l.length)

/-- `read_ready_data_until` does what the search of the contents comes to: the bytes moved are in
the target, the others are still in the ring, and the target has its old capacity. -/
def SearchesContents (c : CircularByteBuffer) (b : Buffer) (what : UInt8) : Prop :=
  ∃ c' b', c.readReadyDataUntil b what = .ok (c', b', (search what b.capacity c.contents).1) ∧
    b'.bytes = c.contents.take (search what b.capacity c.contents).2 ∧
    c'.contents = c.contents.drop (search what b.capacity c.contents).2 ∧
    b'.capacity = b.capacity

/-- The first delimiter comes right behind the bytes the target has room for, and the block does
not end there. -/
def DelimiterBehindTarget (c : CircularByteBuffer) (what : UInt8) (k : Nat) : Prop :=
  c.contents.idxOf what = k ∧ k < c.contents.length ∧ c.beginOff + k ≠ c.allocSize

instance (c : CircularByteBuffer) (what : UInt8) (k : Nat) :
    Decidable (c.DelimiterBehindTarget what k) := inferInstanceAs (Decidable (_ ∧ _))

theorem search_le (what : UInt8) (k : Nat) (l : List UInt8) :
    (search what k l).2 ≤ k ∧ (search what k l).2 ≤ l.length := by
  unfold search
  split
  · dsimp only
    omega
  · split <;> dsimp only <;> omega

/-- The scan of the code is the search, but for a delimiter right behind the target. -/
theorem scanRing_eq_search (h : ¬c.DelimiterBehindTarget what k) :
    c.scanRing what k = search what k c.contents := by
  unfold DelimiterBehindTarget at h
  unfold scanRing scan search
  by_cases hend : c.contents.idxOf what = k ∧ k < c.contents.length ∧ c.beginOff + k = c.allocSize
  · rw [if_pos hend, if_neg (by omega), if_pos (by omega)]
  · rw [if_neg hend]
    by_cases hin : c.contents.idxOf what < c.contents.length ∧ c.contents.idxOf what < k
    · rw [if_pos hin, if_pos (by omega)]
    · rw [if_neg hin, if_neg (by omega)]

theorem scanRing_behind (h : c.DelimiterBehindTarget what k) :
    c.scanRing what k = (.ok, k + 1) := by
  obtain ⟨hidx, hlt, hin⟩ := h
  unfold scanRing scan
  rw [if_neg (fun hend => hin hend.2.2), if_pos (by omega), hidx]

theorem search_behind (h : c.DelimiterBehindTarget what k) :
    search what k c.contents = (.insufficientBuffer, k) := by
  obtain ⟨hidx, hlt, -⟩ := h
  unfold search
  rw [if_neg (by omega), if_pos hlt.le]

/-- The search keeps to the capacity of an empty target exactly when the first delimiter does not
come right behind it; if it does, the outcome depends on where in the block it is. -/
theorem delimiter_search_iff {c : CircularByteBuffer} (hwf : c.WF) (what : UInt8) {b : Buffer}
    (hempty : b.bytes = []) (hcap : 1 ≤ b.capacity) :
    c.SearchesContents b what ↔ ¬c.DelimiterBehindTarget what b.capacity := by
  obtain ⟨c', b', heq, hbytes⟩ := readReadyDataUntil_scan hwf what hempty (by omega)
  constructor
  · rintro ⟨c₁, b₁, heq₁, -⟩ hbehind
    -- the code has found the delimiter, the search has not
    rw [scanRing_behind hbehind] at heq
    rw [search_behind hbehind, heq] at heq₁
    cases heq₁
  · intro hnot
    rw [scanRing_eq_search hnot] at heq hbytes
    obtain ⟨hfits, hin⟩ := search_le what b.capacity c.contents
    refine ⟨c', b', heq, hbytes, ?_, ?_⟩
    · obtain ⟨-, hcontents⟩ := readReadyDataUntil_contents hwf heq
      rw [hbytes] at hcontents
      exact List.append_cancel_left (hcontents.trans (List.take_append_drop _ _).symm)
    · refine (readReadyDataUntil_of_ok hwf heq).2.2.2.2 ?_
      rw [Buffer.size, hbytes, List.length_take]
      omega

/-- As many bytes as the smallest buffer takes, and the delimiter. -/
def lineBehind : List UInt8 := List.replicate minBuffer 0 ++ [10]

theorem idxOf_lineBehind : lineBehind.idxOf 10 = minBuffer := by
  have hmem : 10 ∉ List.replicate minBuffer (0 : UInt8) := by simp
  rw [lineBehind, List.idxOf_append_of_notMem hmem, List.length_replicate]
  rfl

theorem length_lineBehind : lineBehind.length = minBuffer + 1 := by simp [lineBehind]

/-- The ring of a socket with these bytes at the start of its block. -/
def flatRing : CircularByteBuffer where
  mem := fun i => if i = minBuffer then 10 else 0
  sizeExp := 12
  endOff := minBuffer + 1

/-- The ring of a socket in which they wrap around, with the delimiter alone behind the end of the
block. -/
def wrappedRing : CircularByteBuffer where
  mem := fun i => if i = 0 then 10 else 0
  sizeExp := 12
  beginOff := 2 ^ 12 - minBuffer
  endOff := 1

theorem flatRing_wf : flatRing.WF := ⟨by decide, by decide⟩

theorem wrappedRing_wf : wrappedRing.WF := ⟨by decide, by decide⟩

theorem segment_zeros {p lo hi : Nat} (h : ∀ i, lo ≤ i → i < hi → i ≠ p) :
    segment (fun i => if i = p then (10 : UInt8) else 0) lo hi = List.replicate (hi - lo) 0 := by
  refine List.eq_replicate_iff.mpr ⟨length_segment .., ?_⟩
  intro c hc
  obtain ⟨i, hi, rfl⟩ := List.mem_map.mp hc
  obtain ⟨hlo, hhi⟩ := List.mem_range'_1.mp hi
  exact if_neg (h i hlo (by omega))

theorem contents_flatRing : flatRing.contents = lineBehind := by
  have hzeros : segment flatRing.mem 0 minBuffer = List.replicate minBuffer 0 :=
    segment_zeros fun i _ hi => hi.ne
  have hlast : segment flatRing.mem minBuffer (minBuffer + 1) = [10] := by
    rw [segment_cons _ (Nat.lt_succ_self _), segment_self]
    rfl
  show segment flatRing.mem 0 (minBuffer + 1) = lineBehind
  rw [← segment_append _ (Nat.zero_le minBuffer) (Nat.le_succ _), hzeros, hlast, lineBehind]

theorem contents_wrappedRing : wrappedRing.contents = lineBehind := by
  have hzeros : segment wrappedRing.mem wrappedRing.beginOff wrappedRing.allocSize =
      List.replicate minBuffer 0 := by
    refine segment_zeros fun i hi _ => Nat.pos_iff_ne_zero.mp (lt_of_lt_of_le ?_ hi)
    decide
  rw [contents, if_neg (by decide), hzeros, lineBehind]
  rfl

/-- The delimiter is in the second range, and the target has room for it. -/
theorem delimiter_search_wrapped : wrappedRing.SearchesContents { capacity := 2048 } 10 := by
  refine (delimiter_search_iff wrappedRing_wf 10 rfl (by decide)).mpr ?_
  rintro ⟨hidx, -⟩
  rw [contents_wrappedRing, idxOf_lineBehind] at hidx
  exact absurd hidx (by decide)

/-- 1024 bytes and the delimiter for a target of capacity 1024, as every new buffer has: with the
bytes at the start of the block all of them are moved, into a target that has been reallocated;
where they wrap around behind the last zero, 1024 are moved, and the target is said to be too
small. -/
theorem delimiter_behind_target :
    flatRing.contents = lineBehind ∧ wrappedRing.contents = lineBehind ∧
      (∃ c' b', flatRing.readReadyDataUntil { capacity := minBuffer } 10 = .ok (c', b', .ok) ∧
        b'.bytes = lineBehind) ∧
      (∃ c' b', wrappedRing.readReadyDataUntil { capacity := minBuffer } 10 =
        .ok (c', b', .insufficientBuffer) ∧ b'.bytes = List.replicate minBuffer 0) ∧
      ¬flatRing.SearchesContents { capacity := minBuffer } 10 := by
  have hbehind : flatRing.DelimiterBehindTarget 10 minBuffer := by
    rw [DelimiterBehindTarget, contents_flatRing, idxOf_lineBehind, length_lineBehind]
    decide
  -- in the other ring the block ends just before the delimiter
  have hwrapped : ¬wrappedRing.DelimiterBehindTarget 10 minBuffer := fun h => h.2.2 rfl
  have hsearch : search 10 minBuffer lineBehind = (.insufficientBuffer, minBuffer) := by
    rw [← contents_flatRing]
    exact search_behind hbehind
  obtain ⟨c', b', heq, hbytes⟩ := readReadyDataUntil_scan flatRing_wf 10
    (b := { capacity := minBuffer }) rfl (by decide)
  rw [scanRing_behind hbehind] at heq hbytes
  refine ⟨contents_flatRing, contents_wrappedRing, ⟨c', b', heq, hbytes.trans ?_⟩, ?_, ?_⟩
  · rw [contents_flatRing]
    exact List.take_of_length_le length_lineBehind.le
  · obtain ⟨c', b', heq, hbytes⟩ := readReadyDataUntil_scan wrappedRing_wf 10
      (b := { capacity := minBuffer }) rfl (by decide)
    rw [scanRing_eq_search hwrapped, contents_wrappedRing, hsearch] at heq hbytes
    exact ⟨c', b', heq, hbytes.trans (List.take_left' List.length_replicate)⟩
  · rintro ⟨c₁, b₁, heq₁, -⟩
    rw [search_behind hbehind, heq] at heq₁
    cases heq₁

end CircularByteBuffer

end NodeCpp
