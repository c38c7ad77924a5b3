import NodeCpp.Buffer.Circular

/-!
# read_ready_data_until as a scan

What `read_ready_data_until` returns, in terms of the contents of the ring.

* `scan` -- the outcome of looking for a delimiter in a list of bytes, with a
  given room in the target buffer, and how many bytes are taken. A delimiter
  right behind a target buffer that is full is still taken.
* `readReadyDataUntilImpl_scan` -- on one range of the block the code is a scan.
* `readReadyDataUntil_eq` -- so it is on the ring, except when the target
  buffer is full exactly where the contents wrap around: the second range is
  then not looked at any more.
-/

namespace NodeCpp

open Lib

namespace Buffer

theorem size_appendUint8 (b : Buffer) (val : UInt8) : (b.appendUint8 val).size = b.size + 1 := by
  simp [size]

theorem appendUint8_eq {b : Buffer} (h : b.size < b.capacity) (val : UInt8) :
    b.appendUint8 val = { b with bytes := b.bytes ++ [val] } := by
  have hroom : ¬(b.capacity = 0 ∨ b.capacity < b.size + [val].length) := by
    simp only [List.length_singleton]
    omega
  simp only [appendUint8, append, ensureCapacity, if_neg hroom]

end Buffer

namespace CircularByteBuffer

/-- Looking for a delimiter with `room` bytes free: the outcome and the number of bytes taken. -/
def scan (what : UInt8) (room : Nat) (l : List UInt8) : Outcome × Nat :=
  if l.idxOf what < l.length ∧ l.idxOf what ≤ room then (.ok, l.idxOf what + 1)
  else if room ≤ l.length then (.insufficientBuffer, room)
  else (.inProgress, l.length)

section

variable {what : UInt8} {room : Nat} {l₁ : List UInt8}

theorem scan_cases (what : UInt8) (room : Nat) (l : List UInt8) :
    (scan what room l = (.ok, l.idxOf what + 1) ∧ l.idxOf what < l.length ∧ l.idxOf what ≤ room) ∨
    (scan what room l = (.insufficientBuffer, room) ∧
      ¬(l.idxOf what < l.length ∧ l.idxOf what ≤ room) ∧ room ≤ l.length) ∨
    (scan what room l = (.inProgress, l.length) ∧ what ∉ l ∧ l.length < room) := by
  unfold scan
  split
  · exact .inl ⟨rfl, ‹_›⟩
  rename_i hnot
  split
  · exact .inr (.inl ⟨rfl, hnot, ‹_›⟩)
  · refine .inr (.inr ⟨rfl, fun hmem => hnot ?_, by omega⟩)
    have hlt := List.idxOf_lt_length_of_mem hmem
    exact ⟨hlt, by omega⟩

theorem scan_le (what : UInt8) (room : Nat) (l : List UInt8) :
    (scan what room l).2 ≤ l.length := by
  rcases scan_cases what room l with ⟨h, hlt, -⟩ | ⟨h, -, hle⟩ | ⟨h, -⟩
  · rw [h]
    exact hlt
  · rw [h]
    exact hle
  · rw [h]

theorem scan_nil (what : UInt8) (room : Nat) :
    scan what room [] = if room = 0 then (.insufficientBuffer, 0) else (.inProgress, 0) := by
  cases room <;> rfl

theorem scan_cons (what : UInt8) (room : Nat) (a : UInt8) (l : List UInt8) :
    scan what room (a :: l) =
      if a = what then (.ok, 1)
      else if room = 0 then (.insufficientBuffer, 0)
      else ((scan what (room - 1) l).1, (scan what (room - 1) l).2 + 1) := by
  by_cases ha : a = what
  · subst ha
    rw [if_pos rfl, scan, List.idxOf_cons_self, if_pos (by simp)]
  · rw [if_neg ha, scan, List.idxOf_cons_ne l ha, List.length_cons]
    by_cases hroom : room = 0
    · rw [if_pos hroom, if_neg (by omega), if_pos (by omega), hroom]
    · rw [if_neg hroom, scan]
      by_cases hfound : l.idxOf what < l.length ∧ l.idxOf what ≤ room - 1
      · rw [if_pos (by omega), if_pos hfound]
      · rw [if_neg (by omega), if_neg hfound]
        by_cases hfull : room - 1 ≤ l.length
        · rw [if_pos (by omega), if_pos hfull, Nat.sub_add_cancel (by omega)]
        · rw [if_neg (by omega), if_neg hfull]

theorem scan_append_ok (hlt : l₁.idxOf what < l₁.length) (hle : l₁.idxOf what ≤ room)
    (l₂ : List UInt8) : scan what room (l₁ ++ l₂) = scan what room l₁ := by
  have hidx : (l₁ ++ l₂).idxOf what = l₁.idxOf what :=
    List.idxOf_append_of_mem (List.idxOf_lt_length_iff.mp hlt)
  rw [scan, scan, hidx, List.length_append, if_pos (by omega), if_pos (by omega)]

theorem scan_append_inProgress (hnot : what ∉ l₁) (hroom : l₁.length < room) (l₂ : List UInt8) :
    scan what room (l₁ ++ l₂) =
      ((scan what (room - l₁.length) l₂).1, l₁.length + (scan what (room - l₁.length) l₂).2) := by
  induction l₁ generalizing room with
  | nil => simp
  | cons a l₁ ih =>
    obtain ⟨ha, hnot⟩ := List.ne_and_not_mem_of_not_mem_cons hnot
    rw [List.length_cons] at hroom ⊢
    rw [List.cons_append, scan_cons, if_neg ha.symm, if_neg (by omega), ih hnot (by omega),
      Nat.sub_sub, Nat.add_comm 1, Nat.add_right_comm]

/-- A scan that has filled the target buffer finds no more behind it, unless the delimiter comes
next. -/
theorem scan_append_insufficient (hnot : ¬(l₁.idxOf what < l₁.length ∧ l₁.idxOf what ≤ room))
    (hroom : room ≤ l₁.length) (l₂ : List UInt8) :
    scan what room (l₁ ++ l₂) = (.insufficientBuffer, room) ∨
      ((l₁ ++ l₂).idxOf what = room ∧ room < (l₁ ++ l₂).length ∧ l₁.length = room) := by
  by_cases hfound : (l₁ ++ l₂).idxOf what < (l₁ ++ l₂).length ∧ (l₁ ++ l₂).idxOf what ≤ room
  · refine .inr ?_
    have hmem : what ∉ l₁ := by
      intro hmem
      have hlt := List.idxOf_lt_length_of_mem hmem
      rw [List.idxOf_append_of_mem hmem] at hfound
      exact hnot ⟨hlt, hfound.2⟩
    have hidx : (l₁ ++ l₂).idxOf what = l₁.length + l₂.idxOf what :=
      List.idxOf_append_of_notMem hmem
    omega
  · left
    rw [scan, if_neg hfound, if_pos (by rw [List.length_append]; omega)]

end

/-- What `read_ready_data_until_impl` does behind the copying loop. -/
def untilEnd (c : CircularByteBuffer) (what : UInt8) (workingEnd : Nat) :
    Nat × Buffer → Except Failure (CircularByteBuffer × Buffer × Outcome)
  | (beginOff, b) =>
    if beginOff < workingEnd ∧ c.mem beginOff = what then
      .ok ({ c with beginOff := beginOff + 1 }, b.appendUint8 (c.mem beginOff), .ok)
    else if b.capacity = b.size then .ok ({ c with beginOff := beginOff }, b, .insufficientBuffer)
    else if beginOff ≠ workingEnd then .error .assertion
    else .ok ({ c with beginOff := beginOff }, b, .inProgress)

theorem untilLoop_scan (c : CircularByteBuffer) (what : UInt8) (left beginOff : Nat) {b : Buffer}
    (hb : b.size ≤ b.capacity) {s : Outcome × Nat}
    (hs : scan what (b.capacity - b.size) (segment c.mem beginOff (beginOff + left)) = s) :
    ∃ b', c.untilEnd what (beginOff + left) (untilLoop c.mem what left beginOff b) =
        .ok ({ c with beginOff := beginOff + s.2 }, b', s.1) ∧
      b'.bytes = b.bytes ++ segment c.mem beginOff (beginOff + s.2) ∧
      (b'.size ≤ b.capacity → b'.capacity = b.capacity) := by
  induction left generalizing beginOff b s with
  | zero =>
    rw [Nat.add_zero, segment_self, scan_nil] at hs
    rw [untilLoop, untilEnd, if_neg (by omega)]
    by_cases hfull : b.capacity = b.size
    · rw [if_pos (by omega)] at hs
      subst hs
      exact ⟨b, if_pos hfull, by simp, fun _ => rfl⟩
    · rw [if_neg (by omega)] at hs
      subst hs
      rw [if_neg hfull, if_neg (by simp)]
      exact ⟨b, rfl, by simp, fun _ => rfl⟩
  | succ left ih =>
    rw [segment_cons c.mem (by omega), scan_cons] at hs
    by_cases hcopy : c.mem beginOff ≠ what ∧ b.size < b.capacity
    · -- the cell is copied, and the scan goes on behind it
      have hshift : beginOff + (left + 1) = beginOff + 1 + left := by omega
      have hsize : Buffer.size { b with bytes := b.bytes ++ [c.mem beginOff] } = b.size + 1 := by
        simp [Buffer.size]
      have hnext : b.capacity - b.size - 1 = b.capacity - (b.size + 1) := by omega
      rw [if_neg hcopy.1, if_neg (by omega), hshift, hnext, ← hsize] at hs
      generalize hs' : scan what _ (segment c.mem (beginOff + 1) _) = s' at hs
      obtain ⟨b', heq, hbytes, hkept⟩ :=
        ih (beginOff + 1) (b := { b with bytes := b.bytes ++ [c.mem beginOff] })
          (by rw [hsize]; exact hcopy.2) hs'
      subst hs
      have htaken : beginOff + (s'.2 + 1) = beginOff + 1 + s'.2 := by omega
      rw [untilLoop, if_pos hcopy, Buffer.appendUint8_eq hcopy.2, hshift, heq, htaken]
      refine ⟨b', rfl, ?_, hkept⟩
      rw [hbytes, segment_cons c.mem (show beginOff < beginOff + 1 + s'.2 by omega)]
      simp
    · have hloop : untilLoop c.mem what (left + 1) beginOff b = (beginOff, b) := if_neg hcopy
      rw [hloop, untilEnd]
      by_cases hwhat : c.mem beginOff = what
      · -- the byte looked for, which is copied too
        rw [if_pos hwhat] at hs
        subst hs
        rw [if_pos ⟨by omega, hwhat⟩]
        refine ⟨_, rfl, ?_, fun hfits => ?_⟩
        · rw [Buffer.bytes_appendUint8, segment_cons c.mem (by omega), segment_self]
        · rw [Buffer.size_appendUint8] at hfits
          rw [Buffer.appendUint8_eq hfits]
      · -- the buffer is full
        have hfull : b.capacity = b.size :=
          Nat.le_antisymm (Nat.le_of_not_lt fun h => hcopy ⟨hwhat, h⟩) hb
        rw [if_neg hwhat, if_pos (by omega)] at hs
        subst hs
        rw [if_neg (fun h => hwhat h.2), if_pos hfull]
        exact ⟨b, rfl, by simp, fun _ => rfl⟩

/-- On a range of the block the code is a scan of that range; the target buffer is not reallocated
unless more bytes come than it has room for. -/
theorem readReadyDataUntilImpl_scan {c : CircularByteBuffer} {b : Buffer} (what : UInt8)
    {workingEnd : Nat} (hle : c.beginOff ≤ workingEnd) (hb : b.size < b.capacity) :
    let s := scan what (b.capacity - b.size) (segment c.mem c.beginOff workingEnd)
    ∃ b', c.readReadyDataUntilImpl b what workingEnd =
        .ok ({ c with beginOff := c.beginOff + s.2 }, b', s.1) ∧
      b'.bytes = b.bytes ++ segment c.mem c.beginOff (c.beginOff + s.2) ∧
      (b'.size ≤ b.capacity → b'.capacity = b.capacity) := by
  intro s
  unfold readReadyDataUntilImpl
  split
  · rename_i hdone
    have hs : s = (.inProgress, 0) := by
      show scan _ _ _ = _
      rw [hdone, segment_self, scan_nil, if_neg (by omega)]
    rw [hs]
    exact ⟨b, rfl, by simp, fun _ => rfl⟩
  · have hscan := untilLoop_scan c what (workingEnd - c.beginOff) c.beginOff hb.le rfl
    rw [Nat.add_sub_cancel' hle] at hscan
    exact hscan

/-- The scan of the ring. Where the target buffer is full and the contents wrap around, the scan
ends. -/
def scanRing (c : CircularByteBuffer) (what : UInt8) (room : Nat) : Outcome × Nat :=
  if c.contents.idxOf what = room ∧ room < c.contents.length ∧ c.beginOff + room = c.allocSize then
    (.insufficientBuffer, room)
  else scan what room c.contents

/-- Where the contents wrap around, the scan ends in the first range or goes on in the second. -/
theorem scanRing_wrap {c : CircularByteBuffer} (hwf : c.WF) (hwrap : ¬c.beginOff ≤ c.endOff)
    (what : UInt8) (room : Nat) {l₁ l₂ : List UInt8}
    (hl₁ : l₁ = segment c.mem c.beginOff c.allocSize)
    (hl₂ : l₂ = segment c.mem 0 c.endOff) :
    (((scan what room l₁).1 = .ok ∨ (scan what room l₁).1 = .insufficientBuffer) ∧
      c.scanRing what room = scan what room l₁) ∨
    (scan what room l₁ = (.inProgress, l₁.length) ∧ l₁.length < room ∧
      c.scanRing what room = ((scan what (room - l₁.length) l₂).1,
        l₁.length + (scan what (room - l₁.length) l₂).2)) := by
  have hbegin := hwf.begin_lt
  have hlen : l₁.length = c.allocSize - c.beginOff := by rw [hl₁, length_segment]
  have hcontents : c.contents = l₁ ++ l₂ := by rw [contents, if_neg hwrap, hl₁, hl₂]
  rw [scanRing, hcontents]
  rcases scan_cases what room l₁ with ⟨hscan, hlt, hle⟩ | ⟨hscan, hnot, hroom⟩ |
    ⟨hscan, hnot, hroom⟩
  · rw [hscan, List.idxOf_append_of_mem (List.idxOf_lt_length_iff.mp hlt), if_neg (by omega),
      scan_append_ok hlt hle, hscan]
    exact .inl ⟨.inl rfl, rfl⟩
  · rw [hscan]
    refine .inl ⟨.inr rfl, ?_⟩
    rcases scan_append_insufficient hnot hroom l₂ with h | ⟨h, h', hl⟩
    · rw [h, ite_self]
    · rw [if_pos ⟨h, h', by omega⟩]
  · rw [if_neg (by omega), scan_append_inProgress hnot hroom]
    exact .inr ⟨hscan, hroom, rfl⟩

theorem readReadyDataUntil_eq {c : CircularByteBuffer} (hwf : c.WF) {b : Buffer} (what : UInt8)
    (hempty : b.bytes = []) (hcap : b.capacity ≠ 0) :
    ∃ c' b', c.readReadyDataUntil b what = .ok (c', b', (c.scanRing what b.capacity).1) ∧
      b'.size = (c.scanRing what b.capacity).2 ∧ c'.WF ∧
      b'.bytes ++ c'.contents = c.contents ∧ (b'.size ≤ b.capacity → b'.capacity = b.capacity) := by
  have hsize : b.size = 0 := by simp [Buffer.size, hempty]
  have hbegin := hwf.begin_lt
  have hend := hwf.end_lt
  unfold readReadyDataUntil
  rw [if_neg (by omega)]
  by_cases heq : c.beginOff = c.endOff
  · have hring : c.scanRing what b.capacity = (.inProgress, 0) := by
      simp [scanRing, scan, contents_eq_nil_of_empty heq, hcap]
    rw [if_pos heq, hring]
    exact ⟨c, b, rfl, hsize, hwf, by rw [hempty, List.nil_append], fun _ => rfl⟩
  rw [if_neg heq]
  by_cases hlt : c.beginOff < c.endOff
  · have hring : c.scanRing what b.capacity =
        scan what (b.capacity - b.size) (segment c.mem c.beginOff c.endOff) := by
      rw [scanRing, contents, if_pos hlt.le, length_segment, if_neg (by omega), hsize, Nat.sub_zero]
    obtain ⟨b', hb', hbytes, hkept⟩ :=
      readReadyDataUntilImpl_scan what hlt.le (by omega : b.size < _)
    have hn := scan_le what (b.capacity - b.size) (segment c.mem c.beginOff c.endOff)
    rw [length_segment, ← hring] at hn
    rw [← hring] at hb' hbytes
    obtain ⟨hwf', hadv⟩ := contents_advance hwf (n := (c.scanRing what b.capacity).2)
      (by rw [if_pos hlt.le]; omega)
    rw [if_pos hlt]
    refine ⟨_, b', hb', ?_, hwf', ?_, hkept⟩
    · rw [Buffer.size, hbytes, hempty, List.nil_append, length_segment]
      omega
    · rw [hbytes, hempty]
      exact hadv
  · have hwrap : ¬c.beginOff ≤ c.endOff := by omega
    rw [if_neg hlt]
    obtain ⟨b₁, hb₁, hbytes₁, hkept₁⟩ := readReadyDataUntilImpl_scan (b := b) what hbegin.le
      (by omega)
    rw [hsize, Nat.sub_zero] at hb₁ hbytes₁
    rw [hempty, List.nil_append] at hbytes₁
    have hn := scan_le what b.capacity (segment c.mem c.beginOff c.allocSize)
    rw [length_segment] at hn
    have hsz₁ : b₁.size = (scan what b.capacity (segment c.mem c.beginOff c.allocSize)).2 := by
      rw [Buffer.size, hbytes₁, length_segment]
      omega
    -- what the first range gives, if the scan ends there
    have hpass := contents_pass hwf (n := (scan what b.capacity
      (segment c.mem c.beginOff c.allocSize)).2) (by rw [if_neg hwrap]; omega)
    rw [← hbytes₁] at hpass
    rw [hb₁]
    simp only [bind, Except.bind]
    rcases scanRing_wrap hwf hwrap what b.capacity rfl rfl with
      ⟨hstop, hring⟩ | ⟨hscan, hroom, hring⟩
    · rw [if_pos hstop, hring]
      exact ⟨_, _, rfl, hsz₁, hpass.1, hpass.2, hkept₁⟩
    · rw [length_segment] at hscan hroom hring
      have hback : wrapBegin { c with beginOff := c.beginOff + (c.allocSize - c.beginOff) } =
          { c with beginOff := 0 } := if_pos (Nat.add_sub_cancel' hbegin.le)
      rw [hscan] at hsz₁ hpass ⊢
      rw [hback] at hpass ⊢
      rw [if_neg (by simp), hring]
      have hcap₁ := hkept₁ (by omega)
      obtain ⟨b', hb', hbytes, hkept⟩ := readReadyDataUntilImpl_scan
        (c := { c with beginOff := 0 }) (b := b₁) what (Nat.zero_le c.endOff) (by omega)
      rw [hcap₁, hsz₁] at hb' hbytes
      rw [hcap₁] at hkept
      have hn₂ := scan_le what (b.capacity - (c.allocSize - c.beginOff)) (segment c.mem 0 c.endOff)
      rw [length_segment] at hn₂
      obtain ⟨hwf', hadv⟩ := contents_advance hpass.1 (n := (scan what
        (b.capacity - (c.allocSize - c.beginOff)) (segment c.mem 0 c.endOff)).2)
        (by rw [if_pos (Nat.zero_le _)]; show 0 + _ ≤ c.endOff; omega)
      refine ⟨_, b', hb', ?_, hwf', ?_, hkept⟩
      · rw [Buffer.size, hbytes, List.length_append, length_segment, ← Buffer.size, hsz₁]
        simp only [Nat.zero_add, Nat.sub_zero]
      · rw [hbytes, ← hpass.2, List.append_assoc]
        exact congrArg _ hadv

theorem readReadyDataUntil_scan {c : CircularByteBuffer} (hwf : c.WF) {b : Buffer} (what : UInt8)
    (hempty : b.bytes = []) (hcap : b.capacity ≠ 0) :
    ∃ c' b', c.readReadyDataUntil b what = .ok (c', b', (c.scanRing what b.capacity).1) ∧
      b'.bytes = c.contents.take (c.scanRing what b.capacity).2 := by
  obtain ⟨c', b', heq, hsize, -, hcontents, -⟩ := readReadyDataUntil_eq hwf what hempty hcap
  refine ⟨c', b', heq, ?_⟩
  rw [← hcontents, ← hsize]
  exact (List.take_left' rfl).symm

section

variable {c c' : CircularByteBuffer} {b b' : Buffer} {what : UInt8} {o : Outcome}

theorem readReadyDataUntil_of_ok (hwf : c.WF) (h : c.readReadyDataUntil b what = .ok (c', b', o)) :
    o = (c.scanRing what b.capacity).1 ∧ b'.size = (c.scanRing what b.capacity).2 ∧ c'.WF ∧
      b'.bytes ++ c'.contents = c.contents ∧ (b'.size ≤ b.capacity → b'.capacity = b.capacity) := by
  by_cases hpre : b.size ≠ 0 ∨ b.capacity = 0
  · rw [readReadyDataUntil, if_pos hpre] at h
    cases h
  · obtain ⟨hsize, hcap⟩ := not_or.mp hpre
    have hempty : b.bytes = [] := List.length_eq_zero_iff.mp (not_not.mp hsize)
    obtain ⟨c₁, b₁, heq, hfacts⟩ := readReadyDataUntil_eq hwf what hempty hcap
    cases heq.symm.trans h
    exact ⟨rfl, hfacts⟩

theorem readReadyDataUntil_contents (hwf : c.WF)
    (h : c.readReadyDataUntil b what = .ok (c', b', o)) :
    c'.WF ∧ b'.bytes ++ c'.contents = c.contents := by
  obtain ⟨-, -, hwf', hcontents, -⟩ := readReadyDataUntil_of_ok hwf h
  exact ⟨hwf', hcontents⟩

theorem readReadyDataUntil_inProgress (hwf : c.WF)
    (h : c.readReadyDataUntil b what = .ok (c', b', .inProgress)) : c'.usedSize = 0 := by
  obtain ⟨hout, hsize, hwf', hcontents, -⟩ := readReadyDataUntil_of_ok hwf h
  have hall : (c.scanRing what b.capacity).2 = c.contents.length := by
    unfold scanRing at hout ⊢
    split at hout
    · cases hout
    rename_i hnear
    rw [if_neg hnear]
    rcases scan_cases what b.capacity c.contents with ⟨h, -⟩ | ⟨h, -⟩ | ⟨h, -⟩
    · rw [h] at hout
      cases hout
    · rw [h] at hout
      cases hout
    · rw [h]
  have hlen := congrArg List.length hcontents
  rw [List.length_append, ← Buffer.size, hsize, hall, length_contents hwf'] at hlen
  omega

end

end CircularByteBuffer

end NodeCpp
