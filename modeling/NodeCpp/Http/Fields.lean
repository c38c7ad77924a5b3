import NodeCpp.Http.Request

/-!
# Header fields and the header map

A header field as it may stand on a line: a name, and any value without line ends, with blanks at
both of its ends or nothing but blanks. `RawField.field` tells the blanks from the value proper.

`HeaderMap` is in the order of its keys, and an insertion leaves an entry of the same key alone:
`HeaderMap.find_insert` says what is found afterwards.
-/

namespace NodeCpp

open Lib Lib.Text

variable {h : HeaderMap} {value : Str}

/-! ## Fields -/

def trim (value : Str) : Str := (value.dropWhile isBlank).rdropWhile isBlank

/-- A header field with its value as it stands on the line. -/
structure RawField where
  name : Str
  value : Str
  name_ne : name ≠ []
  name_ok : ∀ c ∈ name, isSpace c = false ∧ c ≠ 58
  value_ok : ∀ c ∈ value, c ≠ 13 ∧ c ≠ 10

theorem mem_of_mem_trim {c : UInt8} (h : c ∈ trim value) : c ∈ value :=
  (List.dropWhile_suffix _).subset ((List.rdropWhile_prefix ..).subset h)

theorem isBlank_head_trim : ∀ c ∈ (trim value).head?, isBlank c = false := by
  intro c hc
  have hprefix : trim value <+: value.dropWhile isBlank := List.rdropWhile_prefix ..
  obtain ⟨rest, hrest⟩ := hprefix
  have hhead : (value.dropWhile isBlank).head? = some c := by
    rw [← hrest, List.head?_append, hc]
    rfl
  have hnot := List.head?_dropWhile_not isBlank value
  rwa [hhead] at hnot

namespace RawField

def line (f : RawField) : Str := f.name ++ 58 :: (f.value ++ crlf)

/-- The field with the blanks told from the value. -/
def field (f : RawField) : HeaderField where
  name := f.name
  before := f.value.takeWhile isBlank
  value := trim f.value
  after := (f.value.dropWhile isBlank).rtakeWhile isBlank
  name_ne := f.name_ne
  name_ok := f.name_ok
  before_ok := fun _ hc => List.mem_takeWhile_imp hc
  value_ok := fun c hc => f.value_ok c (mem_of_mem_trim hc)
  value_first := isBlank_head_trim
  value_last := getLast?_rdropWhile
  after_ok := fun _ hc => List.mem_rtakeWhile_imp hc

theorem line_field (f : RawField) : f.field.line = f.line := by
  have hvalue : f.value.takeWhile isBlank ++ trim f.value ++
      (f.value.dropWhile isBlank).rtakeWhile isBlank = f.value := by
    rw [List.append_assoc, trim, List.rdropWhile_append_rtakeWhile,
      List.takeWhile_append_dropWhile]
  show f.name ++ 58 :: (_ ++ crlf) = f.name ++ 58 :: (f.value ++ crlf)
  rw [← hvalue]
  rfl

end RawField

/-! ## The header map -/

namespace HeaderMap

def Sorted (h : HeaderMap) : Prop := h.Pairwise fun a b => a.1 < b.1

theorem lt_of_not_lt {a b : Str} (hlt : ¬a < b) (hne : a ≠ b) : b < a := by
  by_contra hnot
  exact hne (List.le_antisymm (List.not_lt.mp hnot) (List.not_lt.mp hlt))

theorem mem_insert {key : Str} {kv : Str × Str} (hkv : kv ∈ h.insert key value) :
    kv = (key, value) ∨ kv ∈ h := by
  induction h with
  | nil => exact .inl (List.mem_singleton.mp hkv)
  | cons entry rest ih =>
    obtain ⟨k, v⟩ := entry
    unfold insert at hkv
    split at hkv
    · exact List.mem_cons.mp hkv
    · split at hkv
      · exact .inr hkv
      · rcases List.mem_cons.mp hkv with rfl | hkv
        · exact .inr (List.mem_cons_self ..)
        · exact (ih hkv).imp_right (List.mem_cons_of_mem _)

theorem Sorted.insert (hs : h.Sorted) (key value : Str) : (h.insert key value).Sorted := by
  induction h with
  | nil => exact List.pairwise_singleton ..
  | cons entry rest ih =>
    obtain ⟨k, v⟩ := entry
    obtain ⟨hk, hrest⟩ := List.pairwise_cons.mp hs
    unfold HeaderMap.insert
    split
    · rename_i hlt
      refine List.pairwise_cons.mpr ⟨fun kv hkv => ?_, hs⟩
      rcases List.mem_cons.mp hkv with rfl | hkv
      · exact hlt
      · exact List.lt_trans hlt (hk kv hkv)
    · rename_i hnlt
      split
      · exact hs
      · rename_i hne
        refine List.pairwise_cons.mpr ⟨fun kv hkv => ?_, ih hrest⟩
        rcases mem_insert hkv with rfl | hkv
        · exact lt_of_not_lt hnlt hne
        · exact hk kv hkv

theorem find_cons (k v : Str) (rest : HeaderMap) (key : Str) :
    find ((k, v) :: rest) key = if key = k then some v else find rest key := by
  by_cases hkey : key = k
  · simp [find, hkey]
  · simp [find, List.lookup_cons, hkey, beq_false_of_ne hkey]

theorem find_eq_none {key : Str} (hlt : ∀ kv ∈ h, key < kv.1) : h.find key = none := by
  induction h with
  | nil => rfl
  | cons entry rest ih =>
    obtain ⟨k, v⟩ := entry
    obtain ⟨hk, hrest⟩ := List.forall_mem_cons.mp hlt
    have hne : key ≠ k := by
      rintro rfl
      exact List.lt_irrefl _ hk
    rw [find_cons, if_neg hne, ih hrest]

/-- What is found after an insertion: the entry of the key that was there, or the new one. -/
theorem find_insert (hs : h.Sorted) (key value k : Str) :
    (h.insert key value).find k =
      if k = key then some ((h.find key).getD value) else h.find k := by
  induction h with
  | nil =>
    rw [HeaderMap.insert, find_cons]
    rfl
  | cons entry rest ih =>
    obtain ⟨k', v⟩ := entry
    obtain ⟨hk', hrest⟩ := List.pairwise_cons.mp hs
    unfold HeaderMap.insert
    split
    · rename_i hlt
      -- the key is smaller than all of them, so it is not there yet
      have hnone : find ((k', v) :: rest) key = none := by
        refine find_eq_none (List.forall_mem_cons.mpr ⟨hlt, fun kv hkv => ?_⟩)
        exact List.lt_trans hlt (hk' kv hkv)
      rw [hnone, find_cons]
      rfl
    · split
      · rename_i heq
        subst heq
        by_cases hk : k = key
        · rw [if_pos hk, hk, find_cons, if_pos rfl]
          rfl
        · rw [if_neg hk]
      · rename_i hne
        rw [find_cons, ih hrest, find_cons, if_neg hne, find_cons]
        by_cases hk : k = key
        · rw [if_pos hk, if_pos hk, hk, if_neg hne]
        · rw [if_neg hk, if_neg hk]

end HeaderMap

end NodeCpp
