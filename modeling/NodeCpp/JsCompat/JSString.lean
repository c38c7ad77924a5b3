import Mathlib.Data.List.GetD
import NodeCpp.Lib.Fallible
import NodeCpp.Net.Os

/-!
# JSString

Characters are written and read as UTF-8 by functions of the class. Only ASCII survives: the first
byte of a longer character is written with one bit too many of the code, and the reader adds the
bits of the following bytes to a variable that it does not return.

`charAt` calls the reader as many times as the index says, and so returns the character before.
-/

namespace NodeCpp

open Lib

namespace JSString

/-! ## Characters -/

/-- `utf8FromJSChar`; zero is written as a terminator that the returned pointer does not pass. -/
def utf8FromJSChar (code : Nat) : Except Failure (List UInt8) :=
  if code ≤ 0x7F then .ok (if 0 < code then [UInt8.ofNat code] else [])
  else if code ≤ 0x7FF then
    .ok [UInt8.ofNat (0xC0 ||| (code >>> 5 &&& 0x1F)), UInt8.ofNat (0x80 ||| (code &&& 0x3F))]
  else if code ≤ 0xFFFF then
    .ok [UInt8.ofNat (0xE0 ||| (code >>> 11 &&& 0x1F)),
      UInt8.ofNat (0x80 ||| (code >>> 6 &&& 0x3F)), UInt8.ofNat (0x80 ||| (code &&& 0x3F))]
  else if code ≤ 0x1FFFFF then
    .ok [UInt8.ofNat (0xF0 ||| (code >>> 17 &&& 0x1F)),
      UInt8.ofNat (0x80 ||| (code >>> 12 &&& 0x3F)),
      UInt8.ofNat (0x80 ||| (code >>> 6 &&& 0x3F)), UInt8.ofNat (0x80 ||| (code &&& 0x3F))]
  else .error .error

/-- The loop of `utf8ToJSChar`, with `jschar.code`. A string ends with its bytes, or at a zero byte.
The sum of the following bytes is left out: nobody reads it. -/
def utf8Loop : (seq code : Nat) → List UInt8 → Nat × List UInt8
  | _, code, [] => (code, [])
  | seq, code, ch :: utfs =>
      if ch = 0 then (code, ch :: utfs)
      else
        match seq with
        | 0 =>
            if ch &&& 0x80 = 0 then (ch.toNat, utfs)
            else if ch &&& 0xe0 = 0xc0 then utf8Loop 1 ((ch &&& 0x1f).toNat <<< 6) utfs
            else if ch &&& 0xf0 = 0xe0 then utf8Loop 2 ((ch &&& 0x0f).toNat <<< 12) utfs
            else if ch &&& 0xf1 = 0xf0 then utf8Loop 3 ((ch &&& 0x07).toNat <<< 18) utfs
            else utf8Loop 0 code utfs
        | seq + 1 => if seq = 0 then (code, utfs) else utf8Loop seq code utfs

/-- `utf8ToJSChar`: the character, and what is left of the string. -/
def utf8ToJSChar (utfs : List UInt8) : Nat × List UInt8 := utf8Loop 0 0 utfs

/-- UTF-8. -/
def utf8 (code : Nat) : List UInt8 :=
  if code < 0x80 then [UInt8.ofNat code]
  else if code < 0x800 then [UInt8.ofNat (0xC0 + code / 64), UInt8.ofNat (0x80 + code % 64)]
  else if code < 0x10000 then
    [UInt8.ofNat (0xE0 + code / 4096), UInt8.ofNat (0x80 + code / 64 % 64),
      UInt8.ofNat (0x80 + code % 64)]
  else
    [UInt8.ofNat (0xF0 + code / 262144), UInt8.ofNat (0x80 + code / 4096 % 64),
      UInt8.ofNat (0x80 + code / 64 % 64), UInt8.ofNat (0x80 + code % 64)]

def encode : List Nat → Except Failure (List UInt8)
  | [] => .ok []
  | c :: cs => do
      let ch ← utf8FromJSChar c
      let utfs ← encode cs
      return ch ++ utfs

/-- The reader returns the characters, each call passing the bytes of one. -/
def Decodes : List Nat → List UInt8 → Prop
  | [], utfs => utfs = []
  | c :: cs, utfs => ∃ rest, utfs = utf8 c ++ rest ∧ utf8ToJSChar utfs = (c, rest) ∧ Decodes cs rest

def RoundTrips (cs : List Nat) : Prop :=
  encode cs = .ok (cs.flatMap utf8) ∧ Decodes cs (cs.flatMap utf8)

/-! ### ASCII -/

variable {c : Nat}

theorem utf8FromJSChar_ascii (hpos : 1 ≤ c) (hc : c ≤ 0x7F) : utf8FromJSChar c = .ok (utf8 c) := by
  rw [utf8FromJSChar, if_pos hc, if_pos (Nat.pos_of_ne_zero (by omega)), utf8, if_pos (by omega)]

theorem utf8ToJSChar_ascii (hpos : 1 ≤ c) (hc : c ≤ 0x7F) (rest : List UInt8) :
    utf8ToJSChar (utf8 c ++ rest) = (c, rest) := by
  have htoNat : (UInt8.ofNat c).toNat = c := by
    rw [UInt8.toNat_ofNat']
    omega
  have hne : UInt8.ofNat c ≠ 0 := by
    intro h
    rw [h] at htoNat
    exact absurd htoNat (by simp; omega)
  have hhigh : ∀ n < 128, UInt8.ofNat n &&& 0x80 = 0 := by decide
  rw [utf8, if_pos (by omega)]
  simp [utf8ToJSChar, utf8Loop, hne, hhigh c (by omega), htoNat]

/-! ### Longer characters -/

/-- Behind the first byte the code stays as it is. -/
theorem utf8Loop_fst (seq code : Nat) (utfs : List UInt8) :
    (utf8Loop (seq + 1) code utfs).1 = code := by
  induction utfs generalizing seq with
  | nil => rfl
  | cons ch utfs ih =>
    rw [utf8Loop]
    split
    · rfl
    · cases seq with
      | zero => rfl
      | succ seq => exact ih seq

theorem ofNat_inj {m n : Nat} (hm : m < 256) (hn : n < 256) (h : UInt8.ofNat m = UInt8.ofNat n) :
    m = n := by
  have h := congrArg UInt8.toNat h
  rwa [UInt8.toNat_ofNat', UInt8.toNat_ofNat', Nat.mod_eq_of_lt hm, Nat.mod_eq_of_lt hn] at h

/-- A longer character that is written as UTF-8 is not read back: its first byte is 0xDF or 0xF0. -/
theorem read_ne {ch utfs rest : List UInt8} (hmin : 0x7F < c) (hmax : c ≤ 0x10FFFF)
    (hwrite : utf8FromJSChar c = .ok ch) (happ : ch ++ utfs = utf8 c ++ rest) :
    (utf8ToJSChar (utf8 c ++ rest)).1 ≠ c := by
  have hshift : ∀ k n : Nat, n >>> k &&& 0x1F = n / 2 ^ k % 32 := by
    intro k n
    rw [Nat.shiftRight_eq_div_pow]
    exact Nat.and_two_pow_sub_one_eq_mod _ 5
  have hor : ∀ x < 32, 0xC0 ||| x = 0xC0 + x ∧ 0xE0 ||| x = 0xE0 + x := by decide
  have hor' : ∀ x < 16, 0xF0 ||| x = 0xF0 + x := by decide
  by_cases h2 : c < 0x800
  · have hutf : utf8 c = [UInt8.ofNat (0xC0 + c / 64), UInt8.ofNat (0x80 + c % 64)] := by
      rw [utf8, if_neg (by omega), if_pos h2]
    rw [utf8FromJSChar, if_neg (by omega), if_pos (by omega), hshift,
      (hor _ (by omega)).1] at hwrite
    cases hwrite
    rw [hutf] at happ
    have hlead := ofNat_inj (by omega) (by omega) (List.head_eq_of_cons_eq happ)
    have hbyte : c / 64 = 31 := by omega
    rw [hutf, hbyte]
    show (utf8Loop 1 1984 _).1 ≠ c
    rw [utf8Loop_fst]
    omega
  by_cases h3 : c < 0x10000
  · rw [utf8FromJSChar, if_neg (by omega), if_neg (by omega), if_pos (by omega), hshift,
      (hor _ (by omega)).2] at hwrite
    cases hwrite
    rw [utf8, if_neg (by omega), if_neg h2, if_pos h3] at happ
    have hlead := ofNat_inj (by omega) (by omega) (List.head_eq_of_cons_eq happ)
    omega
  · have hutf : utf8 c = [UInt8.ofNat (0xF0 + c / 262144), UInt8.ofNat (0x80 + c / 4096 % 64),
        UInt8.ofNat (0x80 + c / 64 % 64), UInt8.ofNat (0x80 + c % 64)] := by
      rw [utf8, if_neg (by omega), if_neg h2, if_neg h3]
    rw [utf8FromJSChar, if_neg (by omega), if_neg (by omega), if_neg (by omega),
      if_pos (by omega), hshift, hor' _ (by omega)] at hwrite
    cases hwrite
    rw [hutf] at happ
    have hlead := ofNat_inj (by omega) (by omega) (List.head_eq_of_cons_eq happ)
    have hbyte : c / 262144 = 0 := by omega
    rw [hutf, hbyte]
    show (utf8Loop 3 0 _).1 ≠ c
    rw [utf8Loop_fst]
    omega

/-! ### Strings -/

/-- Only ASCII is written as UTF-8 and read back. -/
theorem roundTrips_iff {cs : List Nat} (hcs : ∀ c ∈ cs, 1 ≤ c ∧ c ≤ 0x10FFFF) :
    RoundTrips cs ↔ ∀ c ∈ cs, c ≤ 0x7F := by
  induction cs with
  | nil => simp [RoundTrips, encode, Decodes]
  | cons c cs ih =>
    have ih := ih fun c hc => hcs c (List.mem_cons_of_mem _ hc)
    obtain ⟨hpos, hmax⟩ := hcs c List.mem_cons_self
    rw [List.forall_mem_cons, ← ih]
    by_cases hc : c ≤ 0x7F
    · -- ASCII is written and read as it should be, so the rest decides
      rw [and_iff_right hc, RoundTrips, RoundTrips, encode, utf8FromJSChar_ascii hpos hc,
        List.flatMap_cons]
      refine and_congr ?_ ?_
      · cases encode cs with
        | error e => simp
        | ok utfs => simp [pure, Except.pure]
      · simp [Decodes, utf8ToJSChar_ascii hpos hc]
    · refine iff_of_false ?_ fun h => hc h.1
      rintro ⟨hencode, rest, happ, hread, -⟩
      obtain ⟨ch, hwrite, hencode⟩ := bind_eq_ok hencode
      obtain ⟨utfs, -, hencode⟩ := bind_eq_ok hencode
      rw [List.flatMap_cons] at happ hread hencode
      cases List.append_cancel_left happ
      exact read_ne (by omega) hmax hwrite (Except.ok.inj hencode) (congrArg Prod.fst hread)

theorem roundTrips_ascii : RoundTrips [0x6A, 0x7F] :=
  (roundTrips_iff (by decide)).mpr (by decide)

/-- U+00E9 is written as 0xC7 0xA9, and would be read as U+01C0. -/
theorem eAcute_not_roundTrips :
    encode [0xE9] = .ok [0xC7, 0xA9] ∧ utf8 0xE9 = [0xC3, 0xA9] ∧
      utf8ToJSChar [0xC7, 0xA9] = (0x1C0, []) ∧ ¬ RoundTrips [0xE9] :=
  ⟨by decide, by decide, by decide, fun h => absurd h.1 (by decide)⟩

/-! ## charAt -/

/-- The loop of `charAt`, with a reader for one character. -/
def charLoop (read : List UInt8 → Nat × List UInt8) : (index ret : Nat) → List UInt8 → Nat
  | 0, ret, _ => ret
  | index + 1, ret, ustr =>
      if ustr = [] then ret else charLoop read index (read ustr).1 (read ustr).2

def charAtWith (read : List UInt8 → Nat × List UInt8) (str : List UInt8) (index : Nat) : Nat :=
  charLoop read index 0 str

def charAt : List UInt8 → Nat → Nat := charAtWith utf8ToJSChar

variable {read : List UInt8 → Nat × List UInt8} {cs : List Nat}

theorem charLoop_eq (hread : ∀ c ∈ cs, ∀ rest, read (utf8 c ++ rest) = (c, rest))
    (index ret : Nat) :
    charLoop read index ret (cs.flatMap utf8) = (ret :: cs).getD (min index cs.length) 0 := by
  induction cs generalizing index ret with
  | nil => cases index <;> simp [charLoop]
  | cons c cs ih =>
    cases index with
    | zero => simp [charLoop]
    | succ index =>
      have hne : utf8 c ++ cs.flatMap utf8 ≠ [] := by
        unfold utf8
        split_ifs <;> simp
      rw [List.flatMap_cons, charLoop, if_neg hne, hread c List.mem_cons_self,
        ih fun c hc => hread c (List.mem_cons_of_mem _ hc)]
      simp [Nat.succ_min_succ]

/-- With a reader that is right, `charAt` is right where the character before is the same, and
behind the end if the last character is zero. -/
theorem charAt_iff (hread : ∀ c ∈ cs, ∀ rest, read (utf8 c ++ rest) = (c, rest)) (i : Nat) :
    charAtWith read (cs.flatMap utf8) i = cs.getD i 0 ↔
      if i < cs.length then (0 :: cs)[i]? = cs[i]? else (0 :: cs).getLast? = some 0 := by
  rw [charAtWith, charLoop_eq hread]
  split
  · next hlt =>
    have hlt' : i < (0 :: cs).length := Nat.lt_succ_of_lt hlt
    rw [Nat.min_eq_left (Nat.le_of_lt hlt), List.getD_eq_getElem _ _ hlt,
      List.getD_eq_getElem _ _ hlt',
      List.getElem?_eq_getElem hlt, List.getElem?_eq_getElem hlt', Option.some.injEq]
  · next hge =>
    have hlast : cs.length < (0 :: cs).length := Nat.lt_succ_self _
    rw [Nat.min_eq_right (Nat.le_of_not_lt hge), List.getD_eq_default _ _ (Nat.le_of_not_lt hge),
      List.getD_eq_getElem _ _ hlast, List.getLast?_eq_getElem?, List.length_cons,
      Nat.add_sub_cancel, List.getElem?_eq_getElem hlast, Option.some.injEq]

/-- "bee", with the reader of the class: it is right for ASCII. -/
theorem charAt_bee : charAt ([0x62, 0x65, 0x65].flatMap utf8) 2 = 0x65 := by
  refine (charAt_iff ?_ 2).mpr (by decide)
  intro c hc rest
  exact utf8ToJSChar_ascii (by revert c; decide) (by revert c; decide) rest

theorem charAt_be :
    charAt ([0x62, 0x65].flatMap utf8) 0 = 0 ∧ charAt ([0x62, 0x65].flatMap utf8) 1 = 0x62 ∧
      charAt ([0x62, 0x65].flatMap utf8) 2 = 0x65 := by
  decide

end JSString

end NodeCpp
