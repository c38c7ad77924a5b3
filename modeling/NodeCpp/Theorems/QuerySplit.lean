import NodeCpp.Url.Query

/-!
# The query of a URL as a split

A query is split at every `&`, and each piece at its first `=`. `parseUrlQueryString` looks for the
`=` first and for the `&` behind it, so that a piece without an `=` runs on into the next one.

* `splitQuery` -- the split.
* `parseLoop_adds` -- what the loop adds: the split if every piece but the last one has an `=`, and
  a key with an `&` in it otherwise.
* `query_split_iff` -- so the code is the split exactly in that case.
-/

namespace NodeCpp

open Lib Lib.Text

namespace Url

/-- The key and the value of a piece; the value is empty if there is no `=`. -/
def splitPiece (piece : Str) : Str × Str :=
  (piece.takeWhile fun c => !isEq c, (piece.dropWhile fun c => !isEq c).tail)

def pieces (query : Str) : List Str := query.splitOnP isAmp

/-- What is behind the first `?`. -/
def queryOf (url : Str) : Option Str :=
  match url.dropWhile fun c => !isQuestion c with
  | [] => none
  | _ :: query => some query

/-- The pairs of a URL, in their order. -/
def splitQuery (url : Str) : List (Str × Str) :=
  match queryOf url with
  | none => []
  | some query => (pieces query).map splitPiece

/-- Every piece but the last one has an `=`. -/
def KeysEnded (query : Str) : Prop := ∀ piece ∈ (pieces query).dropLast, piece.any isEq = true

instance (query : Str) : Decidable (KeysEnded query) :=
  inferInstanceAs (Decidable (∀ piece ∈ (pieces query).dropLast, _))

section

variable {key value piece rest : Str} {c : UInt8}

theorem splitPiece_append (h : ∀ x ∈ key, isEq x = false) (hc : isEq c = true) :
    splitPiece (key ++ c :: value) = (key, value) := by
  have hall : ∀ x ∈ key, (!isEq x) = true := fun x hx => by rw [h x hx]; rfl
  rw [splitPiece, List.takeWhile_append_of_pos hall, List.dropWhile_append_of_pos hall]
  simp [hc]

theorem splitPiece_of_no_eq (h : ∀ x ∈ key, isEq x = false) : splitPiece key = (key, []) := by
  have hall : ∀ x ∈ key, (!isEq x) = true := fun x hx => by rw [h x hx]; rfl
  have hsplit : splitPiece (key ++ []) = (key ++ [], []) := by
    rw [splitPiece, List.takeWhile_append_of_pos hall, List.dropWhile_append_of_pos hall]
    rfl
  rwa [List.append_nil] at hsplit

theorem splitPiece_no_amp {query : Str} (h : piece ∈ pieces query) :
    (splitPiece piece).1.any isAmp = false := by
  rw [List.any_eq_false]
  intro x hx
  have hmem : x ∈ piece := (List.takeWhile_sublist _).subset hx
  rw [not_sep_of_mem_splitOnP h x hmem]
  exact Bool.false_ne_true

theorem keysEnded_of_no_amp (h : ∀ x ∈ rest, isAmp x = false) : KeysEnded rest := by
  rw [KeysEnded, pieces, List.splitOnP_eq_singleton h]
  nofun

theorem keysEnded_append (hpiece : ∀ x ∈ piece, isAmp x = false) (hc : isAmp c = true) :
    KeysEnded (piece ++ c :: rest) ↔ piece.any isEq = true ∧ KeysEnded rest := by
  rw [KeysEnded, pieces, List.splitOnP_append_cons_of_forall_mem hpiece c hc,
    List.dropLast_cons_of_ne_nil (List.splitOnP_ne_nil _ _), List.forall_mem_cons]
  exact Iff.rfl

theorem not_keysEnded (hamp : key.any isAmp = true) (hkey : ∀ x ∈ key, isEq x = false) :
    ¬KeysEnded (key ++ rest) := by
  cases hfound : key.findIdx? isAmp with
  | none =>
    rw [List.findIdx?_eq_none_iff] at hfound
    obtain ⟨x, hx, hxamp⟩ := List.any_eq_true.mp hamp
    exact absurd (hfound x hx) (by simp [hxamp])
  | some i =>
    obtain ⟨first, a, more, rfl, hfirst, ha, -⟩ := findIdx?_eq_some_append hfound
    rw [List.append_assoc, List.cons_append, keysEnded_append hfirst ha]
    rintro ⟨heq, -⟩
    obtain ⟨x, hx, hxeq⟩ := List.any_eq_true.mp heq
    exact absurd (hkey x (List.mem_append_left _ hx)) (by simp [hxeq])

end

theorem isAmp_of_isEq {c : UInt8} (h : isEq c = true) : isAmp c = false := by
  simp only [isEq, chars, List.map_cons, List.map_nil, List.mem_singleton,
    decide_eq_true_eq] at h
  rw [h]
  decide

theorem not_any_of_forall {p : UInt8 → Bool} {s : Str} (h : ¬s.any p = true) :
    ∀ x ∈ s, p x = false := by
  intro x hx
  cases hp : p x with
  | false => rfl
  | true => exact absurd (List.any_eq_true.mpr ⟨x, hx, hp⟩) h

theorem no_amp_of_parts {key value : Str} {e : UInt8} (hkey : ¬key.any isAmp = true)
    (he : isEq e = true) (hvalue : ∀ x ∈ value, isAmp x = false) :
    ∀ x ∈ key ++ e :: value, isAmp x = false := by
  intro x hx
  rcases List.mem_append.mp hx with hx | hx
  · exact not_any_of_forall hkey x hx
  · rcases List.mem_cons.mp hx with rfl | hx
    · exact isAmp_of_isEq he
    · exact hvalue x hx

/-- What the loop adds is the split, if the keys end before the pieces do; otherwise some key has
an `&` in it. -/
theorem parseLoop_adds (url : Str) (start : Nat) (q : UrlQuery) :
    ∃ pairs, parseLoop url start q = q.addAll pairs ∧
      (KeysEnded (url.drop start) → pairs = (pieces (url.drop start)).map splitPiece) ∧
      (¬KeysEnded (url.drop start) → ∃ kv ∈ pairs, kv.1.any isAmp = true) := by
  fun_induction parseLoop url start q with
  | case1 start q hEq =>
    -- no `=`: the rest is one key
    have hnoEq := findFirst_eq_none hEq
    refine ⟨[(url.drop start, [])], rfl, ?_⟩
    by_cases hamp : (url.drop start).any isAmp = true
    · have hnot : ¬KeysEnded (url.drop start ++ []) := not_keysEnded hamp hnoEq
      rw [List.append_nil] at hnot
      exact ⟨fun h => absurd h hnot, fun _ => ⟨_, List.mem_singleton_self _, hamp⟩⟩
    · have hno := not_any_of_forall hamp
      refine ⟨fun _ => ?_, fun hnot => absurd (keysEnded_of_no_amp hno) hnot⟩
      rw [pieces, List.splitOnP_eq_singleton hno, List.map_singleton, splitPiece_of_no_eq hnoEq]
  | case2 start q endEq hEq hAmp =>
    obtain ⟨key, e, value, hquery, hkey, he, rfl⟩ := findFirst_eq_some hEq
    -- no `&` behind the `=`: the last pair
    have hvalue := findFirst_eq_none hAmp
    rw [drop_succ_of_drop_eq hquery] at hvalue
    rw [Nat.add_sub_cancel_left, substr_of_drop_eq hquery, drop_succ_of_drop_eq hquery, hquery]
    refine ⟨[(key, value)], rfl, ?_⟩
    by_cases hamp : key.any isAmp = true
    · exact ⟨fun h => absurd h (not_keysEnded hamp hkey),
        fun _ => ⟨_, List.mem_singleton_self _, hamp⟩⟩
    · have hno := no_amp_of_parts hamp he hvalue
      refine ⟨fun _ => ?_, fun hnot => absurd (keysEnded_of_no_amp hno) hnot⟩
      rw [pieces, List.splitOnP_eq_singleton hno, List.map_singleton, splitPiece_append hkey he]
  | case3 start q endEq hEq endAmp hAmp ih =>
    obtain ⟨key, e, more, hquery, hkey, he, rfl⟩ := findFirst_eq_some hEq
    obtain ⟨value, a, rest, hmore, hvalue, ha, rfl⟩ := findFirst_eq_some hAmp
    rw [drop_succ_of_drop_eq hmore] at ih
    have hlen : start + key.length + 1 + value.length - (start + key.length) - 1 =
        value.length := by omega
    rw [Nat.add_sub_cancel_left, substr_of_drop_eq hquery, hlen, substr_of_drop_eq hmore] at ih ⊢
    rw [drop_succ_of_drop_eq hquery] at hmore
    rw [hquery, hmore]
    obtain ⟨pairs, hpairs, hended, hnot⟩ := ih
    refine ⟨(key, value) :: pairs, hpairs, ?_⟩
    by_cases hamp : key.any isAmp = true
    · exact ⟨fun h => absurd h (not_keysEnded hamp hkey),
        fun _ => ⟨_, List.mem_cons_self .., hamp⟩⟩
    · -- the first piece ends at this `&`, and has an `=`
      have hno := no_amp_of_parts hamp he hvalue
      have heq : (key ++ e :: value).any isEq = true :=
        List.any_eq_true.mpr ⟨e, List.mem_append_right _ (List.mem_cons_self ..), he⟩
      have hcut : key ++ e :: (value ++ a :: rest) = key ++ e :: value ++ a :: rest := by simp
      rw [hcut, keysEnded_append hno ha, and_iff_right heq, pieces,
        List.splitOnP_append_cons_of_forall_mem hno a ha, List.map_cons,
        splitPiece_append hkey he]
      refine ⟨fun h => congrArg _ (hended h), fun h => ?_⟩
      obtain ⟨kv, hkv, hkvamp⟩ := hnot h
      exact ⟨kv, List.mem_cons_of_mem _ hkv, hkvamp⟩

theorem findFirst_isQuestion (url : Str) :
    (findFirst isQuestion url 0).map (fun start => url.drop (start + 1)) = queryOf url := by
  unfold queryOf
  cases hfound : findFirst isQuestion url 0 with
  | none =>
    have hno := findFirst_eq_none hfound
    have hall : ∀ x ∈ url, (!isQuestion x) = true := fun x hx => by rw [hno x hx]; rfl
    have hnil : url.dropWhile (fun c => !isQuestion c) = [] := by
      have happend : (url ++ []).dropWhile (fun c => !isQuestion c) = [] := by
        rw [List.dropWhile_append_of_pos hall]
        rfl
      rwa [List.append_nil] at happend
    rw [hnil]
    rfl
  | some start =>
    obtain ⟨path, c, query, hurl, hpath, hc, rfl⟩ := findFirst_eq_some hfound
    have hquery := drop_succ_of_drop_eq hurl
    rw [List.drop_zero] at hurl
    have hall : ∀ x ∈ path, (!isQuestion x) = true := fun x hx => by rw [hpath x hx]; rfl
    have hcut : url.dropWhile (fun c => !isQuestion c) = c :: query := by
      rw [hurl, List.dropWhile_append_of_pos hall, List.dropWhile_cons_of_neg (by simp [hc])]
    rw [hcut, Option.map_some, hquery]

theorem parseUrlQueryStringInto_adds (url : Str) (q : UrlQuery) :
    ∃ pairs, parseUrlQueryStringInto url q = q.addAll pairs ∧
      ((∀ query ∈ queryOf url, KeysEnded query) → pairs = splitQuery url) ∧
      ((¬∀ query ∈ queryOf url, KeysEnded query) → ∃ kv ∈ pairs, kv.1.any isAmp = true) := by
  unfold parseUrlQueryStringInto splitQuery
  rw [← findFirst_isQuestion]
  cases findFirst isQuestion url 0 with
  | none => exact ⟨[], rfl, fun _ => rfl, fun h => absurd nofun h⟩
  | some start =>
    obtain ⟨pairs, hpairs, hended, hnot⟩ := parseLoop_adds url (start + 1) q
    simp only [Option.map_some, Option.mem_def, Option.some.injEq, forall_eq']
    exact ⟨pairs, hpairs, hended, hnot⟩

theorem splitQuery_no_amp {url : Str} {kv : Str × Str} (h : kv ∈ splitQuery url) :
    kv.1.any isAmp = false := by
  unfold splitQuery at h
  split at h
  · cases h
  · obtain ⟨piece, hpiece, rfl⟩ := List.mem_map.mp h
    exact splitPiece_no_amp hpiece

/-- Both overloads add the split of the query, and a key gives all its values in their order,
exactly when every piece of the query but the last one has an `=`. -/
theorem query_split_iff (url : Str) :
    ((∀ q, parseUrlQueryStringInto url q = q.addAll (splitQuery url)) ∧
        (∀ key, ((parseUrlQueryString url).get key).elems =
          UrlQuery.values key (splitQuery url)) ∧
        parseUrlQueryString url = parseUrlQueryStringInto url {}) ↔
      ∀ query ∈ queryOf url, KeysEnded query := by
  have hsame : parseUrlQueryString url = parseUrlQueryStringInto url {} := rfl
  constructor
  · rintro ⟨hsplit, -, -⟩
    by_contra hnot
    obtain ⟨pairs, hpairs, -, hrun⟩ := parseUrlQueryStringInto_adds url {}
    obtain ⟨kv, hkv, hamp⟩ := hrun hnot
    -- the key that has run over an `&` has a value, and no key of the split is like that
    have hvalues := congrArg (fun q : UrlQuery => (q.get kv.1).elems)
      (hpairs.symm.trans (hsplit {}))
    simp only [UrlQuery.elems_get_addAll, List.append_cancel_left_eq] at hvalues
    have hmem : kv.2 ∈ UrlQuery.values kv.1 pairs :=
      List.mem_map_of_mem (List.mem_filter.mpr ⟨hkv, decide_eq_true rfl⟩)
    rw [hvalues] at hmem
    obtain ⟨kv', hkv', -⟩ := List.mem_map.mp hmem
    obtain ⟨hin, hkey⟩ := List.mem_filter.mp hkv'
    have hno := splitQuery_no_amp hin
    rw [of_decide_eq_true hkey, hamp] at hno
    cases hno
  · intro hended
    have hsplit : ∀ q, parseUrlQueryStringInto url q = q.addAll (splitQuery url) := by
      intro q
      obtain ⟨pairs, hpairs, heq, -⟩ := parseUrlQueryStringInto_adds url q
      rw [hpairs, heq hended]
    refine ⟨hsplit, fun key => ?_, hsame⟩
    rw [hsame, hsplit, UrlQuery.elems_get_addAll]
    rfl

/-- `"?a&b=1"`. -/
def flagUrl : Str := chars ['?', 'a', '&', 'b', '=', '1']

/-- The first piece of `"?a&b=1"` has no `=`: the code adds the value 1 under the key `"a&b"`, and
nothing under the keys `"a"` and `"b"`. -/
theorem query_runs_together :
    splitQuery flagUrl = [(chars ['a'], []), (chars ['b'], chars ['1'])] ∧
      parseUrlQueryString flagUrl = UrlQuery.add {} (chars ['a', '&', 'b']) (chars ['1']) ∧
      ((parseUrlQueryString flagUrl).get (chars ['a'])).elems = [] ∧
      ¬∀ q, parseUrlQueryStringInto flagUrl q = q.addAll (splitQuery flagUrl) := by
  have hparse : parseUrlQueryString flagUrl =
      UrlQuery.add {} (chars ['a', '&', 'b']) (chars ['1']) := by
    unfold parseUrlQueryString parseLoop
    rfl
  have hnone : ((parseUrlQueryString flagUrl).get (chars ['a'])).elems = [] := by
    rw [hparse, UrlQuery.elems_get_add]
    decide
  refine ⟨by decide, hparse, hnone, fun hsplit => ?_⟩
  have helems := congrArg (fun q : UrlQuery => (q.get (chars ['a'])).elems) (hsplit {})
  simp only [UrlQuery.elems_get_addAll] at helems
  have hsome : (({} : UrlQuery).get (chars ['a'])).elems ++
      UrlQuery.values (chars ['a']) (splitQuery flagUrl) = [[]] := by decide
  rw [hsome] at helems
  exact absurd (hnone.symm.trans helems) nofun

end Url

end NodeCpp
