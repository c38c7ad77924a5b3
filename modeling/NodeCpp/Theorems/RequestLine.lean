import NodeCpp.Http.Request

/-!
# The request line

The form a request line is meant to have (`RequestLineForm`), the form of the lines `parseMethod`
takes (`TakenForm`), and the form of those on which it looks behind the end of the line
(`CutForm`). It differs from what is meant in three ways: the blank behind the method name is looked
for at the length of the name, even if there are blanks in front of the name; any character may then
follow the name; and everything up to the last character that is not a space is the version.

* `parseMethod_taken`, `parseMethod_cut` -- what the parser does with lines of these forms.
* `parseMethod_cases` -- every other line is refused.
* `request_line_iff` -- on which lines the parser does what is meant.
-/

namespace NodeCpp

open Lib Lib.Text

def Blanks (s : Str) : Prop := ∀ c ∈ s, isBlank c = true

instance (s : Str) : Decidable (Blanks s) := inferInstanceAs (Decidable (∀ c ∈ s, _ = _))

def NoSpace (s : Str) : Prop := ∀ c ∈ s, isSpace c = false

instance (s : Str) : Decidable (NoSpace s) := inferInstanceAs (Decidable (∀ c ∈ s, _ = _))

/-- A line of blanks, a method name, a space and blanks, a target, blanks, a version and blanks. -/
structure RequestLineForm (line name target version : Str) : Prop where
  parts : ∃ lead gap sep trail, Blanks lead ∧ Blanks gap ∧ Blanks sep ∧ sep ≠ [] ∧ Blanks trail ∧
    line = lead ++ name ++ 32 :: (gap ++ target ++ sep ++ httpSlash ++ version ++ trail ++ crlf)
  name_mem : name ∈ methodNames
  target_ne : target ≠ []
  target_ok : NoSpace target
  version_ok : NoSpace version

/-- A target as the parser takes it: its first character may be the end of a line. -/
def IsUri (target : Str) : Prop := ∃ u us, target = u :: us ∧ isBlank u = false ∧ NoSpace us

/-- A line that `parseMethod` takes. -/
structure TakenForm (line name target version : Str) : Prop where
  parts : ∃ lead c gap sep trail, Blanks lead ∧ Blanks gap ∧ Blanks sep ∧ sep ≠ [] ∧
    (∀ x ∈ trail, isSpace x = true) ∧
    line = lead ++ name ++ c :: (gap ++ target ++ sep ++ httpSlash ++ version ++ trail)
  name_mem : name ∈ methodNames
  blank_at : (line)[name.length]? = some 32
  target_uri : IsUri target
  version_last : ∀ x ∈ version.getLast?, isSpace x = false

/-- A line that ends before the version. -/
def CutForm (line : Str) : Prop :=
  ∃ lead name c gap target sep, Blanks lead ∧ name ∈ methodNames ∧ Blanks gap ∧
    (target = [] ∨ IsUri target) ∧ Blanks sep ∧ (line)[name.length]? = some 32 ∧
    line = lead ++ name ++ c :: (gap ++ target ++ sep)

namespace IncomingHttpMessageAtServer

/-- The parser does with a line what is meant: a request line is taken apart, if it has a version,
and what is no request line is refused. -/
def ParsesRequestLine (m : IncomingHttpMessageAtServer) (line : Str) : Prop :=
  (∀ name target version, RequestLineForm line name target version → version ≠ [] →
    m.parseMethod line = .ok ({ m with
      method := name
      url := target
      version := version
      readStatus := .inHdr }, true)) ∧
  ((¬∃ name target version, RequestLineForm line name target version) →
    ∃ m', m.parseMethod line = .ok (m', false))

section

variable {m : IncomingHttpMessageAtServer} {line lead name gap target sep version trail rest : Str}
  {c : UInt8}

theorem not_isBlank_false {p : UInt8 → Bool} {s : Str} (h : ∀ x ∈ s, p x = true) :
    ∀ x ∈ s, (fun x => !p x) x = false := fun x hx => by simp [h x hx]

theorem find_isMethod_at (hname : name ∈ methodNames) (hat : (line)[name.length]? = some 32)
    (hline : line = lead ++ (name ++ c :: rest)) :
    methodNames.find? (isMethod line lead.length) = some name := by
  have hdrop : line.drop lead.length = name ++ c :: rest := by rw [hline, List.drop_left]
  have hprefix : name <+: line.drop lead.length := by
    rw [hdrop]
    exact List.prefix_append ..
  have hlen : name.length + lead.length < line.length := by
    rw [hline]
    simp only [List.length_append, List.length_cons]
    omega
  have hown : isMethod line lead.length name = true := by
    rw [isMethod, hat, List.isPrefixOf_iff_prefix.mpr hprefix, decide_eq_true hlen]
    rfl
  obtain ⟨name', hname'⟩ := Option.isSome_iff_exists.mp
    (List.find?_isSome.mpr ⟨name, hname, hown⟩)
  have hmem := List.mem_of_find?_eq_some hname'
  have his := List.find?_some hname'
  simp only [isMethod, Bool.and_eq_true, List.isPrefixOf_iff_prefix] at his
  have heq : name' = name := by
    rcases List.prefix_or_prefix_of_prefix his.1.2 hprefix with hle | hle
    · exact methodNames_inj _ hmem _ hname hle
    · exact (methodNames_inj _ hname _ hmem hle).symm
  rw [hname', heq]

theorem parseMethod_named (hstatus : m.readStatus = .noinit) (hlead : Blanks lead)
    (hname : name ∈ methodNames) (hat : (line)[name.length]? = some 32)
    (hline : line = lead ++ (name ++ c :: rest)) :
    m.parseMethod line =
      match findFirst (fun c => !isBlank c) line (lead.length + (name.length + 1)) with
      | none => .error .error
      | some start => { m with method := name }.parseUri line start := by
  obtain ⟨hne, hok⟩ := methodNames_ok name hname
  obtain ⟨x, xs, hx⟩ := List.exists_cons_of_ne_nil hne
  have hxs := isSpace_eq_false.mp (hok x (by simp [hx]))
  have hdrop : line.drop 0 = lead ++ x :: (xs ++ c :: rest) := by
    rw [hline, hx]
    rfl
  have hfirst : findFirst (fun c => !isBlank c) line 0 = some lead.length := by
    rw [findFirst_of_drop_eq hdrop (not_isBlank_false hlead) (by simp [hxs.1]), Nat.zero_add]
  have hget : (line)[lead.length]? = some x := by
    rw [hline, hx]
    simp
  have hend : ¬(some x = some 13 ∨ some x = some (10 : UInt8)) := by simp [hxs.2]
  cases hnext : findFirst (fun c => !isBlank c) line (lead.length + (name.length + 1)) <;>
    simp only [parseMethod, hstatus, hfirst, hget, if_neg hend, find_isMethod_at hname hat hline,
      ne_eq, not_true_eq_false, if_false, hnext]

theorem parseUri_target {start : Nat} {u : UInt8} {us : Str}
    (hdrop : line.drop start = u :: us ++ c :: rest) (hus : NoSpace us) (hc : isSpace c = true) :
    m.parseUri line start =
      match findFirst (fun c => !isBlank c) line (start + (u :: us).length),
          findLast (fun c => !isSpace c) line with
      | some first, some last =>
        if !httpSlash.isPrefixOf (line.drop first) then .ok ({ m with url := u :: us }, false)
        else .ok ({ m with
          url := u :: us
          version := substr line (first + 5) (last + 1 - (first + 5))
          readStatus := .inHdr }, true)
      | _, _ => .error .error := by
  have hbehind : line.drop (start + 1) = us ++ c :: rest := by
    rw [← List.drop_drop, hdrop]
    rfl
  have hend : findFirst isSpace line (start + 1) = some (start + (u :: us).length) := by
    rw [findFirst_of_drop_eq hbehind hus hc, List.length_cons]
    congr 1
    omega
  have hurl : substr line start (start + (u :: us).length - start) = u :: us := by
    rw [Nat.add_sub_cancel_left]
    exact substr_of_drop_eq hdrop
  simp only [parseUri, hend, hurl]
  rfl

theorem parseMethod_cut (hstatus : m.readStatus = .noinit) (hcut : CutForm line) :
    m.parseMethod line = .error .error := by
  obtain ⟨lead, name, c, gap, target, sep, hlead, hname, hgap, htarget, hsep, hat, hline⟩ := hcut
  rw [List.append_assoc] at hline
  rw [parseMethod_named hstatus hlead hname hat hline]
  have hdrop : line.drop (lead.length + (name.length + 1)) = gap ++ target ++ sep := by
    rw [hline, ← List.drop_drop, List.drop_left, ← List.drop_drop, List.drop_left]
    rfl
  rcases htarget with rfl | ⟨u, us, rfl, hu, hus⟩
  · -- nothing but blanks behind the name
    rw [findFirst_of_forall]
    intro x hx
    rw [hdrop, List.append_nil] at hx
    rcases List.mem_append.mp hx with hx | hx
    · simp [hgap x hx]
    · simp [hsep x hx]
  · rw [List.append_assoc, List.cons_append] at hdrop
    rw [findFirst_of_drop_eq hdrop (not_isBlank_false hgap) (by simp [hu])]
    have huri := drop_of_drop_eq hdrop
    cases sep with
    | nil =>
      -- no blank behind the target
      rw [List.append_nil] at huri
      have hbehind : line.drop (lead.length + (name.length + 1) + gap.length + 1) = us := by
        rw [← List.drop_drop, huri]
        rfl
      have hnone : findFirst isSpace line (lead.length + (name.length + 1) + gap.length + 1) =
          none := by
        apply findFirst_of_forall
        rw [hbehind]
        exact hus
      simp only [parseUri, hnone]
    | cons x sep =>
      have hx := isSpace_of_isBlank (hsep x (List.mem_cons_self ..))
      have hnone : findFirst (fun c => !isBlank c) line
          (lead.length + (name.length + 1) + gap.length + (u :: us).length) = none := by
        apply findFirst_of_forall
        rw [← List.cons_append] at huri
        rw [drop_of_drop_eq huri]
        exact not_isBlank_false hsep
      show parseUri _ _ _ = _
      rw [parseUri_target huri hus hx, hnone]

/-- The version ends with the last character of the line that is not a space. -/
theorem findLast_versionEnd {front : Str} (hversion : ∀ x ∈ version.getLast?, isSpace x = false)
    (htrail : ∀ x ∈ trail, isSpace x = true) :
    findLast (fun c => !isSpace c) (front ++ (httpSlash ++ (version ++ trail))) =
      some (front.length + 4 + version.length) := by
  -- the last character of the version, or the slash
  obtain ⟨init, z, hlast⟩ := (List.eq_nil_or_concat (httpSlash ++ version)).resolve_left nofun
  rw [List.concat_eq_append] at hlast
  have hz : isSpace z = false := by
    have hget : (httpSlash ++ version).getLast? = some z := by
      rw [hlast]
      simp
    rw [List.getLast?_append] at hget
    cases hv : version.getLast? with
    | none =>
      rw [hv] at hget
      cases hget
      decide
    | some y =>
      rw [hv] at hget
      cases hget
      exact hversion z hv
  have hline : front ++ (httpSlash ++ (version ++ trail)) = (front ++ init) ++ z :: trail := by
    rw [← List.append_assoc httpSlash, hlast]
    simp
  have hlen : 5 + version.length = init.length + 1 := by
    have hlen := congrArg List.length hlast
    rwa [List.length_append, List.length_append] at hlen
  rw [hline, findLast_append (by simp [hz]) (not_isBlank_false htrail), List.length_append]
  congr 1
  omega

theorem parseMethod_taken (hstatus : m.readStatus = .noinit)
    (htaken : TakenForm line name target version) :
    m.parseMethod line = .ok ({ m with
      method := name
      url := target
      version := version
      readStatus := .inHdr }, true) := by
  obtain ⟨lead, c, gap, sep, trail, hlead, hgap, hsep, hne, htrail, hline⟩ := htaken.parts
  obtain ⟨u, us, rfl, hu, hus⟩ := htaken.target_uri
  obtain ⟨x, xs, hx⟩ := List.exists_cons_of_ne_nil hne
  have hnamed : line =
      lead ++ (name ++ c :: (gap ++ (u :: us ++ (sep ++ (httpSlash ++ (version ++ trail)))))) := by
    simpa only [List.append_assoc] using hline
  rw [parseMethod_named hstatus hlead htaken.name_mem htaken.blank_at hnamed]
  have hdrop : line.drop (lead.length + (name.length + 1)) =
      gap ++ u :: (us ++ (sep ++ (httpSlash ++ (version ++ trail)))) := by
    rw [hnamed, ← List.drop_drop, List.drop_left, ← List.drop_drop, List.drop_left]
    rfl
  rw [findFirst_of_drop_eq hdrop (not_isBlank_false hgap) (by simp [hu])]
  -- the places behind the gap, the target and the separator
  generalize hstart : lead.length + (name.length + 1) + gap.length = start
  have huri : line.drop start = u :: us ++ x :: (xs ++ (httpSlash ++ (version ++ trail))) := by
    rw [← hstart, drop_of_drop_eq hdrop, hx]
    rfl
  have hxspace := isSpace_of_isBlank (hsep x (by simp [hx]))
  have hbehind : line.drop (start + (u :: us).length) = sep ++
    (httpSlash ++ (version ++ trail)) := by
    rw [drop_of_drop_eq huri, hx]
    rfl
  have hfirst : findFirst (fun c => !isBlank c) line (start + (u :: us).length) =
      some (start + (u :: us).length + sep.length) :=
    findFirst_of_drop_eq hbehind (not_isBlank_false hsep) (by decide)
  have hhttp := drop_of_drop_eq hbehind
  generalize start + (u :: us).length + sep.length = place at hfirst hhttp
  have hversion : line.drop (place + 5) = version ++ trail := drop_of_drop_eq hhttp
  have hplace : place + 5 ≤ line.length := by
    have hlen := congrArg List.length hhttp
    have hfive : httpSlash.length = 5 := rfl
    rw [List.length_drop, List.length_append] at hlen
    omega
  have hlast : findLast (fun c => !isSpace c) line = some (place + 4 + version.length) := by
    have hfound := @findLast_versionEnd version trail (line.take place) htaken.version_last htrail
    rwa [← hhttp, List.take_append_drop, List.length_take, Nat.min_eq_left (by omega)] at hfound
  have hslash : httpSlash.isPrefixOf (line.drop place) = true := by
    rw [hhttp, List.isPrefixOf_iff_prefix]
    exact List.prefix_append ..
  show parseUri _ _ _ = _
  rw [parseUri_target huri hus hxspace, hfirst, hlast]
  simp only [hslash, Bool.not_true, Bool.false_eq_true, if_false]
  have hcount : place + 4 + version.length + 1 - (place + 5) = version.length := by omega
  rw [hcount, substr_of_drop_eq hversion]

theorem parseMethod_unnamed (hstatus : m.readStatus = .noinit)
    (hno : ∀ lead name c rest, Blanks lead → name ∈ methodNames → (line)[name.length]? = some 32 →
      line ≠ lead ++ (name ++ c :: rest)) : m.parseMethod line = .ok (m, false) := by
  have hnone : ∀ lead x rest, line.drop 0 = lead ++ x :: rest → Blanks lead →
      methodNames.find? (isMethod line lead.length) = none := by
    intro lead x rest hline hlead
    rw [List.find?_eq_none]
    intro name hname his
    simp only [isMethod, Bool.and_eq_true, decide_eq_true_eq, beq_iff_eq,
      List.isPrefixOf_iff_prefix] at his
    obtain ⟨⟨hlen, after, hafter⟩, hat⟩ := his
    rw [List.drop_zero] at hline
    rw [hline, List.drop_left] at hafter
    cases after with
    | nil =>
      have hshort := congrArg List.length hafter
      have hwhole := congrArg List.length hline
      simp only [List.length_append, List.length_cons, List.length_nil] at hshort hwhole
      omega
    | cons c after =>
      refine hno lead name c after hlead hname hat ?_
      rw [hline, hafter]
  simp only [parseMethod, hstatus, ne_eq, not_true_eq_false, if_false]
  cases hfirst : findFirst (fun c => !isBlank c) line 0 with
  | none => rfl
  | some start =>
    obtain ⟨lead, x, rest, hline, hlead, -, rfl⟩ := findFirst_eq_some hfirst
    have hblanks : Blanks lead := fun y hy => by simpa using hlead y hy
    simp only [Nat.zero_add, hnone lead x rest hline hblanks]
    split <;> rfl

theorem parseUri_refused {start : Nat} {u y : UInt8} {us : Str}
    (hdrop : line.drop start = u :: us ++ (sep ++ y :: rest)) (hus : NoSpace us)
    (hhead : ∀ x ∈ (sep ++ y :: rest).head?, isSpace x = true) (hsep : Blanks sep)
    (hy : isBlank y = false) (hhttp : httpSlash.isPrefixOf (y :: rest) = false)
    (hvisible : ∃ x ∈ line, isSpace x = false) :
    ∃ m', m.parseUri line start = .ok (m', false) := by
  obtain ⟨x, xs, hx⟩ := List.exists_cons_of_ne_nil
    (List.append_ne_nil_of_right_ne_nil sep (List.cons_ne_nil y rest))
  have hxspace : isSpace x = true := hhead x (by simp [hx])
  have hbehind := drop_of_drop_eq hdrop
  have hfirst := findFirst_of_drop_eq hbehind (p := fun c => !isBlank c)
    (not_isBlank_false hsep) (by simp [hy])
  have hplace := drop_of_drop_eq hbehind
  rw [hx] at hdrop
  rw [parseUri_target hdrop hus hxspace, hfirst]
  cases hlast : findLast (fun c => !isSpace c) line with
  | none =>
    obtain ⟨z, hz, hzspace⟩ := hvisible
    exact absurd (findLast_eq_none hlast z hz) (by simp [hzspace])
  | some last =>
    simp only [hplace, hhttp, Bool.not_false, if_true]
    exact ⟨_, rfl⟩

/-- Every line is taken, or is cut short, or is refused. -/
theorem parseMethod_cases (hstatus : m.readStatus = .noinit) (line : Str) :
    (∃ name target version, TakenForm line name target version) ∨ CutForm line ∨
      ∃ m', m.parseMethod line = .ok (m', false) := by
  by_cases hnamed : ∃ lead name c rest, Blanks lead ∧ name ∈ methodNames ∧
      (line)[name.length]? = some 32 ∧ line = lead ++ (name ++ c :: rest)
  · obtain ⟨lead, name, c, rest, hlead, hname, hat, hline⟩ := hnamed
    obtain ⟨gap, rest, rfl, hgap, rfl | ⟨u, rest, rfl, hu⟩⟩ := exists_span isBlank rest
    · -- only blanks behind the method
      refine .inr (.inl ⟨lead, name, c, gap, [], [], hlead, hname, hgap, .inl rfl,
        List.forall_mem_nil _, hat, ?_⟩)
      simpa using hline
    · obtain ⟨us, rest, rfl, hus, hrest⟩ := exists_span (fun c => !isSpace c) rest
      have hus : NoSpace us := fun x hx => by simpa using hus x hx
      have huri : IsUri (u :: us) := ⟨u, us, rfl, hu, hus⟩
      obtain ⟨sep, more, rfl, hsep, rfl | ⟨y, more, rfl, hy⟩⟩ := exists_span isBlank rest
      · -- a target, and only blanks behind it
        refine .inr (.inl ⟨lead, name, c, gap, u :: us, sep, hlead, hname, hgap, .inr huri, hsep,
          hat, ?_⟩)
        simpa using hline
      · have hhead : ∀ x ∈ (sep ++ y :: more).head?, isSpace x = true := by
          rintro x hx
          rcases hrest with hnil | ⟨a, r, hcons, ha⟩
          · simp at hnil
          · rw [hcons] at hx
            cases hx
            simpa using ha
        cases hhttp : httpSlash.isPrefixOf (y :: more) with
        | true =>
          obtain ⟨behind, hbehind⟩ := List.isPrefixOf_iff_prefix.mp hhttp
          refine .inl ⟨name, u :: us, behind.rdropWhile isSpace, ⟨lead, c, gap, sep,
            behind.rtakeWhile isSpace, hlead, hgap, hsep, ?_, fun x hx =>
            List.mem_rtakeWhile_imp hx, ?_⟩, hname, hat, huri, getLast?_rdropWhile⟩
          · -- the character behind the target is a space, and `H` is none
            rintro rfl
            have hspace := hhead y rfl
            have hH : y = 72 := by
              have h := congrArg List.head? hbehind
              exact (Option.some.inj h).symm
            rw [hH] at hspace
            exact absurd hspace (by decide)
          · rw [hline, ← hbehind]
            simp [List.append_assoc, List.rdropWhile_append_rtakeWhile]
        | false =>
          -- what follows the target is no `HTTP/`
          obtain ⟨x, hx⟩ := List.exists_mem_of_ne_nil _ (methodNames_ok name hname).1
          have hvisible : ∃ x ∈ line, isSpace x = false :=
            ⟨x, by rw [hline]; simp [hx], (methodNames_ok name hname).2 x hx⟩
          have hdrop : line.drop (lead.length + (name.length + 1)) =
              gap ++ u :: (us ++ (sep ++ y :: more)) := by
            rw [hline, ← List.drop_drop, List.drop_left, ← List.drop_drop, List.drop_left]
            rfl
          refine .inr (.inr ?_)
          rw [parseMethod_named hstatus hlead hname hat hline,
            findFirst_of_drop_eq hdrop (not_isBlank_false hgap) (by simp [hu])]
          exact parseUri_refused (drop_of_drop_eq hdrop) hus hhead hsep hy hhttp hvisible
  · -- no method name at the start
    push Not at hnamed
    exact .inr (.inr ⟨m, parseMethod_unnamed hstatus hnamed⟩)

/-- A request line whose blank is where the parser looks for it has the form the parser takes. -/
theorem RequestLineForm_taken (hform : RequestLineForm line name target version)
    (hat : (line)[name.length]? = some 32) : TakenForm line name target version := by
  obtain ⟨lead, gap, sep, trail, hlead, hgap, hsep, hne, htrail, hline⟩ := hform.parts
  obtain ⟨u, us, hu⟩ := List.exists_cons_of_ne_nil hform.target_ne
  refine ⟨⟨lead, 32, gap, sep, trail ++ crlf, hlead, hgap, hsep, hne, ?_, ?_⟩, hform.name_mem, hat,
    ⟨u, us, hu, ?_, ?_⟩, ?_⟩
  · intro x hx
    rcases List.mem_append.mp hx with hx | hx
    · exact isSpace_of_isBlank (htrail x hx)
    · exact isSpace_of_mem_crlf x hx
  · simpa only [List.append_assoc] using hline
  · exact (isSpace_eq_false.mp (hform.target_ok u (by simp [hu]))).1
  · exact fun x hx => hform.target_ok x (by simp [hu, hx])
  · exact fun x hx => hform.version_ok x (List.mem_of_mem_getLast? hx)

end

/-- The parser does with a line what is meant exactly when the line, if it is a request line with a
version, has a space at the length of its method name, and otherwise is neither taken nor cut
short. -/
theorem request_line_iff {m : IncomingHttpMessageAtServer} (hstatus : m.readStatus = .noinit)
    (line : Str) :
    m.ParsesRequestLine line ↔
      (∀ name target version, RequestLineForm line name target version → version ≠ [] →
        (line)[name.length]? = some 32) ∧
      ((¬∃ name target version, RequestLineForm line name target version) →
        (¬∃ name target version, TakenForm line name target version) ∧ ¬CutForm line) := by
  constructor
  · rintro ⟨htaken, hrefused⟩
    refine ⟨fun name target version hform hversion => ?_, fun hno => ?_⟩
    · have hparse := htaken name target version hform hversion
      rcases parseMethod_cases hstatus line with ⟨name', target', version', h⟩ | h | ⟨m', h⟩
      · rw [parseMethod_taken hstatus h] at hparse
        cases hparse
        exact h.blank_at
      · rw [parseMethod_cut hstatus h] at hparse
        cases hparse
      · rw [h] at hparse
        cases hparse
    · obtain ⟨m', hparse⟩ := hrefused hno
      refine ⟨?_, fun h => ?_⟩
      · rintro ⟨name, target, version, h⟩
        rw [parseMethod_taken hstatus h] at hparse
        cases hparse
      · rw [parseMethod_cut hstatus h] at hparse
        cases hparse
  · rintro ⟨hblank, hother⟩
    refine ⟨fun name target version hform hversion => ?_, fun hno => ?_⟩
    · exact parseMethod_taken hstatus
        (RequestLineForm_taken hform (hblank name target version hform hversion))
    · obtain ⟨hntaken, hncut⟩ := hother hno
      rcases parseMethod_cases hstatus line with h | h | h
      · exact absurd h hntaken
      · exact absurd h hncut
      · exact h

theorem RequestLineForm_blank_at {line name target version : Str}
    (hform : RequestLineForm line name target version)
    (hhead : ∀ x ∈ line.head?, isBlank x = false) :
    (line)[name.length]? = some 32 := by
  obtain ⟨lead, gap, sep, trail, hlead, -, -, -, -, hline⟩ := hform.parts
  cases lead with
  | nil => simp [hline]
  | cons x lead =>
    have hblank := hlead x (by simp)
    rw [hhead x (by simp [hline])] at hblank
    cases hblank

/-- `GET / HTTP/1\r\n`. -/
def getLine : Str := chars ['G', 'E', 'T', ' ', '/', ' ', 'H', 'T', 'T', 'P', '/', '1', '\r', '\n']

theorem getLine_form :
    RequestLineForm getLine (chars ['G', 'E', 'T']) (chars ['/']) (chars ['1']) where
  parts := ⟨[], [], [32], [], List.forall_mem_nil _, List.forall_mem_nil _, by decide +kernel,
    by decide, List.forall_mem_nil _, rfl⟩
  name_mem := by decide
  target_ne := by decide
  target_ok := by decide +kernel
  version_ok := by decide +kernel

theorem request_line_get : ParsesRequestLine {} getLine :=
  (request_line_iff rfl getLine).mpr
    ⟨fun _ _ _ hform _ => RequestLineForm_blank_at hform (by decide +kernel),
      fun hno => absurd ⟨_, _, _, getLine_form⟩ hno⟩

/-- One blank in front of the method name: the line has the form and is refused. -/
theorem leading_blank_refused :
    RequestLineForm (32 :: getLine) (chars ['G', 'E', 'T']) (chars ['/']) (chars ['1']) ∧
      parseMethod {} (32 :: getLine) = .ok ({}, false) ∧
      ¬ParsesRequestLine {} (32 :: getLine) := by
  have hform : RequestLineForm (32 :: getLine) (chars ['G', 'E', 'T']) (chars ['/'])
      (chars ['1']) :=
    { getLine_form with
      parts := ⟨[32], [], [32], [], by decide +kernel, List.forall_mem_nil _, by decide +kernel,
        by decide, List.forall_mem_nil _, rfl⟩ }
  have hrefused : parseMethod {} (32 :: getLine) = .ok ({}, false) := by decide +kernel
  refine ⟨hform, hrefused, fun hparses => ?_⟩
  have htaken := hparses.1 _ _ _ hform (by decide)
  rw [hrefused] at htaken
  cases htaken

end IncomingHttpMessageAtServer

end NodeCpp
