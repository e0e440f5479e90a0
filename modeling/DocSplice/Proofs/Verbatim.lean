import DocSplice.Proofs.Meaning
import DocSplice.Proofs.Unescape

/-!
# DocSplice.Proofs.Verbatim

What becomes of included files. The escape pass runs over all of the evaluated text, so it also
takes backslashes out of files, and it finds markers that begin in a file and end behind it. Files
are copied character for character just if no escaped marker has a part in a file.

* `textsAround`, `Span.contents?`: the evaluated text as files and the texts around them.
* `EscapesAround`: every escaped marker of the evaluated text lies in a text around the files.
* `ofText_splices`: when a run copies files as they are. `ofText_unescapes_file`: it may not.
-/

namespace DocSplice

open Marker

/-! ## Files and the texts around them -/

/-- The contents of the file that a span includes, if it includes one. -/
def Span.contents? (source : IncludeSource) (s : Span) : Option Text :=
  match Directive.ofText? s.inner with
  | some (.inclusion path) =>
    match source.read (source.resolve path) with
    | .present contents => some contents
    | _ => none
  | _ => none

/-- The texts before, between and behind the included files: gaps of the document, joined where a
span includes no file by its replacement. -/
def textsAround (source : IncludeSource) : List Span → List Text → List Text → List Text
  | s :: spans, gap :: gaps, r :: rs =>
    match s.contents? source with
    | some _ => gap :: textsAround source spans gaps rs
    | none => (textsAround source spans gaps rs).modifyHead (gap ++ r ++ ·)
  | _, gaps, _ => gaps

/-- Behind `before`, an escaped marker stands in one of the texts around the files. -/
def HoldsEscape (around files : List Text) (before : Text) : Prop :=
  ∃ k e x y, around[k]? = some e ∧ before = weave (around.take k) (files.take k) ++ x ∧
    e = x ++ escapeChar :: y ∧ begins y = true

/-- Every escaped marker of the woven text lies in one of the texts around the files. -/
def EscapesAround (around files : List Text) : Prop :=
  ∀ before rest, weave around files = before ++ escapeChar :: rest → begins rest = true →
    HoldsEscape around files before

theorem weave_cons (e c : Text) (es cs : List Text) :
    weave (e :: es) (c :: cs) = e ++ (c ++ weave es cs) := by
  rw [weave, List.append_assoc]

@[simp] theorem weave_singleton (e : Text) : weave [e] [] = e := by
  simp [weave]

theorem append_eq_append_cons {a b before rest : Text} {d : Char}
    (h : a ++ b = before ++ d :: rest) :
    (∃ y, a = before ++ d :: y ∧ rest = y ++ b) ∨
      ∃ m, before = a ++ m ∧ b = m ++ d :: rest := by
  rcases List.append_eq_append_iff.mp h with ⟨m, hb, hm⟩ | ⟨m, ha, hm⟩
  · exact .inr ⟨m, hb, hm⟩
  · cases m with
    | nil => exact .inr ⟨[], by simpa using ha.symm, by simpa using hm.symm⟩
    | cons d' m =>
      obtain ⟨rfl, hrest⟩ := List.cons.inj hm
      exact .inl ⟨m, ha, hrest⟩

theorem escapesAround_singleton (e : Text) : EscapesAround [e] [] := by
  intro before rest h hrest
  rw [weave_singleton] at h
  exact ⟨0, e, before, rest, rfl, rfl, h, hrest⟩

section

variable {e c : Text} {es cs : List Text}

theorem holdsEscape_cons {before : Text} :
    HoldsEscape (e :: es) (c :: cs) before ↔
      (∃ y, e = before ++ escapeChar :: y ∧ begins y = true) ∨
        ∃ m, before = e ++ (c ++ m) ∧ HoldsEscape es cs m := by
  constructor
  · rintro ⟨k, e', x, y, he', hbefore, hsplit, hy⟩
    cases k with
    | zero =>
      obtain rfl : e = e' := by simpa using he'
      obtain rfl : before = x := hbefore
      exact .inl ⟨y, hsplit, hy⟩
    | succ k =>
      rw [List.take_succ_cons, List.take_succ_cons, weave_cons, List.append_assoc,
        List.append_assoc] at hbefore
      exact .inr ⟨_, hbefore, k, e', x, y, he', rfl, hsplit, hy⟩
  · rintro (⟨y, hsplit, hy⟩ | ⟨m, rfl, k, e', x, y, he', rfl, hsplit, hy⟩)
    · exact ⟨0, e, before, y, rfl, rfl, hsplit, hy⟩
    · refine ⟨k + 1, e', x, y, he', ?_, hsplit, hy⟩
      rw [List.take_succ_cons, List.take_succ_cons, weave_cons, List.append_assoc,
        List.append_assoc]

theorem escapesAround_cons :
    EscapesAround (e :: es) (c :: cs) ↔
      (∀ x y, e = x ++ escapeChar :: y → begins (y ++ (c ++ weave es cs)) = true →
        begins y = true) ∧
      (∀ x y, c = x ++ escapeChar :: y → ¬ begins (y ++ weave es cs) = true) ∧
      EscapesAround es cs := by
  constructor
  · intro h
    refine ⟨?_, ?_, ?_⟩
    · intro x y hxy hy
      rcases holdsEscape_cons.mp (h x _ (by simp [weave_cons, hxy]) hy) with
        ⟨y', hsplit, hy'⟩ | ⟨m, rfl, -⟩
      · obtain rfl : y = y' := (List.cons.inj (List.append_cancel_left (hxy.symm.trans hsplit))).2
        exact hy'
      · have hlen := congrArg List.length hxy
        simp only [List.length_append, List.length_cons] at hlen
        omega
    · intro x y hxy hy
      rcases holdsEscape_cons.mp (h (e ++ x) _ (by simp [weave_cons, hxy]) hy) with
        ⟨y', hsplit, -⟩ | ⟨m, hm, -⟩
      · have hlen := congrArg List.length hsplit
        simp only [List.length_append, List.length_cons] at hlen
        omega
      · have hlen := congrArg List.length (List.append_cancel_left hm)
        have hle := congrArg List.length hxy
        simp only [List.length_append, List.length_cons] at hlen hle
        omega
    · intro before rest hrest hbegins
      rcases holdsEscape_cons.mp (h (e ++ (c ++ before)) rest (by simp [weave_cons, hrest]) hbegins)
        with ⟨y, hsplit, -⟩ | ⟨m, hm, hholds⟩
      · have hlen := congrArg List.length hsplit
        simp only [List.length_append, List.length_cons] at hlen
        omega
      · obtain rfl : before = m := List.append_cancel_left (List.append_cancel_left hm)
        exact hholds
  · rintro ⟨hhead, hfile, htail⟩ before rest h hrest
    rw [weave_cons] at h
    rw [holdsEscape_cons]
    rcases append_eq_append_cons h with ⟨y, he, rfl⟩ | ⟨m, rfl, hbehind⟩
    · exact .inl ⟨y, he, hhead before y he hrest⟩
    rcases append_eq_append_cons hbehind with ⟨y, hc, rfl⟩ | ⟨m', rfl, hwoven⟩
    · exact absurd hrest (hfile m y hc)
    · exact .inr ⟨m', rfl, htail m' rest hwoven hrest⟩

end

/-! ## When files are copied as they are -/

theorem append_eq_append_iff_of_sublist {a a' b b' : Text} (ha : a.Sublist a')
    (hb : b.Sublist b') : a ++ b = a' ++ b' ↔ a = a' ∧ b = b' := by
  constructor
  · intro h
    have hlen := congrArg List.length h
    have hlea := ha.length_le
    have hleb := hb.length_le
    simp only [List.length_append] at hlen
    exact ⟨ha.eq_of_length (by omega), hb.eq_of_length (by omega)⟩
  · rintro ⟨rfl, rfl⟩
    rfl

theorem unescape_weave_cons (e c : Text) (es cs : List Text) :
    unescape (weave (e :: es) (c :: cs)) =
      unescapeBefore (c ++ weave es cs) e ++
        (unescapeBefore (weave es cs) c ++ unescape (weave es cs)) := by
  rw [weave_cons, unescape_append, unescape_append]

/-- The escape pass takes out what it takes out of the texts around the files, and maybe more. -/
theorem unescape_weave_sublist : ∀ (files around : List Text), around.length = files.length + 1 →
    (unescape (weave around files)).Sublist (weave (around.map unescape) files) := by
  intro files
  induction files with
  | nil =>
    intro around hlen
    obtain ⟨e, rfl⟩ := List.length_eq_one_iff.mp hlen
    simp
  | cons c cs ih =>
    intro around hlen
    cases around with
    | nil => simp at hlen
    | cons e es =>
      have hrest := ih es (by simpa using hlen)
      rw [unescape_weave_cons, List.map_cons, weave_cons]
      exact (unescapeBefore_sublist_unescape _ e).append
        ((unescapeBefore_sublist_self _ c).append hrest)

theorem unescape_weave_eq_iff : ∀ (files around : List Text), around.length = files.length + 1 →
    (unescape (weave around files) = weave (around.map unescape) files ↔
      EscapesAround around files) := by
  intro files
  induction files with
  | nil =>
    intro around hlen
    obtain ⟨e, rfl⟩ := List.length_eq_one_iff.mp hlen
    simpa using escapesAround_singleton e
  | cons c cs ih =>
    intro around hlen
    cases around with
    | nil => simp at hlen
    | cons e es =>
      have hlen' : es.length = cs.length + 1 := by simpa using hlen
      have hhead := unescapeBefore_sublist_unescape (c ++ weave es cs) e
      have hfile := unescapeBefore_sublist_self (weave es cs) c
      have hrest := unescape_weave_sublist cs es hlen'
      -- no part makes up for what another one loses, so the parts agree one by one
      rw [unescape_weave_cons, List.map_cons, weave_cons,
        append_eq_append_iff_of_sublist hhead (hfile.append hrest),
        append_eq_append_iff_of_sublist hfile hrest, ih es hlen', escapesAround_cons,
        unescapeBefore_eq_unescape_iff, unescapeBefore_eq_self_iff]

/-! ## Runs -/

theorem Text.length_gapsFrom (t : Text) (offset : Nat) (spans : List Span) :
    (t.gapsFrom offset spans).length = spans.length + 1 := by
  induction spans generalizing offset with
  | nil => rfl
  | cons s spans ih => rw [gapsFrom, List.length_cons, ih, List.length_cons]

section

variable {source : IncludeSource} {predefined : List (Text × Text)}

variable (source) in
theorem length_textsAround : ∀ (spans : List Span) (gaps rs : List Text),
    gaps.length = spans.length + 1 → rs.length = spans.length →
    (textsAround source spans gaps rs).length =
      (spans.filterMap (Span.contents? source)).length + 1 := by
  intro spans
  induction spans with
  | nil =>
    intro gaps rs hgaps _
    simpa [textsAround] using hgaps
  | cons s spans ih =>
    intro gaps rs hgaps hrs
    cases gaps with
    | nil => simp at hgaps
    | cons gap gaps =>
      cases rs with
      | nil => simp at hrs
      | cons r rs =>
        have hrest := ih gaps rs (by simpa using hgaps) (by simpa using hrs)
        cases hs : s.contents? source with
        | some contents => simp [textsAround, hs, hrest]
        | none => simp [textsAround, hs, hrest]

variable (source) in
/-- Cutting the evaluated text at the files loses nothing. -/
theorem weave_textsAround : ∀ (spans : List Span) (gaps rs : List Text),
    gaps.length = spans.length + 1 → rs.length = spans.length →
    (∀ (k : Nat) (s : Span) (contents : Text), spans[k]? = some s →
      s.contents? source = some contents → rs[k]? = some contents) →
    weave (textsAround source spans gaps rs) (spans.filterMap (Span.contents? source)) =
      weave gaps rs := by
  intro spans
  induction spans with
  | nil =>
    intro gaps rs _ hrs _
    obtain rfl := List.length_eq_zero_iff.mp hrs
    rfl
  | cons s spans ih =>
    intro gaps rs hgaps hrs hfiles
    cases gaps with
    | nil => simp at hgaps
    | cons gap gaps =>
      cases rs with
      | nil => simp at hrs
      | cons r rs =>
        have hgaps' : gaps.length = spans.length + 1 := by simpa using hgaps
        have hrs' : rs.length = spans.length := by simpa using hrs
        have hrest := ih gaps rs hgaps' hrs' fun k => hfiles (k + 1)
        cases hs : s.contents? source with
        | some contents =>
          obtain rfl : r = contents := by simpa using hfiles 0 s contents rfl hs
          simp only [textsAround, hs, List.filterMap_cons, weave, hrest]
        | none =>
          have hne : textsAround source spans gaps rs ≠ [] := by
            apply List.ne_nil_of_length_pos
            rw [length_textsAround source spans gaps rs hgaps' hrs']
            exact Nat.succ_pos _
          simp only [textsAround, hs, List.filterMap_cons, weave_modifyHead _ hne, hrest, weave]

theorem Span.Yields.eq_contents {earlier : List Span} {s : Span} {r contents : Text}
    (h : s.Yields source predefined earlier r) (hs : s.contents? source = some contents) :
    r = contents := by
  rw [contents?] at hs
  cases h with
  | inclusion hd hread =>
    rw [hd] at hs
    simp only [hread] at hs
    exact Option.some.inj hs
  | definition hd =>
    rw [hd] at hs
    cases hs
  | dereference hd _ =>
    rw [hd] at hs
    cases hs

end

/-- **When included files are copied as they are.** The evaluated text of a run consists of the
included files, in order, and the texts around them. The run writes the files as they are, with only
the texts around them unescaped, just if every escaped marker of the evaluated text lies in one of
these texts. In any case the escape pass runs over all of the evaluated text. -/
theorem ofText_splices {source : IncludeSource} {predefined : List (Text × Text)} {t : Text}
    {out : Output} (h : (Run.ofText source predefined t).result = .ok out) :
    ∃ replacements, Replaces source predefined t.spans replacements ∧
      let around := textsAround source t.spans t.gaps replacements
      let files := t.spans.filterMap (Span.contents? source)
      around.length = files.length + 1 ∧ weave around files = weave t.gaps replacements ∧
        out.text = unescape (weave around files) ∧
        (out.text = weave (around.map unescape) files ↔ EscapesAround around files) := by
  cases hrun : (Progress.seeded predefined).steps source t.segments with
  | error halt =>
    rw [Run.result_of_error hrun] at h
    cases h
  | ok p =>
    obtain rfl := Except.ok.inj ((Run.result_of_ok hrun).symm.trans h)
    obtain ⟨rs, hrs, hwritten⟩ := (Progress.reflects_of_steps hrun).written
    rw [← Span.spans_eq_collect] at hrs
    have hgaps := t.length_gapsFrom 0 t.spans
    have hfiles : ∀ (k : Nat) (s : Span) (contents : Text), t.spans[k]? = some s →
        s.contents? source = some contents → rs[k]? = some contents := by
      intro k s contents hs hcontents
      obtain ⟨r, hr, hyields⟩ := hrs.2 k s hs
      rw [hr, hyields.eq_contents hcontents]
    have hlen := length_textsAround source t.spans t.gaps rs hgaps hrs.1
    have hweave := weave_textsAround source t.spans t.gaps rs hgaps hrs.1 hfiles
    refine ⟨rs, hrs, hlen, hweave, ?_, ?_⟩
    · rw [hweave, weave_gaps t rs hrs.1, hwritten]
    · rw [← unescape_weave_eq_iff _ _ hlen, hweave, weave_gaps t rs hrs.1, hwritten]

/-- The marker behind the file makes the backslash at its end an escape. -/
theorem ofText_splices_across :
    let source := (Shelf.add { base := ⟨[]⟩ } ['f'] ['a', '\\']).source
    let t : Text := "{% include f %}".toList ++ closing
    ∃ out, (Run.ofText source [] t).result = .ok out ∧ out.text = ['a', '%', '}'] ∧
      ∃ replacements, Replaces source [] t.spans replacements ∧
        let around := textsAround source t.spans t.gaps replacements
        let files := t.spans.filterMap (Span.contents? source)
        around.length = files.length + 1 ∧ weave around files = weave t.gaps replacements ∧
          out.text = unescape (weave around files) ∧
          (out.text = weave (around.map unescape) files ↔ EscapesAround around files) := by
  intro source t
  have hrun : (Run.ofText source [] t).result = .ok ⟨['a', '%', '}'], .none, 1⟩ := by rfl
  exact ⟨_, hrun, rfl, ofText_splices hrun⟩

/-- A file that holds an escaped marker is not copied as it is. -/
theorem ofText_unescapes_file :
    let source := (Shelf.add { base := ⟨[]⟩ } ['f'] ['\\', '{', '%']).source
    let t : Text := "{% include f %}".toList
    ∃ out, (Run.ofText source [] t).result = .ok out ∧
      ∀ replacements, Replaces source [] t.spans replacements →
        out.text ≠ weave ((textsAround source t.spans t.gaps replacements).map unescape)
          (t.spans.filterMap (Span.contents? source)) := by
  intro source t
  refine ⟨⟨['{', '%'], .none, 1⟩, by rfl, ?_⟩
  intro replacements hreplaces
  obtain ⟨r, rfl⟩ := List.length_eq_one_iff.mp hreplaces.1
  have haround : textsAround source t.spans t.gaps [r] = [[], []] := by rfl
  have hfiles : t.spans.filterMap (Span.contents? source) = [['\\', '{', '%']] := by rfl
  rw [haround, hfiles]
  decide

end DocSplice
