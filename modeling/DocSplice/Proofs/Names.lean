import DocSplice.Proofs.Meaning
import DocSplice.Proofs.Phrases

/-!
# DocSplice.Proofs.Names

A name is the same thing wherever it enters a run: as a directive of its own, in a definition and in
an assignment. Keywords are names like any other.

* `Assignment.parse_eq_ok_iff`: the assignments, and what they are read as.
* `Progress.Reflects.evaluation_name`: what a directive that is a predefined name does.
* `isName_agrees`: all readers take the same texts for names, and a name stands for the value that
  was assigned to it.
-/

namespace DocSplice

/-! ## Assignments -/

theorem Text.cut?_eq_some_iff {mark : Char} {t a b : Text} :
    cut? mark t = some (a, b) ↔ a ++ mark :: b = t ∧ mark ∉ a := by
  have hstop : ∀ {c : Char}, (c != mark) = false → c = mark := by
    intro c hc
    simpa using hc
  constructor
  · intro h
    rw [cut?] at h
    split at h
    · cases h
    · next c rest hdrop =>
      obtain ⟨rfl, rfl⟩ := Prod.mk.inj (Option.some.inj h)
      have hhead : (t.dropWhile (· != mark)).head? = some c := by rw [hdrop]; rfl
      obtain rfl := hstop (head_dropWhile (p := (· != mark)) hhead)
      refine ⟨?_, ?_⟩
      · rw [← hdrop, List.takeWhile_append_dropWhile]
      · intro hmem
        simpa using List.mem_takeWhile_imp hmem
  · rintro ⟨rfl, hmem⟩
    have hbefore : ∀ c ∈ a, (c != mark) = true := by
      rintro c hc
      rw [bne_iff_ne]
      rintro rfl
      exact hmem hc
    have hmark : ∀ c, (mark :: b).head? = some c → (c != mark) = false := by
      intro c hc
      obtain rfl : mark = c := Option.some.inj hc
      exact bne_self_eq_false mark
    rw [cut?, dropWhile_append_of_head hbefore hmark, takeWhile_append_of_head hbefore hmark]

theorem Assignment.parse_eq_ok_iff {argument n v : Text} :
    parse argument = .ok (n, v) ↔ n ++ '=' :: v = argument ∧ isName n = true := by
  constructor
  · intro h
    rw [parse] at h
    split at h
    · cases h
    · next name value hcut =>
      split at h
      · next hn =>
        cases h
        exact ⟨(Text.cut?_eq_some_iff.mp hcut).1, hn⟩
      · cases h
  · rintro ⟨htext, hn⟩
    have hcut := Text.cut?_eq_some_iff.mpr ⟨htext, not_mem_of_isName hn rfl⟩
    simp only [parse, hcut, hn, if_true]

/-! ## Names in directives -/

section

variable {n v : Text}

theorem Form.parseDereference?_self_iff :
    dereference.parse? n = some (.dereference n) ↔ isName n = true :=
  parseDereference?_eq_some_iff.trans (and_iff_left rfl)

theorem Form.parseDefinition?_around_iff :
    (∃ v, definition.parse? ("define ".toList ++ n ++ " x".toList) = some (.definition n v)) ↔
      isName n = true := by
  constructor
  · rintro ⟨v, hread⟩
    obtain ⟨gap, name, gap', value, hvalid, -, hd⟩ := exists_of_parseDefinition? hread
    obtain ⟨rfl, rfl⟩ := Directive.definition.inj hd
    exact hvalid.2.1
  · intro hn
    have hvalue : Text.Tight ['x'] := by
      intro c hc
      obtain rfl : 'x' = c := Option.some.inj hc
      rfl
    have htext : "define ".toList ++ n ++ " x".toList =
        (Phrase.definition [' '] n [' '] ['x']).text := by
      have hassoc : ∀ word : Text, word ++ [' '] ++ n ++ ([' '] ++ ['x']) =
          word ++ ([' '] ++ (n ++ ([' '] ++ ['x']))) := by
        intro word
        simp
      exact hassoc "define".toList
    have hvalid : (Phrase.definition [' '] n [' '] ['x']).Valid :=
      ⟨Text.separates_space, hn, Text.separates_space, hvalue, List.cons_ne_nil _ _⟩
    have hread := parse?_text hvalid
    rw [← htext] at hread
    exact ⟨['x'], hread⟩

theorem Directive.ofText?_of_isName (hn : isName n = true) : ofText? n = some (.dereference n) :=
  ofText?_eq_some_iff.mpr ⟨.dereference n, hn, rfl, rfl⟩

theorem Form.ofText?_of_isName (hn : isName n = true) : ofText? n = some .dereference := by
  rw [ofText?_eq_some_iff, parseDereference?_self_iff.mpr hn]
  rfl

/-- A name may have blanks around it. -/
theorem trim_of_isName (hn : isName n = true) : Text.trim (' ' :: (n ++ [' '])) = n := by
  have hchars : ∀ c ∈ n, isBlank c = false := by
    intro c hc
    exact isBlank_of_isNameChar (isNameChar_of_mem hn hc)
  exact Text.trim_spaced (ne_nil_of_isName hn) (fun c hc => hchars c (List.mem_of_head? hc))
    (fun c hc => hchars c (List.mem_of_getLast? hc))

/-! ## Names in a run -/

variable {source : IncludeSource} {predefined : List (Text × Text)} {before after : List Segment}
  {spans : List Span} {s : Span} {p : Progress} {t body r : Text} {rs : List Text}

/-- Where no definition of a name was read, it stands for its predefined value. -/
theorem Span.valueBehind?_of_not_mem (h : n ∉ (spans.filterMap definition?).map Prod.fst) :
    valueBehind? predefined spans n = lastValue? predefined n := by
  have hnone : lastValue? (spans.filterMap definition?) n = none := by
    rw [← Option.not_isSome_iff_eq_none, lastValue?_isSome_iff]
    exact h
  rw [valueBehind?, hnone, Option.none_or]

theorem Span.Yields.eq_value (h : s.Yields source predefined spans r)
    (hd : Directive.ofText? s.inner = some (.dereference n))
    (hv : valueBehind? predefined spans n = some v) : r = v := by
  cases h with
  | inclusion hd' _ =>
    rw [hd] at hd'
    cases hd'
  | definition hd' =>
    rw [hd] at hd'
    cases hd'
  | dereference hd' hv' =>
    rw [hd] at hd'
    cases hd'
    rw [hv] at hv'
    exact (Option.some.inj hv').symm

theorem Progress.Reflects.evaluation_name (h : p.Reflects source predefined before)
    (hn : isName n = true) (hbody : body.trim = n)
    (hv : Span.valueBehind? predefined (Span.collect 0 before) n = some v) :
    p.evaluation source body = ⟨p.bindings, [.evaluating .dereference p.position.line], .ok v⟩ := by
  rw [← h.value n] at hv
  simp only [evaluation, hbody, Directive.ofText?_of_isName hn, Evaluation.of, Directive.evaluate,
    Directive.form, hv]

theorem Replaces.getElem?_name (h : Replaces source predefined t.spans rs)
    (hsegments : t.segments = before ++ .directive body :: after)
    (hd : Directive.ofText? body.trim = some (.dereference n))
    (hv : Span.valueBehind? predefined (Span.collect 0 before) n = some v) :
    rs[(Span.collect 0 before).length]? = some v := by
  have hspans := Span.spans_of_segments hsegments
  have hspan : t.spans[(Span.collect 0 before).length]? =
      some (.ofBody (Segment.flatten before).byteSize body) := by
    simp [hspans]
  have htake : t.spans.take (Span.collect 0 before).length = Span.collect 0 before := by
    rw [hspans, List.take_left' rfl]
  obtain ⟨r, hr, hyields⟩ := h.2 _ _ hspan
  rw [htake] at hyields
  rw [hr, hyields.eq_value hd hv]

theorem Run.exists_replacements {out : Output}
    (h : (Run.ofText source predefined t).result = .ok out) :
    ∃ rs, Replaces source predefined t.spans rs ∧
      out.text = Marker.unescape (weave t.gaps rs) := by
  obtain ⟨p, hp, rfl⟩ := Run.exists_of_result_eq_ok h
  obtain ⟨rs, hrs, hwritten⟩ := (Progress.reflects_of_steps hp).written
  exact ⟨rs, hrs, by rw [weave_gaps t rs hrs.1, hwritten]⟩

end

/-- **Names are the same wherever they are read.** A text is a name just if it reads as a directive
of its own, if a definition takes it for the name it binds, and if an assignment does, whatever the
value. An argument is an assignment just if what stands before its first equals sign is a name, and
its two parts are all of it. A directive whose body is the name of an assignment, in blanks or not,
is a dereference even if the name is a keyword; where the variable was predefined by the assignment
and not defined since, each run that comes to the directive puts the value in its place. -/
theorem isName_agrees :
    (∀ s : Text,
      (isName s = true ↔ Form.dereference.parse? s = some (.dereference s)) ∧
      (isName s = true ↔ ∃ v,
        Form.definition.parse? ("define ".toList ++ s ++ " x".toList) = some (.definition s v)) ∧
      ∀ v, isName s = true ↔ Assignment.parse (s ++ '=' :: v) = .ok (s, v)) ∧
    (∀ argument : Text,
      ((∃ pair, Assignment.parse argument = .ok pair) ↔
        ∃ n v, n ++ '=' :: v = argument ∧ '=' ∉ n ∧ isName n = true) ∧
      ∀ n v, Assignment.parse argument = .ok (n, v) → n ++ '=' :: v = argument) ∧
    ∀ argument n v, Assignment.parse argument = .ok (n, v) →
      Text.trim (' ' :: (n ++ [' '])) = n ∧
      ∀ (source : IncludeSource) (predefined : List (Text × Text)) (t : Text)
        (before : List Segment) (body : Text) (after : List Segment),
        t.segments = before ++ .directive body :: after → body.trim = n →
        lastValue? predefined n = some v →
        n ∉ ((Span.collect 0 before).filterMap Span.definition?).map Prod.fst →
        Form.ofText? body.trim = some .dereference ∧
        (∀ p, (Progress.seeded predefined).steps source before = .ok p →
          p.evaluation source body =
            ⟨p.bindings, [.evaluating .dereference p.position.line], .ok v⟩ ∧
          p.step source (.directive body) = .ok (p.replaced source body v)) ∧
        ∀ out, (Run.ofText source predefined t).result = .ok out →
          ∃ replacements, Replaces source predefined t.spans replacements ∧
            replacements[(Span.collect 0 before).length]? = some v ∧
            out.text = Marker.unescape (weave t.gaps replacements) := by
  refine ⟨?_, ?_, ?_⟩
  · intro s
    refine ⟨Form.parseDereference?_self_iff.symm, Form.parseDefinition?_around_iff.symm, ?_⟩
    intro v
    rw [Assignment.parse_eq_ok_iff]
    exact ⟨fun hn => ⟨rfl, hn⟩, fun h => h.2⟩
  · intro argument
    refine ⟨⟨?_, ?_⟩, fun n v h => (Assignment.parse_eq_ok_iff.mp h).1⟩
    · rintro ⟨⟨n, v⟩, h⟩
      obtain ⟨htext, hn⟩ := Assignment.parse_eq_ok_iff.mp h
      exact ⟨n, v, htext, not_mem_of_isName hn rfl, hn⟩
    · rintro ⟨n, v, htext, -, hn⟩
      exact ⟨(n, v), Assignment.parse_eq_ok_iff.mpr ⟨htext, hn⟩⟩
  · intro argument n v hargument
    have hn := (Assignment.parse_eq_ok_iff.mp hargument).2
    refine ⟨trim_of_isName hn, ?_⟩
    intro source predefined t before body after hsegments hbody hvalue hfresh
    have hbehind := (Span.valueBehind?_of_not_mem hfresh).trans hvalue
    refine ⟨by rw [hbody]; exact Form.ofText?_of_isName hn, ?_, ?_⟩
    · intro p hp
      have heval := (Progress.reflects_of_steps hp).evaluation_name hn hbody hbehind
      exact ⟨heval, Progress.step_directive_of_ok (by rw [heval])⟩
    · intro out hout
      obtain ⟨rs, hrs, htext⟩ := Run.exists_replacements hout
      have hd : Directive.ofText? body.trim = some (.dereference n) := by
        rw [hbody]
        exact Directive.ofText?_of_isName hn
      exact ⟨rs, hrs, hrs.getElem?_name hsegments hd hbehind, htext⟩

end DocSplice
