import DocSplice.Proofs.Meaning

/-!
# DocSplice.Proofs.Inert

Replacements are data. What a variable stands for and what an included file holds end up in the
written text and nowhere else: they do not decide which directives there are, whether a run fails,
or what a definition of the document binds.

* `IncludeSource.SameClass`: two sources that differ in the contents of files only.
* `Progress.Alike`: the invariant of two runs over one document.
* `ofText_alike`: such runs fail alike, or succeed with the same directives and the same names.
-/

namespace DocSplice

/-- Two answers of one class: contents of any kind, no file, or the same reason. -/
def Reading.SameClass : Reading → Reading → Prop
  | .present _, .present _ => True
  | .absent, .absent => True
  | .failed reason, .failed reason' => reason = reason'
  | _, _ => False

/-- Two sources that resolve alike and differ in the contents of files only. -/
structure IncludeSource.SameClass (source source' : IncludeSource) : Prop where
  resolve : source.resolve = source'.resolve
  read : ∀ path, (source.read path).SameClass (source'.read path)

theorem Shelf.sameClass_add (s : Shelf) (path contents contents' : Text) :
    (s.add path contents).source.SameClass (s.add path contents').source := by
  refine ⟨rfl, ?_⟩
  intro p
  simp only [source, find?, add, List.find?_cons]
  cases (s.base.join ⟨path⟩).same p with
  | true => trivial
  | false =>
    cases s.documents.find? fun entry => entry.1.same p with
    | none => trivial
    | some _ => trivial

theorem Bindings.binds_define (b : Bindings) (n v name : Text) :
    (b.define n v).binds name = (decide (n = name) || b.binds name) := by
  rw [binds_eq_isSome, binds_eq_isSome, value?_define]
  by_cases h : n = name <;> simp [h]

namespace Progress

/-- Two states of runs over the same segments. The variables may have other values. -/
structure Alike (p q : Progress) : Prop where
  position : p.position = q.position
  directives : p.directives = q.directives
  binds : ∀ name, p.bindings.binds name = q.bindings.binds name

theorem Alike.isSome_value? {p q : Progress} (h : Alike p q) (name : Text) :
    (p.bindings.value? name).isSome = (q.bindings.value? name).isSome := by
  rw [← Bindings.binds_eq_isSome, ← Bindings.binds_eq_isSome, h.binds]

section

variable {source source' : IncludeSource} {p q : Progress}

theorem evaluation_result_alike (hs : source.SameClass source') (h : Alike p q) (body : Text) :
    (∃ r r', (p.evaluation source body).result = .ok r ∧
      (q.evaluation source' body).result = .ok r') ∨
    ∃ f, (p.evaluation source body).result = .error f ∧
      (q.evaluation source' body).result = .error f := by
  simp only [evaluation, h.position]
  cases Directive.ofText? body.trim with
  | none => exact .inr ⟨_, rfl, rfl⟩
  | some d =>
    cases d with
    | inclusion path =>
      have hread := hs.read (source.resolve path)
      simp only [Evaluation.of, Directive.evaluate, ← hs.resolve]
      cases hr : source.read (source.resolve path) <;>
        cases hr' : source'.read (source.resolve path) <;> rw [hr, hr'] at hread
      case present.present => exact .inl ⟨_, _, rfl, rfl⟩
      case absent.absent => exact .inr ⟨_, rfl, rfl⟩
      case failed.failed reason reason' =>
        obtain rfl : reason = reason' := hread
        exact .inr ⟨_, rfl, rfl⟩
      all_goals cases hread
    | definition name value => exact .inl ⟨[], [], rfl, rfl⟩
    | dereference name =>
      have hsome := h.isSome_value? name
      simp only [Evaluation.of, Directive.evaluate]
      cases hv : p.bindings.value? name <;> cases hv' : q.bindings.value? name <;>
        rw [hv, hv'] at hsome
      case none.none => exact .inr ⟨_, rfl, rfl⟩
      case some.some => exact .inl ⟨_, _, rfl, rfl⟩
      all_goals cases hsome

theorem evaluation_binds_alike (h : Alike p q) (body name : Text) :
    (p.evaluation source body).bindings.binds name =
      (q.evaluation source' body).bindings.binds name := by
  simp only [evaluation]
  cases Directive.ofText? body.trim with
  | none => exact h.binds name
  | some d =>
    cases d with
    | inclusion path => exact h.binds name
    | definition n v =>
      simp only [Evaluation.of, Directive.evaluate, Bindings.binds_define, h.binds]
    | dereference n => exact h.binds name

theorem step_alike (hs : source.SameClass source') (s : Segment) (p q : Progress)
    (h : Alike p q) :
    Related (fun a b => a.failure = b.failure) Alike (step source p s) (step source' q s) := by
  cases s with
  | plain c => exact .ok ⟨by rw [h.position], h.directives, h.binds⟩
  | directive body =>
    have hbinds := fun name => @evaluation_binds_alike source source' p q h body name
    rcases evaluation_result_alike hs h body with ⟨r, r', hr, hr'⟩ | ⟨f, hf, hf'⟩
    · refine related_step_of_ok hr hr' ⟨?_, ?_, hbinds⟩
      · simp only [replaced, h.position]
      · simp only [replaced, h.directives]
    · exact related_step_of_error hf hf' fun a b ha hb => ha.trans hb.symm

theorem alike_seeded {predefined predefined' : List (Text × Text)}
    (h : predefined.map Prod.fst = predefined'.map Prod.fst) :
    Alike (seeded predefined) (seeded predefined') := by
  have hseeds := seeds_seeded predefined
  have hseeds' := seeds_seeded predefined'
  refine ⟨hseeds.position.trans hseeds'.position.symm,
    hseeds.directives.trans hseeds'.directives.symm, ?_⟩
  intro name
  rw [Bindings.binds_eq_isSome, Bindings.binds_eq_isSome, hseeds.value, hseeds'.value,
    Bool.eq_iff_iff, lastValue?_isSome_iff, lastValue?_isSome_iff, h]

end

end Progress

/-- The names that the definitions of a document bind. -/
def Text.definedNames (t : Text) : List Text := (t.spans.filterMap Span.definition?).map Prod.fst

theorem Span.valueBehind?_of_mem {spans : List Span} {name : Text}
    (h : name ∈ (spans.filterMap definition?).map Prod.fst) (predefined : List (Text × Text)) :
    valueBehind? predefined spans name = lastValue? (spans.filterMap definition?) name := by
  obtain ⟨value, hvalue⟩ := Option.isSome_iff_exists.mp (lastValue?_isSome_iff.mpr h)
  rw [valueBehind?, hvalue]
  rfl

/-- **Replacements are data.** If two runs over one document differ in the values of predefined
variables and in the contents of included files only, they fail with the same failure, or they
succeed with as many directives, the same bound names, and the same value for each name that the
document defines. -/
theorem ofText_alike {source source' : IncludeSource} (hs : source.SameClass source')
    {predefined predefined' : List (Text × Text)}
    (hp : predefined.map Prod.fst = predefined'.map Prod.fst) (t : Text) :
    (∃ failure, (Run.ofText source predefined t).result = .error failure ∧
      (Run.ofText source' predefined' t).result = .error failure) ∨
    ∃ out out', (Run.ofText source predefined t).result = .ok out ∧
      (Run.ofText source' predefined' t).result = .ok out' ∧
      out.directives = out'.directives ∧
      (∀ name, out.bindings.binds name = out'.bindings.binds name) ∧
      ∀ name ∈ t.definedNames, out.bindings.value? name = out'.bindings.value? name := by
  have hrelated := Progress.related_steps (fun s p q h => Progress.step_alike hs s p q h)
    t.segments _ _ (Progress.alike_seeded hp)
  cases hrun : (Progress.seeded predefined').steps source' t.segments with
  | error halt' =>
    rw [hrun] at hrelated
    obtain ⟨halt, hhalt, hfailure⟩ := hrelated.exists_error
    refine .inl ⟨halt'.failure, ?_, Run.result_of_error hrun⟩
    rw [Run.result_of_error hhalt, hfailure]
  | ok q =>
    rw [hrun] at hrelated
    obtain ⟨p, hok, halike⟩ := hrelated.exists_ok
    refine .inr ⟨_, _, Run.result_of_ok hok, Run.result_of_ok hrun, halike.directives,
      halike.binds, ?_⟩
    intro name hname
    rw [(Progress.reflects_of_steps hok).value, (Progress.reflects_of_steps hrun).value]
    exact (Span.valueBehind?_of_mem hname predefined).trans
      (Span.valueBehind?_of_mem hname predefined').symm

theorem ofText_alike_of_markers :
    let shelf : Shelf := { base := ⟨[]⟩ }
    let source := (shelf.add ['f'] ['a']).source
    let source' := (shelf.add ['f'] "{% define w 9 %}".toList).source
    let predefined : List (Text × Text) := [(['v'], ['b'])]
    let predefined' : List (Text × Text) := [(['v'], "{% w %}".toList)]
    let t : Text := "{% include f %}{% v %}{% define x 1 %}".toList
    source.SameClass source' ∧ predefined.map Prod.fst = predefined'.map Prod.fst ∧
      ∃ out out', (Run.ofText source predefined t).result = .ok out ∧
        (Run.ofText source' predefined' t).result = .ok out' ∧
        out.directives = out'.directives ∧
        (∀ name, out.bindings.binds name = out'.bindings.binds name) ∧
        ∀ name ∈ t.definedNames, out.bindings.value? name = out'.bindings.value? name := by
  intro shelf source source' predefined predefined' t
  have hs : source.SameClass source' := Shelf.sameClass_add shelf _ _ _
  have hp : predefined.map Prod.fst = predefined'.map Prod.fst := rfl
  have hrun : (Run.ofText source predefined t).result = .ok ⟨['a', 'b'],
      (Bindings.none.define ['v'] ['b']).define ['x'] ['1'], 3⟩ := by rfl
  refine ⟨hs, hp, ?_⟩
  rcases ofText_alike hs hp t with ⟨failure, hfailure, -⟩ | hok
  · rw [hrun] at hfailure
    cases hfailure
  · exact hok

end DocSplice
