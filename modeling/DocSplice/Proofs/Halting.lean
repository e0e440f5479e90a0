import Mathlib.Data.List.Basic
import DocSplice.Proofs.Meaning

/-!
# DocSplice.Proofs.Halting

A run stops at the first directive that fails, and nothing behind that directive has a say in it.
Reading a document up to a directive needs no text behind it: an opening marker before the directive
that was found to be plain would meet the closing marker of the directive at the latest.

* `Segment.directiveAt?_append_opens`, `Segment.segments_exchange`: reading up to a directive.
* `IncludeSource.AgreesOn`: two sources that answer alike to some spans.
* `Run.StopsAt`: the run stops at a span. `result_eq_error_iff` says that failing runs are those
  that stop somewhere.
* `ofText_settled`: a run that stops at a span does so whatever follows the span.
-/

namespace DocSplice

open Marker Segment

/-! ## Reading up to a directive -/

/-- An opening marker before a directive that is found to be plain meets the closing marker of the
directive, unless its line ends before. So what stands from the directive on does not matter. -/
theorem Segment.directiveAt?_append_opens {s body y z : Text} (hs : s ≠ []) (hbody : IsBody body)
    (h : directiveAt? (s ++ ((directive body).text ++ y)) = none) (hz : z.head? = some '{') :
    directiveAt? (s ++ z) = none := by
  by_cases hline : '\n' ∈ s
  · rw [directiveAt?_append hline] at h ⊢
    exact h
  cases hopens : opens s with
  | false => exact directiveAt?_of_not_opens (by rw [opens_append_of_head hs hz, hopens])
  | true =>
    obtain ⟨x, rfl⟩ := opens_iff.mp hopens
    change directiveAt? (opening ++ (x ++ ((directive body).text ++ y))) = none at h
    change directiveAt? (opening ++ (x ++ z)) = none
    rw [directiveAt?_eq_none_iff, bare_line_zero_iff] at h ⊢
    rcases h with hnone | hnow
    · refine absurd ⟨x ++ (opening ++ body), y.takeWhile (· != '\n'), ?_, rfl, ?_⟩ (hnone _)
      · have hx : '\n' ∉ x := fun hmem => hline (by simp [hmem])
        have hplain : ∀ c ∈ x ++ (opening ++ body) ++ closing, (c != '\n') = true := by
          intro c hc
          rw [bne_iff_ne]
          rintro rfl
          simp [opening, closing, hbody.oneLine, hx] at hc
        rw [← List.takeWhile_append_of_pos hplain, text_directive]
        simp
      · rw [← List.append_assoc, List.getLast?_append_of_ne_nil _ hbody.nonempty]
        exact hbody.closable
    · rw [closes_append_of_head rfl] at hnow
      exact .inr (by rw [closes_append_of_head hz, hnow])

theorem Segment.Reads.behind {escaped : Bool} {t body : Text} {l m : List Segment}
    (h : Reads escaped t (l ++ .directive body :: m)) : Reads false (flatten m) m := by
  induction l generalizing escaped t with
  | nil =>
    cases h with
    | directive _ ht => rwa [ht.flatten_eq]
  | cons s l ih =>
    cases h with
    | plain _ ht => exact ih ht
    | directive _ ht => exact ih ht

/-- In the place of a directive another one may stand, and another text may follow it. -/
theorem Segment.Reads.exchange {body body' y : Text} {m m' : List Segment} (hbody' : IsBody body')
    (hy : Reads false y m') : ∀ {l : List Segment} {escaped : Bool} {t : Text},
      Reads escaped t (l ++ .directive body :: m) →
      Reads escaped (flatten l ++ ((Segment.directive body').text ++ y))
        (l ++ .directive body' :: m') := by
  intro l
  induction l with
  | nil =>
    intro escaped t h
    cases h with
    | directive _ _ => exact .directive hbody' hy
  | cons s l ih =>
    intro escaped t h
    cases h with
    | @plain _ c t _ hc ht =>
      refine .plain (fun he => ?_) (ih ht)
      have hnone := hc he
      have hflatten : flatten (l ++ .directive body :: m) =
          flatten l ++ ((Segment.directive body).text ++ flatten m) := by
        rw [flatten_append, flatten_cons]
      rw [← ht.flatten_eq, List.append_eq, hflatten, ← List.cons_append] at hnone
      exact directiveAt?_append_opens (List.cons_ne_nil c _) (ht.isBody_of_mem (by simp)) hnone rfl
    | directive hb ht =>
      rw [flatten_cons, List.append_assoc]
      exact .directive hb (ih ht)

theorem Segment.segments_exchange {t body body' : Text} {l m : List Segment}
    (h : t.segments = l ++ .directive body :: m) (hbody' : IsBody body') (y : Text) :
    (flatten l ++ ((directive body').text ++ y)).segments = l ++ .directive body' :: y.segments := by
  have hreads := reads_segments t
  rw [h] at hreads
  exact (Reads.exchange hbody' (reads_segments y) hreads).segments_eq

/-! ## Sources that answer alike -/

/-- The sources resolve alike, and answer alike on the paths that the inclusions among some spans
ask for. -/
structure IncludeSource.AgreesOn (source source' : IncludeSource) (spans : List Span) : Prop where
  resolve : source'.resolve = source.resolve
  read : ∀ s ∈ spans, ∀ path, Directive.ofText? s.inner = some (.inclusion path) →
    source'.read (source.resolve path) = source.read (source.resolve path)

namespace Progress

section

variable {source source' : IncludeSource} {spans : List Span}

theorem step_agree (h : source.AgreesOn source' spans) {body : Text}
    (hbody : ∃ s ∈ spans, s.inner = body.trim) (p : Progress) :
    step source' p (.directive body) = step source p (.directive body) := by
  obtain ⟨s, hs, hinner⟩ := hbody
  have heval : p.evaluation source' body = p.evaluation source body := by
    rw [evaluation, evaluation, ← hinner]
    cases hd : Directive.ofText? s.inner with
    | none => rfl
    | some d =>
      cases d with
      | inclusion path =>
        simp only [Evaluation.of, Directive.evaluate, h.resolve, h.read s hs path hd]
      | definition name value => rfl
      | dereference name => rfl
  cases hr : (p.evaluation source body).result with
  | ok r =>
    rw [step_directive_of_ok hr, step_directive_of_ok (heval ▸ hr), replaced, replaced, heval]
  | error f =>
    simp only [evaluation] at heval
    simp only [step, heval]

theorem steps_agree (h : source.AgreesOn source' spans) {l : List Segment}
    (hl : ∀ body, .directive body ∈ l → ∃ s ∈ spans, s.inner = body.trim) (p : Progress) :
    steps source' p l = steps source p l := by
  induction l generalizing p with
  | nil => rfl
  | cons s l ih =>
    have hs : step source' p s = step source p s := by
      cases s with
      | plain c => rfl
      | directive body => exact step_agree h (hl body List.mem_cons_self) p
    rw [steps_cons, steps_cons, hs]
    cases step source p s with
    | error halt => rfl
    | ok q => exact ih (fun body hbody => hl body (List.mem_cons_of_mem _ hbody)) q

end

end Progress

/-! ## Where a run stops -/

/-- The run takes the segments before the span, and fails at the directive of the span. -/
def Run.StopsAt (source : IncludeSource) (predefined : List (Text × Text)) (t : Text) (s : Span)
    (failure : Failure) : Prop :=
  ∃ before body after p halt, t.segments = before ++ .directive body :: after ∧
    (Progress.seeded predefined).steps source before = .ok p ∧
    p.step source (.directive body) = .error halt ∧
    s = .ofBody (flatten before).byteSize body ∧ halt.failure = failure

section

variable {source source' : IncludeSource} {predefined : List (Text × Text)} {t : Text} {s : Span}
  {failure : Failure}

theorem Progress.steps_of_stop {before after : List Segment} {body : Text} {p q : Progress}
    {halt : Halt} (hsteps : p.steps source before = .ok q)
    (hstep : q.step source (.directive body) = .error halt) :
    p.steps source (before ++ .directive body :: after) = .error halt := by
  rw [steps_append, hsteps]
  change q.steps source (.directive body :: after) = _
  rw [steps_cons, hstep]
  rfl

theorem Run.StopsAt.result_eq (h : StopsAt source predefined t s failure) :
    (ofText source predefined t).result = .error failure := by
  obtain ⟨before, body, after, p, halt, hsegments, hsteps, hstep, -, rfl⟩ := h
  refine result_of_error ?_
  rw [hsegments]
  exact Progress.steps_of_stop hsteps hstep

theorem Run.result_eq_error_iff :
    (ofText source predefined t).result = .error failure ↔
      ∃ s ∈ t.spans, StopsAt source predefined t s failure := by
  constructor
  · intro h
    cases hrun : (Progress.seeded predefined).steps source t.segments with
    | ok p =>
      rw [result_of_ok hrun] at h
      cases h
    | error halt =>
      rw [result_of_error hrun] at h
      cases h
      obtain ⟨before, segment, after, p, hsegments, hsteps, hstep⟩ :=
        Progress.exists_of_steps_error hrun
      obtain ⟨body, rfl⟩ := Progress.exists_directive_of_step_error hstep
      refine ⟨_, ?_, before, body, after, p, halt, hsegments, hsteps, hstep, rfl, rfl⟩
      rw [Span.spans_of_segments hsegments]
      simp
  · rintro ⟨s, -, hs⟩
    exact hs.result_eq

theorem Run.StopsAt.resume (h : StopsAt source predefined t s failure)
    (hagree : source.AgreesOn source' (t.spans.filter fun r => r.start ≤ s.start)) (y : Text) :
    StopsAt source' predefined (t.takeBytes s.stop ++ y) s failure := by
  obtain ⟨before, body, after, p, halt, hsegments, hsteps, hstep, rfl, rfl⟩ := h
  have hreads := reads_segments t
  rw [hsegments] at hreads
  have hspans := Span.spans_of_segments hsegments
  have htake : t.takeBytes (Span.ofBody (flatten before).byteSize body).stop =
      flatten before ++ (Segment.directive body).text := by
    have ht : t = (flatten before ++ (Segment.directive body).text) ++ flatten after := by
      rw [← hreads.flatten_eq, flatten_append, flatten_cons, List.append_assoc]
    rw [Span.stop_ofBody, ← Text.byteSize_append, ht, Text.takeBytes_append]
  have hsegments' : (t.takeBytes (Span.ofBody (flatten before).byteSize body).stop ++ y).segments =
      before ++ .directive body :: y.segments := by
    rw [htake, List.append_assoc]
    exact segments_exchange hsegments (hreads.isBody_of_mem (by simp)) y
  refine ⟨before, body, y.segments, p, halt, hsegments', ?_, ?_, rfl, rfl⟩
  · rw [Progress.steps_agree hagree, hsteps]
    intro b hb
    obtain ⟨r, hr, hinner, hle⟩ := @Span.exists_mem_collect 0 _ _ hb
    refine ⟨r, List.mem_filter.mpr ⟨?_, ?_⟩, hinner⟩
    · rw [hspans]
      exact List.mem_append_left _ hr
    · rw [Nat.zero_add] at hle
      exact decide_eq_true hle
  · rw [Progress.step_agree hagree, hstep]
    refine ⟨.ofBody (flatten before).byteSize body, List.mem_filter.mpr ⟨?_, ?_⟩, rfl⟩
    · rw [hspans]
      simp
    · exact decide_eq_true (Nat.le_refl _)

end

/-- **A failure is settled by the text up to the failing directive.** A run that fails stops at one
of the spans. Then the run over the text up to the end of that span, with anything behind it, fails
with the same failure, also with a source that answers differently to later inclusions. -/
theorem ofText_settled (source : IncludeSource) (predefined : List (Text × Text)) (t : Text) :
    (∀ failure, (Run.ofText source predefined t).result = .error failure ↔
      ∃ s ∈ t.spans, Run.StopsAt source predefined t s failure) ∧
    ∀ s failure, Run.StopsAt source predefined t s failure → ∀ source' : IncludeSource,
      source.AgreesOn source' (t.spans.filter fun r => r.start ≤ s.start) → ∀ y,
      (Run.ofText source' predefined (t.takeBytes s.stop ++ y)).result = .error failure := by
  refine ⟨fun failure => Run.result_eq_error_iff, ?_⟩
  intro s failure h source' hagree y
  have hresumed : Run.StopsAt source' predefined (t.takeBytes s.stop ++ y) s failure :=
    h.resume hagree y
  exact hresumed.result_eq

theorem ofText_settled_undefined :
    let source := Shelf.source { base := ⟨[]⟩ }
    let source' := (Shelf.add { base := ⟨[]⟩ } ['f'] ['a']).source
    let t : Text := "{%%} {% x %} {% include f %}".toList
    let s : Span := ⟨5, 12, ['x']⟩
    Run.StopsAt source [] t s (.undefinedVariable ['x'] ⟨1, 6⟩) ∧
      source.AgreesOn source' (t.spans.filter fun r => r.start ≤ s.start) ∧
      (Run.ofText source' [] (t.takeBytes s.stop ++ "{% include f %}".toList)).result =
        .error (.undefinedVariable ['x'] ⟨1, 6⟩) := by
  intro source source' t s
  have hstop : Run.StopsAt source [] t s (.undefinedVariable ['x'] ⟨1, 6⟩) :=
    ⟨"{%%} ".toList.map .plain, [' ', 'x', ' '], [.plain ' ', .directive " include f ".toList],
      _, _, by rfl, by rfl, by rfl, by rfl, by rfl⟩
  have hagree : source.AgreesOn source' (t.spans.filter fun r => r.start ≤ s.start) := by
    have hspans : (t.spans.filter fun r => r.start ≤ s.start) = [s] := by rfl
    refine ⟨rfl, ?_⟩
    rw [hspans]
    intro r hr path hpath
    obtain rfl := List.mem_singleton.mp hr
    have hread : Directive.ofText? s.inner = some (.dereference ['x']) := by rfl
    rw [hread] at hpath
    cases hpath
  exact ⟨hstop, hagree, (ofText_settled source [] t).2 _ _ hstop source' hagree _⟩

end DocSplice
