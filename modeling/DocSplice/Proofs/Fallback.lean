import DocSplice.Proofs.Stepping

/-!
# DocSplice.Proofs.Fallback

A variable predefined before all others is a fallback. It stands for its value only where nothing
else binds its name, so all it can change is a run that fails for want of that name.

* `Bindings.withFallback`: a table with one name more, unless it is bound already.
* `Progress.Rescued`: the invariant of two runs, of which the second one has the fallback.
* `ofText_fallback`: the runs have one outcome, and the tables differ in the fallback at most.
-/

namespace DocSplice

/-- The table with a value for a name that is not bound. -/
def Bindings.withFallback (b : Bindings) (n v : Text) : Bindings :=
  if b.binds n then b else b.define n v

section

variable {n v : Text}

theorem Bindings.value?_withFallback (b : Bindings) (name : Text) :
    (b.withFallback n v).value? name =
      (b.value? name).or (if n = name then some v else Option.none) := by
  rw [withFallback, binds_eq_isSome]
  split
  · next hbound =>
    by_cases hname : n = name
    · subst hname
      rw [Option.or_of_isSome hbound]
    · simp [hname]
  · next hfree =>
    rw [value?_define]
    by_cases hname : n = name
    · subst hname
      cases hvalue : b.value? n with
      | none => simp
      | some value => simp [hvalue] at hfree
    · simp [hname]

/-- A definition takes the place of the fallback of its name, and leaves that of another one. -/
theorem Bindings.withFallback_define (b : Bindings) (name value : Text) :
    (b.withFallback n v).define name value = (b.define name value).withFallback n v := by
  apply ext_value?
  intro other
  rw [value?_define, value?_withFallback, value?_withFallback, value?_define]
  split <;> rfl

theorem lastValue?_cons (pairs : List (Text × Text)) (name : Text) :
    lastValue? ((n, v) :: pairs) name =
      (lastValue? pairs name).or (if n = name then some v else none) := by
  rw [← lastValue?_singleton]
  exact lastValue?_append [(n, v)] pairs name

namespace Progress

/-- The state `q` is `p` with the fallback. -/
structure Rescued (n v : Text) (p q : Progress) : Prop where
  position : q.position = p.position
  written : q.written = p.written
  directives : q.directives = p.directives
  bindings : q.bindings = p.bindings.withFallback n v

theorem rescued_seeded (predefined : List (Text × Text)) :
    Rescued n v (seeded predefined) (seeded ((n, v) :: predefined)) := by
  have hseeds := seeds_seeded predefined
  have hmore := seeds_seeded ((n, v) :: predefined)
  refine ⟨hmore.position.trans hseeds.position.symm, hmore.written.trans hseeds.written.symm,
    hmore.directives.trans hseeds.directives.symm, ?_⟩
  apply Bindings.ext_value?
  intro name
  rw [hmore.value, Bindings.value?_withFallback, hseeds.value, lastValue?_cons]

/-- The run failed for want of the name. -/
def Misses (n : Text) (halt : Halt) : Prop :=
  ∃ position, halt.failure = .undefinedVariable n position

section

variable (source : IncludeSource) {p q : Progress}

/-- With the fallback, a directive does the same, unless it fails for want of the name. -/
theorem Rescued.evaluation (h : Rescued n v p q) (body : Text) :
    (∃ position, (p.evaluation source body).result = .error (.undefinedVariable n position)) ∨
      (q.evaluation source body).result = (p.evaluation source body).result ∧
      (q.evaluation source body).bindings =
        (p.evaluation source body).bindings.withFallback n v := by
  rw [Progress.evaluation, Progress.evaluation, h.position, h.bindings]
  cases Directive.ofText? body.trim with
  | none => exact .inr ⟨rfl, rfl⟩
  | some d =>
    cases d with
    | inclusion path => exact .inr ⟨rfl, rfl⟩
    | definition name value =>
      exact .inr ⟨rfl, Bindings.withFallback_define p.bindings name value⟩
    | dereference name =>
      have hvalue := p.bindings.value?_withFallback (n := n) (v := v) name
      simp only [Evaluation.of, Directive.evaluate, hvalue]
      cases p.bindings.value? name with
      | some value => simp
      | none =>
        by_cases hname : n = name
        · exact .inl ⟨p.position, by rw [hname]⟩
        · simp [hname]

theorem Rescued.step (s : Segment) (p q : Progress) (h : Rescued n v p q) :
    (∃ halt, step source p s = .error halt ∧ Misses n halt) ∨
      Related (fun a b => a.failure = b.failure) (Rescued n v) (step source p s)
        (step source q s) := by
  cases s with
  | plain c =>
    refine .inr (.ok ⟨?_, ?_, h.directives, h.bindings⟩)
    · simp only [h.position]
    · simp only [h.written]
  | directive body =>
    rcases h.evaluation source body with ⟨position, hmissing⟩ | ⟨hresult, hbindings⟩
    · obtain ⟨halt, hfailure, hhalt⟩ := step_directive_of_error hmissing
      exact .inl ⟨halt, hhalt, position, hfailure⟩
    · cases hp : (p.evaluation source body).result with
      | ok r =>
        rw [hp] at hresult
        refine .inr (related_step_of_ok hp hresult ⟨?_, ?_, ?_, hbindings⟩)
        · simp only [replaced, h.position]
        · simp only [replaced, h.written]
        · simp only [replaced, h.directives]
      | error failure =>
        rw [hp] at hresult
        exact .inr (related_step_of_error hp hresult fun a b ha hb => ha.trans hb.symm)

end
end Progress

end

/-- **A definition of lowest priority only rescues.** Unless a run fails because the name stands for
nothing, the run with the name predefined before all other variables fails with the same failure, or
both succeed with the same text and the same number of directives. Then all that is bound in the
first table has that value in the second one, which binds no other name than the predefined one. -/
theorem ofText_fallback (source : IncludeSource) (predefined : List (Text × Text)) (n v t : Text) :
    (∃ position, (Run.ofText source predefined t).result =
      .error (.undefinedVariable n position)) ∨
    (∃ failure, (Run.ofText source predefined t).result = .error failure ∧
      (Run.ofText source ((n, v) :: predefined) t).result = .error failure) ∨
    ∃ out out', (Run.ofText source predefined t).result = .ok out ∧
      (Run.ofText source ((n, v) :: predefined) t).result = .ok out' ∧
      out'.text = out.text ∧ out'.directives = out.directives ∧
      (∀ name value, out.bindings.value? name = some value →
        out'.bindings.value? name = some value) ∧
      ∀ name, out.bindings.value? name = none →
        out'.bindings.value? name = if n = name then some v else none := by
  rcases Progress.related_steps_unless (fun s p q h => h.step source s p q) t.segments
    _ _ (Progress.rescued_seeded (n := n) (v := v) predefined) with
    ⟨halt, hhalt, position, hmissing⟩ | hrelated
  · refine .inl ⟨position, ?_⟩
    rw [Run.result_of_error hhalt, hmissing]
  · cases hrun : (Progress.seeded ((n, v) :: predefined)).steps source t.segments with
    | error halt' =>
      rw [hrun] at hrelated
      obtain ⟨halt, hhalt, hfailure⟩ := hrelated.exists_error
      refine .inr (.inl ⟨halt'.failure, ?_, Run.result_of_error hrun⟩)
      rw [Run.result_of_error hhalt, hfailure]
    | ok q =>
      rw [hrun] at hrelated
      obtain ⟨p, hok, hrescued⟩ := hrelated.exists_ok
      refine .inr (.inr ⟨_, _, Run.result_of_ok hok, Run.result_of_ok hrun, ?_,
        hrescued.directives, ?_, ?_⟩)
      · simp only [hrescued.written]
      · intro name value hvalue
        simp only [hrescued.bindings, Bindings.value?_withFallback, hvalue, Option.some_or]
      · intro name hfree
        simp only [hrescued.bindings, Bindings.value?_withFallback, hfree, Option.none_or]

end DocSplice
