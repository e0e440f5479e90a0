import Mathlib.Data.List.Induction
import DocSplice.Run

/-!
# DocSplice.Proofs.Stepping

Runs step by step: what predefined variables leave behind, how steps compose and where they stop.

* `lastValue?`: the value that a list of pairs gives to a name, the last pair first.
* `Progress.Seeds`: the state before the first segment; `seeds_seeded`.
* `Progress.invariant_of_steps`: what each step keeps, all steps keep.
* `Progress.exists_replacement_of_step`, `Progress.evaluation_of_step_error`: what a step over a
  directive can do.
* `Progress.exists_of_steps_error`: a run that fails was in order up to one segment.
* `Progress.related_steps`: two runs over the same segments stay related if each step relates them.
  `related_steps_unless` excepts some failures of the first one.
-/

namespace DocSplice

/-- The value that a list of pairs gives to a name. The last pair wins. -/
def lastValue? (pairs : List (Text × Text)) (name : Text) : Option Text :=
  pairs.reverse.lookup name

@[simp] theorem lastValue?_nil (name : Text) : lastValue? [] name = none := rfl

theorem lastValue?_append (l m : List (Text × Text)) (name : Text) :
    lastValue? (l ++ m) name = (lastValue? m name).or (lastValue? l name) := by
  simp [lastValue?, List.lookup_append]

theorem lastValue?_singleton (n v name : Text) :
    lastValue? [(n, v)] name = if n = name then some v else none := by
  by_cases h : n = name
  · simp [lastValue?, h]
  · have hne : ¬ name = n := fun he => h he.symm
    simp [lastValue?, h, hne]

theorem lastValue?_isSome_iff {pairs : List (Text × Text)} {name : Text} :
    (lastValue? pairs name).isSome = true ↔ name ∈ pairs.map Prod.fst := by
  simp [lastValue?, List.lookup_isSome_iff]

namespace Progress

/-! ## The beginning of a run -/

/-- Nothing was read yet, and the variables are those of the pairs. -/
structure Seeds (predefined : List (Text × Text)) (p : Progress) : Prop where
  position : p.position = .start
  written : p.written = []
  directives : p.directives = 0
  value : ∀ name, p.bindings.value? name = lastValue? predefined name

theorem Seeds.predefine {predefined : List (Text × Text)} {p : Progress} (h : Seeds predefined p)
    (n v : Text) : Seeds (predefined ++ [(n, v)]) (p.predefine n v) := by
  refine ⟨h.position, h.written, h.directives, ?_⟩
  intro name
  rw [Progress.predefine, Bindings.value?_define, h.value, lastValue?_append, lastValue?_singleton]
  split <;> rfl

theorem seeded_concat (predefined : List (Text × Text)) (n v : Text) :
    seeded (predefined ++ [(n, v)]) = (seeded predefined).predefine n v := by
  rw [seeded, List.foldl_append]
  rfl

theorem seeds_seeded (predefined : List (Text × Text)) : Seeds predefined (seeded predefined) := by
  induction predefined using List.reverseRecOn with
  | nil => exact ⟨rfl, rfl, rfl, fun _ => Bindings.value?_none _⟩
  | append_singleton earlier pair ih =>
    rw [seeded_concat]
    exact ih.predefine pair.1 pair.2

/-! ## Steps -/

section

variable {source : IncludeSource}

theorem steps_cons (p : Progress) (s : Segment) (l : List Segment) :
    steps source p (s :: l) = (step source p s).bind fun q => steps source q l := rfl

theorem steps_append (p : Progress) (l m : List Segment) :
    steps source p (l ++ m) = (steps source p l).bind fun q => steps source q m := by
  simp only [steps, List.foldlM_append]
  rfl

theorem steps_plain (p : Progress) (t : Text) :
    steps source p (t.map .plain) =
      .ok { p with position := p.position.after t, written := t.reverse ++ p.written } := by
  induction t generalizing p with
  | nil => rfl
  | cons c t ih =>
    rw [List.map_cons, steps_cons, step, Except.bind, ih]
    simp

theorem invariant_of_steps {I : List Segment → Progress → Prop}
    (hstep : ∀ (done : List Segment) (s : Segment) (p q : Progress), I done p →
      step source p s = .ok q → I (done ++ [s]) q) (l : List Segment) :
    ∀ (done : List Segment) (p q : Progress), I done p → steps source p l = .ok q →
      I (done ++ l) q := by
  induction l with
  | nil =>
    intro done p q h hq
    cases hq
    simpa using h
  | cons s l ih =>
    intro done p q h hq
    rw [steps_cons] at hq
    cases hs : step source p s with
    | error halt => rw [hs] at hq; cases hq
    | ok p' =>
      rw [hs] at hq
      simpa using ih (done ++ [s]) p' q (hstep done s p p' h hs) hq

theorem exists_of_steps_error {l : List Segment} : ∀ {p : Progress} {halt : Halt},
    steps source p l = .error halt →
    ∃ before s after q, l = before ++ s :: after ∧ steps source p before = .ok q ∧
      step source q s = .error halt := by
  induction l with
  | nil => intro p halt h; cases h
  | cons s l ih =>
    intro p halt h
    rw [steps_cons] at h
    cases hs : step source p s with
    | error halt' =>
      rw [hs] at h
      cases h
      exact ⟨[], s, l, p, rfl, rfl, hs⟩
    | ok p' =>
      rw [hs] at h
      obtain ⟨before, s', after, q, rfl, hq, hs'⟩ := ih h
      refine ⟨s :: before, s', after, q, rfl, ?_, hs'⟩
      rw [steps_cons, hs]
      exact hq

/-- What the directive with a body does in a state. -/
def evaluation (source : IncludeSource) (p : Progress) (body : Text) : Evaluation :=
  .of source p.position p.bindings body.trim (Directive.ofText? body.trim)

/-- The state behind a directive with a replacement. -/
def replaced (source : IncludeSource) (p : Progress) (body r : Text) : Progress where
  position := p.position.after (Segment.directive body).text
  bindings := (p.evaluation source body).bindings
  written := r.reverse ++ p.written
  directives := p.directives + 1
  events := (p.evaluation source body).events.reverse ++ p.events

theorem step_directive_of_ok {p : Progress} {body r : Text}
    (h : (p.evaluation source body).result = .ok r) :
    step source p (.directive body) = .ok (p.replaced source body r) := by
  simp only [evaluation] at h
  simp only [step, h]
  rfl

theorem step_directive_of_error {p : Progress} {body : Text} {f : Failure}
    (h : (p.evaluation source body).result = .error f) :
    ∃ halt, halt.failure = f ∧ step source p (.directive body) = .error halt := by
  refine ⟨⟨f, (p.evaluation source body).bindings,
    (p.evaluation source body).events.reverse ++ p.events⟩, rfl, ?_⟩
  simp only [evaluation] at h
  simp only [step, h]
  rfl

theorem exists_replacement_of_step {p q : Progress} {body : Text}
    (h : step source p (.directive body) = .ok q) :
    ∃ r, (p.evaluation source body).result = .ok r ∧ q = p.replaced source body r := by
  cases hresult : (p.evaluation source body).result with
  | ok r =>
    rw [step_directive_of_ok hresult] at h
    cases h
    exact ⟨r, rfl, rfl⟩
  | error f =>
    obtain ⟨halt, -, hhalt⟩ := step_directive_of_error hresult
    rw [hhalt] at h
    cases h

theorem evaluation_of_step_error {p : Progress} {body : Text} {halt : Halt}
    (h : step source p (.directive body) = .error halt) :
    (p.evaluation source body).result = .error halt.failure ∧
      halt.events = (p.evaluation source body).events.reverse ++ p.events := by
  cases hresult : (p.evaluation source body).result with
  | ok r =>
    rw [step_directive_of_ok hresult] at h
    cases h
  | error f =>
    simp only [evaluation] at hresult
    simp only [step, hresult] at h
    cases h
    exact ⟨rfl, rfl⟩

theorem exists_directive_of_step_error {s : Segment} {p : Progress} {halt : Halt}
    (h : step source p s = .error halt) : ∃ body, s = .directive body := by
  cases s with
  | plain c => cases h
  | directive body => exact ⟨body, rfl⟩

/-! ## Two runs side by side -/

/-- Two outcomes agree: both are states that `R` relates, or both are failures that `F` relates. -/
inductive Related (F : Halt → Halt → Prop) (R : Progress → Progress → Prop) :
    Except Halt Progress → Except Halt Progress → Prop where
  | ok {p q : Progress} : R p q → Related F R (.ok p) (.ok q)
  | error {h k : Halt} : F h k → Related F R (.error h) (.error k)

theorem Related.exists_ok {F : Halt → Halt → Prop} {R : Progress → Progress → Prop}
    {x : Except Halt Progress} {q : Progress} (h : Related F R x (.ok q)) :
    ∃ p, x = .ok p ∧ R p q := by
  cases h with
  | ok h => exact ⟨_, rfl, h⟩

theorem Related.exists_error {F : Halt → Halt → Prop} {R : Progress → Progress → Prop}
    {x : Except Halt Progress} {k : Halt} (h : Related F R x (.error k)) :
    ∃ halt, x = .error halt ∧ F halt k := by
  cases h with
  | error h => exact ⟨_, rfl, h⟩

theorem Related.imp {F F' : Halt → Halt → Prop} {R R' : Progress → Progress → Prop}
    {x y : Except Halt Progress} (h : Related F R x y)
    (hF : ∀ a b, y = .error b → F a b → F' a b) (hR : ∀ p q, R p q → R' p q) :
    Related F' R' x y := by
  cases h with
  | ok h => exact .ok (hR _ _ h)
  | error h => exact .error (hF _ _ rfl h)

section

variable {source' : IncludeSource} {F : Halt → Halt → Prop} {R : Progress → Progress → Prop}
  {p q : Progress} {body body' : Text}

theorem related_step_of_ok {r r' : Text} (hp : (p.evaluation source body).result = .ok r)
    (hq : (q.evaluation source' body').result = .ok r')
    (h : R (p.replaced source body r) (q.replaced source' body' r')) :
    Related F R (step source p (.directive body)) (step source' q (.directive body')) := by
  rw [step_directive_of_ok hp, step_directive_of_ok hq]
  exact .ok h

theorem related_step_of_error {f g : Failure}
    (hp : (p.evaluation source body).result = .error f)
    (hq : (q.evaluation source' body').result = .error g)
    (h : ∀ a b : Halt, a.failure = f → b.failure = g → F a b) :
    Related F R (step source p (.directive body)) (step source' q (.directive body')) := by
  obtain ⟨a, ha, hstep⟩ := step_directive_of_error hp
  obtain ⟨b, hb, hstep'⟩ := step_directive_of_error hq
  rw [hstep, hstep']
  exact .error (h a b ha hb)

end

/-- Two runs stay related up to a failure of the first one that is excepted. -/
theorem related_steps_unless {source' : IncludeSource} {E : Halt → Prop} {F : Halt → Halt → Prop}
    {R : Progress → Progress → Prop}
    (hstep : ∀ (s : Segment) (p q : Progress), R p q →
      (∃ halt, step source p s = .error halt ∧ E halt) ∨
        Related F R (step source p s) (step source' q s)) (l : List Segment) :
    ∀ (p q : Progress), R p q → (∃ halt, steps source p l = .error halt ∧ E halt) ∨
      Related F R (steps source p l) (steps source' q l) := by
  induction l with
  | nil => exact fun p q h => .inr (.ok h)
  | cons s l ih =>
    intro p q h
    rw [steps_cons, steps_cons]
    rcases hstep s p q h with ⟨halt, hhalt, hexcepted⟩ | hs
    · rw [hhalt]
      exact .inl ⟨halt, rfl, hexcepted⟩
    · revert hs
      generalize step source p s = a, step source' q s = b
      rintro (h' | hf)
      · exact ih _ _ h'
      · exact .inr (.error hf)

theorem related_steps {source' : IncludeSource} {F : Halt → Halt → Prop}
    {R : Progress → Progress → Prop}
    (hstep : ∀ (s : Segment) (p q : Progress), R p q →
      Related F R (step source p s) (step source' q s)) (l : List Segment) (p q : Progress)
    (h : R p q) : Related F R (steps source p l) (steps source' q l) := by
  rcases related_steps_unless (E := fun _ => False) (fun s p q h => .inr (hstep s p q h)) l p q h
    with ⟨halt, -, hnone⟩ | hrelated
  · cases hnone
  · exact hrelated

end

end Progress

/-! ## Outcomes -/

section

variable {source : IncludeSource} {predefined : List (Text × Text)} {t : Text}

theorem Run.result_of_ok {p : Progress}
    (h : (Progress.seeded predefined).steps source t.segments = .ok p) :
    (Run.ofText source predefined t).result =
      .ok ⟨Marker.unescape p.written.reverse, p.bindings, p.directives⟩ := by
  rw [ofText, h, ofOutcome]

theorem Run.result_of_error {halt : Halt}
    (h : (Progress.seeded predefined).steps source t.segments = .error halt) :
    (Run.ofText source predefined t).result = .error halt.failure := by
  rw [ofText, h, ofOutcome]

/-- A run that succeeds has taken all segments. -/
theorem Run.exists_of_result_eq_ok {out : Output}
    (h : (Run.ofText source predefined t).result = .ok out) :
    ∃ p, (Progress.seeded predefined).steps source t.segments = .ok p ∧
      out = ⟨Marker.unescape p.written.reverse, p.bindings, p.directives⟩ := by
  cases hrun : (Progress.seeded predefined).steps source t.segments with
  | error halt =>
    rw [result_of_error hrun] at h
    cases h
  | ok p => exact ⟨p, rfl, Except.ok.inj (h.symm.trans (result_of_ok hrun))⟩

end

end DocSplice
