import Mathlib.Data.List.Induction
import Mathlib.Data.List.Nodup
import DocSplice.Proofs.Halting
import DocSplice.Proofs.Scan

/-!
# DocSplice.Proofs.Locations

The position of a failure tells which directive it is about.

* `Position.start_after`: line and column behind a text, counted from the text.
* `Position.Before`: one position stands before another. Reading on leads to later positions
  (`before_after`).
* `Text.IsBoundary`, `Position.isSome_ofByteOffset?_iff`: which offsets have a position.
* `Progress.position_of_steps`, `Progress.position_of_step_error`: the position that a run carries
  along, and the one that it reports.
* `ofText_located`: failures are reported where their directives begin, and no two directives begin
  at one position.
-/

namespace DocSplice

open Marker Segment

/-- What stands behind the last line feed. -/
def Text.lastLine (t : Text) : Text := (t.reverse.takeWhile (· != '\n')).reverse

/-- The offset is that of the beginning of a character, or of the end of the text. -/
def Text.IsBoundary (t : Text) (offset : Nat) : Prop :=
  ∃ before behind, t = before ++ behind ∧ before.byteSize = offset

namespace Position

/-! ## Counting lines and columns -/

theorem start_after (t : Text) :
    start.after t = ⟨1 + t.count '\n', 1 + t.lastLine.length⟩ := by
  induction t using List.reverseRecOn with
  | nil => rfl
  | append_singleton t c ih =>
    rw [after_append, ih, after_cons, after_nil]
    by_cases hc : c = '\n'
    · simp [next, Text.lastLine, hc, Nat.add_assoc]
    · simp [next, Text.lastLine, hc]
      omega

/-! ## The order of positions -/

/-- The position `p` stands before `q`: on an earlier line, or on the same line further to the
left. -/
def Before (p q : Position) : Prop := p.line < q.line ∨ p.line = q.line ∧ p.column < q.column

theorem Before.trans {p q r : Position} (h : p.Before q) (h' : q.Before r) : p.Before r := by
  simp only [Before] at *
  omega

theorem not_before_self (p : Position) : ¬ p.Before p := by
  simp only [Before]
  omega

theorem before_next (p : Position) (c : Char) : p.Before (p.next c) := by
  rw [next]
  split
  · exact .inl (Nat.lt_succ_self p.line)
  · exact .inr ⟨rfl, Nat.lt_succ_self p.column⟩

theorem before_after (p : Position) {t : Text} (h : t ≠ []) : p.Before (p.after t) := by
  induction t generalizing p with
  | nil => exact absurd rfl h
  | cons c t ih =>
    rw [after_cons]
    cases t with
    | nil => exact before_next p c
    | cons d t => exact (before_next p c).trans (ih (p.next c) (List.cons_ne_nil d t))

/-! ## Offsets -/

theorem advanceBytes?_of_le (p : Position) {offset : Nat} {t : Text} (h : t.byteSize ≤ offset) :
    p.advanceBytes? offset t = some (p.after t) := by
  induction t generalizing p offset with
  | nil => rfl
  | cons c t ih =>
    have hc := c.utf8Size_pos
    rw [Text.byteSize_cons] at h
    rw [advanceBytes?, if_neg (by omega), if_neg (by omega), ih (p.next c) (by omega), after_cons]

theorem isBoundary_of_advanceBytes? {p q : Position} {offset : Nat} {t : Text}
    (h : p.advanceBytes? offset t = some q) : t.IsBoundary offset ∨ t.byteSize ≤ offset := by
  induction t generalizing p offset with
  | nil => exact .inr (Nat.zero_le offset)
  | cons c t ih =>
    rw [advanceBytes?] at h
    split at h
    · next hzero => exact .inl ⟨[], c :: t, rfl, hzero.symm⟩
    split at h
    · cases h
    · next hc =>
      rcases ih h with ⟨before, behind, ht, hsize⟩ | hle
      · refine .inl ⟨c :: before, behind, by rw [ht, List.cons_append], ?_⟩
        rw [Text.byteSize_cons, hsize]
        omega
      · rw [Text.byteSize_cons]
        exact .inr (by omega)

theorem ofByteOffset?_of_le {offset : Nat} {t : Text} (h : t.byteSize ≤ offset) :
    ofByteOffset? t offset = some (start.after t) :=
  advanceBytes?_of_le start h

theorem isSome_ofByteOffset?_iff {t : Text} {offset : Nat} :
    (ofByteOffset? t offset).isSome = true ↔ t.IsBoundary offset ∨ t.byteSize ≤ offset := by
  constructor
  · intro h
    obtain ⟨q, hq⟩ := Option.isSome_iff_exists.mp h
    exact isBoundary_of_advanceBytes? hq
  · rintro (⟨before, behind, rfl, rfl⟩ | hle)
    · rw [ofByteOffset?_byteSize, Option.isSome_some]
    · rw [ofByteOffset?_of_le hle, Option.isSome_some]

/-- Later boundaries have later positions. -/
theorem exists_before_of_lt {t : Text} {offset offset' : Nat} (h : t.IsBoundary offset)
    (h' : t.IsBoundary offset') (hlt : offset < offset') :
    ∃ p p', ofByteOffset? t offset = some p ∧ ofByteOffset? t offset' = some p' ∧ p.Before p' := by
  obtain ⟨before, behind, rfl, rfl⟩ := h
  obtain ⟨before', behind', ht, rfl⟩ := h'
  refine ⟨start.after before, start.after before', ofByteOffset?_byteSize before behind, ?_, ?_⟩
  · rw [ht]
    exact ofByteOffset?_byteSize before' behind'
  · obtain ⟨m, rfl, -⟩ := Text.eq_append_of_byteSize_le ht (by omega)
    have hne : m ≠ [] := by
      rintro rfl
      simp at hlt
    rw [after_append]
    exact before_after _ hne

theorem eq_of_ofByteOffset?_eq {t : Text} {offset offset' : Nat} (h : t.IsBoundary offset)
    (h' : t.IsBoundary offset') (heq : ofByteOffset? t offset = ofByteOffset? t offset') :
    offset = offset' := by
  rcases Nat.lt_trichotomy offset offset' with hlt | hsame | hgt
  · obtain ⟨p, p', hp, hp', hbefore⟩ := exists_before_of_lt h h' hlt
    rw [hp, hp'] at heq
    cases heq
    exact absurd hbefore (not_before_self p)
  · exact hsame
  · obtain ⟨p, p', hp, hp', hbefore⟩ := exists_before_of_lt h' h hgt
    rw [hp, hp'] at heq
    cases heq
    exact absurd hbefore (not_before_self p)

end Position

/-! ## Spans -/

theorem Span.isBoundary_start {t : Text} {s : Span} (h : s ∈ t.spans) : t.IsBoundary s.start := by
  have hscan := (isScanFrom_iff (reads_segments t) [] t.spans rfl).mpr rfl
  obtain ⟨before, body, behind, ht, -, -, hstart, -⟩ := hscan.covered s h
  exact ⟨before, opening ++ body ++ closing ++ behind, by simpa using ht, hstart.symm⟩

theorem Span.eq_of_start_eq {t : Text} {s s' : Span} (h : s ∈ t.spans) (h' : s' ∈ t.spans)
    (heq : s.start = s'.start) : s = s' := by
  have hscan := (isScanFrom_iff (reads_segments t) [] t.spans rfl).mpr rfl
  have hnodup : (t.spans.map Span.start).Nodup :=
    List.pairwise_map.mpr (hscan.ordered.imp fun hab => Nat.ne_of_lt hab.1)
  exact List.inj_on_of_nodup_map hnodup h h' heq

/-! ## The position that a run carries along -/

/-- A failure that has a position has that of the directive. -/
theorem Evaluation.position_of_error {source : IncludeSource} {position reported : Position}
    {b : Bindings} {inner : Text} {d : Option Directive} {failure : Failure}
    (h : (Evaluation.of source position b inner d).result = .error failure)
    (hreported : failure.position? = some reported) : reported = position := by
  cases d with
  | none =>
    cases h
    cases hreported
    rfl
  | some d =>
    cases d with
    | inclusion path =>
      simp only [Evaluation.of, Directive.evaluate] at h
      cases hread : source.read (source.resolve path) with
      | present contents =>
        rw [hread] at h
        cases h
      | absent =>
        rw [hread] at h
        cases h
        cases hreported
        rfl
      | failed reason =>
        rw [hread] at h
        cases h
        cases hreported
    | definition name value => cases h
    | dereference name =>
      simp only [Evaluation.of, Directive.evaluate] at h
      cases hvalue : b.value? name with
      | some value =>
        rw [hvalue] at h
        cases h
      | none =>
        rw [hvalue] at h
        cases h
        cases hreported
        rfl

namespace Progress

variable {source : IncludeSource}

theorem position_of_step_error {p : Progress} {body : Text} {halt : Halt} {reported : Position}
    (h : step source p (.directive body) = .error halt)
    (hreported : halt.failure.position? = some reported) : reported = p.position :=
  Evaluation.position_of_error (evaluation_of_step_error h).1 hreported

theorem position_of_steps {l : List Segment} {p q : Progress} (h : steps source p l = .ok q) :
    q.position = p.position.after (flatten l) := by
  have hstep : ∀ (done : List Segment) (s : Segment) (a b : Progress),
      a.position = p.position.after (flatten done) → step source a s = .ok b →
      b.position = p.position.after (flatten (done ++ [s])) := by
    intro done s a b ha hb
    rw [flatten_append, flatten_cons, flatten_nil, List.append_nil, Position.after_append, ← ha]
    cases s with
    | plain c =>
      cases hb
      rfl
    | directive body =>
      obtain ⟨r, -, rfl⟩ := exists_replacement_of_step hb
      rfl
  exact invariant_of_steps hstep l [] p q rfl h

/-- A run reports a position that it has come by. -/
theorem position_of_steps_error {l : List Segment} {p : Progress} {halt : Halt}
    {reported : Position} (h : steps source p l = .error halt)
    (hreported : halt.failure.position? = some reported) :
    ∃ before behind, flatten l = before ++ behind ∧ reported = p.position.after before := by
  obtain ⟨before, s, after, q, rfl, hq, hs⟩ := exists_of_steps_error h
  obtain ⟨body, rfl⟩ := exists_directive_of_step_error hs
  refine ⟨flatten before, flatten (.directive body :: after), flatten_append before _, ?_⟩
  rw [position_of_step_error hs hreported, position_of_steps hq]

end Progress

theorem Run.StopsAt.position_eq {source : IncludeSource} {predefined : List (Text × Text)}
    {t : Text} {s : Span} {failure : Failure} {reported : Position}
    (h : StopsAt source predefined t s failure) (hreported : failure.position? = some reported) :
    Position.ofByteOffset? t s.start = some reported := by
  obtain ⟨before, body, after, p, halt, hsegments, hsteps, hstep, rfl, rfl⟩ := h
  have ht : t = flatten before ++ flatten (.directive body :: after) := by
    rw [← flatten_append, ← hsegments, flatten_segments]
  have hposition := Progress.position_of_steps hsteps
  rw [(Progress.seeds_seeded predefined).position] at hposition
  rw [Progress.position_of_step_error hstep hreported, hposition, ht]
  exact Position.ofByteOffset?_byteSize _ _

/-- **Failures are located, and a location names one directive.** A run that fails stops at one of
the spans, and the position that the failure reports, if it has one, is that of the offset of the
span. The position of an offset counts the line feeds before it and the characters behind the last
of them. Exactly the boundaries of characters and the offsets past the end have positions, later
boundaries have later positions, and so no two directives begin at the same one. -/
theorem ofText_located (source : IncludeSource) (predefined : List (Text × Text)) (t : Text) :
    (∀ failure, (Run.ofText source predefined t).result = .error failure →
      ∃ s ∈ t.spans, Run.StopsAt source predefined t s failure ∧
        ∀ reported, failure.position? = some reported →
          Position.ofByteOffset? t s.start = some reported) ∧
    (∀ before behind, t = before ++ behind → Position.ofByteOffset? t before.byteSize =
      some ⟨1 + before.count '\n', 1 + before.lastLine.length⟩) ∧
    (∀ offset, (Position.ofByteOffset? t offset).isSome = true ↔
      t.IsBoundary offset ∨ t.byteSize ≤ offset) ∧
    (∀ offset, t.byteSize ≤ offset →
      Position.ofByteOffset? t offset = Position.ofByteOffset? t t.byteSize) ∧
    (∀ offset offset', t.IsBoundary offset → t.IsBoundary offset' → offset < offset' →
      ∃ p p', Position.ofByteOffset? t offset = some p ∧
        Position.ofByteOffset? t offset' = some p' ∧ p.Before p') ∧
    ∀ s ∈ t.spans, ∀ s' ∈ t.spans,
      Position.ofByteOffset? t s.start = Position.ofByteOffset? t s'.start → s = s' := by
  refine ⟨?_, ?_, fun offset => Position.isSome_ofByteOffset?_iff, ?_, ?_, ?_⟩
  · intro failure hfailure
    obtain ⟨s, hs, hstop⟩ := Run.result_eq_error_iff.mp hfailure
    exact ⟨s, hs, hstop, fun reported hreported => hstop.position_eq hreported⟩
  · rintro before behind rfl
    rw [Position.ofByteOffset?_byteSize, Position.start_after]
  · intro offset hle
    rw [Position.ofByteOffset?_of_le hle, Position.ofByteOffset?_of_le (Nat.le_refl t.byteSize)]
  · intro offset offset' h h' hlt
    exact Position.exists_before_of_lt h h' hlt
  · intro s hs s' hs' heq
    exact Span.eq_of_start_eq hs hs' (Position.eq_of_ofByteOffset?_eq (Span.isBoundary_start hs)
      (Span.isBoundary_start hs') heq)

theorem ofText_located_undefined :
    let source := Shelf.source { base := ⟨[]⟩ }
    let t : Text := "é {% define x é %}\n\té{% x %}{% y %}".toList
    let failure := Failure.undefinedVariable ['y'] ⟨2, 10⟩
    (Run.ofText source [] t).result = .error failure ∧
      ∃ s ∈ t.spans, Run.StopsAt source [] t s failure ∧
        Position.ofByteOffset? t s.start = some ⟨2, 10⟩ := by
  intro source t failure
  have hrun : (Run.ofText source [] t).result = .error failure := by rfl
  obtain ⟨s, hs, hstop, hreported⟩ := (ofText_located source [] t).1 failure hrun
  exact ⟨hrun, s, hs, hstop, hreported _ rfl⟩

end DocSplice
