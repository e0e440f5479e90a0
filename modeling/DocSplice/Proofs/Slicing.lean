import DocSplice.Proofs.Scanning
import DocSplice.Proofs.Stepping

/-!
# DocSplice.Proofs.Slicing

A run over the spans of a document, which cuts out what stands between them.

* `Splicing`: the state of such a run between two spans. It remembers where the last directive ended and
  up to where lines and columns were counted, which is where that directive begins.
* `Splicing.run`, `Run.sliced`: the run over the spans, and the run over a document.
* `Splicing.Trails`: the state agrees with that of a run over segments, once the text up to there is cut
  out and counted. `Trails.run_eq` carries this through all segments.
* `Run.sliced_in_order`: no cut fails, every round gets further, and the outcome is that of the run over
  segments.
-/

namespace DocSplice

open Marker Segment

/-! ## The run -/

/-- How far a run over spans has come: lines and columns are counted up to byte `cursor`, and the text is
written up to byte `lastEnd`. -/
structure Splicing extends Progress where
  cursor : Nat := 0
  lastEnd : Nat := 0

namespace Splicing

/-- Writes what stands before the byte `start`, and counts lines and columns up to there. -/
def reach (t : Text) (s : Splicing) (start : Nat) : Except Cut Splicing := do
  let between ← t.cut s.lastEnd start
  let passed ← t.cut s.cursor start
  .ok { s with
    position := s.position.after passed
    written := between.reverse ++ s.written
    cursor := start }

/-- Takes spans until a directive fails, and writes what stands behind the last one. -/
def run (source : IncludeSource) (t : Text) (s : Splicing) : List Span → Except Cut Run
  | [] => do
    let rest ← t.cut s.lastEnd t.byteSize
    .ok (.ofOutcome (.ok { s.toProgress with written := rest.reverse ++ s.written }))
  | span :: l => do
    let s ← s.reach t span.start
    let e := Evaluation.of source s.position s.bindings span.inner (Directive.ofText? span.inner)
    let events := e.events.reverse ++ s.events
    match e.result with
    | .error failure => .ok (.ofOutcome (.error ⟨failure, e.bindings, events⟩))
    | .ok replacement =>
      let s := { s with
        bindings := e.bindings
        written := replacement.reverse ++ s.written
        directives := s.directives + 1
        events
        lastEnd := span.stop }
      s.run source t l

end Splicing

/-- The run over a document by cuts: a scan, then a run over its spans. -/
def Run.sliced (source : IncludeSource) (predefined : List (Text × Text)) (t : Text) :
    Except Cut Run := do
  let spans ← (Span.scanning t).run (0, [])
  Splicing.run source t { toProgress := Progress.seeded predefined } spans

namespace Splicing

/-! ## The two runs side by side -/

/-- Behind the text `front`, a run over spans trails a run over segments: it has still to count what
stands behind the cursor, and to write what stands behind the last directive. -/
structure Trails (front : Text) (s : Splicing) (p : Progress) : Prop where
  position : ∃ before passed, front = before ++ passed ∧ before.byteSize = s.cursor ∧
    p.position = s.position.after passed
  written : ∃ before between, front = before ++ between ∧ before.byteSize = s.lastEnd ∧
    p.written = between.reverse ++ s.written
  bindings : p.bindings = s.bindings
  directives : p.directives = s.directives
  events : p.events = s.events

section

variable {source : IncludeSource} {front : Text} {s : Splicing} {p : Progress}

theorem trails_nil (p : Progress) : Trails [] { toProgress := p } p :=
  ⟨⟨[], [], rfl, rfl, rfl⟩, ⟨[], [], rfl, rfl, rfl⟩, rfl, rfl, rfl⟩

theorem Trails.plain (h : Trails front s p) (c : Char) :
    Trails (front ++ [c]) s { p with position := p.position.next c, written := c :: p.written } := by
  obtain ⟨before, passed, hpassed, hcursor, hposition⟩ := h.position
  obtain ⟨before', between, hbetween, hlast, hwritten⟩ := h.written
  refine ⟨⟨before, passed ++ [c], ?_, hcursor, ?_⟩, ⟨before', between ++ [c], ?_, hlast, ?_⟩,
    h.bindings, h.directives, h.events⟩
  · rw [hpassed, List.append_assoc]
  · simp [hposition]
  · rw [hbetween, List.append_assoc]
  · simp [hwritten]

/-- Both cuts before a directive succeed, and then the two runs are in the same state. -/
theorem Trails.reach_eq (h : Trails front s p) (rest : Text) :
    s.reach (front ++ rest) front.byteSize = .ok ⟨p, front.byteSize, s.lastEnd⟩ := by
  obtain ⟨before, passed, hpassed, hcursor, hposition⟩ := h.position
  obtain ⟨before', between, hbetween, hlast, hwritten⟩ := h.written
  have hcut : (front ++ rest).cut s.lastEnd front.byteSize = .ok between := by
    rw [hbetween, ← hlast]
    exact Text.cut_within before' between rest
  have hcut' : (front ++ rest).cut s.cursor front.byteSize = .ok passed := by
    rw [hpassed, ← hcursor]
    exact Text.cut_within before passed rest
  rw [reach, hcut, ok_bind, hcut', ok_bind, ← hposition, ← hwritten, ← h.bindings, ← h.directives,
    ← h.events]

theorem trails_replaced (source : IncludeSource) (front : Text) (p : Progress) (body r : Text) :
    Trails (front ++ (directive body).text)
      ⟨{ p.replaced source body r with position := p.position }, front.byteSize,
        front.byteSize + (directive body).text.byteSize⟩
      (p.replaced source body r) := by
  refine ⟨⟨front, (directive body).text, rfl, rfl, rfl⟩,
    ⟨front ++ (directive body).text, [], ?_, ?_, rfl⟩, rfl, rfl, rfl⟩
  · rw [List.append_nil]
  · rw [Text.byteSize_append]

/-- What stands behind the last directive is cut out in the end. -/
theorem Trails.run_nil (h : Trails front s p) (source : IncludeSource) :
    s.run source front [] = .ok (.ofOutcome (.ok p)) := by
  obtain ⟨before, between, rfl, hlast, hwritten⟩ := h.written
  have hcut := Text.cut_behind before between
  rw [run, ← hlast, hcut, ok_bind, ← hwritten]
  simp only [Run.ofOutcome, h.bindings, h.directives, h.events]

section

variable {body rest : Text} {l : List Span}

theorem Trails.run_of_error (h : Trails front s p) {failure : Failure}
    (hresult : (p.evaluation source body).result = .error failure) :
    ∃ halt, p.step source (.directive body) = .error halt ∧
      s.run source (front ++ rest) (.ofBody front.byteSize body :: l) =
        .ok (.ofOutcome (.error halt)) := by
  obtain ⟨halt, rfl, hstep⟩ := Progress.step_directive_of_error hresult
  obtain ⟨-, hevents⟩ := Progress.evaluation_of_step_error hstep
  refine ⟨halt, hstep, ?_⟩
  rw [run, Span.start_ofBody, h.reach_eq, ok_bind]
  simp only [Progress.evaluation] at hresult hevents
  simp only [Span.ofBody, hresult, Run.ofOutcome, hevents]

theorem Trails.run_of_ok (h : Trails front s p) {r : Text}
    (hresult : (p.evaluation source body).result = .ok r) :
    s.run source (front ++ rest) (.ofBody front.byteSize body :: l) =
      Splicing.run source (front ++ rest)
        ⟨{ p.replaced source body r with position := p.position }, front.byteSize,
          front.byteSize + (directive body).text.byteSize⟩ l := by
  rw [run, Span.start_ofBody, h.reach_eq, ok_bind]
  simp only [Progress.evaluation] at hresult
  simp only [Span.ofBody, hresult]
  rfl

end

end

/-- From states that agree, the run over the spans of what follows comes to the outcome of the run over
its segments. -/
theorem run_eq (source : IncludeSource) {escaped : Bool} {rest : Text} {segments : List Segment}
    (h : Reads escaped rest segments) : ∀ (front : Text) (s : Splicing) (p : Progress),
      Trails front s p →
      s.run source (front ++ rest) (Span.collect front.byteSize segments) =
        .ok (.ofOutcome (p.steps source segments)) := by
  induction h with
  | nil =>
    intro front s p htrails
    rw [List.append_nil]
    exact htrails.run_nil source
  | @plain escaped c rest segments _ _ ih =>
    intro front s p htrails
    have hnext := ih (front ++ [c]) s _ (htrails.plain c)
    rw [List.append_assoc, Text.byteSize_append] at hnext
    rw [Span.collect_plain, Progress.steps_cons]
    simpa [Progress.step, Except.bind] using hnext
  | @directive body rest segments _ _ ih =>
    intro front s p htrails
    rw [Span.collect_directive, Progress.steps_cons]
    cases hresult : (p.evaluation source body).result with
    | error failure =>
      obtain ⟨halt, hstep, hrun⟩ := htrails.run_of_error hresult
      rw [hstep, hrun]
      rfl
    | ok r =>
      have hnext := ih (front ++ (directive body).text) _ _ (trails_replaced source front p body r)
      rw [List.append_assoc, Text.byteSize_append] at hnext
      rw [htrails.run_of_ok hresult, Progress.step_directive_of_ok hresult]
      exact hnext

end Splicing

theorem Run.sliced_eq (source : IncludeSource) (predefined : List (Text × Text)) (t : Text) :
    Run.sliced source predefined t = .ok (Run.ofText source predefined t) := by
  have hrun := Splicing.run_eq source (reads_segments t) [] _ _
    (Splicing.trails_nil (Progress.seeded predefined))
  rw [sliced, Span.run_scanning, ok_bind, Span.spans_eq_collect, ofText]
  exact hrun

/-- **No cut fails and every loop ends.** A cut succeeds exactly if its ends are in order, lie in the text
and stand between characters. All cuts of the scan and of the run over its spans succeed, and they come
to the spans and to the outcome of the document. Each round of either loop gets further and not past the
end of the text it searches. -/
theorem Run.sliced_in_order :
    (∀ (t : Text) (first last : Nat), (∃ part, t.cut first last = .ok part) ↔
      first ≤ last ∧ last ≤ t.byteSize ∧ t.IsBoundary first ∧ t.IsBoundary last) ∧
    (∀ t : Text, (Span.scanning t).run (0, []) = .ok t.spans) ∧
    (∀ (source : IncludeSource) (predefined : List (Text × Text)) (t : Text),
      Run.sliced source predefined t = .ok (Run.ofText source predefined t)) ∧
    (∀ (marker t : Text) (offset : Nat) (r : Round Nat (Option Nat)), marker ≠ [] →
      seek marker t offset = .ok r → offset ≤ t.byteSize ∧
        ∀ next, r = .again next → offset < next ∧ next ≤ t.byteSize) ∧
    ∀ (t : Text) (state : Nat × List Span) (r : Round (Nat × List Span) (List Span)),
      Span.round t state = .ok r → state.1 ≤ t.byteSize ∧
        ∀ next, r = .again next → state.1 < next.1 ∧ next.1 ≤ t.byteSize := by
  refine ⟨fun _ _ _ => Text.exists_cut_eq_ok_iff, Span.run_scanning, sliced_eq, ?_, ?_⟩
  · intro marker t offset r hmarker h
    refine ⟨(isBoundary_of_seek h).le, ?_⟩
    rintro next rfl
    exact lt_of_seek_eq_again hmarker h
  · intro t state r h
    refine ⟨(Span.isBoundary_of_round h).le, ?_⟩
    rintro next rfl
    exact Span.lt_of_round_eq_again h

/-- In this text an escaped opening marker stands behind a character of two bytes, and the directive
holds one of three. -/
theorem Run.sliced_in_order_wide :
    let t : Text := "ß\\\x7b% \x7b%€%\x7d".toList
    seek opening t 0 = .ok (.again 5) ∧ (0 < 5 ∧ 5 ≤ t.byteSize) ∧
      (Span.scanning t).run (0, []) = .ok [⟨6, 13, ['€']⟩] := by
  have hseek : seek opening "ß\\\x7b% \x7b%€%\x7d".toList 0 = .ok (.again 5) := by rfl
  refine ⟨hseek, (Run.sliced_in_order.2.2.2.1 _ _ _ _ opening_ne_nil hseek).2 5 rfl, ?_⟩
  rw [Run.sliced_in_order.2.1]
  rfl

end DocSplice
