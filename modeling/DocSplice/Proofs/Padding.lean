import DocSplice.Proofs.Locations
import DocSplice.Proofs.Predefined

/-!
# DocSplice.Proofs.Padding

Blanks inside the markers of a directive do not matter. They neither make a marker nor break one, and
the body is trimmed before it is read. All that moves is what stands behind them on the line.

* `Text.IsPadding`: blanks without a line feed.
* `Segment.IsBody.padded`: a padded body is one. `Segment.exists_segments_of_covered` finds the body
  among the segments of the document.
* `Position.widen`: where a position is found after a directive got longer.
* `Progress.related_widen`: the run over a document in which one directive got longer.
* `ofText_padded`: the same spans, gaps and outcome.
-/

namespace DocSplice

open Marker Segment

/-- Blanks, of which none ends the line. -/
def Text.IsPadding (w : Text) : Prop := ∀ c ∈ w, isBlank c = true ∧ c ≠ '\n'

/-! ## Padded bodies -/

theorem Text.IsPadding.not_mem {w : Text} (hw : w.IsPadding) {c : Char} (hc : isBlank c = false) :
    c ∉ w := by
  intro hmem
  rw [(hw c hmem).1] at hc
  cases hc

theorem Segment.IsBody.padded {b w w' : Text} (hb : IsBody b) (hw : w.IsPadding)
    (hw' : w'.IsPadding) : IsBody (w ++ b ++ w') := by
  rw [List.append_assoc]
  refine ⟨by simp [hb.nonempty], ?_, ?_, ?_⟩
  · have hline : ∀ {v : Text}, v.IsPadding → '\n' ∉ v := fun hv hmem => (hv '\n' hmem).2 rfl
    simp [hline hw, hline hw', hb.oneLine]
  · exact not_bare_around (hw.not_mem (by decide)) (hw'.not_mem (by decide)) hb.unclosed
  · intro hlast
    rw [← List.append_assoc, List.getLast?_append] at hlast
    cases htrail : w'.getLast? with
    | some c =>
      rw [htrail] at hlast
      cases hlast
      exact hw'.not_mem (by decide) (List.mem_of_getLast? htrail)
    | none =>
      rw [htrail, List.getLast?_append_of_ne_nil _ hb.nonempty] at hlast
      exact hb.closable hlast

/-- A directive that a span covers exactly is a segment of the document. -/
theorem Segment.exists_segments_of_covered {a b c : Text} {s : Span}
    (hs : s ∈ (a ++ (opening ++ b ++ closing) ++ c).spans) (hstart : s.start = a.byteSize)
    (hstop : s.stop = (a ++ (opening ++ b ++ closing)).byteSize) :
    ∃ l m, (a ++ (opening ++ b ++ closing) ++ c).segments = l ++ .directive b :: m ∧
      flatten l = a ∧ flatten m = c := by
  obtain ⟨l, body, m, hsegments, rfl⟩ := Span.exists_of_mem_collect hs
  have hflatten := flatten_segments (a ++ (opening ++ b ++ closing) ++ c)
  rw [hsegments, flatten_append, flatten_cons, List.append_assoc] at hflatten
  rw [Span.start_ofBody, Nat.zero_add] at hstart
  obtain ⟨hl, hrest⟩ := Text.append_inj_of_byteSize hflatten hstart
  rw [Span.stop_ofBody, Nat.zero_add, Text.byteSize_append, hstart] at hstop
  obtain ⟨htext, hm⟩ := Text.append_inj_of_byteSize hrest (Nat.add_left_cancel hstop)
  rw [text_directive] at htext
  obtain rfl : body = b := List.append_cancel_left (List.append_cancel_right htext)
  exact ⟨l, m, hsegments, hl, hm⟩

/-! ## Spans and gaps -/

section

variable {t t' b b' : Text} {l m : List Segment}

theorem Span.map_inner_collect (l : List Segment) : ∀ offset offset' : Nat,
    (collect offset l).map Span.inner = (collect offset' l).map Span.inner := by
  induction l with
  | nil => exact fun _ _ => rfl
  | cons s l ih =>
    intro offset offset'
    cases s with
    | plain c =>
      rw [collect_plain, collect_plain]
      exact ih _ _
    | directive body =>
      rw [collect_directive, collect_directive, List.map_cons, List.map_cons]
      exact congrArg _ (ih _ _)

theorem Span.map_inner_spans_exchange (ht : t.segments = l ++ .directive b :: m)
    (ht' : t'.segments = l ++ .directive b' :: m) (htrim : b'.trim = b.trim) :
    t'.spans.map Span.inner = t.spans.map Span.inner := by
  rw [spans_of_segments ht, spans_of_segments ht', List.map_append, List.map_append, List.map_cons,
    List.map_cons, ofBody, ofBody, htrim]
  exact congrArg _ (congrArg _ (map_inner_collect m _ _))

theorem Segment.gaps_exchange (l m : List Segment) (b b' : Text) :
    gaps (l ++ .directive b' :: m) = gaps (l ++ .directive b :: m) := by
  induction l with
  | nil => rfl
  | cons s l ih =>
    cases s with
    | plain c => rw [List.cons_append, List.cons_append, gaps, gaps, ih]
    | directive body => rw [List.cons_append, List.cons_append, gaps, gaps, ih]

end

/-! ## Positions behind a directive that got longer -/

namespace Position

/-- Where the position `q` is found after what stands at `p` got some columns longer: further to the
right, if it is behind `p` on the same line. -/
def widen (p : Position) (columns : Nat) (q : Position) : Position :=
  if q.line = p.line ∧ p.column < q.column then ⟨q.line, q.column + columns⟩ else q

theorem widen_of_not_before {p q : Position} (h : ¬ p.Before q) (columns : Nat) :
    widen p columns q = q := by
  rw [widen, if_neg]
  rintro ⟨hline, hcolumn⟩
  exact h (.inr ⟨hline.symm, hcolumn⟩)

theorem widen_of_before {p q : Position} (h : p.Before q) (columns : Nat) :
    widen p columns q = indent p.line columns q := by
  rw [widen, indent]
  rcases h with hline | ⟨hline, hcolumn⟩
  · rw [if_neg (by omega), if_neg (by omega)]
  · rw [if_pos ⟨hline.symm, hcolumn⟩, if_pos hline.symm]

theorem not_before_of_after (p : Position) (t : Text) : ¬ (p.after t).Before p := by
  intro h
  cases t with
  | nil => exact not_before_self p h
  | cons c t => exact not_before_self p ((before_after p (List.cons_ne_nil c t)).trans h)

end Position

/-! ## Runs -/

section

variable {source : IncludeSource} {l m : List Segment} {b b' : Text} {columns : Nat}

theorem Progress.evaluation_of_trim_eq (q : Progress) (htrim : b'.trim = b.trim) :
    q.evaluation source b' = q.evaluation source b := by
  rw [evaluation, htrim, ← evaluation]

/-- Behind the directive that got longer, the state is the same on the same line further to the
right. -/
theorem Progress.shifted_replaced (source : IncludeSource) (q : Progress) (r : Text)
    (hb : IsBody b) (hb' : IsBody b') (htrim : b'.trim = b.trim)
    (hlength : b'.length = b.length + columns) :
    Shifted q.position.line (Position.indent q.position.line columns) [] 0
      (q.replaced source b' r) (q.replaced source b r) := by
  have hline : ∀ {body : Text}, IsBody body → '\n' ∉ (Segment.directive body).text := by
    intro body hbody
    simpa [text] using hbody.oneLine
  refine ⟨Position.line_le_after q.position _, ?_, ?_, ?_, (Nat.zero_add _).symm⟩
  · simp only [replaced]
    rw [Position.after_of_oneLine (hline hb'), Position.after_of_oneLine (hline hb)]
    simp only [Position.indent, if_true, text, List.length_cons, List.length_append, hlength,
      Position.mk.injEq, true_and]
    omega
  · simp only [replaced, evaluation_of_trim_eq q htrim]
  · simp only [replaced, List.append_nil]

/-- The states lead to the same output. -/
structure Progress.SameOutput (p q : Progress) : Prop where
  written : p.written = q.written
  bindings : p.bindings = q.bindings
  directives : p.directives = q.directives

/-- Behind the directive that got longer, what fails on its line is reported further to the right. -/
theorem Progress.related_replaced (q : Progress) (r : Text) (hb : IsBody b) (hb' : IsBody b')
    (htrim : b'.trim = b.trim) (hlength : b'.length = b.length + columns) (m : List Segment) :
    Related (fun h k => h.failure = k.failure.relocate (Position.widen q.position columns))
      SameOutput (steps source (q.replaced source b' r) m)
      (steps source (q.replaced source b r) m) := by
  have hshifted := related_shifted source (Position.next_indent q.position.line columns)
    (shifted_replaced source q r hb hb' htrim hlength) m
  refine hshifted.imp ?_ ?_
  · intro h k hk hfailure
    refine hfailure.trans (Failure.relocate_congr fun reported hreported => ?_)
    obtain ⟨before, behind, -, rfl⟩ := position_of_steps_error hk hreported
    refine (Position.widen_of_before ?_ columns).symm
    change q.position.Before ((q.position.after (Segment.directive b).text).after before)
    rw [← Position.after_append]
    exact Position.before_after q.position (by simp [text])
  · intro p' q' hsame
    refine ⟨?_, hsame.bindings, ?_⟩
    · rw [hsame.written, List.append_nil]
    · rw [hsame.directives, Nat.zero_add]

/-- A run does the same if one directive gets longer, and what fails behind the directive on its line
is reported further to the right. -/
theorem Progress.related_widen (p : Progress) (hb : IsBody b) (hb' : IsBody b')
    (htrim : b'.trim = b.trim) (hlength : b'.length = b.length + columns) :
    Related
      (fun h k => h.failure = k.failure.relocate
        (Position.widen (p.position.after (flatten l)) columns))
      SameOutput (steps source p (l ++ .directive b' :: m))
      (steps source p (l ++ .directive b :: m)) := by
  rw [steps_append, steps_append]
  cases hl : steps source p l with
  | error halt =>
    refine .error (Failure.relocate_eq_self fun reported hreported => ?_).symm
    obtain ⟨before, behind, hflatten, rfl⟩ := position_of_steps_error hl hreported
    rw [hflatten, Position.after_append]
    exact Position.widen_of_not_before (Position.not_before_of_after _ behind) columns
  | ok q =>
    change Related _ _ (steps source q (.directive b' :: m)) (steps source q (.directive b :: m))
    rw [← position_of_steps hl, steps_cons, steps_cons]
    have heval : q.evaluation source b' = q.evaluation source b := evaluation_of_trim_eq q htrim
    cases hresult : (q.evaluation source b).result with
    | error f =>
      obtain ⟨halt, hf, hhalt⟩ := step_directive_of_error hresult
      obtain ⟨halt', hf', hhalt'⟩ := step_directive_of_error (heval ▸ hresult)
      rw [hhalt, hhalt']
      refine .error ((hf'.trans hf.symm).trans ?_)
      refine (Failure.relocate_eq_self fun reported hreported => ?_).symm
      rw [position_of_step_error hhalt hreported]
      exact Position.widen_of_not_before (Position.not_before_self q.position) columns
    | ok r =>
      rw [step_directive_of_ok hresult, step_directive_of_ok (heval ▸ hresult)]
      exact related_replaced q r hb hb' htrim hlength m

theorem Run.result_of_related {predefined : List (Text × Text)} {t t' : Text}
    {move : Position → Position}
    (h : Progress.Related (fun h k => h.failure = k.failure.relocate move) Progress.SameOutput
      ((Progress.seeded predefined).steps source t'.segments)
      ((Progress.seeded predefined).steps source t.segments)) :
    (ofText source predefined t').result =
      (ofText source predefined t).result.mapError (Failure.relocate move) := by
  cases hrun : (Progress.seeded predefined).steps source t.segments with
  | error halt =>
    rw [hrun] at h
    obtain ⟨halt', hhalt', hfailure⟩ := h.exists_error
    rw [result_of_error hhalt', result_of_error hrun, hfailure]
    rfl
  | ok q =>
    rw [hrun] at h
    obtain ⟨p, hp, hsame⟩ := h.exists_ok
    rw [result_of_ok hp, result_of_ok hrun, hsame.written, hsame.bindings, hsame.directives]
    rfl

end

/-- **Padding inside the markers is irrelevant.** If a span of a document covers exactly the directive
with some body, blanks around the body that do not end the line change neither what the spans ask for
nor the text between them. The run does the same, and only a failure behind the directive on its line
is reported further to the right, by the number of blanks. -/
theorem ofText_padded (source : IncludeSource) (predefined : List (Text × Text))
    {a b c w w' : Text} {s : Span} (hs : s ∈ (a ++ (opening ++ b ++ closing) ++ c).spans)
    (hstart : s.start = a.byteSize) (hstop : s.stop = (a ++ (opening ++ b ++ closing)).byteSize)
    (hw : w.IsPadding) (hw' : w'.IsPadding) :
    let t := a ++ (opening ++ b ++ closing) ++ c
    let padded := a ++ (opening ++ (w ++ b ++ w') ++ closing) ++ c
    padded.spans.map Span.inner = t.spans.map Span.inner ∧ padded.gaps = t.gaps ∧
      (Run.ofText source predefined padded).result = (Run.ofText source predefined t).result.mapError
        (Failure.relocate (Position.widen (Position.start.after a) (w.length + w'.length))) := by
  intro t padded
  obtain ⟨l, m, ht, hl, hm⟩ := exists_segments_of_covered hs hstart hstop
  have hreads := reads_segments t
  rw [ht] at hreads
  have hb : IsBody b := hreads.isBody_of_mem (by simp)
  have hb' : IsBody (w ++ b ++ w') := hb.padded hw hw'
  have htrim : (w ++ b ++ w').trim = b.trim :=
    Text.trim_around (fun c hc => (hw c hc).1) fun c hc => (hw' c hc).1
  have hlength : (w ++ b ++ w').length = b.length + (w.length + w'.length) := by
    simp only [List.length_append]
    omega
  have hpadded : padded.segments = l ++ .directive (w ++ b ++ w') :: m := by
    have hexchange := segments_exchange ht hb' c
    rw [hl, text_directive, ← List.append_assoc, ← hm, hreads.behind.segments_eq, hm] at hexchange
    exact hexchange
  refine ⟨Span.map_inner_spans_exchange ht hpadded htrim, ?_, ?_⟩
  · rw [Text.gaps_eq, Text.gaps_eq, hpadded, ht, gaps_exchange l m b]
  · apply Run.result_of_related
    rw [hpadded, ht, ← hl, ← (Progress.seeds_seeded predefined).position]
    exact Progress.related_widen _ hb hb' htrim hlength

theorem ofText_padded_undefined :
    let source := Shelf.source { base := ⟨[]⟩ }
    let a : Text := "{%%}é ".toList
    let b : Text := "define x \x7d".toList
    let c : Text := " {% x %}{% y %}".toList
    let w : Text := ['\t', ' ']
    let w' : Text := ['\u3000']
    let s : Span := ⟨7, 21, b⟩
    s ∈ (a ++ (opening ++ b ++ closing) ++ c).spans ∧ s.start = a.byteSize ∧
      s.stop = (a ++ (opening ++ b ++ closing)).byteSize ∧ w.IsPadding ∧ w'.IsPadding ∧
      (Run.ofText source [] (a ++ (opening ++ (w ++ b ++ w') ++ closing) ++ c)).result =
        .error (.undefinedVariable ['y'] ⟨1, 32⟩) := by
  intro source a b c w w' s
  have hspans : (a ++ (opening ++ b ++ closing) ++ c).spans =
      [s, ⟨22, 29, ['x']⟩, ⟨29, 36, ['y']⟩] := rfl
  have hs : s ∈ (a ++ (opening ++ b ++ closing) ++ c).spans := by
    rw [hspans]
    exact .head _
  have hw : w.IsPadding :=
    List.forall_mem_cons.2 ⟨⟨rfl, by decide⟩, List.forall_mem_singleton.2 ⟨rfl, by decide⟩⟩
  have hw' : w'.IsPadding := List.forall_mem_singleton.2 ⟨rfl, by decide⟩
  exact ⟨hs, rfl, rfl, hw, hw', (ofText_padded source [] hs rfl rfl hw hw').2.2.trans (by rfl)⟩

end DocSplice
