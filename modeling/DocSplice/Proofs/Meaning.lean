import DocSplice.Proofs.Reads
import DocSplice.Proofs.Stepping

/-!
# DocSplice.Proofs.Meaning

What a document means, told span by span. Each span is judged by the text of the document alone:
what a name stands for is looked up backwards, in the definitions that stand before the span.

* `Span.Good`, `Span.Yields`, `Span.Blames`: the spans that have a replacement, the replacement, and
  the failure of a span that has none.
* `Text.gaps`, `weave`: the text between the spans, and the document with replacements put in.
* `Progress.Reflects`: the invariant of a run. After some segments, the state is what their spans
  mean.
* `ofText_agrees`: a run does what the document means.
-/

namespace DocSplice

/-! ## Spans -/

namespace Span

/-- The name and the value that a span defines. -/
def definition? (s : Span) : Option (Text × Text) :=
  match Directive.ofText? s.inner with
  | some (.definition name value) => some (name, value)
  | _ => none

/-- What a name stands for behind some spans: the value of the last definition among them, else the
last predefined value. -/
def valueBehind? (predefined : List (Text × Text)) (spans : List Span) (name : Text) :
    Option Text :=
  (lastValue? (spans.filterMap definition?) name).or (lastValue? predefined name)

/-- The span has a replacement behind the spans before it. -/
def Good (source : IncludeSource) (predefined : List (Text × Text)) (earlier : List Span)
    (s : Span) : Prop :=
  match Directive.ofText? s.inner with
  | none => False
  | some (.inclusion path) => ∃ contents, source.read (source.resolve path) = .present contents
  | some (.definition _ _) => True
  | some (.dereference name) =>
    name ∈ predefined.map Prod.fst ∨ name ∈ (earlier.filterMap definition?).map Prod.fst

/-- The text is the replacement of the span behind the spans before it. -/
inductive Yields (source : IncludeSource) (predefined : List (Text × Text)) (earlier : List Span)
    (s : Span) : Text → Prop where
  | inclusion {path contents : Text} : Directive.ofText? s.inner = some (.inclusion path) →
      source.read (source.resolve path) = .present contents →
      Yields source predefined earlier s contents
  | definition {name value : Text} : Directive.ofText? s.inner = some (.definition name value) →
      Yields source predefined earlier s []
  | dereference {name value : Text} : Directive.ofText? s.inner = some (.dereference name) →
      valueBehind? predefined earlier name = some value →
      Yields source predefined earlier s value

/-- The failure is that of a span that is not good. -/
inductive Blames (source : IncludeSource) (position : Position) (s : Span) : Failure → Prop where
  | unrecognized : Directive.ofText? s.inner = none →
      Blames source position s (.unrecognizedDirective s.inner position)
  | absent {path : Text} : Directive.ofText? s.inner = some (.inclusion path) →
      source.read (source.resolve path) = .absent →
      Blames source position s (.unresolvedInclude path (source.resolve path) position)
  | unreadable {path reason : Text} : Directive.ofText? s.inner = some (.inclusion path) →
      source.read (source.resolve path) = .failed reason →
      Blames source position s (.unreadable (source.resolve path) reason)
  | undefined {name : Text} : Directive.ofText? s.inner = some (.dereference name) →
      Blames source position s (.undefinedVariable name position)

section

variable {source : IncludeSource} {predefined : List (Text × Text)} {earlier : List Span}
  {s : Span}

theorem valueBehind?_isSome_iff {name : Text} :
    (valueBehind? predefined earlier name).isSome = true ↔
      name ∈ predefined.map Prod.fst ∨ name ∈ (earlier.filterMap definition?).map Prod.fst := by
  rw [valueBehind?, Option.isSome_or, Bool.or_eq_true, lastValue?_isSome_iff,
    lastValue?_isSome_iff, or_comm]

theorem valueBehind?_concat (name : Text) :
    valueBehind? predefined (earlier ++ [s]) name =
      match s.definition? with
      | some (n, v) => if n = name then some v else valueBehind? predefined earlier name
      | none => valueBehind? predefined earlier name := by
  rw [valueBehind?, List.filterMap_append, lastValue?_append]
  cases hs : s.definition? with
  | none => simp [hs, valueBehind?]
  | some pair =>
    obtain ⟨n, v⟩ := pair
    simp only [List.filterMap_cons, hs, List.filterMap_nil, lastValue?_singleton]
    split <;> simp [valueBehind?]

theorem Yields.good {r : Text} (h : s.Yields source predefined earlier r) :
    s.Good source predefined earlier := by
  cases h with
  | inclusion hd hread => simp only [Good, hd]; exact ⟨_, hread⟩
  | definition hd => simp only [Good, hd]
  | dereference hd hvalue =>
    simp only [Good, hd]
    exact valueBehind?_isSome_iff.mp (by rw [hvalue]; rfl)

/-- If the variables stand for what the spans before mean, evaluation yields the replacement of the
span, or there is none and it fails with the failure of the span. -/
theorem yields_or_blames {b : Bindings} (position : Position)
    (hb : ∀ name, b.value? name = valueBehind? predefined earlier name) :
    (∃ r, (Evaluation.of source position b s.inner (Directive.ofText? s.inner)).result = .ok r ∧
      s.Yields source predefined earlier r) ∨
    ∃ f, (Evaluation.of source position b s.inner (Directive.ofText? s.inner)).result = .error f ∧
      ¬ s.Good source predefined earlier ∧ s.Blames source position f := by
  cases hd : Directive.ofText? s.inner with
  | none => exact .inr ⟨_, rfl, by simp [Good, hd], .unrecognized hd⟩
  | some d =>
    cases d with
    | inclusion path =>
      simp only [Evaluation.of, Directive.evaluate]
      cases hread : source.read (source.resolve path) with
      | present contents => exact .inl ⟨contents, rfl, .inclusion hd hread⟩
      | absent => exact .inr ⟨_, rfl, by simp [Good, hd, hread], .absent hd hread⟩
      | failed reason => exact .inr ⟨_, rfl, by simp [Good, hd, hread], .unreadable hd hread⟩
    | definition name value => exact .inl ⟨[], rfl, .definition hd⟩
    | dereference name =>
      simp only [Evaluation.of, Directive.evaluate, hb]
      cases hvalue : valueBehind? predefined earlier name with
      | some value => exact .inl ⟨value, rfl, .dereference hd hvalue⟩
      | none =>
        refine .inr ⟨_, rfl, ?_, .undefined hd⟩
        simp only [Good, hd, ← valueBehind?_isSome_iff, hvalue]
        exact Bool.false_ne_true

theorem yields_of_evaluation {b : Bindings} {position : Position} {r : Text}
    (hb : ∀ name, b.value? name = valueBehind? predefined earlier name)
    (hr : (Evaluation.of source position b s.inner (Directive.ofText? s.inner)).result = .ok r) :
    s.Yields source predefined earlier r := by
  rcases @yields_or_blames source _ _ s _ position hb with ⟨r', hr', hyields⟩ | ⟨f, hf, -⟩
  · rw [hr] at hr'
    cases hr'
    exact hyields
  · rw [hr] at hf
    cases hf

theorem blames_of_evaluation {b : Bindings} {position : Position} {f : Failure}
    (hb : ∀ name, b.value? name = valueBehind? predefined earlier name)
    (hf : (Evaluation.of source position b s.inner (Directive.ofText? s.inner)).result =
      .error f) :
    ¬ s.Good source predefined earlier ∧ s.Blames source position f := by
  rcases @yields_or_blames source _ _ s _ position hb with ⟨r, hr, -⟩ | ⟨f', hf', hblames⟩
  · rw [hf] at hr
    cases hr
  · rw [hf] at hf'
    cases hf'
    exact hblames

theorem evaluation_value {b : Bindings} (position : Position)
    (hb : ∀ name, b.value? name = valueBehind? predefined earlier name) (name : Text) :
    (Evaluation.of source position b s.inner (Directive.ofText? s.inner)).bindings.value? name =
      valueBehind? predefined (earlier ++ [s]) name := by
  rw [valueBehind?_concat]
  cases hd : Directive.ofText? s.inner with
  | none => simp [Evaluation.of, definition?, hd, hb]
  | some d =>
    cases d with
    | inclusion path => simp [Evaluation.of, Directive.evaluate, definition?, hd, hb]
    | definition n v => simp [Evaluation.of, Directive.evaluate, definition?, hd, hb,
        Bindings.value?_define]
    | dereference n => simp [Evaluation.of, Directive.evaluate, definition?, hd, hb]

end

end Span

/-! ## Gaps -/

/-- The text from a byte offset to the first of some spans, between them, and behind the last. -/
def Text.gapsFrom (t : Text) (offset : Nat) : List Span → List Text
  | [] => [t.dropBytes offset]
  | s :: l => t.slice offset s.start :: t.gapsFrom s.stop l

/-- The text before, between and behind the spans of a document. -/
def Text.gaps (t : Text) : List Text := t.gapsFrom 0 t.spans

/-- Gaps with a replacement between each one and the next. -/
def weave : List Text → List Text → Text
  | gap :: gaps, r :: replacements => gap ++ r ++ weave gaps replacements
  | gaps, _ => gaps.flatten

/-- Segments with replacements in the place of directives. -/
def Segment.fill : List Segment → List Text → Text
  | [], _ => []
  | .plain c :: l, replacements => c :: fill l replacements
  | .directive _ :: l, replacements => replacements.headD [] ++ fill l replacements.tail

theorem Segment.fill_append (offset : Nat) (l m : List Segment) : ∀ (rs rs' : List Text),
    rs.length = (Span.collect offset l).length →
    fill (l ++ m) (rs ++ rs') = fill l rs ++ fill m rs' := by
  induction l generalizing offset with
  | nil =>
    intro rs rs' h
    obtain rfl : rs = [] := by simpa using h
    rfl
  | cons s l ih =>
    intro rs rs' h
    cases s with
    | plain c =>
      rw [Span.collect_plain] at h
      simp [fill, ih _ rs rs' h]
    | directive body =>
      rw [Span.collect_directive] at h
      cases rs with
      | nil => simp at h
      | cons r rs => simp [fill, ih _ rs rs' (by simpa using h)]

/-- The text before, between and behind the directives among some segments. -/
def Segment.gaps : List Segment → List Text
  | [] => [[]]
  | .plain c :: l => (gaps l).modifyHead (c :: ·)
  | .directive _ :: l => [] :: gaps l

theorem Segment.gaps_ne_nil (l : List Segment) : gaps l ≠ [] := by
  cases l with
  | nil => simp [gaps]
  | cons s l =>
    cases s with
    | plain c => simp [gaps, gaps_ne_nil l]
    | directive body => simp [gaps]

theorem Text.gapsFrom_plain {before rest : Text} {c : Char} {spans : List Span}
    (h : ∀ s ∈ spans, before.byteSize + c.utf8Size ≤ s.start) :
    gapsFrom (before ++ c :: rest) before.byteSize spans =
      (gapsFrom (before ++ c :: rest) (before.byteSize + c.utf8Size) spans).modifyHead
        (c :: ·) := by
  have hdrop : dropBytes (before.byteSize + c.utf8Size) (before ++ c :: rest) = rest := by
    have := dropBytes_append (before ++ [c]) rest
    simpa using this
  cases spans with
  | nil => simp [gapsFrom, hdrop]
  | cons s spans =>
    obtain ⟨n, hn⟩ : ∃ n, s.start = before.byteSize + (c.utf8Size + n) :=
      ⟨s.start - (before.byteSize + c.utf8Size), by have := h s (by simp); omega⟩
    have hlong : slice (before ++ c :: rest) before.byteSize s.start = c :: rest.takeBytes n := by
      rw [slice, dropBytes_append, hn, Nat.add_sub_cancel_left, takeBytes_cons]
    have hshort : slice (before ++ c :: rest) (before.byteSize + c.utf8Size) s.start =
        rest.takeBytes n := by
      rw [slice, hdrop, hn]
      congr 1
      omega
    simp [gapsFrom, hlong, hshort]

theorem Text.gapsFrom_collect (l : List Segment) : ∀ before : Text,
    gapsFrom (before ++ Segment.flatten l) before.byteSize (Span.collect before.byteSize l) =
      Segment.gaps l := by
  induction l with
  | nil =>
    intro before
    have hdrop := dropBytes_append before []
    rw [List.append_nil] at hdrop
    simp [gapsFrom, Segment.gaps, hdrop]
  | cons s l ih =>
    intro before
    rw [Segment.flatten_cons]
    cases s with
    | plain c =>
      have hnext := ih (before ++ [c])
      have hstart : ∀ s ∈ Span.collect (before.byteSize + c.utf8Size) l,
          before.byteSize + c.utf8Size ≤ s.start := fun s hs => Span.le_start_of_mem_collect hs
      rw [Span.collect_plain, Segment.gaps, ← hnext]
      simpa [Segment.text] using gapsFrom_plain hstart
    | directive body =>
      have hnext := ih (before ++ (Segment.directive body).text)
      rw [List.append_assoc, byteSize_append] at hnext
      rw [Span.collect_directive, gapsFrom, Span.start_ofBody, Span.stop_ofBody, slice_self, hnext,
        Segment.gaps]

/-- The gaps are what is left of a document without its directives. -/
theorem Text.gaps_eq (t : Text) : t.gaps = Segment.gaps t.segments := by
  have h := gapsFrom_collect t.segments []
  rw [flatten_segments] at h
  exact h

theorem weave_modifyHead (lead : Text) {around : List Text} (hne : around ≠ [])
    (files : List Text) :
    weave (around.modifyHead (lead ++ ·)) files = lead ++ weave around files := by
  cases around with
  | nil => exact absurd rfl hne
  | cons e es => cases files <;> simp [weave]

theorem Segment.weave_gaps (l : List Segment) : ∀ (offset : Nat) (rs : List Text),
    rs.length = (Span.collect offset l).length → weave (gaps l) rs = fill l rs := by
  induction l with
  | nil =>
    intro offset rs h
    obtain rfl : rs = [] := by simpa using h
    rfl
  | cons s l ih =>
    intro offset rs h
    cases s with
    | plain c =>
      rw [Span.collect_plain] at h
      rw [fill, ← ih _ rs h]
      exact weave_modifyHead [c] (gaps_ne_nil l) rs
    | directive body =>
      rw [Span.collect_directive] at h
      cases rs with
      | nil => simp at h
      | cons r rs => simp [gaps, weave, fill, ih _ rs (by simpa using h)]

theorem weave_gaps (t : Text) (rs : List Text) (h : rs.length = t.spans.length) :
    weave t.gaps rs = Segment.fill t.segments rs := by
  rw [Text.gaps_eq]
  exact Segment.weave_gaps t.segments 0 rs h

/-! ## The invariant of a run -/

/-- The texts are the replacements of the spans, one for each. -/
def Replaces (source : IncludeSource) (predefined : List (Text × Text)) (spans : List Span)
    (replacements : List Text) : Prop :=
  replacements.length = spans.length ∧ ∀ (k : Nat) (s : Span), spans[k]? = some s →
    ∃ r, replacements[k]? = some r ∧ s.Yields source predefined (spans.take k) r

/-- After some segments, the state of a run is what their spans mean. -/
structure Progress.Reflects (source : IncludeSource) (predefined : List (Text × Text))
    (done : List Segment) (p : Progress) : Prop where
  position : p.position = Position.start.after (Segment.flatten done)
  directives : p.directives = (Span.collect 0 done).length
  value : ∀ name, p.bindings.value? name = Span.valueBehind? predefined (Span.collect 0 done) name
  written : ∃ replacements, Replaces source predefined (Span.collect 0 done) replacements ∧
    p.written.reverse = Segment.fill done replacements

section

variable {source : IncludeSource} {predefined : List (Text × Text)} {done : List Segment}
  {p q : Progress}

theorem replaces_concat {spans : List Span} {rs : List Text} {s : Span} {r : Text}
    (h : Replaces source predefined spans rs) (hr : s.Yields source predefined spans r) :
    Replaces source predefined (spans ++ [s]) (rs ++ [r]) := by
  obtain ⟨hlen, hall⟩ := h
  refine ⟨by simp [hlen], ?_⟩
  intro k s' hs'
  rcases Nat.lt_trichotomy k spans.length with hk | rfl | hk
  · rw [List.getElem?_append_left hk] at hs'
    rw [List.getElem?_append_left (by omega), List.take_append_of_le_length (by omega)]
    exact hall k s' hs'
  · obtain rfl : s = s' := by simpa using hs'
    exact ⟨r, by simp [← hlen], by simpa using hr⟩
  · rw [List.getElem?_eq_none (by simp; omega)] at hs'
    cases hs'

theorem Progress.reflects_seeded : Reflects source predefined [] (seeded predefined) := by
  have h := seeds_seeded predefined
  refine ⟨h.position, h.directives, h.value, [], ⟨rfl, ?_⟩, ?_⟩
  · intro k s hs
    simp at hs
  · rw [h.written]
    rfl

theorem Progress.Reflects.plain (h : Reflects source predefined done p) (c : Char) :
    Reflects source predefined (done ++ [.plain c])
      { p with position := p.position.next c, written := c :: p.written } := by
  have hspans : Span.collect 0 (done ++ [.plain c]) = Span.collect 0 done := by
    rw [Span.collect_append]
    simp
  obtain ⟨rs, hrs, hw⟩ := h.written
  refine ⟨?_, ?_, ?_, rs, ?_, ?_⟩
  · simp [Segment.flatten, Segment.text, h.position]
  · rw [hspans, ← h.directives]
  · rw [hspans]
    exact h.value
  · rwa [hspans]
  · have hfill := Segment.fill_append 0 done [.plain c] rs [] hrs.1
    simp only [List.append_nil] at hfill
    simp [hfill, hw, Segment.fill]

theorem Span.collect_concat (done : List Segment) (body : Text) :
    Span.collect 0 (done ++ [.directive body]) =
      Span.collect 0 done ++ [Span.ofBody (Segment.flatten done).byteSize body] := by
  rw [Span.collect_append, Nat.zero_add, Span.collect_directive, Span.collect_nil]

theorem Span.spans_of_segments {t body : Text} {before after : List Segment}
    (h : t.segments = before ++ .directive body :: after) :
    t.spans = collect 0 before ++ ofBody (Segment.flatten before).byteSize body ::
      collect ((Segment.flatten before).byteSize + (Segment.directive body).text.byteSize) after := by
  rw [spans_eq_collect, h, collect_append, Nat.zero_add, collect_directive]

theorem Progress.Reflects.directive (h : Reflects source predefined done p) {body r : Text}
    (hr : (p.evaluation source body).result = .ok r) :
    Reflects source predefined (done ++ [.directive body]) (p.replaced source body r) := by
  obtain ⟨rs, hrs, hw⟩ := h.written
  have hyields : (Span.ofBody (Segment.flatten done).byteSize body).Yields source predefined
      (Span.collect 0 done) r := Span.yields_of_evaluation h.value hr
  refine ⟨?_, ?_, ?_, rs ++ [r], ?_, ?_⟩
  · simp [Segment.flatten, replaced, h.position]
  · simp [Span.collect_concat, replaced, h.directives]
  · rw [Span.collect_concat]
    exact @Span.evaluation_value source predefined _ (.ofBody _ body) _ p.position h.value
  · rw [Span.collect_concat]
    exact replaces_concat hrs hyields
  · rw [Segment.fill_append 0 done _ rs [r] hrs.1]
    simp [Segment.fill, replaced, hw]

theorem Progress.Reflects.step (h : Reflects source predefined done p) {s : Segment}
    (hs : step source p s = .ok q) : Reflects source predefined (done ++ [s]) q := by
  cases s with
  | plain c =>
    cases hs
    exact h.plain c
  | directive body =>
    obtain ⟨r, hr, rfl⟩ := exists_replacement_of_step hs
    exact h.directive hr

theorem Progress.Reflects.blames (h : Reflects source predefined done p) {body : Text}
    {halt : Halt} (hs : Progress.step source p (.directive body) = .error halt) :
    ¬ (Span.ofBody (Segment.flatten done).byteSize body).Good source predefined
        (Span.collect 0 done) ∧
      (Span.ofBody (Segment.flatten done).byteSize body).Blames source p.position halt.failure :=
  Span.blames_of_evaluation h.value (Progress.evaluation_of_step_error hs).1

end

/-! ## Whole documents -/

section

variable {source : IncludeSource} {predefined : List (Text × Text)} {t : Text}

theorem Progress.reflects_of_steps {l : List Segment} {p : Progress}
    (h : (seeded predefined).steps source l = .ok p) : p.Reflects source predefined l := by
  have hstep : ∀ (done : List Segment) (s : Segment) (p q : Progress),
      p.Reflects source predefined done → p.step source s = .ok q →
      q.Reflects source predefined (done ++ [s]) := fun done s p q hp hs => hp.step hs
  exact invariant_of_steps hstep l [] _ _ reflects_seeded h

theorem Replaces.good {spans : List Span} {rs : List Text}
    (h : Replaces source predefined spans rs) (k : Nat) (s : Span) (hs : spans[k]? = some s) :
    s.Good source predefined (spans.take k) := by
  obtain ⟨r, -, hr⟩ := h.2 k s hs
  exact hr.good

theorem Run.exists_of_error {halt : Halt}
    (h : (Progress.seeded predefined).steps source t.segments = .error halt) :
    ∃ (k : Nat) (s : Span) (position : Position), t.spans[k]? = some s ∧
      Position.ofByteOffset? t s.start = some position ∧
      (∀ (j : Nat) (r : Span), j < k → t.spans[j]? = some r →
        r.Good source predefined (t.spans.take j)) ∧
      ¬ s.Good source predefined (t.spans.take k) ∧ s.Blames source position halt.failure := by
  obtain ⟨before, segment, after, q, hsplit, hq, hs⟩ := Progress.exists_of_steps_error h
  obtain ⟨body, rfl⟩ := Progress.exists_directive_of_step_error hs
  have hreflects : q.Reflects source predefined before := Progress.reflects_of_steps hq
  obtain ⟨hbad, hblames⟩ := hreflects.blames hs
  obtain ⟨rs, hrs, -⟩ := hreflects.written
  have hspans := Span.spans_of_segments hsplit
  have htake : ∀ j, j ≤ (Span.collect 0 before).length →
      t.spans.take j = (Span.collect 0 before).take j := by
    intro j hj
    rw [hspans, List.take_append_of_le_length hj]
  refine ⟨(Span.collect 0 before).length, .ofBody (Segment.flatten before).byteSize body, q.position,
    ?_, ?_, ?_, ?_, hblames⟩
  · simp [hspans]
  · have ht : t = Segment.flatten before ++ Segment.flatten (.directive body :: after) := by
      rw [← flatten_segments t, hsplit, Segment.flatten, Segment.flatten, Segment.flatten,
        List.flatMap_append]
    rw [ht, hreflects.position]
    exact Position.ofByteOffset?_byteSize _ _
  · intro j r hj hr
    rw [htake j (by omega)]
    rw [hspans, List.getElem?_append_left hj] at hr
    exact hrs.good j r hr
  · rw [htake _ (Nat.le_refl _), List.take_length]
    exact hbad

/-- **A run does what the document means.** It succeeds if every span is good. Then each span is
replaced by what it yields, and a name is bound to what it stands for behind all spans. Otherwise
the run fails as the first span that is not good. -/
theorem ofText_agrees (source : IncludeSource) (predefined : List (Text × Text)) (t : Text) :
    ((∃ out, (Run.ofText source predefined t).result = .ok out) ↔
      ∀ (k : Nat) (s : Span), t.spans[k]? = some s → s.Good source predefined (t.spans.take k)) ∧
    (∀ out, (Run.ofText source predefined t).result = .ok out →
      out.directives = t.spans.length ∧
      (∃ replacements, Replaces source predefined t.spans replacements ∧
        out.text = Marker.unescape (weave t.gaps replacements)) ∧
      ∀ name, out.bindings.value? name = Span.valueBehind? predefined t.spans name) ∧
    ∀ (k : Nat) (s : Span), t.spans[k]? = some s → ¬ s.Good source predefined (t.spans.take k) →
      (∀ (j : Nat) (r : Span), j < k → t.spans[j]? = some r →
        r.Good source predefined (t.spans.take j)) →
      ∃ position failure, Position.ofByteOffset? t s.start = some position ∧
        s.Blames source position failure ∧
        (Run.ofText source predefined t).result = .error failure := by
  cases hrun : (Progress.seeded predefined).steps source t.segments with
  | ok p =>
    have hresult := Run.result_of_ok hrun
    have hreflects := Progress.reflects_of_steps hrun
    obtain ⟨rs, hrs, hw⟩ := hreflects.written
    refine ⟨⟨fun _ => hrs.good, fun _ => ⟨_, hresult⟩⟩, ?_, ?_⟩
    · intro out hout
      obtain rfl := Except.ok.inj (hresult.symm.trans hout)
      refine ⟨hreflects.directives, ⟨rs, hrs, ?_⟩, hreflects.value⟩
      rw [weave_gaps t rs hrs.1, hw]
    · intro k s hs hbad
      exact absurd (hrs.good k s hs) hbad
  | error halt =>
    have hresult := Run.result_of_error hrun
    obtain ⟨k, s, position, hs, hposition, hgood, hbad, hblames⟩ := Run.exists_of_error hrun
    refine ⟨⟨?_, ?_⟩, ?_, ?_⟩
    · rintro ⟨out, hout⟩
      rw [hresult] at hout
      cases hout
    · intro hall
      exact absurd (hall k s hs) hbad
    · intro out hout
      rw [hresult] at hout
      cases hout
    · intro k' s' hs' hbad' hgood'
      -- the first span that is not good is the one that the run stopped at
      obtain rfl : k = k' := by
        rcases Nat.lt_trichotomy k k' with hlt | heq | hgt
        · exact absurd (hgood' k s hlt hs) hbad
        · exact heq
        · exact absurd (hgood k' s' hgt hs') hbad'
      obtain rfl : s = s' := Option.some.inj (hs.symm.trans hs')
      exact ⟨position, halt.failure, hposition, hblames, hresult⟩

end

end DocSplice
