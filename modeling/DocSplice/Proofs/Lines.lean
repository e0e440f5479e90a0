import Mathlib.Data.List.Basic
import DocSplice.Proofs.Meaning
import DocSplice.Proofs.Shift

/-!
# DocSplice.Proofs.Lines

A document is processed line by line. Where one text ends a line, another one may begin: no
directive, no escape and no replacement crosses the cut.

* `Segment.Reads.append_line`: reading.
* `Marker.unescape_append_line`: the escape pass.
* `Position.after_line`: positions.
* `ofText_append_line`: the run over two texts is the run over the first and, with the variables
  that it leaves behind, the run over the second.
-/

namespace DocSplice

open Marker Segment

/-! ## Reading -/

theorem Segment.Reads.append_line {escaped : Bool} {a b : Text} {l m : List Segment}
    (ha : Reads escaped a l) (hb : Reads false b m) (hline : a.getLast? = some '\n') :
    Reads escaped (a ++ b) (l ++ m) := by
  induction ha with
  | nil => cases hline
  | @plain escaped c t l hc ht ih =>
    cases t with
    | nil =>
      obtain rfl : l = [] := (reads_iff.mp ht).symm
      obtain rfl : c = '\n' := by simpa using hline
      exact .plain (fun _ => rfl) hb
    | cons d t =>
      have htail : (d :: t).getLast? = some '\n' := by simpa using hline
      have hmem : '\n' ∈ c :: d :: t := List.mem_of_getLast? hline
      refine .plain (fun he => ?_) (ih htail)
      exact (directiveAt?_append hmem b).trans (hc he)
  | @directive body t l hbody ht ih =>
    cases t with
    | nil =>
      rw [List.append_nil, getLast?_text_directive] at hline
      simp at hline
    | cons d t =>
      have htail : (d :: t).getLast? = some '\n' := by
        rwa [List.getLast?_append_of_ne_nil _ (by simp)] at hline
      rw [List.append_assoc]
      exact .directive hbody (ih htail)

theorem segments_append_line {a : Text} (ha : a.getLast? = some '\n') (b : Text) :
    (a ++ b).segments = a.segments ++ b.segments :=
  ((reads_segments a).append_line (reads_segments b) ha).segments_eq

theorem Segment.segments_of_line {a : Text} (ha : a.getLast? = some '\n') :
    ∃ m, a.segments = m ++ [Segment.plain '\n'] := by
  have hflatten := flatten_segments a
  rcases List.eq_nil_or_concat a.segments with hnil | ⟨m, s, hs⟩
  · rw [hnil] at hflatten
    rw [← hflatten] at ha
    cases ha
  · rw [List.concat_eq_append] at hs
    rw [hs, Segment.flatten, List.flatMap_append, List.flatMap_singleton] at hflatten
    rw [← hflatten, List.getLast?_append] at ha
    refine ⟨m, ?_⟩
    cases s with
    | plain c =>
      obtain rfl : c = '\n' := by simpa [text] using ha
      exact hs
    | directive body =>
      rw [getLast?_text_directive] at ha
      simp at ha

/-! ## The escape pass -/

theorem Marker.begins_append_line {a : Text} (ha : a.getLast? = some '\n') (b : Text) :
    begins (a ++ b) = begins a := by
  rcases a with _ | ⟨c, _ | ⟨d, a⟩⟩
  · cases ha
  · obtain rfl : c = '\n' := by simpa using ha
    rfl
  · simp only [begins, List.cons_append]
    by_cases hc : c = '{'
    · by_cases hd : d = '%' <;> simp [opens, closes, hc, hd]
    · by_cases hc' : c = '%'
      · by_cases hd : d = '}' <;> simp [opens, closes, hc', hd]
      · simp [opens, closes, hc, hc']

theorem Marker.unescape_append_line {a : Text} (ha : a.getLast? = some '\n') (b : Text) :
    unescape (a ++ b) = unescape a ++ unescape b := by
  induction a with
  | nil => cases ha
  | cons c a ih =>
    rw [List.cons_append, unescape_cons, unescape_cons]
    cases a with
    | nil =>
      obtain rfl : c = '\n' := by simpa using ha
      rfl
    | cons d a =>
      have htail : (d :: a).getLast? = some '\n' := by simpa using ha
      rw [begins_append_line htail, ih htail]
      split <;> rfl

/-! ## Positions -/

/-- The position some lines further down. -/
def Position.below (lines : Nat) (p : Position) : Position := ⟨p.line + lines, p.column⟩

theorem Position.next_below (lines : Nat) : NextCommutes 0 (below lines) := by
  intro p c _
  by_cases hc : c = '\n'
  · simp only [next, below, hc, if_true, mk.injEq, and_true]
    omega
  · simp [next, below, hc]

theorem Position.line_after (p : Position) (t : Text) :
    (p.after t).line = p.line + t.count '\n' := by
  induction t generalizing p with
  | nil => rfl
  | cons c t ih =>
    rw [after_cons, ih, List.count_cons]
    by_cases hc : c = '\n'
    · simp only [next, hc, if_true, beq_self_eq_true]
      omega
    · simp [next, hc]

theorem Position.after_line {a : Text} (ha : a.getLast? = some '\n') :
    start.after a = start.below (a.count '\n') := by
  have hline := line_after start a
  obtain ⟨t, rfl⟩ := List.getLast?_eq_some_iff.mp ha
  rw [after_append] at hline ⊢
  rw [below, ← hline]
  rfl

/-! ## Runs -/

/-- The pairs are the bound names with their values, in any order. -/
def Bindings.Lists (b : Bindings) (pairs : List (Text × Text)) : Prop :=
  ∀ name value, (name, value) ∈ pairs ↔ b.value? name = some value

theorem Bindings.Lists.lastValue?_eq {b : Bindings} {pairs : List (Text × Text)}
    (h : b.Lists pairs) (name : Text) : lastValue? pairs name = b.value? name := by
  cases hv : lastValue? pairs name with
  | some value =>
    obtain ⟨before, after, hpairs, -⟩ := List.lookup_eq_some_iff.mp hv
    have hmem : (name, value) ∈ pairs := by
      rw [← List.mem_reverse, hpairs]
      simp
    exact ((h name value).mp hmem).symm
  | none =>
    cases hb : b.value? name with
    | none => rfl
    | some value =>
      have hmem : name ∈ pairs.map Prod.fst :=
        List.mem_map.mpr ⟨(name, value), (h name value).mpr hb, rfl⟩
      rw [← lastValue?_isSome_iff, hv] at hmem
      cases hmem

section

variable {source : IncludeSource} {predefined : List (Text × Text)} {a : Text} {p : Progress}

theorem Progress.written_of_line (ha : a.getLast? = some '\n')
    (h : (seeded predefined).steps source a.segments = .ok p) :
    p.written.reverse.getLast? = some '\n' := by
  obtain ⟨m, hm⟩ := segments_of_line ha
  rw [hm, steps_append] at h
  cases hs : (seeded predefined).steps source m with
  | error halt => rw [hs] at h; cases h
  | ok q =>
    rw [hs] at h
    cases h
    simp

theorem Progress.shifted_of_line (ha : a.getLast? = some '\n')
    (h : (seeded predefined).steps source a.segments = .ok p) {pairs : List (Text × Text)}
    (hpairs : p.bindings.Lists pairs) :
    Shifted 0 (Position.below (a.count '\n')) p.written p.directives p (seeded pairs) := by
  have hseeds := seeds_seeded pairs
  refine ⟨Nat.zero_le _, ?_, ?_, ?_, ?_⟩
  · rw [(reflects_of_steps h).position, flatten_segments, Position.after_line ha, hseeds.position]
  · apply Bindings.ext_value?
    intro name
    rw [hseeds.value, hpairs.lastValue?_eq]
  · rw [hseeds.written, List.nil_append]
  · rw [hseeds.directives, Nat.add_zero]

end

/-- **Runs compose line by line.** If the run over a text that ends a line fails, more text does not
matter. Otherwise the run goes on as one over what follows, with the variables left behind: the
written texts follow each other, the directives add up, and a failure is reported below the lines of
the first text. -/
theorem ofText_append_line (source : IncludeSource) (predefined : List (Text × Text)) {a : Text}
    (ha : a.getLast? = some '\n') (b : Text) :
    (∀ failure, (Run.ofText source predefined a).result = .error failure →
      (Run.ofText source predefined (a ++ b)).result = .error failure) ∧
    ∀ out pairs, (Run.ofText source predefined a).result = .ok out → out.bindings.Lists pairs →
      (Run.ofText source predefined (a ++ b)).result =
        match (Run.ofText source pairs b).result with
        | .ok more =>
          .ok ⟨out.text ++ more.text, more.bindings, out.directives + more.directives⟩
        | .error failure => .error (failure.relocate (Position.below (a.count '\n'))) := by
  have hsteps := @Progress.steps_append source (Progress.seeded predefined) a.segments b.segments
  rw [← segments_append_line ha] at hsteps
  cases hrun : (Progress.seeded predefined).steps source a.segments with
  | error halt =>
    rw [hrun] at hsteps
    have hresult := Run.result_of_error hrun
    refine ⟨?_, ?_⟩
    · intro failure hf
      rw [hresult] at hf
      rw [Run.result_of_error hsteps, ← hf]
    · intro out pairs hout
      rw [hresult] at hout
      cases hout
  | ok p =>
    rw [hrun] at hsteps
    have hresult := Run.result_of_ok hrun
    refine ⟨?_, ?_⟩
    · intro failure hf
      rw [hresult] at hf
      cases hf
    · intro out pairs hout hpairs
      obtain rfl := Except.ok.inj (hresult.symm.trans hout)
      have hline := Progress.written_of_line ha hrun
      have hrelated := Progress.related_shifted source (Position.next_below (a.count '\n'))
        (Progress.shifted_of_line ha hrun hpairs) b.segments
      cases hmore : (Progress.seeded pairs).steps source b.segments with
      | ok q =>
        rw [hmore] at hrelated
        obtain ⟨q', hq', hshifted⟩ := hrelated.exists_ok
        rw [Run.result_of_ok (hsteps.trans hq'), Run.result_of_ok hmore]
        simp only [hshifted.bindings, hshifted.directives, hshifted.written, List.reverse_append,
          Marker.unescape_append_line hline]
      | error halt =>
        rw [hmore] at hrelated
        obtain ⟨halt', hhalt', hfailure⟩ := hrelated.exists_error
        rw [Run.result_of_error (hsteps.trans hhalt'), Run.result_of_error hmore, hfailure]

theorem ofText_append_line_undefined :
    let source := Shelf.source { base := ⟨[]⟩ }
    let a : Text := "{% define x 1 %}\n".toList
    a.getLast? = some '\n' ∧
      (Run.ofText source [] (a ++ "{% x %} {% y %}".toList)).result =
        .error (.undefinedVariable ['y'] ⟨2, 9⟩) := by
  intro source a
  have ha : a.getLast? = some '\n' := by decide
  have hrun : (Run.ofText source [] a).result =
      .ok ⟨['\n'], Bindings.none.define ['x'] ['1'], 1⟩ := by rfl
  have hlists : (Bindings.none.define ['x'] ['1']).Lists [(['x'], ['1'])] := by
    intro name value
    rw [Bindings.value?_define, Bindings.value?_none]
    by_cases hx : ['x'] = name
    · simp [← hx, eq_comm]
    · simp [hx, Ne.symm hx]
  have hwhole := (ofText_append_line source [] ha "{% x %} {% y %}".toList).2 _ _ hrun hlists
  exact ⟨ha, hwhole.trans (by rfl)⟩

end DocSplice
