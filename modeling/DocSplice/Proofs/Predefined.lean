import DocSplice.Proofs.Phrases
import DocSplice.Proofs.Reads
import DocSplice.Proofs.Shift

/-!
# DocSplice.Proofs.Predefined

A predefined variable and a definition at the beginning of a document are the same thing.

* `IsValue`: what a document can write as a value.
* `definitionText`: a definition as it is written. `isBody_definitionBody` and
  `ofText?_definitionInner` say that it reads as itself, whatever the value holds.
* `ofText_definitionText_append`: a run over a document that begins with a definition is the run
  over the rest with one predefined variable more.
-/

namespace DocSplice

open Marker Segment

/-- The text can be written as the value of a definition: it is not empty, lies on one line, neither
begins with a separator nor ends in a blank, and every closing marker in it is literal. -/
structure IsValue (v : Text) : Prop where
  nonempty : v ≠ []
  oneLine : '\n' ∉ v
  unclosed : ∀ offset, ¬ Bare closing v offset
  head : ∀ c, v.head? = some c → isSeparator c = false
  last : ∀ c, v.getLast? = some c → isBlank c = false

/-- What a definition asks for, without the blanks at its ends. -/
def definitionInner (n v : Text) : Text :=
  ['d', 'e', 'f', 'i', 'n', 'e'] ++ ([' '] ++ (n ++ ([' '] ++ v)))

def definitionBody (n v : Text) : Text := [' '] ++ definitionInner n v ++ [' ']

/-- A definition as it is written in a document. -/
def definitionText (n v : Text) : Text := opening ++ definitionBody n v ++ closing

example : definitionText "name".toList "some value".toList =
    "{% define name some value %}".toList := by rfl

/-! ## A written definition reads as itself -/

theorem text_definitionBody (n v : Text) :
    (Segment.directive (definitionBody n v)).text = definitionText n v :=
  text_directive (definitionBody n v)

section

variable {n v : Text}

theorem getLast?_definitionInner (hv : IsValue v) :
    (definitionInner n v).getLast? = v.getLast? := by
  have hsplit : definitionInner n v =
      (['d', 'e', 'f', 'i', 'n', 'e'] ++ ([' '] ++ (n ++ [' ']))) ++ v := by
    simp [definitionInner]
  rw [hsplit, List.getLast?_append_of_ne_nil _ hv.nonempty]

theorem trim_definitionBody (hv : IsValue v) : (definitionBody n v).trim = definitionInner n v := by
  refine Text.trim_spaced (by simp [definitionInner]) ?_ ?_
  · intro c hc
    obtain rfl : 'd' = c := Option.some.inj hc
    rfl
  · intro c hc
    rw [getLast?_definitionInner hv] at hc
    exact hv.last c hc

theorem ofText?_definitionInner (hn : isName n = true) (hv : IsValue v) :
    Directive.ofText? (definitionInner n v) = some (.definition n v) := by
  have hvalid : (Phrase.definition [' '] n [' '] v).Valid :=
    ⟨Text.separates_space, hn, Text.separates_space, hv.head, hv.nonempty⟩
  exact Directive.ofText?_eq_some_iff.mpr ⟨_, hvalid, rfl, rfl⟩

theorem definitionBody_eq_append (hn : isName n = true) :
    ∃ lead, '%' ∉ lead ∧ definitionBody n v = lead ++ (v ++ [' ']) := by
  have hname : '%' ∉ n := not_mem_of_isName hn rfl
  refine ⟨[' ', 'd', 'e', 'f', 'i', 'n', 'e', ' '] ++ (n ++ [' ']), ?_, ?_⟩
  · simpa using hname
  · simp [definitionBody, definitionInner]

/-- No closing marker begins before the value, and none reaches over its end. -/
theorem unclosed_definitionBody (hn : isName n = true) (hv : IsValue v) (offset : Nat) :
    ¬ Bare closing (definitionBody n v) offset := by
  obtain ⟨lead, hlead, hbody⟩ := definitionBody_eq_append (v := v) hn
  rw [hbody]
  exact not_bare_around hlead (by simp) hv.unclosed offset

theorem isBody_definitionBody (hn : isName n = true) (hv : IsValue v) :
    IsBody (definitionBody n v) := by
  refine ⟨by simp [definitionBody], ?_, unclosed_definitionBody hn hv, ?_⟩
  · have hname : '\n' ∉ n := not_mem_of_isName hn rfl
    simpa [definitionBody, definitionInner, hname] using hv.oneLine
  · rw [definitionBody, List.getLast?_concat]
    simp [escapeChar]

theorem segments_definitionText_append (hn : isName n = true) (hv : IsValue v) (d : Text) :
    (definitionText n v ++ d).segments = .directive (definitionBody n v) :: d.segments := by
  rw [← text_definitionBody]
  exact (Reads.directive (isBody_definitionBody hn hv) (reads_segments d)).segments_eq

theorem spans_definitionText_append (hn : isName n = true) (hv : IsValue v) (d : Text) :
    (definitionText n v ++ d).spans =
      ⟨0, (definitionText n v).byteSize, definitionInner n v⟩ ::
        d.spans.map (Span.shift (definitionText n v).byteSize) := by
  rw [Span.spans_eq_collect, segments_definitionText_append hn hv, Span.collect_directive,
    Span.collect_add, Span.ofBody, trim_definitionBody hv, text_definitionBody, Nat.zero_add]
  rfl

end

/-! ## Behind the definition -/

namespace Position

/-- The position some columns further to the right, if it is on the line. -/
def indent (line columns : Nat) (p : Position) : Position :=
  if p.line = line then ⟨p.line, p.column + columns⟩ else p

theorem next_indent (line columns : Nat) : NextCommutes line (indent line columns) := by
  intro p c hp
  by_cases hc : c = '\n'
  · have hbelow : ¬ p.line + 1 = line := by omega
    by_cases hline : p.line = line <;> simp [next, indent, hc, hline, hbelow]
  · by_cases hline : p.line = line
    · simp only [next, indent, hc, hline, if_true, if_false, mk.injEq, true_and]
      omega
    · simp [next, indent, hc, hline]

theorem after_of_oneLine {t : Text} (h : '\n' ∉ t) (p : Position) :
    p.after t = p.indent p.line t.length := by
  induction t generalizing p with
  | nil => simp [indent]
  | cons c t ih =>
    rw [List.mem_cons, not_or] at h
    have hc : ¬ c = '\n' := fun he => h.1 he.symm
    rw [after_cons, ih h.2]
    simp only [next, hc, if_false, indent, if_true, List.length_cons, mk.injEq, true_and]
    omega

end Position

namespace Progress

variable {n v : Text}

theorem evaluation_definitionBody (source : IncludeSource) (hn : isName n = true)
    (hv : IsValue v) (p : Progress) :
    (p.evaluation source (definitionBody n v)).result = .ok [] ∧
      (p.evaluation source (definitionBody n v)).bindings = p.bindings.define n v := by
  rw [evaluation, trim_definitionBody hv, ofText?_definitionInner hn hv]
  exact ⟨rfl, rfl⟩

/-- Behind the definition, a run has come as far as one with the predefined variable, but for the
text of the definition. -/
theorem shifted_definition (source : IncludeSource) (predefined : List (Text × Text))
    (hn : isName n = true) (hv : IsValue v) :
    Shifted 1 (Position.indent 1 (definitionText n v).length) [] 1
      ((seeded predefined).replaced source (definitionBody n v) [])
      (seeded (predefined ++ [(n, v)])) := by
  have hseeds := seeds_seeded predefined
  have hnext := seeds_seeded (predefined ++ [(n, v)])
  have hline : '\n' ∉ definitionText n v := by
    rw [← text_definitionBody]
    simpa [text] using (isBody_definitionBody hn hv).oneLine
  refine ⟨?_, ?_, ?_, ?_, ?_⟩
  · rw [hnext.position]
    exact Nat.le_refl 1
  · simp only [replaced, text_definitionBody, hseeds.position, hnext.position]
    exact Position.after_of_oneLine hline .start
  · rw [seeded_concat]
    exact (evaluation_definitionBody source hn hv _).2
  · simp only [replaced, hseeds.written, hnext.written]
    rfl
  · simp only [replaced, hseeds.directives, hnext.directives]

end Progress

/-- **A predefined variable is a definition at the beginning.** A definition written before a
document is its first span and reads as itself, and the other spans are those of the document. The
run does as the run over the document alone with the variable predefined last: it counts one
directive more, and a failure on the first line is reported behind the definition. -/
theorem ofText_definitionText_append (source : IncludeSource) (predefined : List (Text × Text))
    {n v : Text} (hn : isName n = true) (hv : IsValue v) (d : Text) :
    (definitionText n v ++ d).spans =
      ⟨0, (definitionText n v).byteSize, definitionInner n v⟩ ::
        d.spans.map (Span.shift (definitionText n v).byteSize) ∧
    Directive.ofText? (definitionInner n v) = some (.definition n v) ∧
    (Run.ofText source predefined (definitionText n v ++ d)).result =
      match (Run.ofText source (predefined ++ [(n, v)]) d).result with
      | .ok out => .ok { out with directives := out.directives + 1 }
      | .error failure =>
        .error (failure.relocate (Position.indent 1 (definitionText n v).length)) := by
  refine ⟨spans_definitionText_append hn hv d, ofText?_definitionInner hn hv, ?_⟩
  have hfirst := Progress.step_directive_of_ok
    (Progress.evaluation_definitionBody source hn hv (.seeded predefined)).1
  have hsteps : (Progress.seeded predefined).steps source (definitionText n v ++ d).segments =
      ((Progress.seeded predefined).replaced source (definitionBody n v) []).steps source
        d.segments := by
    rw [segments_definitionText_append hn hv, Progress.steps_cons, hfirst]
    rfl
  have hrelated := Progress.related_shifted source
    (Position.next_indent 1 (definitionText n v).length)
    (Progress.shifted_definition source predefined hn hv) d.segments
  cases hrun : (Progress.seeded (predefined ++ [(n, v)])).steps source d.segments with
  | ok q =>
    rw [hrun] at hrelated
    obtain ⟨p, hp, hshifted⟩ := hrelated.exists_ok
    rw [Run.result_of_ok (hsteps.trans hp), Run.result_of_ok hrun]
    simp only [hshifted.bindings, hshifted.directives, hshifted.written, List.append_nil,
      Nat.add_comm 1]
  | error halt =>
    rw [hrun] at hrelated
    obtain ⟨halt', hhalt', hfailure⟩ := hrelated.exists_error
    rw [Run.result_of_error (hsteps.trans hhalt'), Run.result_of_error hrun, hfailure]

theorem ofText_definitionText_append_undefined :
    let source := Shelf.source { base := ⟨[]⟩ }
    let v : Text := ['{', '%', '\\', '%', '}', ' ', '%']
    isName ['x'] = true ∧ IsValue v ∧
      (Run.ofText source [] (definitionText ['x'] v ++ " {% x %}{% y %}".toList)).result =
        .error (.undefinedVariable ['y'] ⟨1, 31⟩) := by
  intro source v
  have hname : isName ['x'] = true := by decide
  have hvalue : IsValue v := by
    refine ⟨by decide, by decide, ?_, ?_, ?_⟩
    · exact unclosed_iff.mp ((@bodyBefore?_eq_none_iff false [] v).mp (by rfl))
    · intro c hc
      cases hc
      rfl
    · intro c hc
      cases hc
      rfl
  have hwhole := ofText_definitionText_append source [] hname hvalue " {% x %}{% y %}".toList
  exact ⟨hname, hvalue, hwhole.2.2.trans (by rfl)⟩

end DocSplice
