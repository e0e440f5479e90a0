import DocSplice.Proofs.Phrases
import DocSplice.Proofs.Predefined

/-!
# DocSplice.Proofs.Table

The table of variables while a run goes on.

* `IsBody.isValue_of_definition`: what a document can write as a value is all that it can define. The
  reader of spans, the trimming and the grammar of definitions each have a part in it.
* `Progress.table_steps`: what each step keeps in the table, a run keeps, also where it fails.
* `Run.tableAfter`: the table of a run at some point of the document.
* `Run.tableAfter_accounted`: each binding is the predefined one or one that a document can write, and
  no name is ever unbound.
-/

namespace DocSplice

open Marker Segment

/-! ## Values of definitions -/

section

variable {body n v : Text}

/-- A closing marker at the beginning of the value would stand behind a separator, so it would have
closed the directive. -/
theorem not_bare_of_behind {front gap trail : Text} (hbody : IsBody body) (hgap : gap.Separates)
    (h : front ++ (gap ++ (v ++ trail)) = body) (offset : Nat) : ¬ Bare closing v offset := by
  rintro ⟨before, behind, rfl, -, hbare⟩
  refine hbody.unclosed _ ⟨front ++ (gap ++ before), behind ++ trail, by simp [← h], rfl, ?_⟩
  rcases List.eq_nil_or_concat before with rfl | ⟨init, c, rfl⟩
  · intro hlast
    rw [List.append_nil, List.getLast?_append_of_ne_nil _ hgap.nonempty] at hlast
    cases hgap.separators _ (List.mem_of_getLast? hlast)
  · simpa using hbare

theorem Segment.IsBody.isValue_of_definition (hbody : IsBody body)
    (hd : Directive.ofText? body.trim = some (.definition n v)) : isName n = true ∧ IsValue v := by
  obtain ⟨p, hp, htext, hdirective⟩ := Directive.ofText?_eq_some_iff.mp hd
  cases p with
  | inclusion => cases hdirective
  | dereference => cases hdirective
  | definition gap name gap' value =>
    obtain ⟨rfl, rfl⟩ := Directive.definition.inj hdirective
    obtain ⟨-, hname, hgap', htight, hne⟩ := hp
    obtain ⟨lead, trail, htrim⟩ := Text.exists_append_trim body
    obtain ⟨front, hfront⟩ : ∃ front, front ++ (gap' ++ value) = body.trim := by
      have hassoc : ∀ word : Text, word ++ (gap ++ name) ++ (gap' ++ value) =
          word ++ (gap ++ (name ++ (gap' ++ value))) := by
        intro word
        simp
      exact ⟨"define".toList ++ (gap ++ name), (hassoc "define".toList).trans htext⟩
    have hsplit : lead ++ front ++ (gap' ++ (value ++ trail)) = body := by
      rw [← htrim, ← hfront]
      simp
    refine ⟨hname, hne, ?_, not_bare_of_behind hbody hgap' hsplit, htight, ?_⟩
    · intro hmem
      exact hbody.oneLine (by rw [← hsplit]; simp [hmem])
    · intro c hc
      refine Text.isBlank_of_getLast?_trim (t := body) ?_
      rw [← hfront, ← List.append_assoc, List.getLast?_append_of_ne_nil _ hne, hc]

end

/-! ## One step, and the steps of a run -/

namespace Progress

/-- The variables of a state, or those with which a run failed. -/
def table : Except Halt Progress → Bindings
  | .ok p => p.bindings
  | .error halt => halt.bindings

section

variable {source : IncludeSource} {predefined : List (Text × Text)} {p : Progress}

/-- A directive leaves the variables as they were, or it is a definition. -/
theorem evaluation_bindings (p : Progress) (body : Text) :
    (p.evaluation source body).bindings = p.bindings ∨
      ∃ n v, Directive.ofText? body.trim = some (.definition n v) ∧
        (p.evaluation source body).bindings = p.bindings.define n v := by
  rw [evaluation]
  cases Directive.ofText? body.trim with
  | none => exact .inl rfl
  | some d =>
    cases d with
    | inclusion path => exact .inl rfl
    | definition name value => exact .inr ⟨name, value, rfl, rfl⟩
    | dereference name => exact .inl rfl

theorem table_step_directive (p : Progress) (body : Text) :
    table (step source p (.directive body)) = (p.evaluation source body).bindings := by
  rw [evaluation]
  simp only [step]
  split <;> rfl

/-- What each step keeps in the table, a run keeps, also where it fails. -/
theorem table_steps {I : Bindings → Prop} {l : List Segment}
    (hstep : ∀ s ∈ l, ∀ p : Progress, I p.bindings → I (table (step source p s))) :
    ∀ p : Progress, I p.bindings → I (table (steps source p l)) := by
  induction l with
  | nil => exact fun p h => h
  | cons s l ih =>
    intro p h
    have hs := hstep s List.mem_cons_self p h
    rw [steps_cons]
    cases hp : step source p s with
    | error halt =>
      rw [hp] at hs
      exact hs
    | ok q =>
      rw [hp] at hs
      exact ih (fun s' hs' => hstep s' (List.mem_cons_of_mem s hs')) q hs

/-- A step keeps names bound. -/
theorem binds_table_step {n : Text} (s : Segment) (p : Progress)
    (h : p.bindings.binds n = true) : (table (step source p s)).binds n = true := by
  cases s with
  | plain c => exact h
  | directive body =>
    rw [table_step_directive]
    rcases @evaluation_bindings source p body with heq | ⟨name, value, -, heq⟩
    · rw [heq, h]
    · rw [heq, Bindings.binds_eq_isSome, Bindings.value?_define]
      split
      · rfl
      · rwa [← Bindings.binds_eq_isSome]

end
end Progress

/-- Each binding is the last one of the predefined pairs, or that of a name to a value that a
document can write. -/
def Bindings.Accounted (predefined : List (Text × Text)) (b : Bindings) : Prop :=
  ∀ n v, b.value? n = some v → lastValue? predefined n = some v ∨ isName n = true ∧ IsValue v

section

variable {source : IncludeSource} {predefined : List (Text × Text)}

theorem Bindings.Accounted.define {b : Bindings} (h : b.Accounted predefined) {n v : Text}
    (hn : isName n = true) (hv : IsValue v) : (b.define n v).Accounted predefined := by
  intro name value hvalue
  rw [value?_define] at hvalue
  split at hvalue
  · next heq =>
    subst heq
    cases hvalue
    exact .inr ⟨hn, hv⟩
  · exact h name value hvalue

theorem Progress.accounted_table_step {s : Segment} (hs : ∀ body, s = .directive body → IsBody body)
    (p : Progress) (h : p.bindings.Accounted predefined) :
    (table (step source p s)).Accounted predefined := by
  cases s with
  | plain c => exact h
  | directive body =>
    rw [table_step_directive]
    rcases @evaluation_bindings source p body with heq | ⟨n, v, hd, heq⟩
    · rwa [heq]
    · obtain ⟨hn, hv⟩ := (hs body rfl).isValue_of_definition hd
      rw [heq]
      exact h.define hn hv

end

/-! ## The points of a run -/

/-- The table of a run over a document behind its first `k` segments, or, if the run has failed by
then, the table with which it failed. -/
def Run.tableAfter (source : IncludeSource) (predefined : List (Text × Text)) (t : Text)
    (k : Nat) : Bindings :=
  Progress.table ((Progress.seeded predefined).steps source (t.segments.take k))

theorem Run.binds_tableAfter_add (source : IncludeSource) (predefined : List (Text × Text))
    (t : Text) (j m : Nat) {n : Text} (h : (tableAfter source predefined t j).binds n = true) :
    (tableAfter source predefined t (j + m)).binds n = true := by
  rw [tableAfter] at h ⊢
  rw [List.take_add, Progress.steps_append]
  cases hj : (Progress.seeded predefined).steps source (t.segments.take j) with
  | error halt =>
    rw [hj] at h
    exact h
  | ok p =>
    rw [hj] at h
    exact Progress.table_steps (I := fun b => b.binds n = true)
      (fun s _ q hq => Progress.binds_table_step s q hq) p h

/-- **Every binding is accounted for.** At each point of a run, whether it fails later or not, a
binding is the last predefined one of its name, or it binds a name to a text that a document can
write as a value. The names that are bound stay bound. The run begins with the predefined bindings,
and if it succeeds, its last table is the one that it leaves behind. -/
theorem Run.tableAfter_accounted (source : IncludeSource) (predefined : List (Text × Text))
    (t : Text) :
    (∀ k n v, (tableAfter source predefined t k).value? n = some v →
      lastValue? predefined n = some v ∨ isName n = true ∧ IsValue v) ∧
    (∀ j k, j ≤ k → ∀ n, (tableAfter source predefined t j).binds n = true →
      (tableAfter source predefined t k).binds n = true) ∧
    (∀ n, (tableAfter source predefined t 0).value? n = lastValue? predefined n) ∧
    ∀ out, (ofText source predefined t).result = .ok out →
      tableAfter source predefined t t.segments.length = out.bindings := by
  have hseeds := Progress.seeds_seeded predefined
  refine ⟨?_, ?_, hseeds.value, ?_⟩
  · intro k
    have hbody : ∀ s ∈ t.segments.take k, ∀ body, s = .directive body → IsBody body := by
      rintro s hs body rfl
      exact (reads_segments t).isBody_of_mem (List.mem_of_mem_take hs)
    have hseeded : (Progress.seeded predefined).bindings.Accounted predefined := by
      intro n v hv
      rw [hseeds.value] at hv
      exact .inl hv
    exact Progress.table_steps (fun s hs p hp => Progress.accounted_table_step (hbody s hs) p hp) _
      hseeded
  · intro j k hle n hn
    obtain ⟨m, rfl⟩ := Nat.exists_eq_add_of_le hle
    exact binds_tableAfter_add source predefined t j m hn
  · intro out hout
    obtain ⟨p, hp, rfl⟩ := exists_of_result_eq_ok hout
    rw [tableAfter, List.take_length, hp]
    rfl

end DocSplice
