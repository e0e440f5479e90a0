import Mathlib.Data.Finset.Card
import DocSplice.Evaluation
import DocSplice.Proofs.Phrases

/-!
# DocSplice.Proofs.Attempts

Evaluation apart from any document: texts are evaluated one after the other on one table, each as a
directive of some form, whether the text matches the form or not.

* `Attempt`, `Attempt.bindingsAfter`: one evaluation, and the table behind some of them.
* `Attempt.Defines`: the attempts that bind a name, told from their form and their text.
* `Attempt.bindings_evaluate`: the step lemma. An attempt succeeds in a definition, or it leaves the
  table as it was.
* `Attempt.result_eq_unrecognized_iff`: a text that does not match its form is the only one that is
  blamed for it.
* `Attempt.bindingsAfter_definitions`: a table holds the last definitions, and is as large as they are
  many.
-/

namespace DocSplice

/-- The names that a table binds, of which it has as many as it counts. -/
theorem Bindings.exists_names (b : Bindings) :
    ∃ names : Finset Text, (∀ n, n ∈ names ↔ b.binds n = true) ∧ b.count = names.card := by
  refine ⟨b.keys.toFinset, ?_, ?_⟩
  · intro n
    rw [List.mem_toFinset, Std.ExtTreeMap.mem_keys]
    exact Std.ExtTreeMap.mem_iff_contains
  · rw [List.toFinset_card_of_nodup Std.ExtTreeMap.nodup_keys, Std.ExtTreeMap.length_keys]
    rfl

/-- A text that is evaluated as a directive of a form. -/
structure Attempt where
  form : Form
  inner : Text
  position : Position

namespace Attempt

def evaluate (source : IncludeSource) (b : Bindings) (a : Attempt) : Evaluation :=
  a.form.evaluate source a.position b a.inner

/-- The variables after some attempts, of which any may fail. -/
def bindingsAfter (source : IncludeSource) (b : Bindings) (l : List Attempt) : Bindings :=
  l.foldl (fun b a => (a.evaluate source b).bindings) b

/-- The attempt is one at a definition, and its text defines the name. -/
def Defines (a : Attempt) (n v : Text) : Prop :=
  a.form = .definition ∧ a.form.parse? a.inner = some (.definition n v)

section

variable {source : IncludeSource} {a : Attempt} {b : Bindings} {n v : Text}

/-! ## One attempt -/

theorem evaluate_of_some {d : Directive} (h : a.form.parse? a.inner = some d) :
    a.evaluate source b = d.evaluate source a.position b := by
  rw [evaluate, Form.evaluate, h]
  rfl

theorem evaluate_of_none (h : a.form.parse? a.inner = none) :
    a.evaluate source b = ⟨b, [], .error (.unrecognizedDirective a.inner a.position)⟩ := by
  rw [evaluate, Form.evaluate, h]
  rfl

theorem Defines.evaluate (h : a.Defines n v) :
    (a.evaluate source b).bindings = b.define n v ∧ (a.evaluate source b).result = .ok [] := by
  rw [evaluate_of_some h.2]
  exact ⟨rfl, rfl⟩

theorem Defines.unique {n' v' : Text} (h : a.Defines n v) (h' : a.Defines n' v') :
    n = n' ∧ v = v' := by
  have heq := h.2.symm.trans h'.2
  simpa using heq

/-- An attempt defines a name and succeeds, or it leaves the table as it was. -/
theorem bindings_evaluate (source : IncludeSource) (a : Attempt) (b : Bindings) :
    (∃ n v, a.Defines n v) ∨
      (∀ n v, ¬ a.Defines n v) ∧ (a.evaluate source b).bindings = b := by
  cases hparse : a.form.parse? a.inner with
  | none =>
    refine .inr ⟨?_, by rw [evaluate_of_none hparse]⟩
    rintro n v ⟨-, hd⟩
    rw [hparse] at hd
    cases hd
  | some d =>
    obtain ⟨-, -, -, -, hform⟩ := Form.parse?_eq_some_iff.mp hparse
    cases d with
    | definition n v => exact .inl ⟨n, v, hform.symm, hparse⟩
    | inclusion path =>
      refine .inr ⟨?_, by rw [evaluate_of_some hparse]; rfl⟩
      rintro n v ⟨hdefinition, -⟩
      rw [← hform] at hdefinition
      cases hdefinition
    | dereference name =>
      refine .inr ⟨?_, by rw [evaluate_of_some hparse]; rfl⟩
      rintro n v ⟨hdefinition, -⟩
      rw [← hform] at hdefinition
      cases hdefinition

theorem bindings_evaluate_of_error {failure : Failure}
    (h : (a.evaluate source b).result = .error failure) : (a.evaluate source b).bindings = b := by
  rcases bindings_evaluate source a b with ⟨n, v, hdefines⟩ | ⟨-, hsame⟩
  · have hok : (a.evaluate source b).result = .ok [] := hdefines.evaluate.2
    rw [hok] at h
    cases h
  · exact hsame

theorem bindings_evaluate_of_form (source : IncludeSource) (b : Bindings)
    (h : a.form ≠ .definition) : (a.evaluate source b).bindings = b := by
  rcases bindings_evaluate source a b with ⟨n, v, hdefines⟩ | ⟨-, hsame⟩
  · exact absurd hdefines.1 h
  · exact hsame

/-- A directive that was read fails for other reasons than its text, if at all. -/
theorem result_ne_unrecognized (source : IncludeSource) (position : Position) (b : Bindings)
    (d : Directive) (t : Text) (reported : Position) :
    (d.evaluate source position b).result ≠ .error (.unrecognizedDirective t reported) := by
  cases d with
  | inclusion path =>
    simp only [Directive.evaluate]
    cases source.read (source.resolve path) <;> simp
  | definition name value => simp [Directive.evaluate]
  | dereference name =>
    simp only [Directive.evaluate]
    cases b.value? name <;> simp

/-- An attempt fails for its text just if the text does not match the form. -/
theorem result_eq_unrecognized_iff {t : Text} {reported : Position} :
    (a.evaluate source b).result = .error (.unrecognizedDirective t reported) ↔
      a.form.parse? a.inner = none ∧ t = a.inner ∧ reported = a.position := by
  cases hparse : a.form.parse? a.inner with
  | none =>
    rw [evaluate_of_none hparse]
    simp [eq_comm]
  | some d =>
    rw [evaluate_of_some hparse]
    simp [result_ne_unrecognized source a.position b d t reported]

/-! ## One attempt after another -/

theorem bindingsAfter_append (b : Bindings) (l m : List Attempt) :
    bindingsAfter source b (l ++ m) = bindingsAfter source (bindingsAfter source b l) m :=
  List.foldl_append

theorem bindingsAfter_cons (b : Bindings) (a : Attempt) (l : List Attempt) :
    bindingsAfter source b (a :: l) = bindingsAfter source (a.evaluate source b).bindings l := rfl

/-- A name that no attempt defines keeps its value. -/
theorem value?_bindingsAfter_of_not_defines {l : List Attempt}
    (h : ∀ a ∈ l, ∀ v, ¬ a.Defines n v) (b : Bindings) :
    (bindingsAfter source b l).value? n = b.value? n := by
  induction l generalizing b with
  | nil => rfl
  | cons a l ih =>
    rw [bindingsAfter_cons, ih fun c hc => h c (List.mem_cons_of_mem a hc)]
    rcases bindings_evaluate source a b with ⟨name, value, hdefines⟩ | ⟨-, hsame⟩
    · have hne : name ≠ n := by
        rintro rfl
        exact h a List.mem_cons_self value hdefines
      rw [hdefines.evaluate.1, Bindings.value?_define, if_neg hne]
    · rw [hsame]

theorem value?_bindingsAfter_of_last {before after : List Attempt} (ha : a.Defines n v)
    (hlast : ∀ c ∈ after, ∀ w, ¬ c.Defines n w) (b : Bindings) :
    (bindingsAfter source b (before ++ a :: after)).value? n = some v := by
  rw [bindingsAfter_append, bindingsAfter_cons, value?_bindingsAfter_of_not_defines hlast,
    ha.evaluate.1, Bindings.value?_define, if_pos rfl]

theorem binds_evaluate_iff :
    (a.evaluate source b).bindings.binds n = true ↔ (∃ v, a.Defines n v) ∨ b.binds n = true := by
  rcases bindings_evaluate source a b with ⟨name, value, hdefines⟩ | ⟨hnone, hsame⟩
  · rw [hdefines.evaluate.1, Bindings.binds_eq_isSome, Bindings.value?_define,
      Bindings.binds_eq_isSome]
    split
    · next heq =>
      subst heq
      exact ⟨fun _ => .inl ⟨value, hdefines⟩, fun _ => rfl⟩
    · next hne =>
      refine ⟨.inr, ?_⟩
      rintro (⟨v, hv⟩ | hbinds)
      · exact absurd (hdefines.unique hv).1 hne
      · exact hbinds
  · rw [hsame]
    refine ⟨.inr, ?_⟩
    rintro (⟨v, hv⟩ | hbinds)
    · exact absurd hv (hnone n v)
    · exact hbinds

theorem binds_bindingsAfter_iff {l : List Attempt} :
    (bindingsAfter source b l).binds n = true ↔
      (∃ a ∈ l, ∃ v, a.Defines n v) ∨ b.binds n = true := by
  induction l generalizing b with
  | nil => simp [bindingsAfter]
  | cons a l ih =>
    rw [bindingsAfter_cons, ih, binds_evaluate_iff, List.exists_mem_cons_iff, or_left_comm,
      or_assoc]

end

/-- **Only definitions that succeed change the table.** However attempts that succeed and attempts that
fail follow each other, in the end each name is bound to the value of the last attempt that defines it,
or as it was if there is none, and the table counts the names so bound. An attempt that fails or is
not one at a definition leaves the table as it was. It fails as unrecognized, with its own text, just if
the text does not match the form, so never if the form is the one that was found for the text. -/
theorem bindingsAfter_definitions (source : IncludeSource) (b : Bindings) (l : List Attempt) :
    (∀ before a after n v, l = before ++ a :: after → a.Defines n v →
      (∀ c ∈ after, ∀ w, ¬ c.Defines n w) → (bindingsAfter source b l).value? n = some v) ∧
    (∀ n, (∀ a ∈ l, ∀ v, ¬ a.Defines n v) →
      (bindingsAfter source b l).value? n = b.value? n) ∧
    (∃ names : Finset Text,
      (∀ n, n ∈ names ↔ (∃ a ∈ l, ∃ v, a.Defines n v) ∨ b.binds n = true) ∧
      (bindingsAfter source b l).count = names.card) ∧
    ∀ before a after, l = before ++ a :: after →
      let table := bindingsAfter source b before
      let e := a.evaluate source table
      ((∃ failure, e.result = .error failure) ∨ a.form ≠ .definition → e.bindings = table) ∧
      (∀ t reported, e.result = .error (.unrecognizedDirective t reported) ↔
        a.form.parse? a.inner = none ∧ t = a.inner ∧ reported = a.position) ∧
      (Form.ofText? a.inner = some a.form →
        ∀ t reported, e.result ≠ .error (.unrecognizedDirective t reported)) := by
  refine ⟨?_, fun n h => value?_bindingsAfter_of_not_defines h b, ?_, ?_⟩
  · rintro before a after n v rfl ha hlast
    exact value?_bindingsAfter_of_last ha hlast b
  · obtain ⟨names, hnames, hcount⟩ := (bindingsAfter source b l).exists_names
    exact ⟨names, fun n => (hnames n).trans binds_bindingsAfter_iff, hcount⟩
  · rintro before a after -
    refine ⟨?_, fun t reported => result_eq_unrecognized_iff, ?_⟩
    · rintro (⟨failure, hfailure⟩ | hform)
      · exact bindings_evaluate_of_error hfailure
      · exact bindings_evaluate_of_form source _ hform
    · intro hfound t reported hresult
      have hsome := Form.ofText?_eq_some_iff.mp hfound
      rw [(result_eq_unrecognized_iff.mp hresult).1] at hsome
      cases hsome

theorem bindingsAfter_definitions_mixed :
    let source := (Shelf.mk ⟨['/']⟩ []).source
    let failing : List Attempt := [⟨.definition, ['X'], .start⟩, ⟨.dereference, ['Y'], .start⟩,
      ⟨.inclusion, "include gone".toList, .start⟩, ⟨.dereference, "define X c".toList, .start⟩]
    (bindingsAfter source Bindings.none
      (⟨.definition, "define X a".toList, .start⟩ :: failing ++
        ⟨.definition, "define X b".toList, .start⟩ :: failing)).value? ['X'] = some ['b'] := by
  intro source failing
  obtain ⟨hlast, -⟩ := bindingsAfter_definitions source Bindings.none
    (⟨.definition, "define X a".toList, .start⟩ :: failing ++
      ⟨.definition, "define X b".toList, .start⟩ :: failing)
  have hnone : ∀ c ∈ failing, c.form = .definition → c.form.parse? c.inner = none := by decide
  have hfailing : ∀ c ∈ failing, ∀ w, ¬ c.Defines ['X'] w := by
    rintro c hc w ⟨hform, hparse⟩
    rw [hnone c hc hform] at hparse
    cases hparse
  exact hlast _ _ failing ['X'] ['b'] rfl ⟨rfl, by decide⟩ hfailing

end Attempt
end DocSplice
