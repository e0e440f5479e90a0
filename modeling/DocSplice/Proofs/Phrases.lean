import DocSplice.Proofs.Grammar

/-!
# DocSplice.Proofs.Phrases

The grammars of the three forms, told by what is written. A phrase is the words of a directive with
the separators between them; reading a text by a form finds the phrase that the text is, and no text
is two phrases.

* `Phrase`: the words of a directive. `Phrase.text` writes them, `Phrase.Valid` says which words are
  in the grammar, and `Phrase.directive` is what they ask for.
* `Phrase.eq_of_text_eq`: the grammar is unambiguous, within each form and across the forms.
* `Form.parse?_eq_some_iff`: each form reads exactly its phrases.
* `Form.parse?_grammar`: hence no text matches two forms, and the order of the forms makes no
  difference.
-/

namespace DocSplice

/-! ## Phrases -/

/-- The words of a directive, with the separators between them. -/
inductive Phrase where
  | inclusion (gap rest : Text)
  | definition (gap name gap' value : Text)
  | dereference (name : Text)

namespace Phrase

/-- The phrase as it is written. -/
def text : Phrase → Text
  | inclusion gap rest => "include".toList ++ (gap ++ rest)
  | definition gap name gap' value => "define".toList ++ (gap ++ (name ++ (gap' ++ value)))
  | dereference name => name

/-- The words are in the grammar. What follows the separators of an inclusion is the path once the
blanks around it are gone; a value keeps all that follows the separators. -/
def Valid : Phrase → Prop
  | inclusion gap rest => gap.Separates ∧ rest.Tight ∧ rest.trim ≠ []
  | definition gap name gap' value =>
    gap.Separates ∧ isName name = true ∧ gap'.Separates ∧ value.Tight ∧ value ≠ []
  | dereference name => isName name = true

/-- What the phrase asks for. -/
def directive : Phrase → Directive
  | inclusion _ rest => .inclusion rest.trim
  | definition _ name _ value => .definition name value
  | dereference name => .dereference name

end Phrase

/-! ## The grammar is unambiguous -/

namespace Phrase

variable {p q : Phrase}

/-- A phrase with a keyword holds separators, so it is no name. -/
theorem eq_dereference_of_isName (hp : p.Valid) (hn : isName p.text = true) :
    p = .dereference p.text := by
  cases p with
  | inclusion gap rest => exact absurd hn (hp.1.not_isName_append _ _)
  | definition gap name gap' value => exact absurd hn (hp.1.not_isName_append _ _)
  | dereference name => rfl

/-- No text is two phrases. -/
theorem eq_of_text_eq (hp : p.Valid) (hq : q.Valid) (h : p.text = q.text) : p = q := by
  cases hn : isName p.text with
  | true =>
    have hn' : isName q.text = true := by rwa [← h]
    have hleft := eq_dereference_of_isName hp hn
    rw [h] at hleft
    exact hleft.trans (eq_dereference_of_isName hq hn').symm
  | false =>
    -- neither phrase is a name, so both have a keyword
    have hn' : isName q.text = false := by rwa [← h]
    cases p with
    | dereference name => exact absurd hp (Bool.eq_false_iff.mp hn)
    | inclusion gap rest =>
      obtain ⟨hgap, hrest, -⟩ := hp
      cases q with
      | dereference name => exact absurd hq (Bool.eq_false_iff.mp hn')
      | definition => cases h
      | inclusion gap' rest' =>
        obtain ⟨hgap', hrest', -⟩ := hq
        obtain ⟨rfl, rfl⟩ := Text.append_inj_of_head hgap.separators hgap'.separators hrest hrest'
          (List.append_cancel_left h)
        rfl
    | definition gap name mid value =>
      obtain ⟨hgap, hname, hmid, hvalue, -⟩ := hp
      cases q with
      | dereference name => exact absurd hq (Bool.eq_false_iff.mp hn')
      | inclusion => cases h
      | definition gap' name' mid' value' =>
        obtain ⟨hgap', hname', hmid', hvalue', -⟩ := hq
        obtain ⟨rfl, hbehind⟩ := Text.append_inj_of_head hgap.separators hgap'.separators
          (Text.tight_append_of_isName hname _) (Text.tight_append_of_isName hname' _)
          (List.append_cancel_left h)
        obtain ⟨rfl, hend⟩ := Text.append_inj_of_head (fun c => isNameChar_of_mem hname)
          (fun c => isNameChar_of_mem hname') (hmid.head_append _) (hmid'.head_append _) hbehind
        obtain ⟨rfl, rfl⟩ := Text.append_inj_of_head hmid.separators hmid'.separators hvalue
          hvalue' hend
        rfl

end Phrase

/-! ## Each form reads its phrases -/

section

variable {t : Text} {d : Directive} {p : Phrase} {form form' : Form}

/-- The reader of a bare name takes exactly the names. -/
theorem Form.parseDereference?_eq_some_iff :
    parseDereference? t = some d ↔ isName t = true ∧ d = .dereference t := by
  simp only [parseDereference?, Option.bind_eq_bind, Option.bind_eq_some_iff]
  constructor
  · rintro ⟨⟨name, rest⟩, hread, hd⟩
    obtain ⟨rfl, hname, -⟩ := readName?_eq_some_iff.mp hread
    split at hd
    · next hrest =>
      obtain rfl : rest = [] := by simpa using hrest
      rw [List.append_nil]
      exact ⟨hname, (Option.some.inj hd).symm⟩
    · cases hd
  · rintro ⟨hname, rfl⟩
    exact ⟨(t, []), readName?_eq_some_iff.mpr ⟨List.append_nil t, hname, nofun⟩, rfl⟩

theorem Form.parse?_text (hp : p.Valid) : p.directive.form.parse? p.text = some p.directive := by
  cases p with
  | inclusion gap rest =>
    obtain ⟨hgap, hrest, hpath⟩ := hp
    have hkeyword : "include".toList.isPrefixOf? (Phrase.inclusion gap rest).text =
        some (gap ++ rest) := List.isPrefixOf?_eq_some_iff_append_eq.mpr rfl
    change parseInclusion? _ = _
    simp only [parseInclusion?, hkeyword, Option.bind_eq_bind, Option.bind_some,
      Text.afterSeparators?_append hgap hrest]
    simp [hpath, Phrase.directive]
  | definition gap name gap' value =>
    obtain ⟨hgap, hname, hgap', hvalue, hne⟩ := hp
    have hkeyword : "define".toList.isPrefixOf? (Phrase.definition gap name gap' value).text =
        some (gap ++ (name ++ (gap' ++ value))) := List.isPrefixOf?_eq_some_iff_append_eq.mpr rfl
    have hread : readName? (name ++ (gap' ++ value)) = some (name, gap' ++ value) :=
      readName?_eq_some_iff.mpr ⟨rfl, hname, hgap'.head_append value⟩
    change parseDefinition? _ = _
    simp only [parseDefinition?, hkeyword, Option.bind_eq_bind, Option.bind_some,
      Text.afterSeparators?_append hgap (Text.tight_append_of_isName hname _), hread,
      Text.afterSeparators?_append hgap' hvalue]
    simp [hne, Phrase.directive]
  | dereference name => exact parseDereference?_eq_some_iff.mpr ⟨hp, rfl⟩

theorem Form.exists_of_parseInclusion? (h : parseInclusion? t = some d) :
    ∃ gap rest, (Phrase.inclusion gap rest).Valid ∧ (Phrase.inclusion gap rest).text = t ∧
      d = .inclusion rest.trim := by
  simp only [parseInclusion?, Option.bind_eq_bind, Option.bind_eq_some_iff] at h
  obtain ⟨behind, hkeyword, rest, hrest, hd⟩ := h
  obtain ⟨gap, hgap, htight, rfl⟩ := Text.afterSeparators?_eq_some_iff.mp hrest
  have htext := List.isPrefixOf?_eq_some_iff_append_eq.mp hkeyword
  split at hd
  · cases hd
  · next hpath =>
    exact ⟨gap, rest, ⟨hgap, htight, by simpa using hpath⟩, htext, (Option.some.inj hd).symm⟩

theorem Form.exists_of_parseDefinition? (h : parseDefinition? t = some d) :
    ∃ gap name gap' value, (Phrase.definition gap name gap' value).Valid ∧
      (Phrase.definition gap name gap' value).text = t ∧ d = .definition name value := by
  simp only [parseDefinition?, Option.bind_eq_bind, Option.bind_eq_some_iff] at h
  obtain ⟨behind, hkeyword, rest, hrest, ⟨name, rest'⟩, hread, value, hvalue, hd⟩ := h
  obtain ⟨gap, hgap, -, rfl⟩ := Text.afterSeparators?_eq_some_iff.mp hrest
  obtain ⟨rfl, hname, -⟩ := readName?_eq_some_iff.mp hread
  obtain ⟨gap', hgap', htight, rfl⟩ := Text.afterSeparators?_eq_some_iff.mp hvalue
  have htext := List.isPrefixOf?_eq_some_iff_append_eq.mp hkeyword
  split at hd
  · cases hd
  · next hne =>
    exact ⟨gap, name, gap', value, ⟨hgap, hname, hgap', htight, by simpa using hne⟩, htext,
      (Option.some.inj hd).symm⟩

theorem Form.exists_phrase (h : form.parse? t = some d) :
    ∃ p : Phrase, p.Valid ∧ p.text = t ∧ p.directive = d ∧ d.form = form := by
  cases form with
  | inclusion =>
    obtain ⟨gap, rest, hvalid, htext, rfl⟩ := exists_of_parseInclusion? h
    exact ⟨_, hvalid, htext, rfl, rfl⟩
  | definition =>
    obtain ⟨gap, name, gap', value, hvalid, htext, rfl⟩ := exists_of_parseDefinition? h
    exact ⟨_, hvalid, htext, rfl, rfl⟩
  | dereference =>
    obtain ⟨hname, rfl⟩ := parseDereference?_eq_some_iff.mp h
    exact ⟨.dereference t, hname, rfl, rfl, rfl⟩

theorem Form.parse?_eq_some_iff :
    form.parse? t = some d ↔
      ∃ p : Phrase, p.Valid ∧ p.text = t ∧ p.directive = d ∧ d.form = form := by
  constructor
  · exact exists_phrase
  · rintro ⟨p, hp, rfl, rfl, rfl⟩
    exact parse?_text hp

/-- No text matches two forms. -/
theorem Form.eq_of_isSome_parse? (h : (form.parse? t).isSome = true)
    (h' : (form'.parse? t).isSome = true) : form = form' := by
  obtain ⟨d, hd⟩ := Option.isSome_iff_exists.mp h
  obtain ⟨d', hd'⟩ := Option.isSome_iff_exists.mp h'
  obtain ⟨p, hp, htext, rfl, rfl⟩ := exists_phrase hd
  obtain ⟨q, hq, rfl, rfl, rfl⟩ := exists_phrase hd'
  rw [Phrase.eq_of_text_eq hp hq htext]

/-- Whatever the order in which the forms are tried, the one that matches is found. -/
theorem Form.find?_eq_some_iff {order : List Form} (horder : ∀ form, form ∈ order) :
    order.find? (fun form => (form.parse? t).isSome) = some form ↔
      (form.parse? t).isSome = true := by
  have hmatches : ∀ {found}, order.find? (fun form => (form.parse? t).isSome) = some found →
      (found.parse? t).isSome = true := by
    intro found hfound
    have hsome := List.find?_some hfound
    exact hsome
  constructor
  · exact hmatches
  · intro h
    cases hfound : order.find? fun form => (form.parse? t).isSome with
    | none => exact absurd h (List.find?_eq_none.mp hfound form (horder form))
    | some form' => rw [eq_of_isSome_parse? (hmatches hfound) h]

theorem Form.mem_all (form : Form) : form ∈ all := by
  cases form <;> simp [all]

theorem Form.ofText?_eq_some_iff :
    ofText? t = some form ↔ (form.parse? t).isSome = true := find?_eq_some_iff mem_all

theorem Directive.ofText?_eq_some_iff :
    ofText? t = some d ↔ ∃ p : Phrase, p.Valid ∧ p.text = t ∧ p.directive = d := by
  rw [ofText?_eq_bind, Option.bind_eq_some_iff]
  constructor
  · rintro ⟨form, -, hd⟩
    obtain ⟨p, hp, htext, hdirective, -⟩ := Form.exists_phrase hd
    exact ⟨p, hp, htext, hdirective⟩
  · rintro ⟨p, hp, rfl, rfl⟩
    have hread := Form.parse?_text hp
    exact ⟨_, Form.ofText?_eq_some_iff.mpr (by rw [hread]; rfl), hread⟩

end

/-- **Each form reads exactly its grammar, and the grammars are disjoint.** A text is read by a form
if it is a phrase of that form, and what the phrase asks for is the answer. It is one phrase at most,
so it matches one form at most, the order in which the forms are tried makes no difference, and no
form is found just if the text is no phrase at all. -/
theorem Form.parse?_grammar (t : Text) :
    (∀ (form : Form) (d : Directive), form.parse? t = some d ↔
      ∃ p : Phrase, p.Valid ∧ p.text = t ∧ p.directive = d ∧ d.form = form) ∧
    (∀ p q : Phrase, p.Valid → q.Valid → p.text = t → q.text = t → p = q) ∧
    (∀ form form' : Form, (form.parse? t).isSome = true → (form'.parse? t).isSome = true →
      form = form') ∧
    (∀ order : List Form, order.Perm all →
      order.find? (fun form => (form.parse? t).isSome) = ofText? t) ∧
    (ofText? t = none ↔ ∀ p : Phrase, p.Valid → p.text ≠ t) := by
  refine ⟨fun form d => parse?_eq_some_iff, ?_, fun form form' => eq_of_isSome_parse?, ?_, ?_⟩
  · intro p q hp hq htext htext'
    exact Phrase.eq_of_text_eq hp hq (htext.trans htext'.symm)
  · intro order horder
    have hmem : ∀ form, form ∈ order := fun form => horder.mem_iff.mpr (mem_all form)
    exact Option.ext fun form => (find?_eq_some_iff hmem).trans ofText?_eq_some_iff.symm
  · constructor
    · rintro hnone p hp rfl
      have hfound := ofText?_eq_some_iff.mpr (by rw [parse?_text hp]; rfl)
      rw [hnone] at hfound
      cases hfound
    · intro hno
      refine Option.eq_none_iff_forall_ne_some.mpr fun form hform => ?_
      obtain ⟨d, hd⟩ := Option.isSome_iff_exists.mp (ofText?_eq_some_iff.mp hform)
      obtain ⟨p, hp, htext, -⟩ := exists_phrase hd
      exact hno p hp htext

example : Directive.ofText? "include \t my file.md ".toList = some (.inclusion "my file.md".toList) ∧
    Directive.ofText? "define a  b c".toList = some (.definition ['a'] "b c".toList) ∧
    Directive.ofText? "define".toList = some (.dereference "define".toList) := by decide

end DocSplice
