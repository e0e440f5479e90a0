import Mathlib.Data.List.Basic
import Mathlib.Data.List.TakeWhile
import DocSplice.Directive

/-!
# DocSplice.Proofs.Grammar

The texts that directives are made of: runs of characters of one kind, blanks, separators and names.

* `Text.append_inj_of_head`: a text is split in one way at the end of a run.
* `Text.trim_append`: trimming takes away blanks and no more.
* `Text.afterSeparators?_eq_some_iff`: what follows separators.
* `isNameChar_of_mem`, `isSeparator_of_isNameChar`: no separator is in a name.
* `Text.word?_eq_some_iff`, `readName?_eq_some_iff`: what the readers of words and of names take.
-/

namespace DocSplice

namespace Text

/-! ## Runs of characters of one kind -/

section

variable {p : Char → Bool} {w w' t t' : Text}

theorem dropWhile_eq_self_of_head (h : ∀ c, t.head? = some c → p c = false) :
    t.dropWhile p = t := by
  cases t with
  | nil => rfl
  | cons c t =>
    have hc : ¬ p c = true := by rw [h c rfl]; exact Bool.false_ne_true
    rw [List.dropWhile_cons_of_neg hc]

theorem dropWhile_append_of_head (hw : ∀ c ∈ w, p c = true)
    (ht : ∀ c, t.head? = some c → p c = false) : (w ++ t).dropWhile p = t := by
  rw [List.dropWhile_append_of_pos hw, dropWhile_eq_self_of_head ht]

theorem takeWhile_append_of_head (hw : ∀ c ∈ w, p c = true)
    (ht : ∀ c, t.head? = some c → p c = false) : (w ++ t).takeWhile p = w := by
  have hboth := List.takeWhile_append_dropWhile (p := p) (l := w ++ t)
  rw [dropWhile_append_of_head hw ht] at hboth
  exact List.append_cancel_right hboth

/-- A text is split in one way at the end of a run of characters of one kind. -/
theorem append_inj_of_head (hw : ∀ c ∈ w, p c = true) (hw' : ∀ c ∈ w', p c = true)
    (ht : ∀ c, t.head? = some c → p c = false) (ht' : ∀ c, t'.head? = some c → p c = false)
    (h : w ++ t = w' ++ t') : w = w' ∧ t = t' := by
  constructor
  · rw [← takeWhile_append_of_head hw ht, h, takeWhile_append_of_head hw' ht']
  · rw [← dropWhile_append_of_head hw ht, h, dropWhile_append_of_head hw' ht']

theorem head_dropWhile {c : Char} (h : (t.dropWhile p).head? = some c) : p c = false := by
  have hstop := List.head?_dropWhile_not p t
  rwa [h] at hstop

end

/-! ## Trimming -/

theorem trimEnd_append {t w : Text} (hw : ∀ c ∈ w, isBlank c = true) :
    trimEnd (t ++ w) = trimEnd t := by
  have hreverse : ∀ c ∈ w.reverse, isBlank c = true := fun c hc => hw c (List.mem_reverse.mp hc)
  rw [trimEnd, trimEnd, List.reverse_append, List.dropWhile_append_of_pos hreverse]

theorem trimEnd_eq_self {t : Text} (h : ∀ c, t.getLast? = some c → isBlank c = false) :
    trimEnd t = t := by
  have hhead : ∀ c, t.reverse.head? = some c → isBlank c = false := by
    intro c hc
    exact h c (by rwa [List.head?_reverse] at hc)
  rw [trimEnd, dropWhile_eq_self_of_head hhead, List.reverse_reverse]

theorem trim_append {w t w' : Text} (hw : ∀ c ∈ w, isBlank c = true)
    (hw' : ∀ c ∈ w', isBlank c = true) (hne : t ≠ [])
    (hhead : ∀ c, t.head? = some c → isBlank c = false)
    (hlast : ∀ c, t.getLast? = some c → isBlank c = false) : trim (w ++ t ++ w') = t := by
  have hhead' : ∀ c, (t ++ w').head? = some c → isBlank c = false := by
    intro c hc
    exact hhead c (by rwa [List.head?_append_of_ne_nil _ hne] at hc)
  rw [trim, List.append_assoc, dropWhile_append_of_head hw hhead', trimEnd_append hw',
    trimEnd_eq_self hlast]

theorem trim_around {w t w' : Text} (hw : ∀ c ∈ w, isBlank c = true)
    (hw' : ∀ c ∈ w', isBlank c = true) : trim (w ++ t ++ w') = trim t := by
  rw [trim, trim, List.append_assoc, List.dropWhile_append_of_pos hw, List.dropWhile_append]
  split
  · next hblank =>
    have htail : w'.dropWhile isBlank = [] := by simpa using hw'
    rw [htail, List.isEmpty_iff.mp hblank]
  · rw [trimEnd_append hw']

theorem trim_spaced {t : Text} (hne : t ≠ []) (hhead : ∀ c, t.head? = some c → isBlank c = false)
    (hlast : ∀ c, t.getLast? = some c → isBlank c = false) : trim ([' '] ++ t ++ [' ']) = t := by
  have hblank : ∀ c ∈ [' '], isBlank c = true := by
    intro c hc
    obtain rfl := List.mem_singleton.mp hc
    rfl
  exact trim_append hblank hblank hne hhead hlast

theorem exists_append_trimEnd (t : Text) : ∃ trail, trimEnd t ++ trail = t := by
  refine ⟨(t.reverse.takeWhile isBlank).reverse, ?_⟩
  rw [trimEnd, ← List.reverse_append, List.takeWhile_append_dropWhile, List.reverse_reverse]

theorem exists_append_trim (t : Text) : ∃ lead trail, lead ++ (trim t ++ trail) = t := by
  obtain ⟨trail, htrail⟩ := exists_append_trimEnd (t.dropWhile isBlank)
  refine ⟨t.takeWhile isBlank, trail, ?_⟩
  rw [trim, htrail, List.takeWhile_append_dropWhile]

theorem isBlank_of_getLast?_trim {t : Text} {c : Char} (h : (trim t).getLast? = some c) :
    isBlank c = false := by
  rw [trim, trimEnd, List.getLast?_reverse] at h
  exact head_dropWhile h

/-! ## Separators -/

/-- A run of separators, which is not empty. -/
structure Separates (w : Text) : Prop where
  nonempty : w ≠ []
  separators : ∀ c ∈ w, isSeparator c = true

/-- No separator stands at the beginning. -/
def Tight (t : Text) : Prop := ∀ c, t.head? = some c → isSeparator c = false

theorem separates_space : Separates [' '] := by
  refine ⟨List.cons_ne_nil _ _, ?_⟩
  intro c hc
  obtain rfl := List.mem_singleton.mp hc
  rfl

theorem afterSeparators?_append {w rest : Text} (hw : w.Separates) (hrest : rest.Tight) :
    afterSeparators? (w ++ rest) = some rest := by
  cases w with
  | nil => exact absurd rfl hw.nonempty
  | cons c w =>
    have htail : ∀ d ∈ w, isSeparator d = true := by
      intro d hd
      exact hw.separators d (List.mem_cons_of_mem c hd)
    rw [List.cons_append, afterSeparators?, if_pos (hw.separators c List.mem_cons_self),
      dropWhile_append_of_head htail hrest]

theorem afterSeparators?_eq_some_iff {t rest : Text} :
    afterSeparators? t = some rest ↔ ∃ w, w.Separates ∧ rest.Tight ∧ w ++ rest = t := by
  constructor
  · intro h
    cases t with
    | nil => cases h
    | cons c t =>
      rw [afterSeparators?] at h
      split at h
      · next hc =>
        cases h
        refine ⟨c :: t.takeWhile isSeparator, ⟨List.cons_ne_nil _ _, ?_⟩, ?_, ?_⟩
        · intro d hd
          rcases List.mem_cons.mp hd with rfl | hd
          · exact hc
          · exact List.mem_takeWhile_imp hd
        · exact fun d hd => head_dropWhile hd
        · rw [List.cons_append, List.takeWhile_append_dropWhile]
      · cases h
  · rintro ⟨w, hw, hrest, rfl⟩
    exact afterSeparators?_append hw hrest

end Text

/-! ## Names -/

section

variable {c : Char} {n gap : Text}

theorem toNat_of_isAlphanum (h : c.isAlphanum = true) :
    (48 ≤ c.toNat ∧ c.toNat ≤ 57) ∨ (65 ≤ c.toNat ∧ c.toNat ≤ 90) ∨
      (97 ≤ c.toNat ∧ c.toNat ≤ 122) := by
  rcases Bool.or_eq_true_iff.mp h with hletter | hdigit
  · rcases Bool.or_eq_true_iff.mp hletter with hupper | hlower
    · exact .inr (.inl (of_decide_eq_true hupper))
    · have hrange := Bool.and_eq_true_iff.mp hlower
      exact .inr (.inr (hrange.imp of_decide_eq_true of_decide_eq_true))
  · have hrange := Bool.and_eq_true_iff.mp hdigit
    exact .inl (hrange.imp of_decide_eq_true of_decide_eq_true)

theorem isBlank_of_isAlphanum (h : c.isAlphanum = true) : isBlank c = false := by
  have hrange := toNat_of_isAlphanum h
  simp only [isBlank, Bool.or_eq_false_iff, Bool.and_eq_false_iff, decide_eq_false_iff_not,
    beq_eq_false_iff_ne]
  omega

theorem isBlank_of_isNameChar (h : isNameChar c = true) : isBlank c = false := by
  simp only [isNameChar, Bool.or_eq_true, beq_iff_eq] at h
  rcases h with (halphanum | rfl) | rfl
  · exact isBlank_of_isAlphanum halphanum
  · rfl
  · rfl

theorem isNameChar_of_mem (hn : isName n = true) (hc : c ∈ n) : isNameChar c = true := by
  cases n with
  | nil => cases hc
  | cons d n =>
    rw [isName, Bool.and_eq_true, List.all_eq_true] at hn
    rcases List.mem_cons.mp hc with rfl | hc
    · simp [isNameChar, Char.isAlphanum, hn.1]
    · exact hn.2 c hc

theorem ne_nil_of_isName (hn : isName n = true) : n ≠ [] := by
  rintro rfl
  cases hn

theorem isSeparator_of_isNameChar (hc : isNameChar c = true) : isSeparator c = false := by
  cases hs : isSeparator c with
  | false => rfl
  | true =>
    simp only [isSeparator, Bool.or_eq_true, beq_iff_eq] at hs
    rcases hs with ((rfl | rfl) | rfl) | rfl <;> cases hc

theorem isNameChar_of_isSeparator (hc : isSeparator c = true) : isNameChar c = false := by
  cases hn : isNameChar c with
  | false => rfl
  | true =>
    rw [isSeparator_of_isNameChar hn] at hc
    cases hc

theorem not_mem_of_isName (hn : isName n = true) (hc : isNameChar c = false) : c ∉ n := by
  intro hmem
  rw [isNameChar_of_mem hn hmem] at hc
  cases hc

theorem Text.word?_eq_some_iff {first more : Char → Bool} {t word rest : Text} :
    word? first more t = some (word, rest) ↔ word ++ rest = t ∧
      (∃ c w, word = c :: w ∧ first c = true ∧ ∀ d ∈ w, more d = true) ∧
      ∀ d, rest.head? = some d → more d = false := by
  constructor
  · intro h
    cases t with
    | nil => cases h
    | cons c t =>
      rw [word?] at h
      split at h
      · next hc =>
        cases h
        exact ⟨by rw [List.cons_append, List.takeWhile_append_dropWhile],
          ⟨c, _, rfl, hc, fun d hd => List.mem_takeWhile_imp hd⟩, fun d hd => head_dropWhile hd⟩
      · cases h
  · rintro ⟨rfl, ⟨c, w, rfl, hc, hw⟩, hrest⟩
    rw [List.cons_append, word?, if_pos hc, takeWhile_append_of_head hw hrest,
      dropWhile_append_of_head hw hrest]

/-- The reader takes a name, and all of it. -/
theorem readName?_eq_some_iff {t rest : Text} :
    readName? t = some (n, rest) ↔ n ++ rest = t ∧ isName n = true ∧
      ∀ c, rest.head? = some c → isNameChar c = false := by
  have hname : (∃ c w, n = c :: w ∧ c.isAlpha = true ∧ ∀ d ∈ w, isNameChar d = true) ↔
      isName n = true := by
    cases n with
    | nil => simp [isName]
    | cons c w => simp [isName]
  rw [readName?, Text.word?_eq_some_iff, hname]

theorem Text.tight_append_of_isName (hn : isName n = true) (t : Text) : Tight (n ++ t) := by
  intro c hc
  rw [List.head?_append_of_ne_nil _ (ne_nil_of_isName hn)] at hc
  exact isSeparator_of_isNameChar (isNameChar_of_mem hn (List.mem_of_head? hc))

/-- Separators end a name. -/
theorem Text.Separates.head_append (h : gap.Separates) (t : Text) (c : Char)
    (hc : (gap ++ t).head? = some c) : isNameChar c = false := by
  rw [List.head?_append_of_ne_nil _ h.nonempty] at hc
  exact isNameChar_of_isSeparator (h.separators c (List.mem_of_head? hc))

theorem Text.Separates.not_isName_append (h : gap.Separates) (word rest : Text) :
    ¬ isName (word ++ (gap ++ rest)) = true := by
  intro hn
  obtain ⟨c, hc⟩ := List.exists_mem_of_ne_nil gap h.nonempty
  exact not_mem_of_isName hn (isNameChar_of_isSeparator (h.separators c hc))
    (List.mem_append_right word (List.mem_append_left rest hc))

end

end DocSplice
