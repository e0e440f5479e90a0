import DocSplice.Proofs.Offset
import DocSplice.Segment

/-!
# DocSplice.Proofs.Body

Where markers stand, and which texts are bodies of directives.

* `Marker.Bare`: a marker at a byte offset of a text, without a backslash right before it.
* `Marker.escapedAfter`: what a reader from left to right has to remember of the text behind it.
* `Segment.IsBody`: what may stand between two markers. `directiveAt?_eq_some_iff` says that
  `directiveAt?` finds exactly the bodies, `directiveAt?_eq_none_iff` when there is none.
-/

namespace DocSplice
namespace Marker

/-- The marker that opens a directive. -/
def opening : Text := ['{', '%']

/-- The marker that closes a directive. -/
def closing : Text := ['%', '}']

/-- The marker stands at a byte offset of a text, and no backslash stands right before it. -/
def Bare (marker t : Text) (offset : Nat) : Prop :=
  ∃ before behind, t = before ++ marker ++ behind ∧ before.byteSize = offset ∧
    before.getLast? ≠ some escapeChar

/-- Is a marker behind the text `t` literal? `escaped` says whether a backslash stands before `t`,
which matters only if `t` is empty. -/
def escapedAfter (escaped : Bool) (t : Text) : Bool := t.foldl (fun _ c => c == escapeChar) escaped

@[simp] theorem escapedAfter_nil (escaped : Bool) : escapedAfter escaped [] = escaped := rfl

@[simp] theorem escapedAfter_cons (escaped : Bool) (c : Char) (t : Text) :
    escapedAfter escaped (c :: t) = escapedAfter (c == escapeChar) t := rfl

@[simp] theorem escapedAfter_append (escaped : Bool) (s t : Text) :
    escapedAfter escaped (s ++ t) = escapedAfter (escapedAfter escaped s) t := by
  simp [escapedAfter, List.foldl_append]

theorem escapedAfter_eq_false_iff (t : Text) :
    escapedAfter false t = false ↔ t.getLast? ≠ some escapeChar := by
  rcases List.eq_nil_or_concat t with rfl | ⟨s, c, rfl⟩
  · simp
  · simp

theorem closes_iff_append {t : Text} : closes t = true ↔ ∃ behind, t = closing ++ behind :=
  closes_iff

theorem closes_cons_append (c : Char) (t behind : Text) :
    closes (c :: (t ++ (closing ++ behind))) = closes (c :: t) := by
  cases t with
  | nil => by_cases hc : c = '%' <;> simp [closes, closing, hc]
  | cons d t =>
    by_cases hc : c = '%'
    · by_cases hd : d = '}' <;> simp [closes, hc, hd]
    · simp [closes, hc]

/-- A text that begins with a brace completes no marker. -/
theorem opens_append_of_head {s r : Text} (hs : s ≠ []) (hr : r.head? = some '{') :
    opens (s ++ r) = opens s := by
  obtain ⟨r, rfl⟩ := List.head?_eq_some_iff.mp hr
  rcases s with _ | ⟨c, _ | ⟨d, s⟩⟩
  · exact absurd rfl hs
  · by_cases hc : c = '{' <;> simp [opens, hc]
  · by_cases hc : c = '{'
    · by_cases hd : d = '%' <;> simp [opens, hc, hd]
    · simp [opens, hc]

theorem closes_append_of_head {s r : Text} (hr : r.head? = some '{') :
    closes (s ++ r) = closes s := by
  obtain ⟨r, rfl⟩ := List.head?_eq_some_iff.mp hr
  rcases s with _ | ⟨c, _ | ⟨d, s⟩⟩
  · rfl
  · by_cases hc : c = '%' <;> simp [closes, hc]
  · by_cases hc : c = '%'
    · by_cases hd : d = '}' <;> simp [closes, hc, hd]
    · simp [closes, hc]

theorem bare_byteSize_iff {marker before rest : Text} :
    Bare marker (before ++ rest) before.byteSize ↔
      escapedAfter false before = false ∧ ∃ behind, rest = marker ++ behind := by
  rw [escapedAfter_eq_false_iff]
  constructor
  · rintro ⟨before', behind, ht, hsize, hesc⟩
    rw [List.append_assoc] at ht
    obtain ⟨rfl, hrest⟩ := Text.append_inj_of_byteSize ht hsize.symm
    exact ⟨hesc, behind, hrest⟩
  · rintro ⟨hesc, behind, rfl⟩
    exact ⟨before, behind, by rw [List.append_assoc], rfl, hesc⟩

/-- Every closing marker in the text `t` is literal. `escaped` says whether a backslash stands before
`t`. -/
def Unclosed (escaped : Bool) (t : Text) : Prop :=
  ∀ before behind, t = before ++ (closing ++ behind) → escapedAfter escaped before = true

theorem unclosed_nil (escaped : Bool) : Unclosed escaped [] := by
  intro before behind h
  simp [closing] at h

theorem unclosed_cons {escaped : Bool} {c : Char} {t : Text} :
    Unclosed escaped (c :: t) ↔
      ¬ (escaped = false ∧ closes (c :: t) = true) ∧ Unclosed (c == escapeChar) t := by
  constructor
  · intro h
    refine ⟨?_, ?_⟩
    · rintro ⟨rfl, hcl⟩
      obtain ⟨behind, hb⟩ := closes_iff_append.mp hcl
      have hlit := h [] behind hb
      cases hlit
    · intro before behind hb
      exact h (c :: before) behind (by rw [hb, List.cons_append])
  · rintro ⟨hcl, h⟩ before behind hb
    cases before with
    | nil =>
      cases escaped with
      | false => exact absurd ⟨rfl, closes_iff_append.mpr ⟨behind, hb⟩⟩ hcl
      | true => rfl
    | cons d before =>
      rw [List.cons_append] at hb
      obtain ⟨rfl, ht⟩ := List.cons.inj hb
      exact h before behind ht

theorem unclosed_iff {t : Text} : Unclosed false t ↔ ∀ offset, ¬ Bare closing t offset := by
  constructor
  · rintro h offset ⟨before, behind, ht, -, hesc⟩
    rw [← escapedAfter_eq_false_iff, h before behind (by simpa using ht)] at hesc
    cases hesc
  · intro h before behind ht
    apply Classical.byContradiction
    intro hesc
    rw [Bool.not_eq_true, escapedAfter_eq_false_iff] at hesc
    exact h before.byteSize ⟨before, behind, by simpa using ht, rfl, hesc⟩

/-- No closing marker reaches into a text from around it, if what stands before has no percent sign and
what follows has no brace. -/
theorem not_bare_around {lead v trail : Text} (hlead : '%' ∉ lead) (htrail : '}' ∉ trail)
    (hv : ∀ offset, ¬ Bare closing v offset) (offset : Nat) :
    ¬ Bare closing (lead ++ (v ++ trail)) offset := by
  rintro ⟨before, behind, ht, -, hesc⟩
  rw [List.append_assoc before] at ht
  obtain ⟨m, rfl, hm⟩ : ∃ m, before = lead ++ m ∧ v ++ trail = m ++ (closing ++ behind) := by
    rcases List.append_eq_append_iff.mp ht with ⟨m, hb, hm⟩ | ⟨m, hb, hm⟩
    · exact ⟨m, hb, hm⟩
    · cases m with
      | nil => exact ⟨[], by simpa using hb.symm, by simpa using hm.symm⟩
      | cons c m =>
        obtain ⟨rfl, -⟩ := List.cons.inj hm
        exact absurd (by rw [hb]; simp) hlead
  obtain ⟨rest, hv'⟩ : ∃ rest, v = m ++ closing ++ rest := by
    rw [← List.append_assoc] at hm
    rcases List.append_eq_append_iff.mp hm with ⟨x, hx, hx'⟩ | ⟨rest, hrest, -⟩
    · rcases List.eq_nil_or_concat x with rfl | ⟨x, c, rfl⟩
      · exact ⟨[], by simpa using hx.symm⟩
      · have hlast := congrArg List.getLast? hx
        rw [List.concat_eq_append] at hlast
        obtain rfl : '}' = c := by simpa [closing] using hlast
        exact absurd (by rw [hx']; simp) htrail
    · exact ⟨rest, hrest⟩
  refine hv m.byteSize ⟨m, rest, hv', rfl, ?_⟩
  intro hlast
  rw [List.getLast?_append, hlast] at hesc
  exact hesc rfl

end Marker

namespace Segment

open Marker

/-! ## What may stand between two markers -/

/-- The text may stand between an opening and a closing marker: it is not empty, lies on one line,
does not end in a backslash, and no closing marker in it would end the directive earlier. -/
structure IsBody (body : Text) : Prop where
  nonempty : body ≠ []
  oneLine : '\n' ∉ body
  unclosed : ∀ offset, ¬ Bare closing body offset
  closable : body.getLast? ≠ some escapeChar

/-- The text may stand before the closing marker of a directive. `escaped` says whether a backslash
stands before the text. -/
structure Enclosed (escaped : Bool) (body : Text) : Prop where
  oneLine : '\n' ∉ body
  unclosed : Unclosed escaped body
  closable : escapedAfter escaped body = false

theorem isBody_iff {body : Text} : IsBody body ↔ body ≠ [] ∧ Enclosed false body := by
  constructor
  · intro h
    refine ⟨h.nonempty, h.oneLine, unclosed_iff.mpr h.unclosed, ?_⟩
    exact (escapedAfter_eq_false_iff body).mpr h.closable
  · rintro ⟨hne, h⟩
    refine ⟨hne, h.oneLine, unclosed_iff.mp h.unclosed, ?_⟩
    exact (escapedAfter_eq_false_iff body).mp h.closable

theorem enclosed_nil {escaped : Bool} : Enclosed escaped [] ↔ escaped = false := by
  constructor
  · exact fun h => h.closable
  · exact fun h => ⟨by simp, unclosed_nil escaped, h⟩

theorem enclosed_cons {escaped : Bool} {c : Char} {t : Text} :
    Enclosed escaped (c :: t) ↔
      c ≠ '\n' ∧ ¬ (escaped = false ∧ closes (c :: t) = true) ∧ Enclosed (c == escapeChar) t := by
  constructor
  · intro h
    obtain ⟨hcl, hu⟩ := unclosed_cons.mp h.unclosed
    refine ⟨?_, hcl, ?_, hu, h.closable⟩
    · exact fun hc => h.oneLine (by simp [hc])
    · exact fun hm => h.oneLine (List.mem_cons_of_mem c hm)
  · rintro ⟨hc, hcl, h⟩
    refine ⟨?_, unclosed_cons.mpr ⟨hcl, h.unclosed⟩, h.closable⟩
    intro hm
    rcases List.mem_cons.mp hm with hm | hm
    · exact hc hm.symm
    · exact h.oneLine hm

/-! ## What the reader finds -/

theorem bodyBefore?_eq_some_iff {escaped : Bool} {taken t found : Text} :
    bodyBefore? escaped taken t = some found ↔
      ∃ body behind, found = taken.reverse ++ body ∧ t = body ++ (closing ++ behind) ∧
        Enclosed escaped body := by
  induction t generalizing escaped taken with
  | nil => simp [bodyBefore?, closing]
  | cons c t ih =>
    simp only [bodyBefore?]
    split
    · next hc =>
      -- a line feed ends the search
      rw [beq_iff_eq] at hc
      subst hc
      constructor
      · intro h; cases h
      · rintro ⟨body, behind, -, ht, hb⟩
        cases body with
        | nil => simp [closing] at ht
        | cons d body =>
          obtain ⟨rfl, -⟩ := List.cons.inj ht
          exact absurd rfl (enclosed_cons.mp hb).1
    · next hc =>
      split
      · next hcl =>
        simp only [Bool.and_eq_true, Bool.not_eq_true'] at hcl
        obtain ⟨behind, hb⟩ := closes_iff_append.mp hcl.2
        constructor
        · intro h
          cases h
          exact ⟨[], behind, by simp, by simpa using hb, enclosed_nil.mpr hcl.1⟩
        · rintro ⟨body, behind', rfl, ht, hbody⟩
          cases body with
          | nil => simp
          | cons d body =>
            rw [List.cons_append] at ht
            obtain ⟨rfl, rfl⟩ := List.cons.inj ht
            rw [closes_cons_append] at hcl
            exact absurd hcl (enclosed_cons.mp hbody).2.1
      · next hcl =>
        simp only [Bool.and_eq_true, Bool.not_eq_true'] at hcl
        rw [ih]
        constructor
        · rintro ⟨body, behind, rfl, rfl, hb⟩
          refine ⟨c :: body, behind, by simp, rfl, enclosed_cons.mpr ⟨by simpa using hc, ?_, hb⟩⟩
          rwa [closes_cons_append] at hcl
        · rintro ⟨body, behind, rfl, ht, hb⟩
          cases body with
          | nil =>
            exact absurd ⟨enclosed_nil.mp hb, closes_iff_append.mpr ⟨behind, by simpa using ht⟩⟩ hcl
          | cons d body =>
            rw [List.cons_append] at ht
            obtain ⟨rfl, rfl⟩ := List.cons.inj ht
            exact ⟨body, behind, by simp, rfl, (enclosed_cons.mp hb).2.2⟩

theorem closes_takeWhile_line (t : Text) : closes (t.takeWhile (· != '\n')) = closes t := by
  rcases t with _ | ⟨c, _ | ⟨d, t⟩⟩
  · rfl
  · by_cases hc : c = '\n' <;> simp [closes, hc]
  · by_cases hc : c = '%'
    · by_cases hd : d = '}' <;> by_cases hd' : d = '\n' <;> simp [closes, hc, hd, hd']
    · by_cases hc' : c = '\n' <;> simp [closes, hc, hc']

theorem bare_line_zero_iff {t : Text} :
    Bare closing (t.takeWhile (· != '\n')) 0 ↔ closes t = true := by
  rw [← closes_takeWhile_line, closes_iff_append]
  simpa using @bare_byteSize_iff closing [] (t.takeWhile (· != '\n'))

/-- The reader of bodies finds nothing if every closing marker on the line is literal. -/
theorem bodyBefore?_eq_none_iff {escaped : Bool} {taken t : Text} :
    bodyBefore? escaped taken t = none ↔ Unclosed escaped (t.takeWhile (· != '\n')) := by
  induction t generalizing escaped taken with
  | nil => simp [bodyBefore?, unclosed_nil]
  | cons c t ih =>
    simp only [bodyBefore?]
    split
    · next hc =>
      rw [beq_iff_eq] at hc
      subst hc
      simp [unclosed_nil]
    · next hc =>
      rw [beq_iff_eq] at hc
      have hline : (c :: t).takeWhile (· != '\n') = c :: t.takeWhile (· != '\n') :=
        List.takeWhile_cons_of_pos (by simpa using hc)
      rw [hline, unclosed_cons, ← hline, closes_takeWhile_line]
      split
      · next hcl =>
        simp only [Bool.and_eq_true, Bool.not_eq_true'] at hcl
        simp [hcl]
      · next hcl =>
        simp only [Bool.and_eq_true, Bool.not_eq_true'] at hcl
        rw [ih]
        exact ⟨fun h => ⟨hcl, h⟩, fun h => h.2⟩

theorem directiveAt?_of_not_opens {t : Text} (h : opens t = false) :
    directiveAt? t = none := by
  unfold directiveAt?
  split
  · cases h
  · rfl

theorem directiveAt?_eq_some_iff {t body : Text} :
    directiveAt? t = some body ↔
      IsBody body ∧ ∃ behind, t = (directive body).text ++ behind := by
  rw [isBody_iff]
  constructor
  · intro h
    unfold directiveAt? at h
    split at h
    · obtain ⟨hfound, hne⟩ := Option.filter_eq_some_iff.mp h
      obtain ⟨body', behind, rfl, rfl, hb⟩ := bodyBefore?_eq_some_iff.mp hfound
      exact ⟨⟨by simpa using hne, hb⟩, behind, by simp [text, closing]⟩
    · cases h
  · rintro ⟨⟨hne, hb⟩, behind, rfl⟩
    have hfound : bodyBefore? false [] (body ++ (closing ++ behind)) = some body :=
      bodyBefore?_eq_some_iff.mpr ⟨body, behind, rfl, rfl, hb⟩
    have htext : (directive body).text ++ behind = '{' :: '%' :: (body ++ (closing ++ behind)) := by
      simp [text, closing]
    rw [htext, directiveAt?, hfound]
    simpa using hne

theorem directiveAt?_eq_none_iff {behind : Text} :
    directiveAt? (opening ++ behind) = none ↔
      (∀ offset, ¬ Bare closing (behind.takeWhile (· != '\n')) offset) ∨
        Bare closing (behind.takeWhile (· != '\n')) 0 := by
  have hread : directiveAt? (opening ++ behind) =
      (bodyBefore? false [] behind).filter (!·.isEmpty) := rfl
  rw [hread, bare_line_zero_iff, ← unclosed_iff, ← @bodyBefore?_eq_none_iff false []]
  cases hb : bodyBefore? false [] behind with
  | none => simp
  | some body =>
    obtain ⟨body, rest, rfl, rfl, hbody⟩ := bodyBefore?_eq_some_iff.mp hb
    cases body with
    | nil => simp [closing, closes]
    | cons c body =>
      have hcl := (enclosed_cons.mp hbody).2.1
      rw [← closes_cons_append c body rest] at hcl
      simpa using hcl

/-- A directive lies on one line, so it is found before the line ends or not at all. -/
theorem directiveAt?_append {t : Text} (h : '\n' ∈ t) (more : Text) :
    directiveAt? (t ++ more) = directiveAt? t := by
  apply Option.ext
  intro body
  rw [directiveAt?_eq_some_iff, directiveAt?_eq_some_iff]
  constructor
  · rintro ⟨hbody, behind, ht⟩
    refine ⟨hbody, ?_⟩
    rcases List.append_eq_append_iff.mp ht with ⟨m, htext, -⟩ | ⟨m, ht, -⟩
    · have hmem : '\n' ∈ (directive body).text := by
        rw [htext]
        exact List.mem_append_left m h
      exact absurd (by simpa [text] using hmem) hbody.oneLine
    · exact ⟨m, ht⟩
  · rintro ⟨hbody, behind, rfl⟩
    exact ⟨hbody, behind ++ more, by rw [List.append_assoc]⟩

end Segment
end DocSplice
