import DocSplice.Proofs.Reads
import DocSplice.Proofs.Stepping
import DocSplice.Proofs.Unescape

/-!
# DocSplice.Proofs.Literal

Every text can be written in a document so that it stands for itself. A backslash before each marker
hides it from the reader, and the escape pass takes exactly these backslashes away again.

* `Marker.escape`: writes a text so that none of its markers is read as one.
* `Marker.escapeAfter`: the same behind a text that ends in an opening brace or does not.
* `Marker.unescape_escapeAfter`: the escape pass gives the text back.
* `Segment.reads_escapeAfter`: an escaped text reads as plain characters.
* `ofText_escape`: the run over an escaped text.
-/

namespace DocSplice

open Segment

namespace Marker

/-- A backslash is written before the text. `brace` says whether an opening brace stands before it:
then a closing marker at its beginning is hidden already, with the opening marker that it shares its
first character with. -/
def hides (brace : Bool) (t : Text) : Bool := opens t || (closes t && !brace)

/-- The escaped form of a text behind an opening brace or not. -/
def escapeAfter (brace : Bool) : Text → Text
  | [] => []
  | c :: t =>
    if hides brace (c :: t) then escapeChar :: c :: escapeAfter (c == '{') t
    else c :: escapeAfter (c == '{') t

/-- Writes a backslash before each opening marker, and before each closing marker that does not
share its first character with an opening one. -/
def escape (t : Text) : Text := escapeAfter false t

@[simp] theorem escapeAfter_nil (brace : Bool) : escapeAfter brace [] = [] := rfl

theorem escapeAfter_of_hides {brace : Bool} {c : Char} {t : Text}
    (h : hides brace (c :: t) = true) :
    escapeAfter brace (c :: t) = escapeChar :: c :: escapeAfter (c == '{') t := by
  rw [escapeAfter, if_pos h]

theorem escapeAfter_of_not_hides {brace : Bool} {c : Char} {t : Text}
    (h : hides brace (c :: t) = false) :
    escapeAfter brace (c :: t) = c :: escapeAfter (c == '{') t := by
  rw [escapeAfter, h]
  rfl

/-! ## Escaping makes and breaks no marker -/

theorem head?_escapeAfter_percent (t : Text) :
    (escapeAfter true t).head? = some '%' ↔ t.head? = some '%' := by
  cases t with
  | nil => simp
  | cons c t =>
    cases hc : hides true (c :: t) with
    | true =>
      -- only an opening marker is hidden behind a brace
      obtain ⟨rest, hrest⟩ : ∃ rest, c :: t = '{' :: '%' :: rest := by
        rw [hides, Bool.not_true, Bool.and_false, Bool.or_false] at hc
        exact opens_iff.mp hc
      obtain ⟨rfl, rfl⟩ := List.cons.inj hrest
      rw [escapeAfter_of_hides hc]
      simp [escapeChar]
    | false =>
      rw [escapeAfter_of_not_hides hc]
      rfl

theorem head?_escapeAfter_brace (t : Text) :
    (escapeAfter false t).head? = some '}' ↔ t.head? = some '}' := by
  cases t with
  | nil => simp
  | cons c t =>
    cases hc : hides false (c :: t) with
    | true =>
      have hne : c ≠ '}' := by
        rintro rfl
        cases hc
      rw [escapeAfter_of_hides hc]
      simp [escapeChar, hne]
    | false =>
      rw [escapeAfter_of_not_hides hc]
      rfl

theorem opens_cons_escapeAfter (c : Char) (t : Text) :
    opens (c :: escapeAfter (c == '{') t) = opens (c :: t) := by
  rw [Bool.eq_iff_iff, opens_cons_iff, opens_cons_iff]
  refine and_congr_right ?_
  rintro rfl
  exact head?_escapeAfter_percent t

theorem closes_cons_escapeAfter (c : Char) (t : Text) :
    closes (c :: escapeAfter (c == '{') t) = closes (c :: t) := by
  rw [Bool.eq_iff_iff, closes_cons_iff, closes_cons_iff]
  refine and_congr_right ?_
  rintro rfl
  exact head?_escapeAfter_brace t

theorem begins_cons_escapeAfter (c : Char) (t : Text) :
    begins (c :: escapeAfter (c == '{') t) = begins (c :: t) := by
  rw [begins, begins, opens_cons_escapeAfter, closes_cons_escapeAfter]

/-- No marker is left at the beginning, so a backslash of the text itself is kept. -/
theorem begins_escapeAfter (t : Text) : begins (escapeAfter false t) = false := by
  cases t with
  | nil => rfl
  | cons c t =>
    cases hc : hides false (c :: t) with
    | true =>
      rw [escapeAfter_of_hides hc]
      rfl
    | false =>
      rw [escapeAfter_of_not_hides hc, begins_cons_escapeAfter]
      simpa [hides, begins] using hc

/-! ## The escape pass undoes it -/

theorem begins_of_hides {brace : Bool} {t : Text} (h : hides brace t = true) : begins t = true := by
  rw [hides, Bool.or_eq_true, Bool.and_eq_true] at h
  rw [begins, Bool.or_eq_true]
  exact h.imp id And.left

theorem unescape_escapeAfter (brace : Bool) (t : Text) : unescape (escapeAfter brace t) = t := by
  induction t generalizing brace with
  | nil => rfl
  | cons c t ih =>
    cases hc : hides brace (c :: t) with
    | true =>
      have hbegins : begins (c :: escapeAfter (c == '{') t) = true := by
        rw [begins_cons_escapeAfter]
        exact begins_of_hides hc
      have hne : c ≠ escapeChar := by
        rintro rfl
        cases hc
      rw [escapeAfter_of_hides hc, unescape_cons, hbegins, if_pos (by rfl),
        unescape_cons_of_ne hne, ih]
    | false =>
      rw [escapeAfter_of_not_hides hc]
      by_cases hesc : c = escapeChar
      · subst hesc
        have hkept : begins (escapeAfter (escapeChar == '{') t) = false := begins_escapeAfter t
        rw [unescape_cons, hkept, Bool.and_false, if_neg Bool.false_ne_true, ih]
      · rw [unescape_cons_of_ne hesc, ih]

end Marker

/-! ## The reader finds no directive -/

open Marker

theorem Segment.reads_escapeAfter (escaped brace : Bool) (t : Text) :
    Reads escaped (escapeAfter brace t) ((escapeAfter brace t).map plain) := by
  induction t generalizing escaped brace with
  | nil => exact .nil
  | cons c t ih =>
    cases hc : hides brace (c :: t) with
    | true =>
      rw [escapeAfter_of_hides hc]
      -- the marker stands behind the backslash
      exact .plain (fun _ => rfl) (.plain (fun he => nomatch he) (ih _ _))
    | false =>
      rw [escapeAfter_of_not_hides hc]
      refine .plain (fun _ => directiveAt?_of_not_opens ?_) (ih _ _)
      rw [opens_cons_escapeAfter]
      rw [hides, Bool.or_eq_false_iff] at hc
      exact hc.1

theorem segments_escape (t : Text) : (escape t).segments = (escape t).map plain :=
  (reads_escapeAfter false false t).segments_eq

theorem Span.collect_map_plain (offset : Nat) (t : Text) : collect offset (t.map .plain) = [] := by
  induction t generalizing offset with
  | nil => rfl
  | cons c t ih => rw [List.map_cons, collect_plain, ih]

/-- **Every text can be written literally.** The escaped form of a text holds no directive, and the
run over it succeeds and writes the text, with the predefined variables and no others. -/
theorem ofText_escape (source : IncludeSource) (predefined : List (Text × Text)) (t : Text) :
    (escape t).spans = [] ∧ unescape (escape t) = t ∧
    ∃ table, (Run.ofText source predefined (escape t)).result = .ok ⟨t, table, 0⟩ ∧
      ∀ name, table.value? name = lastValue? predefined name := by
  have hunescape : unescape (escape t) = t := unescape_escapeAfter false t
  refine ⟨?_, hunescape, ?_⟩
  · rw [Span.spans_eq_collect, segments_escape, Span.collect_map_plain]
  · have hseeds := Progress.seeds_seeded predefined
    have hsteps := @Progress.steps_plain source (Progress.seeded predefined) (escape t)
    rw [← segments_escape] at hsteps
    refine ⟨(Progress.seeded predefined).bindings, ?_, hseeds.value⟩
    rw [Run.result_of_ok hsteps]
    simp only [hseeds.written, hseeds.directives, List.append_nil, List.reverse_reverse, hunescape]

example : escape ['{', '%', '}', '\\', '{', '%', 'x', '%', '}'] =
    ['\\', '{', '%', '}', '\\', '\\', '{', '%', 'x', '\\', '%', '}'] := by decide

end DocSplice
