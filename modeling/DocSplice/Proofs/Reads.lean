import DocSplice.Proofs.Body
import DocSplice.Span

/-!
# DocSplice.Proofs.Reads

The reading of a document as a relation, and the spans of what was read.

* `Segment.Reads`: a text reads as a list of segments, behind a text that ends in a backslash or
  does not. `reads_iff` says that `Text.segments` computes it.
* `Span.collect`: the spans of segments that begin at a byte offset, with one law for each kind of
  segment. `collect_add` says what becomes of them behind more text (`Span.shift`).
-/

namespace DocSplice
namespace Segment

open Marker

/-- The text reads as the segments. `escaped` says whether a backslash stands before the text. -/
inductive Reads : Bool → Text → List Segment → Prop where
  | nil {escaped : Bool} : Reads escaped [] []
  | plain {escaped : Bool} {c : Char} {t : Text} {l : List Segment} :
      (escaped = false → directiveAt? (c :: t) = none) → Reads (c == escapeChar) t l →
      Reads escaped (c :: t) (plain c :: l)
  | directive {body t : Text} {l : List Segment} :
      IsBody body → Reads false t l →
      Reads false ((directive body).text ++ t) (directive body :: l)

theorem flatten_append (l m : List Segment) : flatten (l ++ m) = flatten l ++ flatten m :=
  List.flatMap_append

theorem text_directive (body : Text) : (directive body).text = opening ++ body ++ closing := by
  simp [text, opening, closing]

theorem byteSize_text_directive (body : Text) :
    (directive body).text.byteSize = body.byteSize + 4 := by
  have hopen : Text.byteSize opening = 2 := by decide
  have hclose : Text.byteSize closing = 2 := by decide
  rw [text_directive, Text.byteSize_append, Text.byteSize_append]
  omega

theorem getLast?_text_directive (body : Text) : (directive body).text.getLast? = some '}' := by
  rw [text_directive, List.getLast?_append]
  rfl

theorem readOnto_length_append (escaped : Bool) (s t : Text) :
    readOnto s.length escaped [] (s ++ t) = readOnto 0 (escapedAfter escaped s) [] t := by
  induction s generalizing escaped with
  | nil => rfl
  | cons c s ih => exact ih (c == escapeChar)

theorem readOnto_plain {escaped : Bool} {c : Char} {t : Text}
    (h : escaped = false → directiveAt? (c :: t) = none) :
    readOnto 0 escaped [] (c :: t) = plain c :: readOnto 0 (c == escapeChar) [] t := by
  have hnone : (if escaped then none else directiveAt? (c :: t)) = none := by
    cases escaped with
    | false => exact h rfl
    | true => rfl
  rw [readOnto, hnone, readOnto_eq]
  rfl

theorem readOnto_directive {body : Text} (t : Text) (h : IsBody body) :
    readOnto 0 false [] ((directive body).text ++ t) = directive body :: readOnto 0 false [] t := by
  have hsome : directiveAt? ((directive body).text ++ t) = some body :=
    directiveAt?_eq_some_iff.mpr ⟨h, t, rfl⟩
  let tail : Text := '%' :: (body ++ closing)
  have htext : (directive body).text ++ t = '{' :: (tail ++ t) := rfl
  have hskip : readOnto (body.length + 3) ('{' == escapeChar) [] (tail ++ t) =
      readOnto 0 (escapedAfter ('{' == escapeChar) tail) [] t := by
    rw [← readOnto_length_append]
    congr 1
    simp [tail, closing]
  have hesc : escapedAfter ('{' == escapeChar) tail = false := by
    simp [tail, closing, escapeChar]
  rw [htext] at hsome ⊢
  simp only [readOnto, hsome, Bool.false_eq_true, if_false]
  rw [readOnto_eq, hskip, hesc]
  rfl

/-- Every text reads as the segments that the reader finds in it. -/
theorem reads_readOnto (escaped : Bool) (t : Text) : Reads escaped t (readOnto 0 escaped [] t) := by
  -- a directive takes several characters at once, so the induction is on the length of the text
  induction hn : t.length using Nat.strongRecOn generalizing escaped t with
  | ind n ih =>
    cases t with
    | nil => exact .nil
    | cons c t =>
      by_cases hplain : escaped = false → directiveAt? (c :: t) = none
      · rw [readOnto_plain hplain]
        exact .plain hplain (ih t.length (by simp [← hn]) _ t rfl)
      · obtain ⟨rfl, body, hbody⟩ : escaped = false ∧ ∃ body, directiveAt? (c :: t) = some body := by
          cases hd : directiveAt? (c :: t) with
          | none => exact absurd (fun _ => hd) hplain
          | some body =>
            cases escaped with
            | false => exact ⟨rfl, body, rfl⟩
            | true => exact absurd (fun h => nomatch h) hplain
        obtain ⟨hb, behind, ht⟩ := directiveAt?_eq_some_iff.mp hbody
        rw [ht, readOnto_directive behind hb]
        refine .directive hb (ih behind.length ?_ false behind rfl)
        rw [← hn, ht]
        simp [text]
        omega

theorem reads_iff {escaped : Bool} {t : Text} {l : List Segment} :
    Reads escaped t l ↔ readOnto 0 escaped [] t = l := by
  constructor
  · intro h
    induction h with
    | nil => rfl
    | plain hc _ ih => rw [readOnto_plain hc, ih]
    | directive hb _ ih => rw [readOnto_directive _ hb, ih]
  · rintro rfl
    exact reads_readOnto escaped t

theorem Reads.flatten_eq {escaped : Bool} {t : Text} {l : List Segment}
    (h : Reads escaped t l) : flatten l = t := by
  induction h with
  | nil => rfl
  | plain _ _ ih => rw [flatten_cons, ih]; rfl
  | directive _ _ ih => rw [flatten_cons, ih]

theorem Reads.isBody_of_mem {escaped : Bool} {t body : Text} {l : List Segment}
    (h : Reads escaped t l) (hmem : .directive body ∈ l) : IsBody body := by
  induction h with
  | nil => cases hmem
  | plain _ _ ih => exact ih (by simpa using hmem)
  | directive hb _ ih =>
    rcases List.mem_cons.mp hmem with heq | hmem
    · cases heq
      exact hb
    · exact ih hmem

theorem reads_segments (t : Text) : Reads false t t.segments := reads_readOnto false t

theorem Reads.segments_eq {t : Text} {l : List Segment} (h : Reads false t l) : t.segments = l :=
  reads_iff.mp h

end Segment

namespace Span

/-- The span of a directive that begins at byte `offset`. -/
def ofBody (offset : Nat) (body : Text) : Span :=
  ⟨offset, offset + (Segment.directive body).text.byteSize, body.trim⟩

@[simp] theorem start_ofBody (offset : Nat) (body : Text) : (ofBody offset body).start = offset := rfl

@[simp] theorem stop_ofBody (offset : Nat) (body : Text) :
    (ofBody offset body).stop = offset + (Segment.directive body).text.byteSize := rfl

/-- The spans of segments of which the first begins at byte `offset`. -/
def collect (offset : Nat) (l : List Segment) : List Span := collectOnto offset [] l

theorem spans_eq_collect (t : Text) : t.spans = collect 0 t.segments := rfl

theorem collectOnto_eq (offset : Nat) (done : List Span) (l : List Segment) :
    collectOnto offset done l = done.reverse ++ collect offset l := by
  induction l generalizing offset done with
  | nil => simp [collect, collectOnto]
  | cons s l ih =>
    cases s with
    | plain c => exact ih _ done
    | directive body =>
      rw [collect, collectOnto, collectOnto, ih, ih _ [_]]
      simp

@[simp] theorem collect_nil (offset : Nat) : collect offset [] = [] := rfl

@[simp] theorem collect_plain (offset : Nat) (c : Char) (l : List Segment) :
    collect offset (.plain c :: l) = collect (offset + c.utf8Size) l := by
  rw [collect, collectOnto, Segment.text, Text.byteSize_cons, Text.byteSize_nil, Nat.add_zero]
  rfl

@[simp] theorem collect_directive (offset : Nat) (body : Text) (l : List Segment) :
    collect offset (.directive body :: l) =
      ofBody offset body :: collect (offset + (Segment.directive body).text.byteSize) l := by
  rw [collect, collectOnto, collectOnto_eq]
  rfl

theorem collect_append (offset : Nat) (l m : List Segment) :
    collect offset (l ++ m) = collect offset l ++ collect (offset + (Segment.flatten l).byteSize) m := by
  induction l generalizing offset with
  | nil => simp
  | cons s l ih =>
    cases s with
    | plain c => simp [ih, Segment.text, Nat.add_assoc]
    | directive body => simp [ih, Nat.add_assoc]

/-- The span some bytes further on. -/
def shift (bytes : Nat) (s : Span) : Span :=
  { s with start := s.start + bytes, stop := s.stop + bytes }

theorem ofBody_add (offset bytes : Nat) (body : Text) :
    ofBody (offset + bytes) body = (ofBody offset body).shift bytes := by
  rw [ofBody, ofBody, shift, Nat.add_right_comm]

theorem collect_add (offset bytes : Nat) (l : List Segment) :
    collect (offset + bytes) l = (collect offset l).map (shift bytes) := by
  induction l generalizing offset with
  | nil => rfl
  | cons s l ih =>
    cases s with
    | plain c => rw [collect_plain, collect_plain, Nat.add_right_comm, ih]
    | directive body =>
      rw [collect_directive, collect_directive, List.map_cons, ofBody_add, Nat.add_right_comm, ih]

theorem le_start_of_mem_collect {offset : Nat} {l : List Segment} {s : Span}
    (h : s ∈ collect offset l) : offset ≤ s.start := by
  induction l generalizing offset with
  | nil => cases h
  | cons segment l ih =>
    cases segment with
    | plain c =>
      rw [collect_plain] at h
      have := ih h
      omega
    | directive body =>
      rw [collect_directive] at h
      rcases List.mem_cons.mp h with rfl | h
      · exact Nat.le_refl _
      · have := ih h
        omega

theorem exists_mem_collect {offset : Nat} {l : List Segment} {body : Text}
    (h : .directive body ∈ l) :
    ∃ s ∈ collect offset l,
      s.inner = body.trim ∧ s.start ≤ offset + (Segment.flatten l).byteSize := by
  induction l generalizing offset with
  | nil => cases h
  | cons segment l ih =>
    rcases List.mem_cons.mp h with rfl | hmem
    · rw [collect_directive]
      exact ⟨_, List.mem_cons_self, rfl, by simp [ofBody]⟩
    · cases segment with
      | plain c =>
        obtain ⟨s, hs, hinner, hle⟩ := @ih (offset + c.utf8Size) hmem
        rw [collect_plain]
        refine ⟨s, hs, hinner, ?_⟩
        rw [Segment.flatten_cons, Text.byteSize_append, Segment.text, Text.byteSize_cons,
          Text.byteSize_nil]
        omega
      | directive b =>
        obtain ⟨s, hs, hinner, hle⟩ := @ih (offset + (Segment.directive b).text.byteSize) hmem
        rw [collect_directive]
        refine ⟨s, List.mem_cons_of_mem _ hs, hinner, ?_⟩
        rw [Segment.flatten_cons, Text.byteSize_append]
        omega

theorem exists_of_mem_collect {offset : Nat} {l : List Segment} {s : Span}
    (h : s ∈ collect offset l) : ∃ before body after, l = before ++ .directive body :: after ∧
      s = ofBody (offset + (Segment.flatten before).byteSize) body := by
  induction l generalizing offset with
  | nil => cases h
  | cons segment l ih =>
    cases segment with
    | plain c =>
      rw [collect_plain] at h
      obtain ⟨before, body, after, rfl, rfl⟩ := ih h
      refine ⟨.plain c :: before, body, after, rfl, ?_⟩
      simp [Segment.text, Nat.add_assoc]
    | directive b =>
      rw [collect_directive] at h
      rcases List.mem_cons.mp h with rfl | h
      · exact ⟨[], b, l, rfl, by simp⟩
      · obtain ⟨before, body, after, rfl, rfl⟩ := ih h
        refine ⟨.directive b :: before, body, after, rfl, ?_⟩
        simp [Nat.add_assoc]

end Span
end DocSplice
