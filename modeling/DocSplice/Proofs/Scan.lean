import Mathlib.Data.List.Chain
import DocSplice.Proofs.Reads

/-!
# DocSplice.Proofs.Scan

The spans of a document, told without reading it from left to right.

* `Span.Covers`: the span is that of a directive of the text.
* `Marker.Idle`: an opening marker that no directive begins with.
* `IsScan`: the spans cover directives, one after the other, and every bare opening marker begins
  one of them, lies inside one of them or is idle.
* `isScan_iff_eq_spans`: exactly one list of spans is a scan of the text, and `Text.spans` is that
  list.
-/

namespace DocSplice

open Marker Segment

/-- The span is that of a directive of the text: a bare opening marker, a body, which holds no bare
closing marker, and a closing marker that is bare because the body does not end in a backslash. -/
def Span.Covers (s : Span) (t : Text) : Prop :=
  ∃ before body behind, t = before ++ (opening ++ body ++ closing) ++ behind ∧
    before.getLast? ≠ some escapeChar ∧ IsBody body ∧
    s.start = before.byteSize ∧ s.stop = s.start + 2 + body.byteSize + 2 ∧ s.inner = body.trim

/-- At the offset stands an opening marker, and on its line no bare closing marker follows or the
first one follows at once. -/
def Marker.Idle (t : Text) (offset : Nat) : Prop :=
  ∃ before behind, t = before ++ opening ++ behind ∧ before.byteSize = offset ∧
    ((∀ place, ¬ Bare closing (behind.takeWhile (· != '\n')) place) ∨
      Bare closing (behind.takeWhile (· != '\n')) 0)

/-- The spans are those of all directives of the text, in order. -/
structure IsScan (t : Text) (l : List Span) : Prop where
  ordered : l.IsChain fun a b => a.start < b.start ∧ a.stop ≤ b.start
  covered : ∀ s ∈ l, s.Covers t
  complete : ∀ offset, Bare opening t offset → (∀ s ∈ l, s.start ≠ offset) →
    (∃ s ∈ l, s.start < offset ∧ offset + 2 ≤ s.stop) ∨ Idle t offset

/-- The spans are those of all directives of the text that begin at byte `first` or later. -/
structure IsScanFrom (t : Text) (first : Nat) (l : List Span) : Prop where
  ordered : l.Pairwise fun a b => a.start < b.start ∧ a.stop ≤ b.start
  covered : ∀ s ∈ l, s.Covers t
  first_le : ∀ s ∈ l, first ≤ s.start
  complete : ∀ offset, first ≤ offset → Bare opening t offset → (∀ s ∈ l, s.start ≠ offset) →
    (∃ s ∈ l, s.start < offset ∧ offset + 2 ≤ s.stop) ∨ Idle t offset

theorem isScan_iff_isScanFrom {t : Text} {l : List Span} : IsScan t l ↔ IsScanFrom t 0 l := by
  have htrans : Trans (fun a b : Span => a.start < b.start ∧ a.stop ≤ b.start)
      (fun a b : Span => a.start < b.start ∧ a.stop ≤ b.start)
      (fun a b : Span => a.start < b.start ∧ a.stop ≤ b.start) :=
    ⟨fun hab hbc => ⟨by omega, by omega⟩⟩
  constructor
  · intro h
    exact ⟨List.isChain_iff_pairwise.mp h.ordered, h.covered, fun s _ => Nat.zero_le _,
      fun offset _ => h.complete offset⟩
  · intro h
    exact ⟨List.isChain_iff_pairwise.mpr h.ordered, h.covered,
      fun offset => h.complete offset (Nat.zero_le _)⟩

/-! ## Spans and markers at the offset of a beginning of the text -/

theorem covers_iff {before rest : Text} {s : Span} (hs : s.start = before.byteSize) :
    s.Covers (before ++ rest) ↔ escapedAfter false before = false ∧ ∃ body,
      directiveAt? rest = some body ∧ s = .ofBody before.byteSize body := by
  obtain ⟨start, stop, inner⟩ := s
  simp only at hs
  subst hs
  rw [escapedAfter_eq_false_iff]
  constructor
  · rintro ⟨before', body, behind, ht, hesc, hbody, hstart, hstop, hinner⟩
    rw [List.append_assoc] at ht
    obtain ⟨rfl, rfl⟩ := Text.append_inj_of_byteSize ht hstart
    refine ⟨hesc, body, ?_, ?_⟩
    · exact directiveAt?_eq_some_iff.mpr ⟨hbody, behind, by simp [text, opening, closing]⟩
    · simp only at hstop hinner
      rw [hstop, hinner, Span.ofBody, byteSize_text_directive]
      congr 1
      omega
  · rintro ⟨hesc, body, hd, hs⟩
    obtain ⟨hbody, behind, rfl⟩ := directiveAt?_eq_some_iff.mp hd
    obtain ⟨-, rfl, rfl⟩ := Span.mk.inj hs
    refine ⟨before, body, behind, by simp [text, opening, closing], hesc, hbody, rfl, ?_, rfl⟩
    simp only [byteSize_text_directive]
    omega

theorem idle_byteSize_iff {before rest : Text} :
    Idle (before ++ rest) before.byteSize ↔
      directiveAt? rest = none ∧ ∃ behind, rest = opening ++ behind := by
  constructor
  · rintro ⟨before', behind, ht, hsize, hidle⟩
    rw [List.append_assoc] at ht
    obtain ⟨rfl, rfl⟩ := Text.append_inj_of_byteSize ht hsize.symm
    exact ⟨directiveAt?_eq_none_iff.mpr hidle, behind, rfl⟩
  · rintro ⟨hd, behind, rfl⟩
    exact ⟨before, behind, by rw [List.append_assoc], rfl, directiveAt?_eq_none_iff.mp hd⟩

theorem bare_le_or_add_le {marker before rest : Text} {c : Char} {offset : Nat}
    (h : Bare marker (before ++ c :: rest) offset) :
    offset ≤ before.byteSize ∨ before.byteSize + c.utf8Size ≤ offset := by
  obtain ⟨before', behind, ht, rfl, -⟩ := h
  rw [List.append_assoc] at ht
  rcases Nat.lt_or_ge before.byteSize before'.byteSize with hlt | hge
  · exact .inr (Text.byteSize_add_le_of_lt ht hlt)
  · exact .inl hge

theorem covers_le_or_add_le {before rest : Text} {c : Char} {s : Span}
    (h : s.Covers (before ++ c :: rest)) :
    s.start ≤ before.byteSize ∨ before.byteSize + c.utf8Size ≤ s.start := by
  obtain ⟨before', body, behind, ht, hesc, -, hstart, -⟩ := h
  rw [hstart]
  exact bare_le_or_add_le ⟨before', body ++ closing ++ behind, by simpa using ht, rfl, hesc⟩

theorem bare_add_two_le {before rest body : Text} {offset : Nat}
    (h : Bare opening (before ++ ((directive body).text ++ rest)) offset)
    (hle : before.byteSize ≤ offset)
    (hlt : offset < before.byteSize + (directive body).text.byteSize) :
    offset + 2 ≤ before.byteSize + (directive body).text.byteSize := by
  obtain ⟨before', behind, ht, rfl, -⟩ := h
  rw [List.append_assoc] at ht
  obtain ⟨m, rfl, hm⟩ := Text.eq_append_of_byteSize_le ht hle
  rw [Text.byteSize_append] at hlt ⊢
  obtain ⟨m', htext, hm'⟩ := Text.eq_append_of_byteSize_le hm.symm (by omega)
  rw [htext, Text.byteSize_append] at hlt ⊢
  rcases m' with _ | ⟨c, _ | ⟨d, m'⟩⟩
  · simp at hlt
  · -- the last character of a directive is no opening brace
    have hc : c = '{' := by
      rw [opening, List.cons_append, List.cons_append] at hm'
      exact (List.cons.inj hm').1.symm
    have hlast := getLast?_text_directive body
    rw [htext, hc, List.getLast?_concat] at hlast
    simp at hlast
  · have hc := c.utf8Size_pos
    have hd := d.utf8Size_pos
    simp only [Text.byteSize_cons]
    omega

/-! ## One segment -/

theorem isScanFrom_end {t : Text} {l : List Span} : IsScanFrom t t.byteSize l ↔ l = [] := by
  have hend : ∀ offset, t.byteSize ≤ offset → ¬ Bare opening t offset := by
    rintro offset hle ⟨before, behind, rfl, rfl, -⟩
    have hopen : Text.byteSize opening = 2 := by decide
    simp only [Text.byteSize_append] at hle
    omega
  constructor
  · intro h
    cases l with
    | nil => rfl
    | cons s l =>
      obtain ⟨before, body, behind, ht, hesc, -, hstart, -⟩ := h.covered s (by simp)
      refine absurd ⟨before, body ++ closing ++ behind, ?_, hstart.symm, hesc⟩
        (hend s.start (h.first_le s (by simp)))
      simpa using ht
  · rintro rfl
    exact ⟨.nil, by simp, by simp, fun offset hle hb => absurd hb (hend offset hle)⟩

theorem isScanFrom_plain {before rest : Text} {c : Char} {l : List Span}
    (h : escapedAfter false before = false → directiveAt? (c :: rest) = none) :
    IsScanFrom (before ++ c :: rest) before.byteSize l ↔
      IsScanFrom (before ++ c :: rest) (before.byteSize + c.utf8Size) l := by
  constructor
  · intro hl
    refine ⟨hl.ordered, hl.covered, ?_, fun offset hle => hl.complete offset (by omega)⟩
    intro s hs
    have hle := hl.first_le s hs
    have hcov := hl.covered s hs
    have hne : s.start ≠ before.byteSize := by
      intro heq
      obtain ⟨hesc, body, hd, -⟩ := (covers_iff heq).mp hcov
      rw [h hesc] at hd
      cases hd
    rcases covers_le_or_add_le hcov with hle' | hge
    · omega
    · exact hge
  · intro hl
    refine ⟨hl.ordered, hl.covered, fun s hs => by have := hl.first_le s hs; omega, ?_⟩
    intro offset hle hb hne
    rcases bare_le_or_add_le hb with hle' | hge
    · obtain rfl : offset = before.byteSize := by omega
      obtain ⟨hesc, hopen⟩ := bare_byteSize_iff.mp hb
      exact .inr (idle_byteSize_iff.mpr ⟨h hesc, hopen⟩)
    · exact hl.complete offset hge hb hne

section

variable {before rest body : Text} {l : List Span}

/-- The first span is that of the directive: its opening marker is not idle and lies in no span. -/
theorem IsScanFrom.exists_cons
    (h : IsScanFrom (before ++ ((directive body).text ++ rest)) before.byteSize l)
    (hesc : escapedAfter false before = false) (hbody : IsBody body) :
    ∃ more, l = .ofBody before.byteSize body :: more := by
  have hd : directiveAt? ((directive body).text ++ rest) = some body :=
    directiveAt?_eq_some_iff.mpr ⟨hbody, rest, rfl⟩
  have hbare : Bare opening (before ++ ((directive body).text ++ rest)) before.byteSize :=
    bare_byteSize_iff.mpr ⟨hesc, body ++ closing ++ rest, by simp [text, opening, closing]⟩
  obtain ⟨s, hs, hstart⟩ : ∃ s ∈ l, s.start = before.byteSize := by
    apply Classical.byContradiction
    intro hnone
    rcases h.complete _ (Nat.le_refl _) hbare fun s hs he => hnone ⟨s, hs, he⟩ with
      ⟨s, hs, hlt, -⟩ | hidle
    · have hle := h.first_le s hs
      omega
    · rw [idle_byteSize_iff, hd] at hidle
      cases hidle.1
  cases l with
  | nil => cases hs
  | cons first more =>
    have hhead : first.start = before.byteSize := by
      rcases List.mem_cons.mp hs with rfl | hs
      · exact hstart
      · have hlt := (List.rel_of_pairwise_cons h.ordered hs).1
        have hle := h.first_le first List.mem_cons_self
        omega
    obtain ⟨-, body', hd', rfl⟩ := (covers_iff hhead).mp (h.covered first List.mem_cons_self)
    obtain rfl : body = body' := Option.some.inj (hd.symm.trans hd')
    exact ⟨more, rfl⟩

theorem IsScanFrom.tail {t : Text}
    (h : IsScanFrom t before.byteSize (.ofBody before.byteSize body :: l)) :
    IsScanFrom t (before.byteSize + (directive body).text.byteSize) l := by
  obtain ⟨hfirst, hordered⟩ := List.pairwise_cons.mp h.ordered
  have hpos := byteSize_text_directive body
  refine ⟨hordered, fun s hs => h.covered s (List.mem_cons_of_mem _ hs),
    fun s hs => (hfirst s hs).2, ?_⟩
  intro offset hle hb hne
  have hne' : ∀ s ∈ Span.ofBody before.byteSize body :: l, s.start ≠ offset := by
    intro s hs
    rcases List.mem_cons.mp hs with rfl | hs
    · rw [Span.start_ofBody]
      omega
    · exact hne s hs
  rcases h.complete offset (by omega) hb hne' with ⟨s, hs, hlt, hin⟩ | hidle
  · rcases List.mem_cons.mp hs with rfl | hs
    · rw [Span.stop_ofBody] at hin
      omega
    · exact .inl ⟨s, hs, hlt, hin⟩
  · exact .inr hidle

theorem IsScanFrom.cons
    (h : IsScanFrom (before ++ ((directive body).text ++ rest))
      (before.byteSize + (directive body).text.byteSize) l)
    (hesc : escapedAfter false before = false) (hbody : IsBody body) :
    IsScanFrom (before ++ ((directive body).text ++ rest)) before.byteSize
      (.ofBody before.byteSize body :: l) := by
  have hpos := byteSize_text_directive body
  refine ⟨List.pairwise_cons.mpr ⟨?_, h.ordered⟩, ?_, ?_, ?_⟩
  · intro s hs
    have hle := h.first_le s hs
    rw [Span.start_ofBody, Span.stop_ofBody]
    omega
  · intro s hs
    rcases List.mem_cons.mp hs with rfl | hs
    · have hd := directiveAt?_eq_some_iff.mpr ⟨hbody, rest, rfl⟩
      exact (covers_iff rfl).mpr ⟨hesc, body, hd, rfl⟩
    · exact h.covered s hs
  · intro s hs
    rcases List.mem_cons.mp hs with rfl | hs
    · exact Nat.le_refl _
    · have hle := h.first_le s hs
      omega
  · intro offset hle hb hne
    have hfirst := hne _ List.mem_cons_self
    rw [Span.start_ofBody] at hfirst
    rcases Nat.lt_or_ge offset (before.byteSize + (directive body).text.byteSize) with hlt | hge
    · -- the marker stands inside the directive
      refine .inl ⟨_, List.mem_cons_self, ?_, bare_add_two_le hb hle hlt⟩
      rw [Span.start_ofBody]
      omega
    · rcases h.complete offset hge hb fun s hs => hne s (List.mem_cons_of_mem _ hs) with
        ⟨s, hs, hin⟩ | hidle
      · exact .inl ⟨s, List.mem_cons_of_mem _ hs, hin⟩
      · exact .inr hidle

end

/-! ## The whole text -/

theorem isScanFrom_iff {escaped : Bool} {rest : Text} {segments : List Segment}
    (h : Reads escaped rest segments) : ∀ (before : Text) (l : List Span),
      escapedAfter false before = escaped →
      (IsScanFrom (before ++ rest) before.byteSize l ↔ l = Span.collect before.byteSize segments) := by
  induction h with
  | nil =>
    intro before l _
    rw [List.append_nil, isScanFrom_end, Span.collect_nil]
  | @plain escaped c rest segments hc _ ih =>
    intro before l hesc
    have hnext := ih (before ++ [c]) l (by simp)
    rw [List.append_assoc, Text.byteSize_append] at hnext
    rw [isScanFrom_plain (fun he => hc (hesc.symm.trans he)), Span.collect_plain]
    simpa using hnext
  | @directive body rest segments hbody _ ih =>
    intro before l hesc
    have hafter : escapedAfter false (before ++ (directive body).text) = false := by
      simp [text, escapeChar]
    have hnext := fun more => ih (before ++ (directive body).text) more hafter
    simp only [List.append_assoc, Text.byteSize_append] at hnext
    rw [Span.collect_directive]
    constructor
    · intro h
      obtain ⟨more, rfl⟩ := h.exists_cons hesc hbody
      rw [(hnext more).mp h.tail]
    · rintro rfl
      exact ((hnext _).mpr rfl).cons hesc hbody

/-- **The spans of a text are the one and only scan of it.** -/
theorem isScan_iff_eq_spans (t : Text) (l : List Span) : IsScan t l ↔ l = t.spans := by
  rw [isScan_iff_isScanFrom, Span.spans_eq_collect]
  exact isScanFrom_iff (reads_segments t) [] l rfl

end DocSplice
