import Mathlib.Data.List.TakeWhile
import DocSplice.Proofs.Scan
import DocSplice.Proofs.Search

/-!
# DocSplice.Proofs.Scanning

The spans of a document, found by byte offsets. Each round searches for a bare opening marker, cuts its
line off and searches there for a bare closing marker behind it.

* `Span.closer`: the offset of the closing marker, if one ends a body that begins at an offset.
  `closer_eq` says that it is found where `Segment.directiveAt?` finds one.
* `Span.round`, `Span.scanning`: one round, and the scan. `round_spec` says what a round finds,
  `lt_of_round_eq_again` that it gets further.
* `Span.run_scanning`: the scan succeeds and finds the spans of the document.
-/

namespace DocSplice

open Marker Segment

namespace Marker

section

variable {marker front line : Text}

/-- A text that does not end in a backslash makes no marker behind it literal. -/
theorem bare_add_iff (hfront : front.getLast? ≠ some escapeChar) {offset : Nat} :
    Bare marker (front ++ line) (front.byteSize + offset) ↔ Bare marker line offset := by
  constructor
  · intro h
    obtain ⟨gap, behind, rfl, hsize, hesc⟩ := h.exists_append (Nat.le_add_right _ _)
    rw [Text.byteSize_append, Nat.add_left_cancel_iff] at hsize
    refine ⟨gap, behind, by rw [List.append_assoc], hsize, ?_⟩
    intro hlast
    rw [List.getLast?_append, hlast] at hesc
    exact hesc rfl
  · rintro ⟨before, behind, rfl, rfl, hesc⟩
    refine ⟨front ++ before, behind, by simp, Text.byteSize_append front before, ?_⟩
    intro hlast
    rw [List.getLast?_append] at hlast
    rcases Option.or_eq_some_iff.mp hlast with hbefore | ⟨-, hend⟩
    · exact hesc hbefore
    · exact hfront hend

theorem FirstBare.exists_of_append (hfront : front.getLast? ≠ some escapeChar) {answer : Option Nat}
    (h : FirstBare marker (front ++ line) front.byteSize answer) :
    ∃ place, answer = place.map (front.byteSize + ·) ∧ FirstBare marker line 0 place := by
  cases h with
  | @found place hplace hbare hfirst =>
    obtain ⟨distance, rfl⟩ := Nat.exists_eq_add_of_le hplace
    refine ⟨some distance, rfl, .found (Nat.zero_le _) ((bare_add_iff hfront).mp hbare) ?_⟩
    intro other _ hlt hother
    exact hfirst _ (Nat.le_add_right _ _) (by omega) ((bare_add_iff hfront).mpr hother)
  | absent hall =>
    refine ⟨none, rfl, .absent ?_⟩
    intro other _ hother
    exact hall _ (Nat.le_add_right _ _) ((bare_add_iff hfront).mpr hother)

end

/-- What stands before the first bare closing marker of a line is a body, unless nothing does. -/
theorem isBody_of_first {rest body behind : Text} (hne : body ≠ [])
    (hline : rest.takeWhile (· != '\n') = body ++ closing ++ behind)
    (hesc : body.getLast? ≠ some escapeChar)
    (hfirst : ∀ other < body.byteSize, ¬ Bare closing (rest.takeWhile (· != '\n')) other) :
    IsBody body := by
  refine ⟨hne, ?_, ?_, hesc⟩
  · intro hfeed
    have hmem : '\n' ∈ rest.takeWhile (· != '\n') := by
      rw [hline]
      simp [hfeed]
    simpa using List.mem_takeWhile_imp hmem
  · rintro offset ⟨before, more, rfl, rfl, hesc'⟩
    have hpos : 0 < closing.byteSize := by decide
    refine hfirst before.byteSize ?_ ⟨before, more ++ closing ++ behind, ?_, rfl, hesc'⟩
    · simp only [Text.byteSize_append]
      omega
    · rw [hline]
      simp

/-- The first bare closing marker of the line ends the body, unless it stands right at the beginning. -/
theorem FirstBare.directiveAt?_eq {rest : Text} {answer : Option Nat}
    (h : FirstBare closing (rest.takeWhile (· != '\n')) 0 answer) :
    (directiveAt? (opening ++ rest)).map Text.byteSize = answer.filter (0 < ·) := by
  cases h with
  | absent hall =>
    rw [directiveAt?_eq_none_iff.mpr (.inl fun offset => hall offset (Nat.zero_le _))]
    rfl
  | @found place _ hbare hfirst =>
    rcases Nat.eq_zero_or_pos place with rfl | hpos
    · rw [directiveAt?_eq_none_iff.mpr (.inr hbare)]
      rfl
    · obtain ⟨body, behind, hline, rfl, hesc⟩ := hbare
      have hne : body ≠ [] := by
        rintro rfl
        simp at hpos
      have hbody := isBody_of_first hne hline hesc fun other => hfirst other (Nat.zero_le _)
      have hrest : opening ++ rest =
          (directive body).text ++ (behind ++ rest.dropWhile (· != '\n')) := by
        conv_lhs => rw [← List.takeWhile_append_dropWhile (p := (· != '\n')) (l := rest), hline]
        simp [text_directive]
      rw [directiveAt?_eq_some_iff.mpr ⟨hbody, _, hrest⟩, Option.filter_some,
        if_pos (by simpa using hpos)]
      rfl

end Marker

/-- What a scan from an offset on passes before its first span are idle markers. -/
theorem IsScanFrom.of_later {t : Text} {first last : Nat} {l : List Span} (h : IsScanFrom t last l)
    (hle : first ≤ last)
    (hidle : ∀ offset, first ≤ offset → offset < last → Bare opening t offset → Idle t offset) :
    IsScanFrom t first l := by
  refine ⟨h.ordered, h.covered, fun s hs => Nat.le_trans hle (h.first_le s hs), ?_⟩
  intro offset hoffset hbare hne
  rcases Nat.lt_or_ge offset last with hlt | hge
  · exact .inr (hidle offset hoffset hlt hbare)
  · exact h.complete offset hge hbare hne

namespace Span

/-! ## The closing marker -/

/-- Where the line ends that the text `tail` behind the offset `first` begins with. -/
def lineEnd (t tail : Text) (first : Nat) : Nat :=
  ((Text.offsetOf? ['\n'] tail).map (first + ·)).getD t.byteSize

/-- The offset of the closing marker behind the body that begins at an offset. It stands on the same
line, and not right at the beginning. -/
def closer (t : Text) (first : Nat) : Except Cut (Option Nat) := do
  let tail ← t.cut first t.byteSize
  let line ← t.cut 0 (lineEnd t tail first)
  let place ← (search closing closing_ne_nil line).run first
  .ok (place.filter (first < ·))

theorem lineEnd_eq (front rest : Text) :
    lineEnd (front ++ rest) rest front.byteSize =
      (front ++ rest.takeWhile (· != '\n')).byteSize := by
  rw [lineEnd, Text.byteSize_append, Text.byteSize_append, ← Text.getD_offsetOf?_singleton]
  cases Text.offsetOf? ['\n'] rest with
  | none => rfl
  | some distance => rfl

/-- The closing marker is where the reader of directives finds it. -/
theorem closer_eq {front : Text} (hfront : front.getLast? ≠ some escapeChar) (rest : Text) :
    closer (front ++ rest) front.byteSize =
      .ok ((directiveAt? (opening ++ rest)).map (front.byteSize + Text.byteSize ·)) := by
  have htail := Text.cut_behind front rest
  have hline : (front ++ rest).cut 0 (lineEnd (front ++ rest) rest front.byteSize) =
      .ok (front ++ rest.takeWhile (· != '\n')) := by
    have hcut := Text.cut_before (front ++ rest.takeWhile (· != '\n')) (rest.dropWhile (· != '\n'))
    rwa [List.append_assoc, List.takeWhile_append_dropWhile, ← lineEnd_eq] at hcut
  obtain ⟨answer, hrun, hfirst⟩ := search_closing_spec
    (Text.isBoundary_byteSize front (rest.takeWhile (· != '\n')))
  obtain ⟨place, rfl, hplace⟩ := hfirst.exists_of_append hfront
  have hbody : (directiveAt? (opening ++ rest)).map (front.byteSize + Text.byteSize ·) =
      (place.filter (0 < ·)).map (front.byteSize + ·) := by
    rw [← hplace.directiveAt?_eq, Option.map_map]
    rfl
  simp only [closer, htail, ok_bind, hline, hrun, hbody]
  cases place with
  | none => rfl
  | some distance =>
    rcases Nat.eq_zero_or_pos distance with rfl | hpos
    · simp [Option.filter_some]
    · simp [Option.filter_some, hpos]

/-! ## Rounds -/

/-- One round of the scan: the next directive, or an opening marker that begins none. The spans that
were found are kept in reverse. -/
def round (t : Text) : Nat × List Span → Except Cut (Round (Nat × List Span) (List Span))
  | (offset, done) => do
    match ← (search opening opening_ne_nil t).run offset with
    | none => .ok (.done done.reverse)
    | some start =>
      let first := start + opening.byteSize
      match ← closer t first with
      | none => .ok (.again (first, done))
      | some last =>
        let body ← t.cut first last
        let stop := last + closing.byteSize
        .ok (.again (stop, ⟨start, stop, body.trim⟩ :: done))

section

variable {offset : Nat} {done : List Span} {before rest : Text}

theorem closer_opening (before rest : Text) :
    closer (before ++ (opening ++ rest)) (before.byteSize + opening.byteSize) =
      .ok ((directiveAt? (opening ++ rest)).map
        (before.byteSize + opening.byteSize + Text.byteSize ·)) := by
  have hfront : (before ++ opening).getLast? ≠ some escapeChar := by
    simp [opening, escapeChar]
  have h := closer_eq hfront rest
  rwa [List.append_assoc, Text.byteSize_append] at h

/-- Where no directive begins, a round goes on behind the opening marker. -/
theorem round_of_idle
    (hrun : (search opening opening_ne_nil (before ++ (opening ++ rest))).run offset =
      .ok (some before.byteSize))
    (hd : directiveAt? (opening ++ rest) = none) :
    round (before ++ (opening ++ rest)) (offset, done) =
      .ok (.again (before.byteSize + opening.byteSize, done)) := by
  simp only [round, hrun, ok_bind, closer_opening, hd, Option.map_none]

/-- Where a directive begins, a round takes it and goes on behind it. -/
theorem round_of_directive {body : Text}
    (hrun : (search opening opening_ne_nil (before ++ (opening ++ rest))).run offset =
      .ok (some before.byteSize))
    (hd : directiveAt? (opening ++ rest) = some body) :
    round (before ++ (opening ++ rest)) (offset, done) =
      .ok (.again (before.byteSize + (directive body).text.byteSize,
        ofBody before.byteSize body :: done)) := by
  obtain ⟨-, behind, htext⟩ := directiveAt?_eq_some_iff.mp hd
  have hcut : (before ++ (opening ++ rest)).cut (before.byteSize + opening.byteSize)
      (before.byteSize + opening.byteSize + body.byteSize) = .ok body := by
    have h := Text.cut_append (before ++ opening) body (closing ++ behind)
    rw [Text.byteSize_append] at h
    rw [htext, text_directive]
    simpa using h
  have hstop : before.byteSize + opening.byteSize + body.byteSize + closing.byteSize =
      before.byteSize + (directive body).text.byteSize := by
    rw [text_directive, Text.byteSize_append, Text.byteSize_append]
    omega
  simp only [round, hrun, ok_bind, closer_opening, hd, Option.map_some, hcut, hstop]
  rfl

end

section

variable {t : Text} {offset : Nat}

/-- From a boundary on, a round finds that no more directives begin, or it comes to a boundary further
on and has found what begins before it. -/
theorem round_spec (h : t.IsBoundary offset) (done : List Span) :
    (round t (offset, done) = .ok (.done done.reverse) ∧ IsScanFrom t offset []) ∨
      ∃ next found, round t (offset, done) = .ok (.again (next, found ++ done)) ∧
        offset < next ∧ t.IsBoundary next ∧
        ∀ more, IsScanFrom t next more → IsScanFrom t offset (found.reverse ++ more) := by
  obtain ⟨answer, hrun, hfirst⟩ := search_opening_spec h
  cases hfirst with
  | absent hall =>
    refine .inl ⟨by simp only [round, hrun, ok_bind], .nil, by simp, by simp, ?_⟩
    intro other hother hbare
    exact absurd hbare (hall other hother)
  | @found start hle hbare hnone =>
    obtain ⟨before, rest, rfl, rfl, hesc⟩ := hbare
    rw [List.append_assoc] at hrun hnone ⊢
    have hpos : 0 < opening.byteSize := by decide
    cases hd : directiveAt? (opening ++ rest) with
    | none =>
      refine .inr ⟨_, [], round_of_idle hrun hd, by omega,
        ⟨before ++ opening, rest, by rw [List.append_assoc], Text.byteSize_append ..⟩, ?_⟩
      intro more hmore
      refine hmore.of_later (by omega) ?_
      intro other hother hlt hbare
      rcases Nat.lt_trichotomy other before.byteSize with hbefore | rfl | hbehind
      · exact absurd hbare (hnone other hother hbefore)
      · exact idle_byteSize_iff.mpr ⟨hd, rest, rfl⟩
      · exact absurd hbare (not_bare_inside (by decide) hbehind hlt)
    | some body =>
      obtain ⟨hbody, behind, htext⟩ := directiveAt?_eq_some_iff.mp hd
      have hsize := byteSize_text_directive body
      have hround := @round_of_directive offset done before rest body hrun hd
      rw [htext] at hround hnone ⊢
      refine .inr ⟨_, [ofBody before.byteSize body], hround, by omega,
        ⟨before ++ (directive body).text, behind, by rw [List.append_assoc],
          Text.byteSize_append ..⟩, ?_⟩
      intro more hmore
      refine (hmore.cons ((escapedAfter_eq_false_iff before).mpr hesc) hbody).of_later hle ?_
      intro other hother hlt hbare
      exact absurd hbare (hnone other hother hlt)

theorem isBoundary_of_round {done : List Span} {r : Round (Nat × List Span) (List Span)}
    (h : round t (offset, done) = .ok r) : t.IsBoundary offset := by
  obtain ⟨answer, hrun, -⟩ := exists_of_bind_eq_ok h
  exact isBoundary_of_search hrun

/-- A round that is not the last one gets further, and not past the end. -/
theorem lt_of_round_eq_again {state next : Nat × List Span} (h : round t state = .ok (.again next)) :
    state.1 < next.1 ∧ next.1 ≤ t.byteSize := by
  obtain ⟨offset, done⟩ := state
  rcases round_spec (isBoundary_of_round h) done with ⟨hdone, -⟩ | ⟨_, found, hagain, hlt, hnext, -⟩
  · rw [hdone] at h
    cases h
  · rw [hagain] at h
    cases h
    exact ⟨hlt, hnext.le⟩

end

/-- The scan of a document. -/
def scanning (t : Text) : Loop (Nat × List Span) (List Span) where
  round := round t
  remaining state := t.byteSize - state.1
  decreases h := by
    have hlt := lt_of_round_eq_again h
    omega

/-- **The scan finds the spans of the document.** None of its cuts fails. -/
theorem run_scanning (t : Text) : (scanning t).run (0, []) = .ok t.spans := by
  obtain ⟨l, hrun, more, hl, hscan⟩ := (scanning t).run_spec (fun state => t.IsBoundary state.1)
    (fun state l => ∃ more, l = state.2.reverse ++ more ∧ IsScanFrom t state.1 more)
    (by
      rintro ⟨offset, done⟩ h
      rcases round_spec h done with ⟨hdone, hscan⟩ | ⟨next, found, hagain, -, hnext, hback⟩
      · exact .inl ⟨_, hdone, [], by simp, hscan⟩
      · refine .inr ⟨_, hagain, hnext, ?_⟩
        rintro l ⟨more, rfl, hscan⟩
        exact ⟨found.reverse ++ more, by simp, hback more hscan⟩)
    (0, []) ⟨[], t, rfl, rfl⟩
  rw [hrun, hl, (isScanFrom_iff (reads_segments t) [] more rfl).mp hscan, spans_eq_collect]
  rfl

end Span
end DocSplice
