import DocSplice.Proofs.Cuts

/-!
# DocSplice.Proofs.Search

The search for a marker that no backslash stands before, by byte offsets. Each round cuts off what was
searched already, finds the next occurrence of the marker and looks at what stands before it. If it is a
backslash, the search goes on behind the marker.

* `Marker.seek`, `Marker.search`: one round, and the search. `lt_of_seek_eq_again` says that each round
  gets further.
* `Marker.FirstBare`: the offset of the first bare marker from an offset on, or that there is none.
* `Marker.search_spec`: from any boundary, the search succeeds and finds the first bare marker.
-/

namespace DocSplice
namespace Marker

/-- One round of the search for a bare marker. -/
def seek (marker t : Text) (offset : Nat) : Except Cut (Round Nat (Option Nat)) := do
  let rest ← t.cut offset t.byteSize
  match Text.offsetOf? marker rest with
  | none => .ok (.done none)
  | some distance =>
    let before ← t.cut 0 (offset + distance)
    if before.getLast? = some escapeChar then .ok (.again (offset + distance + marker.byteSize))
    else .ok (.done (some (offset + distance)))

section

variable {marker t : Text} {offset next : Nat}

theorem isBoundary_of_seek {r : Round Nat (Option Nat)} (h : seek marker t offset = .ok r) :
    t.IsBoundary offset := by
  obtain ⟨rest, hrest, -⟩ := exists_of_bind_eq_ok h
  exact (Text.exists_cut_eq_ok_iff.mp ⟨rest, hrest⟩).2.2.1

/-- A round that is not the last one gets further, and not past the end. -/
theorem lt_of_seek_eq_again (hmarker : marker ≠ []) (h : seek marker t offset = .ok (.again next)) :
    offset < next ∧ next ≤ t.byteSize := by
  have hpos := Text.byteSize_pos hmarker
  obtain ⟨rest, hrest, h⟩ := exists_of_bind_eq_ok h
  obtain ⟨before, behind, rfl, rfl, hsize⟩ := Text.cut_eq_ok_iff.mp hrest
  cases hfound : Text.offsetOf? marker rest with
  | none =>
    rw [hfound] at h
    cases h
  | some distance =>
    obtain ⟨⟨gap, more, rfl, rfl⟩, -⟩ := Text.offsetOf?_eq_some hfound
    rw [hfound] at h
    obtain ⟨passed, -, h⟩ := exists_of_bind_eq_ok h
    split at h
    · cases h
      simp only [Text.byteSize_append] at hsize ⊢
      omega
    · cases h

end

/-- The search for a bare marker from an offset on. -/
def search (marker : Text) (hmarker : marker ≠ []) (t : Text) : Loop Nat (Option Nat) where
  round := seek marker t
  remaining offset := t.byteSize - offset
  decreases h := by
    have hlt := lt_of_seek_eq_again hmarker h
    omega

theorem isBoundary_of_search {marker t : Text} {hmarker : marker ≠ []} {offset : Nat}
    {answer : Option Nat} (h : (search marker hmarker t).run offset = .ok answer) :
    t.IsBoundary offset := by
  obtain ⟨r, hr⟩ := Loop.exists_of_run_eq_ok h
  exact isBoundary_of_seek hr

/-- What a search from an offset on is to find: the first bare marker, or that there is none. -/
inductive FirstBare (marker t : Text) (offset : Nat) : Option Nat → Prop where
  | found {place : Nat} : offset ≤ place → Bare marker t place →
      (∀ other, offset ≤ other → other < place → ¬ Bare marker t other) →
      FirstBare marker t offset (some place)
  | absent : (∀ other, offset ≤ other → ¬ Bare marker t other) → FirstBare marker t offset none

theorem FirstBare.of_later {marker t : Text} {offset next : Nat} {answer : Option Nat}
    (h : FirstBare marker t next answer) (hle : offset ≤ next)
    (hnone : ∀ other, offset ≤ other → other < next → ¬ Bare marker t other) :
    FirstBare marker t offset answer := by
  cases h with
  | @found place hplace hbare hfirst =>
    refine .found (Nat.le_trans hle hplace) hbare ?_
    intro other hother hlt
    rcases Nat.lt_or_ge other next with hbelow | habove
    · exact hnone other hother hbelow
    · exact hfirst other habove hlt
  | absent hall =>
    refine .absent ?_
    intro other hother
    rcases Nat.lt_or_ge other next with hbelow | habove
    · exact hnone other hother hbelow
    · exact hall other habove

section

variable {a b : Char} {front rest : Text}

/-- A bare marker from a boundary on stands in what follows the boundary. -/
theorem Bare.exists_append {marker : Text} {other : Nat} (h : Bare marker (front ++ rest) other)
    (hle : front.byteSize ≤ other) :
    ∃ gap behind, rest = gap ++ (marker ++ behind) ∧ (front ++ gap).byteSize = other ∧
      (front ++ gap).getLast? ≠ some escapeChar := by
  obtain ⟨before, behind, ht, rfl, hbare⟩ := h
  rw [List.append_assoc] at ht
  obtain ⟨gap, rfl, hrest⟩ := Text.eq_append_of_byteSize_le ht hle
  exact ⟨gap, behind, hrest, rfl, hbare⟩

/-- Two different characters make a marker that does not overlap itself. -/
theorem not_bare_inside (hab : a ≠ b) {other : Nat} (hlt : front.byteSize < other)
    (hinside : other < front.byteSize + Text.byteSize [a, b]) :
    ¬ Bare [a, b] (front ++ ([a, b] ++ rest)) other := by
  intro h
  obtain ⟨gap, behind, hgap, rfl, -⟩ := h.exists_append (Nat.le_of_lt hlt)
  rcases gap with _ | ⟨c, _ | ⟨d, gap⟩⟩
  · simp at hlt
  · -- the marker would begin with its own second character
    simp only [List.cons_append, List.nil_append] at hgap
    obtain ⟨-, htail⟩ := List.cons.inj hgap
    exact hab (List.cons.inj htail).1.symm
  · simp only [List.cons_append, List.nil_append] at hgap
    obtain ⟨rfl, htail⟩ := List.cons.inj hgap
    obtain ⟨rfl, -⟩ := List.cons.inj htail
    simp only [Text.byteSize_append, Text.byteSize_cons, Text.byteSize_nil] at hinside
    omega

/-- Before the first occurrence of a marker, none is bare. -/
theorem not_bare_before_first {marker : Text} {distance other : Nat}
    (hfirst : ∀ gap behind, rest = gap ++ (marker ++ behind) → distance ≤ gap.byteSize)
    (hle : front.byteSize ≤ other) (hlt : other < front.byteSize + distance) :
    ¬ Bare marker (front ++ rest) other := by
  intro h
  obtain ⟨gap, behind, hgap, rfl, -⟩ := h.exists_append hle
  have hdistance := hfirst gap behind hgap
  rw [Text.byteSize_append] at hlt
  omega

/-- Up to the end of the first occurrence of a marker, none is bare if that one is not. -/
theorem not_bare_through_first (hab : a ≠ b) {gap behind : Text} {other : Nat}
    (hfirst : ∀ gap' behind', gap ++ ([a, b] ++ behind) = gap' ++ ([a, b] ++ behind') →
      gap.byteSize ≤ gap'.byteSize)
    (hesc : (front ++ gap).getLast? = some escapeChar) (hle : front.byteSize ≤ other)
    (hlt : other < front.byteSize + gap.byteSize + Text.byteSize [a, b]) :
    ¬ Bare [a, b] (front ++ (gap ++ ([a, b] ++ behind))) other := by
  rw [← Text.byteSize_append] at hlt
  rcases Nat.lt_trichotomy other (front ++ gap).byteSize with hbefore | rfl | hbehind
  · rw [Text.byteSize_append] at hbefore
    exact not_bare_before_first hfirst hle hbefore
  · rw [← List.append_assoc, bare_byteSize_iff, escapedAfter_eq_false_iff]
    exact fun h => h.1 hesc
  · rw [← List.append_assoc]
    exact not_bare_inside hab hbehind hlt

/-- From a boundary on, a round finds the first bare marker, or it passes escaped markers only and comes
to a boundary again. -/
theorem seek_spec (hab : a ≠ b) {t : Text} {offset : Nat} (h : t.IsBoundary offset) :
    (∃ answer, seek [a, b] t offset = .ok (.done answer) ∧ FirstBare [a, b] t offset answer) ∨
      ∃ next, seek [a, b] t offset = .ok (.again next) ∧ t.IsBoundary next ∧
        ∀ answer, FirstBare [a, b] t next answer → FirstBare [a, b] t offset answer := by
  obtain ⟨front, rest, rfl, rfl⟩ := h
  have hrest := Text.cut_behind front rest
  cases hfound : Text.offsetOf? [a, b] rest with
  | none =>
    refine .inl ⟨none, by simp only [seek, hrest, ok_bind, hfound], .absent ?_⟩
    intro other hle hbare
    obtain ⟨gap, behind, hgap, -, -⟩ := hbare.exists_append hle
    exact Text.offsetOf?_eq_none hfound gap behind hgap
  | some distance =>
    obtain ⟨⟨gap, behind, rfl, rfl⟩, hfirst⟩ := Text.offsetOf?_eq_some hfound
    have hbefore := Text.cut_before (front ++ gap) ([a, b] ++ behind)
    rw [List.append_assoc, Text.byteSize_append] at hbefore
    by_cases hesc : (front ++ gap).getLast? = some escapeChar
    · refine .inr ⟨front.byteSize + gap.byteSize + Text.byteSize [a, b],
        by simp only [seek, hrest, ok_bind, hfound, hbefore, if_pos hesc], ?_, ?_⟩
      · exact ⟨front ++ gap ++ [a, b], behind, by simp, by simp; omega⟩
      · intro answer hanswer
        refine hanswer.of_later (by omega) ?_
        intro other hle hlt
        exact not_bare_through_first hab hfirst hesc hle hlt
    · refine .inl ⟨some (front.byteSize + gap.byteSize),
        by simp only [seek, hrest, ok_bind, hfound, hbefore, if_neg hesc], ?_⟩
      refine .found (Nat.le_add_right _ _)
        ⟨front ++ gap, behind, by simp, Text.byteSize_append front gap, hesc⟩ ?_
      intro other hle hlt
      exact not_bare_before_first hfirst hle hlt

/-- **The search finds the first bare marker.** From a boundary on, none of its cuts fails. -/
theorem search_spec (hab : a ≠ b) (hmarker : [a, b] ≠ []) {t : Text} {offset : Nat}
    (h : t.IsBoundary offset) :
    ∃ answer, (search [a, b] hmarker t).run offset = .ok answer ∧
      FirstBare [a, b] t offset answer :=
  Loop.run_spec _ t.IsBoundary (FirstBare [a, b] t) (fun _ h => seek_spec hab h) offset h

end

section

variable {t : Text} {offset : Nat}

theorem opening_ne_nil : opening ≠ [] := by simp [opening]

theorem closing_ne_nil : closing ≠ [] := by simp [closing]

theorem search_opening_spec (h : t.IsBoundary offset) :
    ∃ answer, (search opening opening_ne_nil t).run offset = .ok answer ∧
      FirstBare opening t offset answer :=
  search_spec (by decide) opening_ne_nil h

theorem search_closing_spec (h : t.IsBoundary offset) :
    ∃ answer, (search closing closing_ne_nil t).run offset = .ok answer ∧
      FirstBare closing t offset answer :=
  search_spec (by decide) closing_ne_nil h

end
end Marker
end DocSplice
