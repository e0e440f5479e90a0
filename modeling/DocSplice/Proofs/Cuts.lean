import DocSplice.Proofs.Locations

/-!
# DocSplice.Proofs.Cuts

Parts of a text, cut out from one byte offset to another. A cut fails unless its ends are in order, lie
in the text and stand between two characters, so what is computed with cuts alone says by its success
that all of them were in order.

* `Text.endsAt`: is a byte offset a boundary of the text?
* `Text.cut`: the slice of a text between two offsets, or the cut that fails. `exists_cut_eq_ok_iff`
  says when there is one.
* `Text.offsetOf?`: the byte offset of the first occurrence of a word.
* `Loop`: rounds that are repeated until one is the last. `Loop.run_spec` turns what one round keeps
  into what all of them come to.
-/

namespace DocSplice

/-! ## Cuts -/

/-- A part of a text from one byte offset to another. -/
structure Cut where
  text : Text
  first : Nat
  last : Nat
  deriving DecidableEq, Repr

section

variable {α β : Type}

theorem ok_bind (a : α) (f : α → Except Cut β) : (.ok a >>= f) = f a := rfl

/-- What was computed with cuts was computed from cuts that succeed. -/
theorem exists_of_bind_eq_ok {x : Except Cut α} {f : α → Except Cut β} {b : β}
    (h : (x >>= f) = .ok b) : ∃ a, x = .ok a ∧ f a = .ok b := by
  cases x with
  | error cut => cases h
  | ok a => exact ⟨a, rfl, h⟩

end

namespace Text

/-- The first bytes of the text, up to the offset, are whole characters and are all there. -/
def endsAt (t : Text) (offset : Nat) : Bool := (t.takeBytes offset).byteSize == offset

/-- The part of a text between two byte offsets, which must be in order and be boundaries. -/
def cut (t : Text) (first last : Nat) : Except Cut Text :=
  if first ≤ last && t.endsAt first && t.endsAt last then .ok (t.slice first last)
  else .error ⟨t, first, last⟩

theorem endsAt_iff {t : Text} {offset : Nat} : t.endsAt offset = true ↔ t.IsBoundary offset := by
  rw [endsAt, beq_iff_eq]
  constructor
  · intro h
    exact ⟨t.takeBytes offset, t.dropBytes offset, (takeBytes_append_dropBytes offset t).symm, h⟩
  · rintro ⟨before, behind, rfl, rfl⟩
    rw [takeBytes_append]

theorem cut_append (before part behind : Text) :
    (before ++ (part ++ behind)).cut before.byteSize (before.byteSize + part.byteSize) =
      .ok part := by
  have hfirst : (before ++ (part ++ behind)).endsAt before.byteSize = true :=
    endsAt_iff.mpr ⟨before, part ++ behind, rfl, rfl⟩
  have hlast : (before ++ (part ++ behind)).endsAt (before.byteSize + part.byteSize) = true :=
    endsAt_iff.mpr ⟨before ++ part, behind, by rw [List.append_assoc], byteSize_append before part⟩
  rw [cut, hfirst, hlast, if_pos (by simp), slice_append]

/-- A cut is the part between a beginning and an end of the text. -/
theorem cut_eq_ok_iff {t part : Text} {first last : Nat} :
    t.cut first last = .ok part ↔ ∃ before behind, t = before ++ (part ++ behind) ∧
      before.byteSize = first ∧ first + part.byteSize = last := by
  constructor
  · intro h
    rw [cut] at h
    split at h
    · next hends =>
      simp only [Bool.and_eq_true, decide_eq_true_eq, endsAt_iff] at hends
      obtain ⟨⟨hle, before, rest, rfl, rfl⟩, front, behind, hfront, rfl⟩ := hends
      obtain ⟨m, rfl, rfl⟩ := eq_append_of_byteSize_le hfront hle
      rw [byteSize_append, slice_append] at h
      cases h
      exact ⟨before, behind, rfl, rfl, (byteSize_append before part).symm⟩
    · cases h
  · rintro ⟨before, behind, rfl, rfl, rfl⟩
    exact cut_append before part behind

/-- Exactly the cuts succeed whose ends are in order, lie in the text and stand between characters. -/
theorem exists_cut_eq_ok_iff {t : Text} {first last : Nat} :
    (∃ part, t.cut first last = .ok part) ↔
      first ≤ last ∧ last ≤ t.byteSize ∧ t.IsBoundary first ∧ t.IsBoundary last := by
  constructor
  · rintro ⟨part, hpart⟩
    obtain ⟨before, behind, rfl, rfl, rfl⟩ := cut_eq_ok_iff.mp hpart
    refine ⟨Nat.le_add_right _ _, ?_, ⟨before, part ++ behind, rfl, rfl⟩,
      ⟨before ++ part, behind, by rw [List.append_assoc], byteSize_append before part⟩⟩
    simp only [byteSize_append]
    omega
  · rintro ⟨hle, -, ⟨before, behind, rfl, rfl⟩, front, rest, ht, rfl⟩
    obtain ⟨part, rfl, rfl⟩ := eq_append_of_byteSize_le ht hle
    exact ⟨part, by rw [byteSize_append]; exact cut_append before part rest⟩

theorem cut_within (before part behind : Text) :
    (before ++ part ++ behind).cut before.byteSize (before ++ part).byteSize = .ok part := by
  rw [byteSize_append, List.append_assoc]
  exact cut_append before part behind

theorem cut_behind (before rest : Text) :
    (before ++ rest).cut before.byteSize (before ++ rest).byteSize = .ok rest := by
  have h := cut_within before rest []
  rwa [List.append_nil] at h

theorem cut_before (before rest : Text) : (before ++ rest).cut 0 before.byteSize = .ok before :=
  cut_within [] before rest

theorem isBoundary_byteSize (before rest : Text) : (before ++ rest).IsBoundary before.byteSize :=
  ⟨before, rest, rfl, rfl⟩

theorem IsBoundary.le {t : Text} {offset : Nat} (h : t.IsBoundary offset) :
    offset ≤ t.byteSize := by
  obtain ⟨before, rest, rfl, rfl⟩ := h
  rw [byteSize_append]
  exact Nat.le_add_right _ _

/-! ## Occurrences -/

/-- The byte offset of the first occurrence of a word. -/
def offsetOf? (word : Text) : Text → Option Nat
  | [] => if word.isEmpty then some 0 else none
  | c :: t =>
    if word.isPrefixOf (c :: t) then some 0 else (offsetOf? word t).map (c.utf8Size + ·)

/-- What is found is an occurrence of the word, and the first one. -/
theorem offsetOf?_eq_some {word t : Text} {offset : Nat} (h : offsetOf? word t = some offset) :
    (∃ before behind, t = before ++ (word ++ behind) ∧ before.byteSize = offset) ∧
      ∀ before behind, t = before ++ (word ++ behind) → offset ≤ before.byteSize := by
  induction t generalizing offset with
  | nil =>
    rw [offsetOf?] at h
    split at h
    · next hempty =>
      cases h
      exact ⟨⟨[], [], by simpa using hempty, rfl⟩, fun _ _ _ => Nat.zero_le _⟩
    · cases h
  | cons c t ih =>
    rw [offsetOf?] at h
    split at h
    · next hleads =>
      cases h
      obtain ⟨behind, hbehind⟩ := List.isPrefixOf_iff_prefix.mp hleads
      exact ⟨⟨[], behind, hbehind.symm, rfl⟩, fun _ _ _ => Nat.zero_le _⟩
    · next hleads =>
      obtain ⟨offset', hoffset, rfl⟩ := Option.map_eq_some_iff.mp h
      obtain ⟨⟨before, behind, rfl, rfl⟩, hfirst⟩ := ih hoffset
      refine ⟨⟨c :: before, behind, rfl, byteSize_cons c before⟩, ?_⟩
      intro before' behind' ht
      cases before' with
      | nil => exact absurd (List.isPrefixOf_iff_prefix.mpr ⟨behind', ht.symm⟩) hleads
      | cons d before' =>
        obtain ⟨rfl, htail⟩ := List.cons.inj ht
        have hle := hfirst before' behind' htail
        rw [byteSize_cons]
        omega

theorem offsetOf?_eq_none {word t : Text} (h : offsetOf? word t = none) (before behind : Text) :
    t ≠ before ++ (word ++ behind) := by
  induction t generalizing before with
  | nil =>
    intro ht
    obtain ⟨-, hword⟩ := List.append_eq_nil_iff.mp ht.symm
    rw [offsetOf?, if_pos (by simp [(List.append_eq_nil_iff.mp hword).1])] at h
    cases h
  | cons c t ih =>
    rw [offsetOf?] at h
    split at h
    · cases h
    · next hleads =>
      intro ht
      cases before with
      | nil => exact hleads (List.isPrefixOf_iff_prefix.mpr ⟨behind, ht.symm⟩)
      | cons d before => exact ih (by simpa using h) before (List.cons.inj ht).2

/-- The first occurrence of a character ends the longest beginning that does not hold it. -/
theorem getD_offsetOf?_singleton (c : Char) (t : Text) :
    (offsetOf? [c] t).getD (byteSize t) = byteSize (t.takeWhile (· != c)) := by
  induction t with
  | nil => rfl
  | cons d t ih =>
    rw [offsetOf?]
    by_cases hd : d = c
    · simp [hd]
    · have hleads : ¬ [c].isPrefixOf (d :: t) = true := by
        simpa using fun hc : c = d => hd hc.symm
      have hline : (d :: t).takeWhile (· != c) = d :: t.takeWhile (· != c) :=
        List.takeWhile_cons_of_pos (by simpa using hd)
      rw [if_neg hleads, hline, byteSize_cons, byteSize_cons, ← ih]
      cases offsetOf? [c] t <;> rfl

end Text

/-! ## Loops -/

/-- What one round of a loop comes to: a state for the next round, or the answer of the last one. -/
inductive Round (σ α : Type) where
  | again (state : σ)
  | done (answer : α)

/-- Rounds with cuts, repeated until one is the last. Each round leaves less to do. -/
structure Loop (σ α : Type) where
  round : σ → Except Cut (Round σ α)
  remaining : σ → Nat
  decreases : ∀ {state next}, round state = .ok (.again next) → remaining next < remaining state

namespace Loop

section

variable {σ α : Type}

/-- All rounds from a state on. -/
def run (loop : Loop σ α) (state : σ) : Except Cut α :=
  match _h : loop.round state with
  | .error cut => .error cut
  | .ok (.done answer) => .ok answer
  | .ok (.again next) => loop.run next
termination_by loop.remaining state
decreasing_by exact loop.decreases _h

theorem run_of_error {loop : Loop σ α} {state : σ} {cut : Cut} (h : loop.round state = .error cut) :
    loop.run state = .error cut := by
  rw [run]
  split <;> simp_all

theorem exists_of_run_eq_ok {loop : Loop σ α} {state : σ} {answer : α}
    (h : loop.run state = .ok answer) : ∃ r, loop.round state = .ok r := by
  cases hround : loop.round state with
  | error cut =>
    rw [run_of_error hround] at h
    cases h
  | ok r => exact ⟨r, rfl⟩

theorem run_of_done {loop : Loop σ α} {state : σ} {answer : α}
    (h : loop.round state = .ok (.done answer)) : loop.run state = .ok answer := by
  rw [run]
  split <;> simp_all

theorem run_of_again {loop : Loop σ α} {state next : σ}
    (h : loop.round state = .ok (.again next)) : loop.run state = loop.run next := by
  rw [run]
  split <;> simp_all

/-- If every round succeeds in a good state and leads to a good state or to a fitting answer, all rounds
together succeed with a fitting answer. What fits a state must fit each state that leads to it. -/
theorem run_spec (loop : Loop σ α) (Good : σ → Prop) (Fits : σ → α → Prop)
    (hround : ∀ state, Good state →
      (∃ answer, loop.round state = .ok (.done answer) ∧ Fits state answer) ∨
        ∃ next, loop.round state = .ok (.again next) ∧ Good next ∧
          ∀ answer, Fits next answer → Fits state answer) (state : σ) (h : Good state) :
    ∃ answer, loop.run state = .ok answer ∧ Fits state answer := by
  induction hn : loop.remaining state using Nat.strongRecOn generalizing state with
  | ind n ih =>
    rcases hround state h with ⟨answer, hdone, hfits⟩ | ⟨next, hagain, hnext, hback⟩
    · exact ⟨answer, run_of_done hdone, hfits⟩
    · obtain ⟨answer, hrun, hfits⟩ :=
        ih _ (by rw [← hn]; exact loop.decreases hagain) next hnext rfl
      exact ⟨answer, (run_of_again hagain).trans hrun, hback answer hfits⟩

end
end Loop
end DocSplice
