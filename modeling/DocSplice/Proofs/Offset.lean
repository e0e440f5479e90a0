import DocSplice.Position

/-!
# DocSplice.Proofs.Offset

Byte offsets into a text. An offset is that of a boundary between characters when it is the byte
size of a beginning of the text.

* `Text.eq_append_of_byteSize_le`: of two beginnings of a text, the one with fewer bytes begins the
  other. So an offset determines the beginning that it belongs to (`Text.append_inj_of_byteSize`).
* `Text.dropBytes`, `Text.takeBytes`, `Text.slice`: the part of a text behind an offset, before an
  offset, and between two offsets.
* `Position.ofByteOffset?_byteSize`: the position of the offset of a beginning of a text.
-/

namespace DocSplice
namespace Text

theorem byteSize_pos {t : Text} (h : t ≠ []) : 0 < t.byteSize := by
  cases t with
  | nil => exact absurd rfl h
  | cons c t =>
    have hc := c.utf8Size_pos
    rw [byteSize_cons]
    omega

theorem eq_append_of_byteSize_le {a b s t : Text} (h : a ++ s = b ++ t)
    (hle : a.byteSize ≤ b.byteSize) : ∃ m, b = a ++ m ∧ s = m ++ t := by
  rcases List.append_eq_append_iff.mp h with ⟨m, hb, hs⟩ | ⟨m, ha, ht⟩
  · exact ⟨m, hb, hs⟩
  · have hm : m = [] := by
      apply Classical.byContradiction
      intro hne
      have hpos := byteSize_pos hne
      rw [ha, byteSize_append] at hle
      omega
    subst hm
    exact ⟨[], by simpa using ha.symm, by simpa using ht.symm⟩

theorem append_inj_of_byteSize {a b s t : Text} (h : a ++ s = b ++ t)
    (hsize : a.byteSize = b.byteSize) : a = b ∧ s = t := by
  obtain ⟨m, hb, hs⟩ := eq_append_of_byteSize_le h (by omega)
  have hm : m = [] := by
    apply Classical.byContradiction
    intro hne
    have hpos := byteSize_pos hne
    rw [hb, byteSize_append] at hsize
    omega
  subst hm
  exact ⟨by simpa using hb.symm, by simpa using hs⟩

/-- A beginning of the text that is longer than `before` holds at least one more character. -/
theorem byteSize_add_le_of_lt {before rest a s : Text} {c : Char}
    (h : before ++ c :: rest = a ++ s) (hlt : before.byteSize < a.byteSize) :
    before.byteSize + c.utf8Size ≤ a.byteSize := by
  obtain ⟨m, rfl, hm⟩ := eq_append_of_byteSize_le h (by omega)
  cases m with
  | nil => simp at hlt
  | cons d m =>
    obtain ⟨rfl, -⟩ := List.cons.inj hm
    rw [byteSize_append, byteSize_cons]
    omega

/-! ## Parts of a text -/

/-- What is left of a text behind its first bytes. -/
def dropBytes : Nat → Text → Text
  | 0, t => t
  | _ + 1, [] => []
  | n + 1, c :: t => dropBytes (n + 1 - c.utf8Size) t

/-- The first bytes of a text. -/
def takeBytes : Nat → Text → Text
  | 0, _ => []
  | _ + 1, [] => []
  | n + 1, c :: t => c :: takeBytes (n + 1 - c.utf8Size) t

/-- The part of a text between two byte offsets. -/
def slice (t : Text) (first last : Nat) : Text := takeBytes (last - first) (t.dropBytes first)

@[simp] theorem dropBytes_zero (t : Text) : dropBytes 0 t = t := by
  cases t <;> rfl

@[simp] theorem takeBytes_zero (t : Text) : takeBytes 0 t = [] := by
  cases t <;> rfl

theorem dropBytes_cons (n : Nat) (c : Char) (t : Text) :
    dropBytes (c.utf8Size + n) (c :: t) = dropBytes n t := by
  have hc := c.utf8Size_pos
  obtain ⟨k, hk⟩ : ∃ k, c.utf8Size + n = k + 1 := ⟨c.utf8Size + n - 1, by omega⟩
  rw [hk, dropBytes, ← hk, Nat.add_sub_cancel_left]

theorem takeBytes_cons (n : Nat) (c : Char) (t : Text) :
    takeBytes (c.utf8Size + n) (c :: t) = c :: takeBytes n t := by
  have hc := c.utf8Size_pos
  obtain ⟨k, hk⟩ : ∃ k, c.utf8Size + n = k + 1 := ⟨c.utf8Size + n - 1, by omega⟩
  rw [hk, takeBytes, ← hk, Nat.add_sub_cancel_left]

@[simp] theorem dropBytes_append (s t : Text) : dropBytes s.byteSize (s ++ t) = t := by
  induction s with
  | nil => simp
  | cons c s ih => rw [byteSize_cons, List.cons_append, dropBytes_cons, ih]

@[simp] theorem takeBytes_append (s t : Text) : takeBytes s.byteSize (s ++ t) = s := by
  induction s with
  | nil => simp
  | cons c s ih => rw [byteSize_cons, List.cons_append, takeBytes_cons, ih]

theorem takeBytes_append_dropBytes (n : Nat) (t : Text) : t.takeBytes n ++ t.dropBytes n = t := by
  induction t generalizing n with
  | nil => cases n <;> rfl
  | cons c t ih =>
    cases n with
    | zero => rfl
    | succ n => exact congrArg (c :: ·) (ih (n + 1 - c.utf8Size))

theorem slice_append (before part behind : Text) :
    slice (before ++ (part ++ behind)) before.byteSize (before.byteSize + part.byteSize) = part := by
  rw [slice, dropBytes_append, Nat.add_sub_cancel_left, takeBytes_append]

@[simp] theorem slice_self (t : Text) (n : Nat) : slice t n n = [] := by
  rw [slice, Nat.sub_self, takeBytes_zero]

end Text

namespace Position

theorem advanceBytes?_byteSize (p : Position) (a b : Text) :
    p.advanceBytes? a.byteSize (a ++ b) = some (p.after a) := by
  induction a generalizing p with
  | nil => cases b <;> simp [advanceBytes?]
  | cons c a ih =>
    have hc := c.utf8Size_pos
    rw [Text.byteSize_cons, List.cons_append, advanceBytes?, if_neg (by omega), if_neg (by omega),
      Nat.add_sub_cancel_left, ih, after_cons]

theorem ofByteOffset?_byteSize (a b : Text) :
    ofByteOffset? (a ++ b) a.byteSize = some (start.after a) :=
  advanceBytes?_byteSize start a b

end Position
end DocSplice
