import DocSplice.Marker

/-!
# DocSplice.Proofs.Unescape

The escape pass over texts in a row. What it takes out of a text depends on the text behind it, and
only in one direction: with more text behind, it takes out more.

* `Marker.dropEscapes`: deletes the backslashes that a condition on the text behind them selects.
  `dropEscapes_eq_iff` says when selecting more of them makes no difference.
* `Marker.unescapeBefore`: what the escape pass leaves of a text in front of another one. It is at
  most what it leaves of the text alone, and `unescapeBefore_eq_unescape_iff` says when it is the
  same; `unescapeBefore_eq_self_iff` says when the text is left as it is.
-/

namespace DocSplice
namespace Marker

theorem opens_cons_iff {c : Char} {t : Text} :
    opens (c :: t) = true ↔ c = '{' ∧ t.head? = some '%' := by
  rw [opens_iff]
  cases t <;> simp

theorem closes_cons_iff {c : Char} {t : Text} :
    closes (c :: t) = true ↔ c = '%' ∧ t.head? = some '}' := by
  rw [closes_iff]
  cases t <;> simp

theorem unescape_cons_of_ne {c : Char} (hc : c ≠ escapeChar) (t : Text) :
    unescape (c :: t) = c :: unescape t := by
  rw [unescape_cons, if_neg (by simp [hc])]

/-- Deletes the backslashes behind which `p` holds of the rest of the text. -/
def dropEscapes (p : Text → Bool) : Text → Text
  | [] => []
  | c :: t => if c == escapeChar && p t then dropEscapes p t else c :: dropEscapes p t

theorem dropEscapes_begins (t : Text) : dropEscapes begins t = unescape t := by
  induction t with
  | nil => rfl
  | cons c t ih => rw [dropEscapes, unescape_cons, ih]

theorem dropEscapes_false (t : Text) : dropEscapes (fun _ => false) t = t := by
  induction t with
  | nil => rfl
  | cons c t ih => rw [dropEscapes, Bool.and_false, if_neg Bool.false_ne_true, ih]

theorem begins_append (b t : Text) (h : begins t = true) : begins (t ++ b) = true := by
  rw [begins, Bool.or_eq_true] at h ⊢
  rcases h with h | h
  · obtain ⟨rest, rfl⟩ := opens_iff.mp h
    exact .inl rfl
  · obtain ⟨rest, rfl⟩ := closes_iff.mp h
    exact .inr rfl

section

variable {p q : Text → Bool}

theorem dropEscapes_sublist (hpq : ∀ y, p y = true → q y = true) (t : Text) :
    (dropEscapes q t).Sublist (dropEscapes p t) := by
  induction t with
  | nil => exact .slnil
  | cons c t ih =>
    by_cases hc : c = escapeChar
    · cases hp : p t with
      | true => simpa [dropEscapes, hc, hp, hpq t hp] using ih
      | false =>
        cases hq : q t with
        | true => simpa [dropEscapes, hc, hp, hq] using ih.cons escapeChar
        | false => simpa [dropEscapes, hc, hp, hq] using ih
    · simpa [dropEscapes, hc] using ih

/-- Selecting more backslashes makes no difference just if there are none of them in the text. -/
theorem dropEscapes_eq_iff (hpq : ∀ y, p y = true → q y = true) (t : Text) :
    dropEscapes q t = dropEscapes p t ↔
      ∀ x y, t = x ++ escapeChar :: y → q y = true → p y = true := by
  induction t with
  | nil => simp [dropEscapes]
  | cons c t ih =>
    have hcons : (∀ x y, c :: t = x ++ escapeChar :: y → q y = true → p y = true) ↔
        (c = escapeChar → q t = true → p t = true) ∧
          ∀ x y, t = x ++ escapeChar :: y → q y = true → p y = true := by
      constructor
      · intro h
        refine ⟨?_, ?_⟩
        · rintro rfl
          exact h [] t rfl
        · rintro x y rfl
          exact h (c :: x) y rfl
      · rintro ⟨hfirst, hrest⟩ x y hxy
        cases x with
        | nil =>
          obtain ⟨rfl, rfl⟩ := List.cons.inj hxy
          exact hfirst rfl
        | cons d x => exact hrest x y (List.cons.inj hxy).2
    rw [hcons, ← ih]
    by_cases hc : c = escapeChar
    · cases hp : p t with
      | true => simp [dropEscapes, hc, hp, hpq t hp]
      | false =>
        cases hq : q t with
        | true =>
          -- the backslash is lost, and nothing else can make up for it
          have hle := (dropEscapes_sublist hpq t).length_le
          have hne : dropEscapes q t ≠ escapeChar :: dropEscapes p t := by
            intro heq
            rw [heq, List.length_cons] at hle
            omega
          simp [dropEscapes, hc, hp, hq, hne]
        | false => simp [dropEscapes, hc, hp, hq]
    · simp [dropEscapes, hc]

end

/-- What the escape pass leaves of the text `a` in front of the text `b`. -/
def unescapeBefore (b a : Text) : Text := dropEscapes (fun y => begins (y ++ b)) a

theorem unescape_append (a b : Text) : unescape (a ++ b) = unescapeBefore b a ++ unescape b := by
  induction a with
  | nil => rfl
  | cons c a ih =>
    have hcons : unescapeBefore b (c :: a) =
        if c == escapeChar && begins (a ++ b) then unescapeBefore b a
        else c :: unescapeBefore b a := rfl
    rw [List.cons_append, unescape_cons, ih, hcons]
    split <;> rfl

section

variable (b a : Text)

theorem unescapeBefore_sublist_unescape : (unescapeBefore b a).Sublist (unescape a) := by
  have h := dropEscapes_sublist (begins_append b) a
  rwa [dropEscapes_begins] at h

theorem unescapeBefore_sublist_self : (unescapeBefore b a).Sublist a := by
  have hfalse : ∀ y : Text, false = true → begins (y ++ b) = true := fun y hy => nomatch hy
  have h := dropEscapes_sublist hfalse a
  rwa [dropEscapes_false] at h

theorem unescapeBefore_eq_unescape_iff :
    unescapeBefore b a = unescape a ↔
      ∀ x y, a = x ++ escapeChar :: y → begins (y ++ b) = true → begins y = true := by
  have h := dropEscapes_eq_iff (begins_append b) a
  rwa [dropEscapes_begins] at h

theorem unescapeBefore_eq_self_iff :
    unescapeBefore b a = a ↔ ∀ x y, a = x ++ escapeChar :: y → ¬ begins (y ++ b) = true := by
  have hfalse : ∀ y : Text, false = true → begins (y ++ b) = true := fun y hy => nomatch hy
  have h := dropEscapes_eq_iff hfalse a
  rw [dropEscapes_false] at h
  simpa [unescapeBefore] using h

end

end Marker
end DocSplice
