import Mathlib.Data.List.Range
import DocSplice.Proofs.Body
import DocSplice.Proofs.Unescape

/-!
# DocSplice.Proofs.Passes

The escape pass as two passes, one for each marker. Each replaces the escaped marker by the marker,
from left to right over the whole text. Taking the opening marker first, the two are the escape pass;
the other order agrees with it on all texts but those that hold an opening brace before an escaped
closing marker.

* `Text.replace`: all occurrences of a word replaced.
* `Text.places`, `Text.without`, `Text.newPlace`: where a word stands in a text, and what becomes of
  a text and its places if some characters are deleted.
* `Marker.replace_escaped`: replacing an escaped marker deletes backslashes and no more.
* `Marker.dropEscapes_dropEscapes`, `Marker.escapes_dropEscapes`: one pass after the other, and where
  the second one finds its backslashes.
* `Marker.unescape_passes`: the escape pass and the two orders of its parts.
-/

namespace DocSplice

namespace Text

/-! ## Replacing a word -/

/-- `replace` where the first `skip` characters belong to the occurrence that was replaced last. -/
def replaceFrom (skip : Nat) (old new : Text) : Text → Text
  | [] => []
  | c :: t =>
    match skip with
    | skip + 1 => replaceFrom skip old new t
    | 0 =>
      if old.isPrefixOf (c :: t) then new ++ replaceFrom (old.length - 1) old new t
      else c :: replaceFrom 0 old new t

/-- The text with `new` in the place of each occurrence of `old`, from left to right. What was
replaced is not looked at again. -/
def replace (old new t : Text) : Text := replaceFrom 0 old new t

theorem replaceFrom_eq (skip : Nat) (old new t : Text) :
    replaceFrom skip old new t = replace old new (t.drop skip) := by
  induction t generalizing skip with
  | nil => rw [List.drop_nil]; rfl
  | cons c t ih =>
    cases skip with
    | zero => rfl
    | succ skip => exact ih skip

theorem replace_append {old : Text} (hold : old ≠ []) (new t : Text) :
    replace old new (old ++ t) = new ++ replace old new t := by
  cases old with
  | nil => exact absurd rfl hold
  | cons c old =>
    have hprefix : (c :: old).isPrefixOf (c :: (old ++ t)) = true :=
      List.isPrefixOf_iff_prefix.mpr ⟨t, rfl⟩
    rw [List.cons_append, replace, replaceFrom, if_pos hprefix, replaceFrom_eq]
    simp

theorem replace_cons {old : Text} {c : Char} {t : Text} (h : ¬ old <+: c :: t) (new : Text) :
    replace old new (c :: t) = c :: replace old new t := by
  rw [replace, replaceFrom, if_neg (fun hprefix => h (List.isPrefixOf_iff_prefix.mp hprefix))]
  rfl

/-! ## Places -/

/-- The word stands at a place of the text. -/
def holdsAt (word t : Text) (i : Nat) : Bool := word.isPrefixOf (t.drop i)

/-- The places of the text where the word stands. -/
def places (word t : Text) : List Nat := (List.range t.length).filter (holdsAt word t)

/-- The text without the characters at some places. -/
def without (gone : Nat → Bool) (t : Text) : Text :=
  (t.zipIdx.filter fun entry => !gone entry.2).map Prod.fst

/-- The place of a character once the characters at some places are gone. -/
def newPlace (gone : Nat → Bool) (i : Nat) : Nat := (List.range i).countP fun j => !gone j

theorem without_cons (gone : Nat → Bool) (c : Char) (t : Text) :
    without gone (c :: t) =
      if gone 0 then without (fun i => gone (i + 1)) t
      else c :: without (fun i => gone (i + 1)) t := by
  have htail : ((t.zipIdx 1).filter fun entry => !gone entry.2).map Prod.fst =
      without (fun i => gone (i + 1)) t := by
    rw [without, List.zipIdx_succ, List.filter_map, List.map_map]
    rfl
  rw [without, List.zipIdx_cons, List.filter_cons, ← htail]
  cases gone 0 <;> rfl

theorem newPlace_succ (gone : Nat → Bool) (i : Nat) :
    newPlace gone (i + 1) =
      if gone 0 then newPlace (fun j => gone (j + 1)) i
      else newPlace (fun j => gone (j + 1)) i + 1 := by
  rw [newPlace, List.range_succ_eq_map, List.countP_cons, List.countP_map]
  cases gone 0 <;> rfl

theorem filter_range_succ (p : Nat → Bool) (n : Nat) :
    (List.range (n + 1)).filter p =
      (if p 0 then [0] else []) ++ ((List.range n).filter fun i => p (i + 1)).map (· + 1) := by
  rw [List.range_succ_eq_map, List.filter_cons, List.filter_map]
  cases p 0 <;> rfl

end Text

namespace Marker

section

variable {p q r : Text → Bool} {c : Char} {t : Text}

/-! ## Backslashes that a condition selects -/

/-- At the place stands a backslash, and `p` holds of the text behind it. -/
def escapesAt (p : Text → Bool) (t : Text) (i : Nat) : Bool :=
  match t.drop i with
  | [] => false
  | c :: y => c == escapeChar && p y

theorem escapesAt_append (p : Text → Bool) (x y : Text) (c : Char) :
    escapesAt p (x ++ c :: y) x.length = (c == escapeChar && p y) := by
  simp [escapesAt]

theorem escapesAt_or (p q : Text → Bool) (t : Text) (i : Nat) :
    (escapesAt p t i || escapesAt q t i) = escapesAt (fun y => p y || q y) t i := by
  simp only [escapesAt]
  cases t.drop i with
  | nil => rfl
  | cons c y => exact (Bool.and_or_distrib_left _ _ _).symm

/-- The places of the backslashes behind which `p` holds. -/
def escapes (p : Text → Bool) (t : Text) : List Nat := (List.range t.length).filter (escapesAt p t)

theorem dropEscapes_of_selects (h : p t = true) :
    dropEscapes p (escapeChar :: t) = dropEscapes p t := by
  rw [dropEscapes, h]
  rfl

theorem dropEscapes_cons (h : (c == escapeChar && p t) = false) :
    dropEscapes p (c :: t) = c :: dropEscapes p t := by
  rw [dropEscapes, h]
  rfl

theorem selects_or_keeps (p : Text → Bool) (c : Char) (t : Text) :
    c = escapeChar ∧ p t = true ∨ (c == escapeChar && p t) = false := by
  cases h : c == escapeChar && p t with
  | true =>
    obtain ⟨hc, hp⟩ := Bool.and_eq_true_iff.mp h
    exact .inl ⟨beq_iff_eq.mp hc, hp⟩
  | false => exact .inr rfl

theorem dropEscapes_append_of_notMem {m : Text} (h : escapeChar ∉ m) (t : Text) :
    dropEscapes p (m ++ t) = m ++ dropEscapes p t := by
  induction m with
  | nil => rfl
  | cons c m ih =>
    rw [List.mem_cons, not_or] at h
    have hc : (c == escapeChar && p (m ++ t)) = false := by simp [Ne.symm h.1]
    rw [List.cons_append, dropEscapes_cons hc, ih h.2, List.cons_append]

theorem dropEscapes_eq_without (t : Text) : dropEscapes p t = t.without (escapesAt p t) := by
  induction t with
  | nil => rfl
  | cons c t ih =>
    have htail : (fun i => escapesAt p (c :: t) (i + 1)) = escapesAt p t := rfl
    have hhead : escapesAt p (c :: t) 0 = (c == escapeChar && p t) := rfl
    rw [Text.without_cons, htail, hhead, ← ih, dropEscapes]

theorem escapes_cons (c : Char) (t : Text) :
    escapes p (c :: t) =
      (if c == escapeChar && p t then [0] else []) ++ (escapes p t).map (· + 1) :=
  Text.filter_range_succ (escapesAt p (c :: t)) t.length

/-- One pass after another deletes what either selects, where the second one is judged by the text
that the first one leaves. -/
theorem dropEscapes_dropEscapes (h : ∀ y, q (dropEscapes p y) = r y) (t : Text) :
    dropEscapes q (dropEscapes p t) = dropEscapes (fun y => p y || r y) t := by
  induction t with
  | nil => rfl
  | cons c t ih =>
    rcases selects_or_keeps p c t with ⟨rfl, hp⟩ | hc
    · rw [dropEscapes_of_selects hp, ih, dropEscapes_of_selects (by rw [hp]; rfl)]
    · rw [dropEscapes_cons hc, dropEscapes, dropEscapes, h, ih, Bool.and_or_distrib_left, hc,
        Bool.false_or]

/-- The second pass finds its backslashes where they stood before the first one, each moved by what
the first one deleted before it. -/
theorem escapes_dropEscapes (h : ∀ y, q (dropEscapes p y) = r y)
    (hdisjoint : ∀ y, p y = true → r y = false) (t : Text) :
    escapes q (dropEscapes p t) = (escapes r t).map (Text.newPlace (escapesAt p t)) := by
  induction t with
  | nil => rfl
  | cons c t ih =>
    have hhead : escapesAt p (c :: t) 0 = (c == escapeChar && p t) := rfl
    have htail : (fun i => escapesAt p (c :: t) (i + 1)) = escapesAt p t := rfl
    have hsucc : ∀ i, Text.newPlace (escapesAt p (c :: t)) (i + 1) =
        if c == escapeChar && p t then Text.newPlace (escapesAt p t) i
        else Text.newPlace (escapesAt p t) i + 1 := by
      intro i
      rw [Text.newPlace_succ, hhead, htail]
    rw [escapes_cons, List.map_append, List.map_map]
    rcases selects_or_keeps p c t with ⟨rfl, hp⟩ | hc
    · rw [dropEscapes_of_selects hp, ih, hdisjoint t hp]
      simp [Function.comp_def, hsucc, hp]
    · rw [dropEscapes_cons hc, escapes_cons, h, ih, List.map_map]
      congr 1
      · split <;> rfl
      · simp [Function.comp_def, hsucc, hc]

/-! ## Replacing an escaped marker -/

theorem holdsAt_escaped (m t : Text) :
    Text.holdsAt (escapeChar :: m) t = escapesAt (fun y => m.isPrefixOf y) t := by
  funext i
  rw [Text.holdsAt, escapesAt]
  cases t.drop i with
  | nil => rfl
  | cons c y =>
    rw [List.isPrefixOf_cons_cons, Bool.beq_comm]

/-- Replacing an escaped marker deletes its backslashes and nothing else. -/
theorem replace_escaped {m : Text} (hm : escapeChar ∉ m) (t : Text) :
    Text.replace (escapeChar :: m) m t = dropEscapes (fun y => m.isPrefixOf y) t := by
  -- an occurrence takes several characters at once, so the induction is on the length of the text
  induction hn : t.length using Nat.strongRecOn generalizing t with
  | ind n ih =>
    cases t with
    | nil => rfl
    | cons c t =>
      by_cases hprefix : (escapeChar :: m) <+: c :: t
      · obtain ⟨rest, hrest⟩ := hprefix
        obtain ⟨rfl, rfl⟩ := List.cons.inj hrest
        have hselects : m.isPrefixOf (m ++ rest) = true := List.isPrefixOf_iff_prefix.mpr ⟨rest, rfl⟩
        have hlen : rest.length < n := by
          rw [← hn, List.length_cons, List.append_eq, List.length_append]
          omega
        have hnext := ih rest.length hlen rest rfl
        have hreplaced := Text.replace_append (List.cons_ne_nil escapeChar m) m rest
        rw [List.cons_append] at hreplaced
        rw [List.append_eq, hreplaced, hnext, dropEscapes_of_selects hselects,
          dropEscapes_append_of_notMem hm]
      · have hkept : (c == escapeChar && m.isPrefixOf t) = false := by
          rw [Bool.eq_false_iff]
          intro hboth
          obtain ⟨hc, ht⟩ := Bool.and_eq_true_iff.mp hboth
          obtain rfl := beq_iff_eq.mp hc
          exact hprefix (List.prefix_cons_inj _ |>.mpr (List.isPrefixOf_iff_prefix.mp ht))
        rw [Text.replace_cons hprefix, ih t.length (by rw [← hn]; simp) t rfl,
          dropEscapes_cons hkept]

end

/-! ## The two markers -/

/-- An escaped opening marker. -/
def escapedOpening : Text := escapeChar :: opening

/-- An escaped closing marker. -/
def escapedClosing : Text := escapeChar :: closing

/-- A backslash and an opening brace before an escaped closing marker. Without the backslash of the
closing marker this is an escaped opening marker. -/
def belated : Text := escapeChar :: '{' :: escapedClosing

theorem opens_eq_isPrefixOf (t : Text) : opens t = opening.isPrefixOf t := by
  rw [Bool.eq_iff_iff, opens_iff, List.isPrefixOf_iff_prefix]
  exact ⟨fun ⟨rest, h⟩ => ⟨rest, h.symm⟩, fun ⟨rest, h⟩ => ⟨rest, h.symm⟩⟩

theorem closes_eq_isPrefixOf (t : Text) : closes t = closing.isPrefixOf t := by
  rw [Bool.eq_iff_iff, closes_iff, List.isPrefixOf_iff_prefix]
  exact ⟨fun ⟨rest, h⟩ => ⟨rest, h.symm⟩, fun ⟨rest, h⟩ => ⟨rest, h.symm⟩⟩

theorem replace_escapedOpening (t : Text) :
    Text.replace escapedOpening opening t = dropEscapes opens t := by
  rw [escapedOpening, replace_escaped (by decide), funext opens_eq_isPrefixOf]

theorem replace_escapedClosing (t : Text) :
    Text.replace escapedClosing closing t = dropEscapes closes t := by
  rw [escapedClosing, replace_escaped (by decide), funext closes_eq_isPrefixOf]

theorem holdsAt_escapedOpening (t : Text) :
    Text.holdsAt escapedOpening t = escapesAt opens t := by
  rw [escapedOpening, holdsAt_escaped, funext opens_eq_isPrefixOf]

theorem holdsAt_escapedClosing (t : Text) :
    Text.holdsAt escapedClosing t = escapesAt closes t := by
  rw [escapedClosing, holdsAt_escaped, funext closes_eq_isPrefixOf]

theorem places_escapedOpening (t : Text) : Text.places escapedOpening t = escapes opens t := by
  rw [Text.places, holdsAt_escapedOpening, escapes]

theorem places_escapedClosing (t : Text) : Text.places escapedClosing t = escapes closes t := by
  rw [Text.places, holdsAt_escapedClosing, escapes]

/-- A character that is no backslash stands first once some backslashes are gone if it stood first
before, or behind a backslash that is gone. -/
theorem head?_dropEscapes_iff {p : Text → Bool} {d : Char} (hd : d ≠ escapeChar) (t : Text) :
    (dropEscapes p t).head? = some d ↔ t.head? = some d ∨
      ∃ y, t = escapeChar :: y ∧ p y = true ∧ (dropEscapes p y).head? = some d := by
  cases t with
  | nil => simp [dropEscapes]
  | cons c t =>
    rcases selects_or_keeps p c t with ⟨rfl, hp⟩ | hc
    · rw [dropEscapes_of_selects hp]
      constructor
      · exact fun h => .inr ⟨t, rfl, hp, h⟩
      · rintro (h | ⟨y, hy, -, h⟩)
        · exact absurd (Option.some.inj h).symm hd
        · rwa [(List.cons.inj hy).2]
    · rw [dropEscapes_cons hc]
      constructor
      · exact fun h => .inl h
      · rintro (h | ⟨y, hy, hp, -⟩)
        · exact h
        · obtain ⟨rfl, rfl⟩ := List.cons.inj hy
          rw [hp] at hc
          cases hc

/-- The pass over opening markers neither makes nor breaks a closing marker. -/
theorem closes_dropEscapes_opens (t : Text) : closes (dropEscapes opens t) = closes t := by
  cases t with
  | nil => rfl
  | cons c t =>
    rcases selects_or_keeps opens c t with ⟨rfl, hopens⟩ | hc
    · obtain ⟨rest, rfl⟩ := opens_iff.mp hopens
      rw [dropEscapes_of_selects hopens]
      rfl
    · rw [dropEscapes_cons hc, Bool.eq_iff_iff, closes_cons_iff, closes_cons_iff,
        head?_dropEscapes_iff (by decide)]
      refine and_congr_right fun _ => or_iff_left ?_
      rintro ⟨y, -, hopens, hhead⟩
      obtain ⟨rest, rfl⟩ := opens_iff.mp hopens
      cases hhead

/-- The pass over closing markers breaks no opening marker, but it makes one of an opening brace and
an escaped closing marker. -/
theorem opens_dropEscapes_closes (t : Text) :
    opens (dropEscapes closes t) = (opens t || ('{' :: escapedClosing).isPrefixOf t) := by
  cases t with
  | nil => rfl
  | cons c t =>
    rcases selects_or_keeps closes c t with ⟨rfl, hcloses⟩ | hc
    · obtain ⟨rest, rfl⟩ := closes_iff.mp hcloses
      rw [dropEscapes_of_selects hcloses]
      rfl
    · rw [dropEscapes_cons hc, Bool.eq_iff_iff, Bool.or_eq_true, opens_cons_iff, opens_cons_iff,
        head?_dropEscapes_iff (by decide), and_or_left, List.isPrefixOf_iff_prefix,
        List.cons_prefix_cons]
      refine or_congr_right ⟨?_, ?_⟩
      · rintro ⟨rfl, y, rfl, hcloses, -⟩
        obtain ⟨rest, rfl⟩ := closes_iff.mp hcloses
        exact ⟨rfl, rest, rfl⟩
      · rintro ⟨rfl, rest, rfl⟩
        exact ⟨rfl, _, rfl, rfl, rfl⟩

/-- In the other order, the backslash before an opening brace and an escaped closing marker is lost
too. -/
theorem dropEscapes_opens_closes (t : Text) :
    dropEscapes opens (dropEscapes closes t) = unescape t ↔ ¬ belated <:+: t := by
  have hmore : ∀ y, begins y = true →
      (closes y || (opens y || ('{' :: escapedClosing).isPrefixOf y)) = true := by
    intro y hy
    rw [begins, Bool.or_comm] at hy
    rw [← Bool.or_assoc, hy, Bool.true_or]
  rw [dropEscapes_dropEscapes opens_dropEscapes_closes, ← dropEscapes_begins,
    dropEscapes_eq_iff hmore]
  constructor
  · rintro h ⟨x, y, rfl⟩
    have hbegins := h x ('{' :: escapedClosing ++ y) (by simp [belated]) (by rfl)
    cases hbegins
  · rintro h x y rfl hy
    rw [← Bool.or_assoc, Bool.or_comm (closes y), Bool.or_eq_true] at hy
    rcases hy with hy | hy
    · exact hy
    · obtain ⟨rest, rfl⟩ := List.isPrefixOf_iff_prefix.mp hy
      exact absurd ⟨x, rest, by simp [belated]⟩ h

/-- The backslash before a marker is deleted just if there is one. -/
theorem escapedAfter_eq_true_iff {t before y : Text} (ht : t = before ++ y)
    (hy : begins y = true) :
    escapedAfter false before = true ↔
      ∃ i, before.length = i + 1 ∧ escapesAt begins t i = true := by
  subst ht
  rcases List.eq_nil_or_concat before with rfl | ⟨x, c, rfl⟩
  · simp
  · have hgone : escapesAt begins (x ++ c :: y) x.length = (c == escapeChar) := by
      rw [escapesAt_append, hy, Bool.and_true]
    rw [List.concat_eq_append, escapedAfter_append, escapedAfter_cons, escapedAfter_nil,
      List.append_assoc, List.length_append, ← hgone]
    constructor
    · exact fun h => ⟨x.length, rfl, h⟩
    · rintro ⟨i, hi, h⟩
      obtain rfl : x.length = i := by simpa using hi
      exact h

/-- **The escape pass and its two parts.** The escape pass deletes exactly the backslashes right
before a marker and moves nothing else, and these are the backslashes that make a marker literal for
the reader. It is the same as replacing the escaped opening markers first and the escaped closing
markers then: the first part leaves the work of the second as it is. In the other order the result is
the same just if the text holds no backslash and opening brace before an escaped closing marker; there
and only there the one part makes more work for the other. -/
theorem unescape_passes (t : Text) :
    let gone := fun i => Text.holdsAt escapedOpening t i || Text.holdsAt escapedClosing t i
    unescape t = t.without gone ∧
    (∀ marker ∈ [opening, closing], ∀ before behind, t = before ++ (marker ++ behind) →
      (escapedAfter false before = true ↔ ∃ i, before.length = i + 1 ∧ gone i = true)) ∧
    Text.replace escapedClosing closing (Text.replace escapedOpening opening t) = unescape t ∧
    Text.places escapedClosing (Text.replace escapedOpening opening t) =
      (Text.places escapedClosing t).map (Text.newPlace (Text.holdsAt escapedOpening t)) ∧
    (Text.replace escapedOpening opening (Text.replace escapedClosing closing t) = unescape t ↔
      ¬ belated <:+: t) ∧
    Text.places escapedOpening (Text.replace escapedClosing closing t) =
      ((List.range t.length).filter fun i =>
        Text.holdsAt escapedOpening t i || Text.holdsAt belated t i).map
        (Text.newPlace (Text.holdsAt escapedClosing t)) := by
  intro gone
  have hgone : gone = escapesAt begins t := by
    funext i
    simp only [gone, holdsAt_escapedOpening, holdsAt_escapedClosing]
    exact escapesAt_or opens closes t i
  refine ⟨?_, ?_, ?_, ?_, ?_, ?_⟩
  · rw [hgone, ← dropEscapes_eq_without, dropEscapes_begins]
  · intro marker hmarker before behind ht
    have hbegins : begins (marker ++ behind) = true := by
      simp only [List.mem_cons, List.not_mem_nil, or_false] at hmarker
      rcases hmarker with rfl | rfl <;> rfl
    rw [hgone]
    exact escapedAfter_eq_true_iff ht hbegins
  · rw [replace_escapedOpening, replace_escapedClosing,
      dropEscapes_dropEscapes closes_dropEscapes_opens]
    exact dropEscapes_begins t
  · rw [places_escapedClosing, places_escapedClosing, replace_escapedOpening,
      holdsAt_escapedOpening]
    refine escapes_dropEscapes closes_dropEscapes_opens ?_ t
    intro y hy
    obtain ⟨rest, rfl⟩ := opens_iff.mp hy
    rfl
  · rw [replace_escapedOpening, replace_escapedClosing, dropEscapes_opens_closes]
  · have hmore : (fun i => Text.holdsAt escapedOpening t i || Text.holdsAt belated t i) =
        escapesAt (fun y => opens y || ('{' :: escapedClosing).isPrefixOf y) t := by
      funext i
      rw [holdsAt_escapedOpening, belated, holdsAt_escaped]
      exact escapesAt_or _ _ t i
    rw [places_escapedOpening, hmore, replace_escapedClosing, holdsAt_escapedClosing]
    refine escapes_dropEscapes opens_dropEscapes_closes ?_ t
    intro y hy
    obtain ⟨rest, rfl⟩ := closes_iff.mp hy
    rfl

/-- The order of the two parts makes a difference. -/
theorem unescape_ne_closing_first :
    let t : Text := ['\\', '{', '\\', '%', '}']
    unescape t = ['\\', '{', '%', '}'] ∧
      Text.replace escapedOpening opening (Text.replace escapedClosing closing t) =
        ['{', '%', '}'] ∧
      Text.replace escapedOpening opening (Text.replace escapedClosing closing t) ≠ unescape t := by
  decide

end Marker
end DocSplice
