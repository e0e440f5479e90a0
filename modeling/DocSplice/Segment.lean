import DocSplice.Marker

/-!
# DocSplice.Segment

A document is a sequence of plain characters and directives.

* `directiveAt?`: the body of the directive that a text begins with. It ends at the first closing
  marker that has no backslash before it, lies on one line and is not empty.
* `Text.segments`: reads a document from left to right. An opening marker that has a backslash
  before it, or that begins no directive, is plain text.
* `Segment.flatten`: the text that a list of segments was read from; `flatten_segments` says that
  reading a document loses nothing.
-/

namespace DocSplice

/-- A piece of a document: a character that stands for itself, or a directive, given by the text
between its markers. -/
inductive Segment where
  | plain (c : Char)
  | directive (body : Text)
  deriving DecidableEq, Repr

namespace Segment

/-- The text of a segment, markers included. -/
def text : Segment → Text
  | plain c => [c]
  | directive body => '{' :: '%' :: (body ++ ['%', '}'])

def flatten (l : List Segment) : Text := l.flatMap text

/-- The text up to the first closing marker of the line that has no backslash before it. `escaped`
says whether the character before is a backslash; `taken` is what was read, in reverse. -/
def bodyBefore? (escaped : Bool) (taken : Text) : Text → Option Text
  | [] => none
  | c :: t =>
    if c == '\n' then none
    else if !escaped && Marker.closes (c :: t) then some taken.reverse
    else bodyBefore? (c == Marker.escapeChar) (c :: taken) t

/-- The body of the directive at the beginning of a text. Two markers with nothing between them
are no directive, even if another closing marker follows on the line. -/
def directiveAt? : Text → Option Text
  | '{' :: '%' :: t => (bodyBefore? false [] t).filter (!·.isEmpty)
  | _ => none

/-- Reads segments behind `done`, which is kept in reverse. `skip` characters belong to the segment
read last; `escaped` says whether the character before is a backslash. -/
def readOnto (skip : Nat) (escaped : Bool) (done : List Segment) : Text → List Segment
  | [] => done.reverse
  | c :: t =>
    match skip with
    | skip + 1 => readOnto skip (c == Marker.escapeChar) done t
    | 0 =>
      match if escaped then none else directiveAt? (c :: t) with
      | some body => readOnto (body.length + 3) (c == Marker.escapeChar) (directive body :: done) t
      | none => readOnto 0 (c == Marker.escapeChar) (plain c :: done) t

/-! ## Nothing is lost -/

@[simp] theorem flatten_nil : flatten [] = [] := rfl

@[simp] theorem flatten_cons (s : Segment) (l : List Segment) :
    flatten (s :: l) = s.text ++ flatten l := rfl

theorem readOnto_eq (skip : Nat) (escaped : Bool) (done : List Segment) (t : Text) :
    readOnto skip escaped done t = done.reverse ++ readOnto skip escaped [] t := by
  induction t generalizing skip escaped done with
  | nil => simp [readOnto]
  | cons c t ih =>
    cases skip with
    | succ skip => exact ih skip _ done
    | zero =>
      simp only [readOnto]
      split
      · rw [ih, ih _ _ [_]]; simp
      · rw [ih, ih _ _ [_]]; simp

theorem append_of_bodyBefore? {escaped : Bool} {taken t body : Text}
    (h : bodyBefore? escaped taken t = some body) :
    ∃ rest, taken.reverse ++ t = body ++ '%' :: '}' :: rest := by
  induction t generalizing escaped taken with
  | nil => simp [bodyBefore?] at h
  | cons c t ih =>
    simp only [bodyBefore?] at h
    split at h
    · simp at h
    split at h
    · next hc =>
      simp only [Bool.and_eq_true, Marker.closes_iff] at hc
      obtain ⟨-, rest, hr⟩ := hc
      exact ⟨rest, by rw [hr, Option.some.inj h]⟩
    · obtain ⟨rest, hr⟩ := ih h
      exact ⟨rest, by simpa using hr⟩

theorem text_append_of_directiveAt? {t body : Text} (h : directiveAt? t = some body) :
    ∃ rest, t = (directive body).text ++ rest := by
  unfold directiveAt? at h
  split at h
  · obtain ⟨hb, -⟩ := Option.filter_eq_some_iff.1 h
    obtain ⟨rest, hr⟩ := append_of_bodyBefore? hb
    exact ⟨rest, by simpa [text] using hr⟩
  · simp at h

/-- Reading loses nothing but what it is told to skip. -/
theorem flatten_readOnto (skip : Nat) (escaped : Bool) (t : Text) :
    flatten (readOnto skip escaped [] t) = t.drop skip := by
  induction t generalizing skip escaped with
  | nil => simp [readOnto]
  | cons c t ih =>
    cases skip with
    | succ skip => exact ih skip _
    | zero =>
      simp only [readOnto]
      split
      · next body h =>
        rw [readOnto_eq]
        split at h
        · simp at h
        obtain ⟨rest, hr⟩ := text_append_of_directiveAt? h
        simp only [text, List.cons_append, List.cons.injEq] at hr
        obtain ⟨rfl, rfl⟩ := hr
        have hd : ('%' :: (body ++ ['%', '}']) ++ rest).drop (body.length + 3) = rest :=
          List.drop_left' (by simp)
        rw [List.cons_append] at hd
        simp only [List.reverse_singleton, List.singleton_append, flatten_cons, ih, hd]
        simp [text]
      · rw [readOnto_eq]
        simp [text, ih]

end Segment

/-- The segments of a document, from left to right. -/
def Text.segments (t : Text) : List Segment := Segment.readOnto 0 false [] t

/-- Segments hold the whole document. -/
@[simp] theorem flatten_segments (t : Text) : Segment.flatten t.segments = t := by
  simp [Text.segments, Segment.flatten_readOnto]

end DocSplice
