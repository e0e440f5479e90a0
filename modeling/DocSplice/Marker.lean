import DocSplice.Text

/-!
# DocSplice.Marker

The two markers that enclose a directive, and the backslash that makes them literal.

* `opens`, `closes`: does a text begin with the opening or the closing marker?
* `unescape`: deletes the backslash before each marker, in one pass.
-/

namespace DocSplice
namespace Marker

/-- The character that makes the marker after it literal. -/
def escapeChar : Char := '\\'

/-- The text begins with the marker that opens a directive. -/
def opens : Text → Bool
  | '{' :: '%' :: _ => true
  | _ => false

/-- The text begins with the marker that closes a directive. -/
def closes : Text → Bool
  | '%' :: '}' :: _ => true
  | _ => false

def begins (t : Text) : Bool := opens t || closes t

theorem opens_iff {t : Text} : opens t = true ↔ ∃ rest, t = '{' :: '%' :: rest := by
  constructor
  · intro h
    unfold opens at h
    split at h
    · exact ⟨_, rfl⟩
    · simp at h
  · rintro ⟨rest, rfl⟩
    rfl

theorem closes_iff {t : Text} : closes t = true ↔ ∃ rest, t = '%' :: '}' :: rest := by
  constructor
  · intro h
    unfold closes at h
    split at h
    · exact ⟨_, rfl⟩
    · simp at h
  · rintro ⟨rest, rfl⟩
    rfl

/-! ## The escape pass -/

/-- `unescape` behind the text `done`, which is kept in reverse. -/
def unescapeOnto (done : Text) : Text → Text
  | [] => done.reverse
  | c :: t => unescapeOnto (if c == escapeChar && begins t then done else c :: done) t

/-- Deletes exactly the backslashes that stand right before a marker. -/
def unescape (t : Text) : Text := unescapeOnto [] t

/-! ## Unfolding, character by character -/

theorem unescapeOnto_eq (done t : Text) : unescapeOnto done t = done.reverse ++ unescape t := by
  induction t generalizing done with
  | nil => simp [unescapeOnto, unescape]
  | cons c t ih =>
    simp only [unescape, unescapeOnto]
    split
    · rw [ih, ih []]; simp
    · rw [ih, ih [c]]; simp

@[simp] theorem unescape_nil : unescape [] = [] := rfl

theorem unescape_cons (c : Char) (t : Text) :
    unescape (c :: t) = if c == escapeChar && begins t then unescape t else c :: unescape t := by
  simp only [unescape, unescapeOnto]
  split
  · rfl
  · rw [unescapeOnto_eq]; rfl

end Marker
end DocSplice
