/-!
# DocSplice.Text

Texts and the character classes of the directive language.

* `Text`: a text, as the list of its Unicode scalar values. Columns count these; offsets count
  the bytes of the UTF-8 encoding (`Text.byteSize`).
* `isBlank`: the Unicode property `White_Space`. `Text.trim` removes it at both ends.
* `isSeparator`: the four characters that separate the words of a directive.
* `Text.afterSeparators?`, `Text.word?`, `Text.cut?`: small readers.
-/

namespace DocSplice

abbrev Text := List Char

/-! ## Character classes -/

/-- Unicode `White_Space`. -/
def isBlank (c : Char) : Bool :=
  let n := c.toNat
  (0x9 ≤ n && n ≤ 0xD) || n == 0x20 || n == 0x85 || n == 0xA0 || n == 0x1680 ||
    (0x2000 ≤ n && n ≤ 0x200A) || n == 0x2028 || n == 0x2029 || n == 0x202F ||
    n == 0x205F || n == 0x3000

/-- Space, tab, carriage return and line feed. No other blank separates the words of a directive. -/
def isSeparator (c : Char) : Bool :=
  c == ' ' || c == '\t' || c == '\r' || c == '\n'

namespace Text

/-! ## Measuring and trimming -/

def byteSize (t : Text) : Nat :=
  t.foldl (fun n c => n + c.utf8Size) 0

/-- The text without the blanks at its end. -/
def trimEnd (t : Text) : Text :=
  (t.reverse.dropWhile isBlank).reverse

/-- The text without the blanks at either end. -/
def trim (t : Text) : Text :=
  trimEnd (t.dropWhile isBlank)

/-! ## Reading and splitting -/

/-- What follows a run of separators, which must not be empty. -/
def afterSeparators? : Text → Option Text
  | [] => none
  | c :: t => if isSeparator c then some (t.dropWhile isSeparator) else none

/-- The word that a text begins with, as far as it goes, and what follows it. One kind of character
begins a word, another one goes on with it. -/
def word? (first more : Char → Bool) : Text → Option (Text × Text)
  | [] => none
  | c :: t => if first c then some (c :: t.takeWhile more, t.dropWhile more) else none

/-- The parts before and after the first `mark`. -/
def cut? (mark : Char) (t : Text) : Option (Text × Text) :=
  match t.dropWhile (· != mark) with
  | [] => none
  | _ :: rest => some (t.takeWhile (· != mark), rest)

/-- Decimal digits of a number, without leading zeros. -/
def ofNat (n : Nat) : Text := Nat.toDigits 10 n

/-! ## Small laws -/

@[simp] theorem byteSize_nil : byteSize [] = 0 := rfl

theorem foldl_utf8Size (t : Text) (n : Nat) :
    t.foldl (fun n c => n + c.utf8Size) n = n + t.foldl (fun n c => n + c.utf8Size) 0 := by
  induction t generalizing n with
  | nil => rfl
  | cons c t ih => rw [List.foldl_cons, List.foldl_cons, ih, ih (0 + c.utf8Size)]; omega

@[simp] theorem byteSize_cons (c : Char) (t : Text) :
    byteSize (c :: t) = c.utf8Size + byteSize t := by
  rw [byteSize, List.foldl_cons, foldl_utf8Size, Nat.zero_add]; rfl

@[simp] theorem byteSize_append (s t : Text) : byteSize (s ++ t) = byteSize s + byteSize t := by
  induction s with
  | nil => simp
  | cons c s ih => simp [ih]; omega

end Text
end DocSplice
