import DocSplice.Text

/-!
# DocSplice.Position

Lines and columns, counted from one. A column counts characters, and only a line feed starts a line.
They are numbers of any size: what becomes of counters of 32 bits in documents of 4 GiB or more is
left out.

* `Position.after`: the position behind a text.
* `Position.ofByteOffset?`: the position of a byte offset. It is defined at the boundaries of
  characters, and an offset past the end stands for the end.
-/

namespace DocSplice

structure Position where
  line : Nat
  column : Nat
  deriving DecidableEq, Repr

namespace Position

/-- Where every document begins. -/
def start : Position := ⟨1, 1⟩

def next (p : Position) (c : Char) : Position :=
  if c = '\n' then ⟨p.line + 1, 1⟩ else ⟨p.line, p.column + 1⟩

def after (p : Position) (t : Text) : Position := t.foldl next p

/-- The position `offset` bytes into a text that begins at `p`. -/
def advanceBytes? (p : Position) (offset : Nat) : Text → Option Position
  | [] => some p
  | c :: t =>
    if offset = 0 then some p
    else if offset < c.utf8Size then none
    else (p.next c).advanceBytes? (offset - c.utf8Size) t

/-- The position of a byte offset, unless it lies inside a character. -/
def ofByteOffset? (t : Text) (offset : Nat) : Option Position := start.advanceBytes? offset t

def describe (p : Position) : Text :=
  "line ".toList ++ Text.ofNat p.line ++ ", column ".toList ++ Text.ofNat p.column

@[simp] theorem after_nil (p : Position) : p.after [] = p := rfl

@[simp] theorem after_cons (p : Position) (c : Char) (t : Text) :
    p.after (c :: t) = (p.next c).after t := rfl

@[simp] theorem after_append (p : Position) (s t : Text) :
    p.after (s ++ t) = (p.after s).after t := by
  simp [after, List.foldl_append]

end Position
end DocSplice
