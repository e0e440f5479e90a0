import DocSplice.Segment

/-!
# DocSplice.Span

Where the directives of a document stand.

* `Span`: the byte offsets of a directive, and its trimmed body.
* `Text.spans`: the spans of a document, in order.
-/

namespace DocSplice

/-- A directive in a document: offset of its first byte, offset just past its last byte, and the
text between the markers without the blanks at its ends. -/
structure Span where
  start : Nat
  stop : Nat
  inner : Text
  deriving DecidableEq, Repr

namespace Span

/-- The spans of segments that begin at byte `offset`, behind `done`, which is kept in reverse. -/
def collectOnto (offset : Nat) (done : List Span) : List Segment → List Span
  | [] => done.reverse
  | s :: l =>
    let stop := offset + s.text.byteSize
    match s with
    | .plain _ => collectOnto stop done l
    | .directive body => collectOnto stop (⟨offset, stop, body.trim⟩ :: done) l

end Span

/-- The directives of a document, in order. -/
def Text.spans (t : Text) : List Span := Span.collectOnto 0 [] t.segments

end DocSplice
