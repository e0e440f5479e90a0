import DocSplice.Path

/-!
# DocSplice.IncludeSource

Where included files come from. A source resolves the path that a directive asks for, and answers
what is found there.

* `Reading`: the three answers.
* `Shelf`: a fixed set of documents under their paths. `Shelf.source` is the source that reads it.
* `IncludeSource.failingAt`: a source some of whose paths cannot be read.
-/

namespace DocSplice

/-- What a source finds at a path. -/
inductive Reading where
  | present (contents : Text)
  | absent
  | failed (reason : Text)
  deriving DecidableEq, Repr

/-- A way to find included files. -/
structure IncludeSource where
  resolve : Text → Path
  read : Path → Reading

/-- Documents kept under their full paths, the one added last first. -/
structure Shelf where
  base : Path
  documents : List (Path × Text) := []
  deriving DecidableEq, Repr

namespace Shelf

/-- Keeps a document under a path relative to the base, in place of one under the same path. -/
def add (s : Shelf) (path contents : Text) : Shelf :=
  { s with documents := (s.base.join ⟨path⟩, contents) :: s.documents }

/-- The document under a full path. -/
def find? (s : Shelf) (p : Path) : Option Text :=
  (s.documents.find? fun entry => entry.1.same p).map (·.2)

/-- The source that reads a shelf. -/
def source (s : Shelf) : IncludeSource where
  resolve requested := s.base.join ⟨requested⟩
  read p := match s.find? p with
    | some contents => .present contents
    | none => .absent

end Shelf

/-- The source in which reading the given paths fails with the given reasons; of two entries for
one path the first counts. -/
def IncludeSource.failingAt (faults : List (Path × Text)) (s : IncludeSource) : IncludeSource :=
  { s with
    read := fun p => match faults.find? fun entry => entry.1.same p with
      | some (_, reason) => .failed reason
      | none => s.read p }

end DocSplice
