import DocSplice.Text

/-!
# DocSplice.Path

Paths of files. A path keeps the text it was written as, and nothing is normalized when two paths
are joined. What it names is read off its components.

* `Path.join`: a path taken relative to a base.
* `Path.components`, `Path.same`: two paths are the same when their components are.
* `Path.parent?`: the path without its last component.
-/

namespace DocSplice

structure Path where
  text : Text
  deriving DecidableEq, Repr

inductive Component where
  | root
  | here
  | segment (name : Text)
  deriving DecidableEq, Repr

namespace Path

/-- The path begins at the root. -/
def isAbsolute (p : Path) : Bool := p.text.head? == some '/'

/-- `p` relative to `base`. An absolute `p` stands for itself. -/
def join (base p : Path) : Path :=
  if p.isAbsolute then p
  else if base.text.isEmpty || base.text.getLast? == some '/' then ⟨base.text ++ p.text⟩
  else ⟨base.text ++ '/' :: p.text⟩

/-- A piece between slashes that leads nowhere: nothing, or a single dot. -/
def isIdle (piece : Text) : Bool := piece == [] || piece == ['.']

/-- The steps of a path: the root if it begins there, then the pieces between slashes without the
idle ones. A dot at the very beginning of a relative path is kept. -/
def components (p : Path) : List Component :=
  let pieces := p.text.splitOn '/'
  let lead :=
    if p.isAbsolute then [Component.root]
    else if pieces.head? == some ['.'] then [Component.here]
    else []
  lead ++ (pieces.filter (!isIdle ·)).map .segment

/-- Two paths with the same steps. -/
def same (p q : Path) : Bool := p.components == q.components

/-- The list without the idle pieces at its end. -/
def dropIdle (pieces : List Text) : List Text := (pieces.reverse.dropWhile isIdle).reverse

/-- Splits off the part of a path that a parent keeps: the slash of the root, or the dot of a path
that begins with one. -/
def splitHead (p : Path) : Text × Text :=
  match p.text with
  | '/' :: rest => (['/'], rest)
  | '.' :: '/' :: rest => (['.'], '/' :: rest)
  | ['.'] => (['.'], [])
  | t => ([], t)

/-- The path without its last component, if there is one and something is left before it. -/
def parent? (p : Path) : Option Path :=
  let (head, rest) := p.splitHead
  match dropIdle (rest.splitOn '/') with
  | [] => none
  | pieces =>
    let parent := head ++ ['/'].intercalate (dropIdle pieces.dropLast)
    if parent.isEmpty then none else some ⟨parent⟩

end Path
end DocSplice
