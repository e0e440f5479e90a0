import DocSplice.Path

/-!
# DocSplice.Settings

What a run is told besides its document: the directory from which included files are taken, and
the variables that are defined before the first directive.
-/

namespace DocSplice

/-- Settings of a run. -/
structure Settings where
  base : Path
  predefined : List (Text × Text) := []
  deriving DecidableEq, Repr

namespace Settings

/-- Includes relative to wherever the program runs, and no variables. -/
def default : Settings := { base := ⟨['.']⟩ }

/-- Includes relative to the directory of the input file. The current directory stands in when
there is no input file, or when its path names no directory. -/
def forInput (current : Path) (input : Option Path) : Settings :=
  { base := (input.bind Path.parent?).getD current }

/-- Takes included files from another directory. -/
def withBase (s : Settings) (base : Path) : Settings := { s with base }

/-- Defines one more variable, after the earlier ones. -/
def define (s : Settings) (name value : Text) : Settings :=
  { s with predefined := s.predefined ++ [(name, value)] }

end Settings
end DocSplice
