import Std.Data.ExtTreeMap
import DocSplice.Encoding
import DocSplice.IncludeSource

/-!
# DocSplice.FileTree

Directories and regular files, and the paths that lead through them.

* `Place`: where a file or directory stands, with the root at `[]`.
* `FileTree`: finitely many entries, each of them in a directory.
* `FileTree.locate`: follows a path, step by step. Every step starts from a directory, so `a/..` is
  a path only if `a` is a directory.
* `FileTree.read`, `FileTree.write`: the contents of a file, and the tree after one is written.
* `FileTree.source`: the source that takes included files from a tree.
-/

namespace DocSplice

/-! ## Trees -/

/-- The names on the way to an entry, the last one first. -/
abbrev Place := List Text

inductive Entry where
  | directory
  | file (contents : ByteArray)

instance : DecidableEq Entry
  | .directory, .directory => isTrue rfl
  | .directory, .file _ => isFalse nofun
  | .file _, .directory => isFalse nofun
  | .file a, .file b => match ByteArray.instDecidableEq a b with
    | isTrue h => isTrue (congrArg _ h)
    | isFalse h => isFalse fun he => h (Entry.file.inj he)

/-- What a table holds at a place. The root needs no entry. -/
def Place.find? (table : Std.ExtTreeMap Place Entry) : Place → Option Entry
  | [] => some .directory
  | place@(_ :: _) => table[place]?

/-- A tree of files. Whatever has an entry stands in a directory. -/
structure FileTree where
  table : Std.ExtTreeMap Place Entry
  closed : ∀ name place, (Place.find? table (name :: place)).isSome →
    Place.find? table place = some .directory

namespace FileTree

def find? (t : FileTree) (place : Place) : Option Entry := place.find? t.table

def empty : FileTree where
  table := ∅
  closed := by simp [Place.find?]

theorem find?_insert (table : Std.ExtTreeMap Place Entry) (name : Text) (up other : Place)
    (e : Entry) :
    Place.find? (table.insert (name :: up) e) other =
      if other = name :: up then some e else other.find? table := by
  cases other with
  | nil => simp [Place.find?]
  | cons n p =>
    simp only [Place.find?, Std.ExtTreeMap.getElem?_insert, Std.LawfulEqCmp.compare_eq_iff_eq]
    simp only [eq_comm]

/-- Puts an entry into the directory `up`, where no directory of that name is. Elsewhere nothing
changes. -/
def set (t : FileTree) (name : Text) (up : Place) (e : Entry) : FileTree :=
  if h : t.find? up = some .directory ∧ t.find? (name :: up) ≠ some .directory then
    { table := t.table.insert (name :: up) e
      closed := by
        intro n p hp
        have up_ne : up ≠ name :: up := fun he => absurd (congrArg List.length he) (by simp)
        rw [find?_insert] at hp ⊢
        split at hp
        · next he =>
          obtain ⟨rfl, rfl⟩ := List.cons.inj he
          rw [if_neg up_ne]
          exact h.1
        · have hd := t.closed n p hp
          rw [if_neg, hd]
          rintro rfl
          exact h.2 hd }
  else t

/-- Makes a directory and those above it, as far as nothing is in the way. -/
def makeDirectories (t : FileTree) : Place → FileTree
  | [] => t
  | name :: up =>
    let t := t.makeDirectories up
    if (t.find? (name :: up)).isNone then t.set name up .directory else t

/-- Puts a file at a place, and makes the directories above it. -/
def install (t : FileTree) (contents : ByteArray) : Place → FileTree
  | [] => t
  | name :: up => (t.makeDirectories up).set name up (.file contents)

theorem find?_set (t : FileTree) (name : Text) (up other : Place) (e : Entry)
    (h : t.find? up = some .directory ∧ t.find? (name :: up) ≠ some .directory) :
    (t.set name up e).find? other = if other = name :: up then some e else t.find? other := by
  rw [set, dif_pos h]
  exact find?_insert ..

end FileTree

/-! ## Failures -/

inductive FileError where
  | missing
  | notDirectory
  | isDirectory
  | nameTooLong
  | notText
  deriving DecidableEq, Repr

def FileError.message : FileError → Text
  | missing => "No such file or directory (os error 2)".toList
  | notDirectory => "Not a directory (os error 20)".toList
  | isDirectory => "Is a directory (os error 21)".toList
  | nameTooLong => "File name too long (os error 36)".toList
  | notText => "stream did not contain valid UTF-8".toList

/-! ## Places and paths -/

def Place.path (place : Place) : Path := ⟨'/' :: ['/'].intercalate place.reverse⟩

/-- One step of a path from a place, if the place is a directory. A dot and an empty piece stay
there, two dots lead upwards, and above the root is the root. -/
def Place.advance (place : Place) (piece : Text) : Place :=
  if Path.isIdle piece then place
  else if piece == ['.', '.'] then place.tail
  else piece :: place

def Path.origin (current : Place) (p : Path) : Place := if p.isAbsolute then [] else current

/-- The place that a path leads to if all on its way is there. -/
def Path.place (current : Place) (p : Path) : Place :=
  (p.text.splitOn '/').foldl Place.advance (p.origin current)

/-- The places on the way of a path if all of it is there, the origin first. -/
def Path.stops (current : Place) (p : Path) : List Place :=
  (p.text.splitOn '/').scanl Place.advance (p.origin current)

/-- The places of a name in a directory and in those above it, the nearest first. -/
def Place.upward (name : Text) : Place → List Place
  | [] => [[name]]
  | place@(_ :: up) => (name :: place) :: upward name up

namespace FileTree

def nameLimit : Nat := 255

def pathLimit : Nat := 4095

/-- One step of a path. It starts from a directory, and a name that it adds has to be there. -/
def enter (t : FileTree) (place : Place) (piece : Text) : Except FileError Place :=
  match t.find? place with
  | none => .error .missing
  | some (.file _) => .error .notDirectory
  | some .directory =>
    if nameLimit < piece.byteSize then .error .nameTooLong
    else if (t.find? (place.advance piece)).isNone then .error .missing
    else .ok (place.advance piece)

/-- The pieces of a path between its slashes. An empty path leads nowhere. -/
def route (p : Path) : Except FileError (List Text) :=
  if p.text.isEmpty then .error .missing
  else if pathLimit < p.text.byteSize then .error .nameTooLong
  else .ok (p.text.splitOn '/')

/-- Follows pieces of a path. A path that is not absolute starts at `current`. -/
def follow (t : FileTree) (current : Place) (p : Path) (pieces : List Text) :
    Except FileError Place :=
  pieces.foldlM t.enter (p.origin current)

def locate (t : FileTree) (current : Place) (p : Path) : Except FileError Place :=
  match route p with
  | .error e => .error e
  | .ok pieces => t.follow current p pieces

/-! ## Reading and writing -/

/-- The contents of a file at a place. -/
def contents? (t : FileTree) (place : Place) : Option ByteArray :=
  match t.find? place with
  | some (.file contents) => some contents
  | _ => none

def read (t : FileTree) (current : Place) (p : Path) : Except FileError ByteArray :=
  match t.locate current p with
  | .error e => .error e
  | .ok place =>
    match t.find? place with
    | some (.file contents) => .ok contents
    | some .directory => .error .isDirectory
    | none => .error .missing

def readText (t : FileTree) (current : Place) (p : Path) : Except FileError Text :=
  match t.read current p with
  | .error e => .error e
  | .ok contents =>
    match Text.decode? contents with
    | some text => .ok text
    | none => .error .notText

/-- The tree after a file is written. All of the path but its last name leads to a directory, and
the last name is that of the file; only a file is overwritten. A path that ends in a slash or in
dots names no file. -/
def write (t : FileTree) (current : Place) (p : Path) (contents : ByteArray) :
    Except FileError FileTree :=
  match route p with
  | .error e => .error e
  | .ok pieces =>
    let named := (pieces.reverse.dropWhile List.isEmpty).reverse
    let name : Text := named.getLastD []
    match t.follow current p named.dropLast with
    | .error e => .error e
    | .ok up =>
      match t.find? up with
      | none => .error .missing
      | some (.file _) => .error .notDirectory
      | some .directory =>
        if named.length < pieces.length || Path.isIdle name || name == ['.', '.'] then
          .error .isDirectory
        else if nameLimit < name.byteSize then .error .nameTooLong
        else if t.find? (name :: up) = some .directory then .error .isDirectory
        else .ok (t.set name up (.file contents))

/-- The source that takes included files from a tree. Only regular files are found, and a file that
is no text cannot be read. -/
def source (t : FileTree) (current : Place) (base : Path) : IncludeSource where
  resolve requested := base.join ⟨requested⟩
  read p := match t.readText current p with
    | .ok text => .present text
    | .error .notText => .failed FileError.notText.message
    | .error _ => .absent

end FileTree
end DocSplice
