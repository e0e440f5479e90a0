import Mathlib.Data.List.Basic
import DocSplice.FileTree

/-!
# DocSplice.Proofs.Paths

Paths, read piece by piece.

* `Path.pieces`, `Path.names`: the pieces of a path between its slashes, and those of them that lead
  somewhere. `components_of_isAbsolute` says that an absolute path is the same as another one if it
  has the same names.
* `Path.exists_pieces_join`: the pieces of a path relative to a base.
* `IsFileName`: what a file may be called. The names of the path to a place are those of the place
  (`names_path`).
-/

namespace DocSplice

namespace Path

/-- The pieces of a path between its slashes. -/
def pieces (p : Path) : List Text := p.text.splitOn '/'

/-- The pieces that lead somewhere. -/
def names (p : Path) : List Text := p.pieces.filter (!isIdle ·)

theorem splitOn_append_cons (s t : Text) :
    (s ++ '/' :: t).splitOn '/' = s.splitOn '/' ++ t.splitOn '/' := by
  simp only [List.splitOn_eq_splitOnP]
  exact List.splitOnP_append_cons s t (by simp)

theorem pieces_ne_nil (p : Path) : p.pieces ≠ [] := List.splitOn_ne_nil _ _

theorem components_of_isAbsolute {p : Path} (h : p.isAbsolute = true) :
    p.components = .root :: p.names.map .segment := by
  simp only [components, h, if_true]
  rfl

theorem same_iff_of_isAbsolute {p q : Path} (hp : p.isAbsolute = true) (hq : q.isAbsolute = true) :
    p.same q = true ↔ p.names = q.names := by
  have hinj : Function.Injective Component.segment := fun _ _ h => Component.segment.inj h
  rw [same, components_of_isAbsolute hp, components_of_isAbsolute hq]
  simp [List.map_inj_right (fun _ _ h => hinj h)]

/-! ## Joining -/

theorem join_of_isAbsolute (base : Path) {p : Path} (h : p.isAbsolute = true) :
    base.join p = p := by
  rw [join, if_pos h]

theorem isAbsolute_join {base : Path} (h : base.isAbsolute = true) (p : Path) :
    (base.join p).isAbsolute = true := by
  obtain ⟨text⟩ := base
  cases text with
  | nil => cases h
  | cons c text =>
    unfold join
    split
    · assumption
    split
    · exact h
    · exact h

theorem text_ne_nil_of_isAbsolute {p : Path} (h : p.isAbsolute = true) : p.text ≠ [] := by
  intro htext
  simp [isAbsolute, htext] at h

/-- Behind a base, the pieces of a path follow pieces of the base, and the names of the base are
kept. -/
theorem exists_pieces_join {base p : Path} (hbase : base.text ≠ []) (hp : p.isAbsolute = false) :
    ∃ lead, (base.join p).pieces = lead ++ p.pieces ∧ lead.head? = base.pieces.head? ∧
      lead ⊆ base.pieces ∧ lead.filter (!isIdle ·) = base.names := by
  rw [join, if_neg (by simp [hp]), List.isEmpty_eq_false_iff.mpr hbase, Bool.false_or]
  split
  · next hlast =>
    obtain ⟨s, hs⟩ : ∃ s, base.text = s ++ ['/'] := by
      obtain ⟨h, hget⟩ := List.getLast?_eq_some_iff.mp (by simpa using hlast)
      exact ⟨_, hget⟩
    have hpieces : base.pieces = s.splitOn '/' ++ [[]] := by
      rw [pieces, hs, splitOn_append_cons, List.splitOn_nil]
    refine ⟨s.splitOn '/', ?_, ?_, ?_, ?_⟩
    · simp only [pieces, hs, List.append_assoc, List.singleton_append]
      exact splitOn_append_cons s p.text
    · rw [hpieces, List.head?_append_of_ne_nil _ (List.splitOn_ne_nil _ _)]
    · rw [hpieces]
      exact List.subset_append_left _ _
    · rw [names, hpieces, List.filter_append]
      simp [isIdle]
  · refine ⟨base.pieces, ?_, rfl, List.Subset.refl _, rfl⟩
    exact splitOn_append_cons base.text p.text

theorem names_join {base p : Path} (hbase : base.isAbsolute = true) (hp : p.isAbsolute = false) :
    (base.join p).names = base.names ++ p.names := by
  obtain ⟨lead, hpieces, -, -, hnames⟩ := exists_pieces_join (text_ne_nil_of_isAbsolute hbase) hp
  rw [names, hpieces, List.filter_append, hnames]
  rfl

theorem splitOn_append_replicate (t : Text) (n : Nat) :
    (t ++ List.replicate n '/').splitOn '/' = t.splitOn '/' ++ List.replicate n [] := by
  induction n with
  | zero => simp
  | succ n ih =>
    rw [List.replicate_succ', List.replicate_succ', ← List.append_assoc, ← List.append_assoc, ← ih,
      splitOn_append_cons, List.splitOn_nil]

end Path

/-! ## Names of files -/

/-- What a file or a directory may be called. -/
structure IsFileName (name : Text) : Prop where
  leads : Path.isIdle name = false
  notUp : name ≠ ['.', '.']
  noSlash : '/' ∉ name
  noNull : '\x00' ∉ name
  short : name.byteSize ≤ FileTree.nameLimit

theorem Place.isAbsolute_path (place : Place) : place.path.isAbsolute = true := rfl

theorem Place.names_path {place : Place} (h : ∀ name ∈ place, IsFileName name) :
    place.path.names = place.reverse := by
  have hpieces : place.path.pieces = [] :: (['/'].intercalate place.reverse).splitOn '/' :=
    Path.splitOn_append_cons [] _
  have hidle : (place.reverse).filter (!Path.isIdle ·) = place.reverse := by
    apply List.filter_eq_self.mpr
    intro name hname
    simp [(h name (List.mem_reverse.mp hname)).leads]
  rw [Path.names, hpieces]
  rcases List.eq_nil_or_concat place with rfl | ⟨l, name, rfl⟩
  · rfl
  · rw [List.splitOn_intercalate]
    · simpa [Path.isIdle] using hidle
    · intro name hname
      exact (h name (List.mem_reverse.mp hname)).noSlash
    · simp

end DocSplice
