import Mathlib.Data.List.Count
import Mathlib.Data.List.Induction
import DocSplice.Proofs.Paths

/-!
# DocSplice.Proofs.Lookup

What a shelf finds. Documents are kept and looked up under joined paths, which are written as they
come and compared by their components.

* `Path.components_join`: the components of a path relative to a base.
* `Path.components_join_congr`: paths with the same components lead to the same place.
* `Shelf.stocked`: a shelf to which documents were added, and `Shelf.read_resolve_stocked`, its law.
* `Shelf.stocked_lookup`: the last document of a path is found, whatever way the path is written.
* `Shelf.stocked_ne_behind_dot`: a dot and a slash before an absolute path make it a relative one.
-/

namespace DocSplice

/-- The steps of a path without the dot that a relative path may begin with. -/
def Component.withoutHere : List Component → List Component
  | .here :: l => l
  | l => l

namespace Path

/-! ## Components -/

/-- How a path begins: at the root, with a dot, or with its first name. -/
def lead (p : Path) : List Component :=
  if p.isAbsolute then [.root] else if p.pieces.head? == some ['.'] then [.here] else []

theorem components_eq (p : Path) : p.components = p.lead ++ p.names.map .segment := rfl

theorem withoutHere_components {p : Path} (h : p.isAbsolute = false) :
    Component.withoutHere p.components = p.names.map .segment := by
  rw [components_eq, lead, h, if_neg Bool.false_ne_true]
  split
  · rfl
  · cases p.names <;> rfl

theorem isAbsolute_eq_head? (p : Path) :
    p.isAbsolute = ((Component.withoutHere p.components).head? == some .root) := by
  cases h : p.isAbsolute with
  | true =>
    rw [components_of_isAbsolute h]
    rfl
  | false =>
    rw [withoutHere_components h]
    cases p.names <;> rfl

/-- A piece that leads somewhere is a component as often as it is written. -/
theorem count_components (p : Path) {name : Text} (h : isIdle name = false) :
    p.components.count (.segment name) = p.pieces.count name := by
  have hlead : p.lead.count (.segment name) = 0 := by
    rw [lead]
    split
    · rfl
    · split <;> rfl
  rw [components_eq, List.count_append, hlead, Nat.zero_add, names,
    List.count_map_of_injective _ _ fun _ _ heq => Component.segment.inj heq,
    List.count_filter (by simp [h])]

/-! ## Joining -/

theorem join_of_text_eq_nil {base : Path} (h : base.text = []) (p : Path) : base.join p = p := by
  rw [join]
  split
  · rfl
  · simp [h]

theorem isAbsolute_join_eq {base p : Path} (hbase : base.text ≠ []) (hp : p.isAbsolute = false) :
    (base.join p).isAbsolute = base.isAbsolute := by
  obtain ⟨c, text, htext⟩ := List.exists_cons_of_ne_nil hbase
  rw [join, if_neg (by simp [hp])]
  split <;> simp [isAbsolute, htext]

theorem components_join {base p : Path} (hbase : base.text ≠ []) (hp : p.isAbsolute = false) :
    (base.join p).components = base.components ++ Component.withoutHere p.components := by
  obtain ⟨front, hpieces, hhead, -, hnames⟩ := exists_pieces_join hbase hp
  have hfirst : (base.join p).pieces.head? = base.pieces.head? := by
    obtain ⟨piece, rest, hbasePieces⟩ := List.exists_cons_of_ne_nil base.pieces_ne_nil
    rw [hpieces, List.head?_append, hhead, hbasePieces]
    rfl
  have hlead : (base.join p).lead = base.lead := by
    rw [lead, lead, isAbsolute_join_eq hbase hp, hfirst]
  have hall : (base.join p).names = base.names ++ p.names := by
    rw [names, hpieces, List.filter_append, hnames]
    rfl
  rw [withoutHere_components hp, components_eq, hlead, hall, List.map_append, components_eq base,
    List.append_assoc]

/-- Behind a base, the dot at the beginning of a path is lost. -/
theorem components_join_of_withoutHere {base p q : Path} (hbase : base.text ≠ [])
    (h : Component.withoutHere p.components = Component.withoutHere q.components) :
    (base.join p).components = (base.join q).components := by
  have habsolute : p.isAbsolute = q.isAbsolute := by
    rw [isAbsolute_eq_head?, isAbsolute_eq_head?, h]
  cases hq : q.isAbsolute with
  | true =>
    rw [hq] at habsolute
    rw [components_of_isAbsolute habsolute, components_of_isAbsolute hq] at h
    rw [join_of_isAbsolute base habsolute, join_of_isAbsolute base hq,
      components_of_isAbsolute habsolute, components_of_isAbsolute hq]
    exact h
  | false =>
    rw [hq] at habsolute
    rw [components_join hbase habsolute, components_join hbase hq, h]

/-- Paths with the same components lead to the same place. -/
theorem components_join_congr (base : Path) {p q : Path} (h : p.components = q.components) :
    (base.join p).components = (base.join q).components := by
  by_cases hbase : base.text = []
  · rw [join_of_text_eq_nil hbase, join_of_text_eq_nil hbase, h]
  · exact components_join_of_withoutHere hbase (by rw [h])

theorem withoutHere_components_behind_dot {p : Text} (h : isAbsolute ⟨p⟩ = false) :
    Component.withoutHere (components ⟨'.' :: '/' :: p⟩) =
      Component.withoutHere (components ⟨p⟩) := by
  have hnames : names ⟨'.' :: '/' :: p⟩ = names ⟨p⟩ := by
    have hpieces : pieces ⟨'.' :: '/' :: p⟩ = ['.'] :: pieces ⟨p⟩ := splitOn_append_cons ['.'] p
    rw [names, hpieces]
    rfl
  rw [withoutHere_components h, withoutHere_components rfl, hnames]

theorem count_components_join (base p : Path) {name : Text} (h : isIdle name = false) :
    (base.join p).components.count (.segment name) =
      (if p.isAbsolute then 0 else base.pieces.count name) + p.pieces.count name := by
  rw [count_components _ h]
  cases hp : p.isAbsolute with
  | true => simp [join_of_isAbsolute base hp]
  | false =>
    by_cases hbase : base.text = []
    · have hname : name ≠ [] := by
        rintro rfl
        cases h
      have hnone : base.pieces.count name = 0 := by
        simp [pieces, hbase, Ne.symm hname]
      simp [join_of_text_eq_nil hbase, hnone]
    · obtain ⟨front, hpieces, -, -, hnames⟩ := exists_pieces_join hbase hp
      have hcount := congrArg (List.count name) hnames
      rw [names, List.count_filter (by simp [h]), List.count_filter (by simp [h])] at hcount
      simp [hpieces, hcount]

end Path

/-! ## Shelves -/

/-- The shelf to which documents were added, the last one of the list last. -/
def Shelf.stocked (base : Path) (documents : List (Text × Text)) : Shelf :=
  documents.foldl (fun s document => s.add document.1 document.2) { base }

namespace Shelf

theorem stocked_eq (base : Path) (documents : List (Text × Text)) :
    stocked base documents =
      ⟨base, (documents.map fun document => (base.join ⟨document.1⟩, document.2)).reverse⟩ := by
  induction documents using List.reverseRecOn with
  | nil => rfl
  | append_singleton documents document ih =>
    rw [stocked] at ih ⊢
    rw [List.foldl_append, ih]
    simp [add]

/-- Of the documents under paths that lead to the same place, the one added last is found. -/
theorem read_resolve_stocked (base : Path) (documents : List (Text × Text)) (requested : Text) :
    (stocked base documents).source.read ((stocked base documents).source.resolve requested) =
      match documents.reverse.find? fun document =>
        (base.join ⟨document.1⟩).same (base.join ⟨requested⟩) with
      | some document => .present document.2
      | none => .absent := by
  rw [stocked_eq]
  simp only [source, find?, ← List.map_reverse, List.find?_map, Function.comp_def]
  cases documents.reverse.find? fun document =>
    (base.join ⟨document.1⟩).same (base.join ⟨requested⟩) <;> rfl

theorem read_resolve_congr {base : Path} (documents : List (Text × Text))
    {requested requested' : Text}
    (h : (base.join ⟨requested⟩).components = (base.join ⟨requested'⟩).components) :
    (stocked base documents).source.read ((stocked base documents).source.resolve requested) =
      (stocked base documents).source.read
        ((stocked base documents).source.resolve requested') := by
  rw [read_resolve_stocked, read_resolve_stocked]
  simp only [Path.same, h]

theorem read_resolve_eq_present_iff {base : Path} {documents : List (Text × Text)}
    {requested contents : Text} :
    (stocked base documents).source.read ((stocked base documents).source.resolve requested) =
        .present contents ↔
      ∃ before path after, documents = before ++ (path, contents) :: after ∧
        (base.join ⟨path⟩).same (base.join ⟨requested⟩) = true ∧
        ∀ document ∈ after, (base.join ⟨document.1⟩).same (base.join ⟨requested⟩) = false := by
  rw [read_resolve_stocked]
  constructor
  · intro h
    split at h
    · next document hfound =>
      cases h
      obtain ⟨hsame, front, rest, hreverse, hothers⟩ := List.find?_eq_some_iff_append.mp hfound
      refine ⟨rest.reverse, document.1, front.reverse, ?_, hsame, ?_⟩
      · rw [← List.reverse_reverse documents, hreverse]
        simp
      · intro other hother
        simpa using hothers other (List.mem_reverse.mp hother)
    · cases h
  · rintro ⟨before, path, after, rfl, hsame, hothers⟩
    have hfound : (before ++ (path, contents) :: after).reverse.find? (fun document =>
        (base.join ⟨document.1⟩).same (base.join ⟨requested⟩)) = some (path, contents) := by
      refine List.find?_eq_some_iff_append.mpr ⟨hsame, after.reverse, before.reverse, by simp, ?_⟩
      intro other hother
      simpa using hothers other (List.mem_reverse.mp hother)
    rw [hfound]

theorem read_resolve_eq_absent_iff {base : Path} {documents : List (Text × Text)}
    {requested : Text} :
    (stocked base documents).source.read ((stocked base documents).source.resolve requested) =
        .absent ↔
      ∀ document ∈ documents, (base.join ⟨document.1⟩).same (base.join ⟨requested⟩) = false := by
  rw [read_resolve_stocked]
  constructor
  · intro h
    split at h
    · cases h
    · next hnone =>
      intro document hdocument
      simpa using List.find?_eq_none.mp hnone document (List.mem_reverse.mpr hdocument)
  · intro h
    have hnone : documents.reverse.find? (fun document =>
        (base.join ⟨document.1⟩).same (base.join ⟨requested⟩)) = none := by
      refine List.find?_eq_none.mpr ?_
      intro document hdocument
      simp [h document (List.mem_reverse.mp hdocument)]
    rw [hnone]

/-- **What a shelf finds.** A request is answered with the document that was added last among those
whose joined path has the components of the joined request, and with nothing if there is none. The
components of a joined path are those of the path if it is absolute or the base is empty, and otherwise
those of the base, then those of the path without a dot at its beginning. So requests with the same
components are answered alike. Behind a base that is not empty so are those that differ in such a
dot, like a relative request and the same one behind a dot and a slash. Steps upward are never taken
together with the steps before them: as many are left as were written. -/
theorem stocked_lookup (base : Path) (documents : List (Text × Text)) :
    let source := (stocked base documents).source
    (∀ requested contents, source.read (source.resolve requested) = .present contents ↔
      ∃ before path after, documents = before ++ (path, contents) :: after ∧
        (base.join ⟨path⟩).same (base.join ⟨requested⟩) = true ∧
        ∀ document ∈ after, (base.join ⟨document.1⟩).same (base.join ⟨requested⟩) = false) ∧
    (∀ requested, source.read (source.resolve requested) = .absent ↔
      ∀ document ∈ documents, (base.join ⟨document.1⟩).same (base.join ⟨requested⟩) = false) ∧
    (∀ p : Path, (base.join p).components =
      if p.isAbsolute || base.text.isEmpty then p.components
      else base.components ++ Component.withoutHere p.components) ∧
    (∀ requested requested', Path.same ⟨requested⟩ ⟨requested'⟩ = true →
      source.read (source.resolve requested) = source.read (source.resolve requested')) ∧
    (base.text ≠ [] → ∀ requested requested' : Text,
      Component.withoutHere (Path.components ⟨requested⟩) =
        Component.withoutHere (Path.components ⟨requested'⟩) →
      source.read (source.resolve requested) = source.read (source.resolve requested')) ∧
    (base.text ≠ [] → ∀ requested : Text, Path.isAbsolute ⟨requested⟩ = false →
      source.read (source.resolve ('.' :: '/' :: requested)) =
        source.read (source.resolve requested)) ∧
    ∀ p : Path, (base.join p).components.count (.segment ['.', '.']) =
      (if p.isAbsolute then 0 else base.pieces.count ['.', '.']) + p.pieces.count ['.', '.'] := by
  intro source
  refine ⟨fun _ _ => read_resolve_eq_present_iff, fun _ => read_resolve_eq_absent_iff, ?_, ?_, ?_, ?_,
    fun p => Path.count_components_join base p rfl⟩
  · intro p
    split
    · next hself =>
      rcases Bool.or_eq_true_iff.mp hself with habsolute | hempty
      · rw [Path.join_of_isAbsolute base habsolute]
      · rw [Path.join_of_text_eq_nil (List.isEmpty_iff.mp hempty)]
    · next hbehind =>
      simp only [Bool.or_eq_true, not_or, Bool.not_eq_true] at hbehind
      exact Path.components_join (List.isEmpty_eq_false_iff.mp hbehind.2) hbehind.1
  · intro requested requested' hsame
    have hcomponents : Path.components ⟨requested⟩ = Path.components ⟨requested'⟩ := by
      simpa [Path.same] using hsame
    exact read_resolve_congr documents (Path.components_join_congr base hcomponents)
  · intro hbase requested requested' h
    exact read_resolve_congr documents (Path.components_join_of_withoutHere hbase h)
  · intro hbase requested h
    exact read_resolve_congr documents
      (Path.components_join_of_withoutHere hbase (Path.withoutHere_components_behind_dot h))

theorem stocked_lookup_respelled :
    let source := (stocked ⟨['b', '/', '.']⟩
      [("a//x".toList, ['1']), ("./a/x/.".toList, ['2']), ("../b/a/x".toList, ['3'])]).source
    source.read (source.resolve "a/x".toList) = .present ['2'] ∧
      source.read (source.resolve "./a/x".toList) = source.read (source.resolve "a/x".toList) := by
  intro source
  obtain ⟨hpresent, -, -, -, -, hdot, -⟩ := stocked_lookup ⟨['b', '/', '.']⟩
    [("a//x".toList, ['1']), ("./a/x/.".toList, ['2']), ("../b/a/x".toList, ['3'])]
  refine ⟨(hpresent _ _).mpr ⟨[("a//x".toList, ['1'])], "./a/x/.".toList,
    [("../b/a/x".toList, ['3'])], rfl, by decide, by decide⟩, ?_⟩
  exact hdot (by decide) "a/x".toList (by decide)

/-- An absolute request stands for itself. Behind a dot and a slash it is a relative one, which leads
below the base. -/
theorem stocked_ne_behind_dot :
    let base : Path := ⟨['b']⟩
    let source := (stocked base [(['/', 'a'], ['x'])]).source
    base.text ≠ [] ∧ source.read (source.resolve ['/', 'a']) = .present ['x'] ∧
      source.read (source.resolve ('.' :: '/' :: ['/', 'a'])) = .absent := by
  decide

end Shelf
end DocSplice
