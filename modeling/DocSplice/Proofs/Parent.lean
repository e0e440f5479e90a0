import Mathlib.Data.List.DropRight
import DocSplice.Proofs.Lookup
import DocSplice.Settings

/-!
# DocSplice.Proofs.Parent

The directory of the input file. A parent is cut off the text of a path, piece by piece from the end,
while two paths are compared by their components. The two views agree on every path, however many
slashes and dots it is written with.

* `Path.components_of_splitHead`: the components of a path, read off the parts that a parent splits
  it into.
* `Path.splitHead_append`: a parent is split in the same way as its path.
* `Path.parent?_cases`: a path has the components of its parent, then one name, or no parent.
* `Settings.forInput_parent`: includes are taken from beside the input file.
-/

namespace DocSplice
namespace Path

/-! ## Pieces -/

theorem slash_not_mem_of_mem_splitOn {t piece : Text} (h : piece ∈ t.splitOn '/') :
    '/' ∉ piece := by
  induction t generalizing piece with
  | nil =>
    rw [List.splitOn_nil, List.mem_singleton] at h
    simp [h]
  | cons c t ih =>
    rw [List.splitOn_cons_eq_if_modifyHead] at h
    obtain ⟨first, rest, hpieces⟩ := List.exists_cons_of_ne_nil (List.splitOn_ne_nil '/' t)
    rw [hpieces] at h ih
    split at h
    · rcases List.mem_cons.mp h with rfl | h
      · exact List.not_mem_nil
      · exact ih h
    · next hc =>
      rw [List.modifyHead_cons] at h
      rcases List.mem_cons.mp h with rfl | h
      · have hfirst := ih List.mem_cons_self
        simp only [beq_iff_eq] at hc
        simp [Ne.symm hc, hfirst]
      · exact ih (List.mem_cons_of_mem first h)

theorem dropIdle_leads (l : List Text) : dropIdle l <+: l := List.rdropWhile_prefix isIdle l

theorem isIdle_of_getLast?_dropIdle {l : List Text} {piece : Text}
    (h : (dropIdle l).getLast? = some piece) : isIdle piece = false := by
  have hhead := List.head?_dropWhile_not isIdle l.reverse
  rw [dropIdle, List.getLast?_reverse] at h
  simpa [h] using hhead

theorem filter_dropIdle (l : List Text) :
    (dropIdle l).filter (!isIdle ·) = l.filter (!isIdle ·) := by
  have hsplit : dropIdle l ++ l.rtakeWhile isIdle = l := List.rdropWhile_append_rtakeWhile
  have hidle : (l.rtakeWhile isIdle).filter (!isIdle ·) = [] := by
    rw [List.filter_eq_nil_iff]
    intro piece hpiece
    simp [List.mem_rtakeWhile_imp hpiece]
  conv_rhs => rw [← hsplit, List.filter_append, hidle, List.append_nil]

/-- Pieces that were written with slashes between them are read again, up to idle ones. -/
theorem filter_splitOn_intercalate {l : List Text} (h : ∀ piece ∈ l, '/' ∉ piece) :
    ((['/'].intercalate l).splitOn '/').filter (!isIdle ·) = l.filter (!isIdle ·) := by
  cases l with
  | nil => rfl
  | cons piece l => rw [List.splitOn_intercalate '/' h (List.cons_ne_nil piece l)]

theorem intercalate_append {l m : List Text} (hl : l ≠ []) (hm : m ≠ []) :
    ['/'].intercalate (l ++ m) = ['/'].intercalate l ++ '/' :: ['/'].intercalate m := by
  induction l with
  | nil => exact absurd rfl hl
  | cons piece l ih =>
    cases l with
    | nil => simp [List.intercalate_cons_of_ne_nil hm]
    | cons second l =>
      rw [List.cons_append, List.intercalate_cons_of_ne_nil (by simp), ih (List.cons_ne_nil second l),
        List.intercalate_cons_cons]
      simp

/-- The first pieces of a text are written at its beginning, up to a slash or its end. -/
theorem exists_append_of_leads {l : List Text} {t : Text} (h : l <+: t.splitOn '/') :
    ∃ rest, t = ['/'].intercalate l ++ rest ∧
      (['/'].intercalate l ≠ [] → rest = [] ∨ rest.head? = some '/') := by
  obtain ⟨m, hm⟩ := h
  have ht : t = ['/'].intercalate (l ++ m) := by rw [hm, List.intercalate_splitOn]
  cases l with
  | nil => exact ⟨t, rfl, fun hne => absurd rfl hne⟩
  | cons piece l =>
    cases m with
    | nil => exact ⟨[], by simpa using ht, fun _ => .inl rfl⟩
    | cons first m =>
      rw [intercalate_append (List.cons_ne_nil piece l) (List.cons_ne_nil first m)] at ht
      exact ⟨_, ht, fun _ => .inr rfl⟩

/-! ## The protected head -/

/-- The component that a protected head stands for. -/
def ofHead : Text → List Component
  | ['/'] => [.root]
  | ['.'] => [.here]
  | _ => []

theorem head?_pieces {p : Path} {piece : Text} (h : p.pieces.head? = some piece) :
    p.text = piece ∨ ∃ rest, p.text = piece ++ '/' :: rest := by
  obtain ⟨more, hmore⟩ := List.head?_eq_some_iff.mp h
  have htext : p.text = ['/'].intercalate (piece :: more) := by
    rw [← hmore, pieces, List.intercalate_splitOn]
  cases more with
  | nil => exact .inl (by simpa using htext)
  | cons second more =>
    exact .inr ⟨['/'].intercalate (second :: more), by simp [htext, List.intercalate_cons_cons]⟩

/-- The components of a path are the one of its head, and the names in the rest. -/
theorem components_of_splitHead {p : Path} {head rest : Text} (h : p.splitHead = (head, rest)) :
    p.components =
      ofHead head ++ ((rest.splitOn '/').filter (!isIdle ·)).map .segment := by
  obtain ⟨t⟩ := p
  rw [components_eq]
  unfold splitHead at h
  split at h
  · next rest' ht =>
    obtain ⟨rfl, rfl⟩ := Prod.mk.inj h
    simp only at ht
    subst ht
    have hpieces : pieces ⟨'/' :: rest'⟩ = [] :: rest'.splitOn '/' := splitOn_append_cons [] rest'
    rw [names, hpieces]
    rfl
  · next rest' ht =>
    obtain ⟨rfl, rfl⟩ := Prod.mk.inj h
    simp only at ht
    subst ht
    have hpieces : pieces ⟨'.' :: '/' :: rest'⟩ = ['.'] :: rest'.splitOn '/' :=
      splitOn_append_cons ['.'] rest'
    have hrest : ('/' :: rest').splitOn '/' = [] :: rest'.splitOn '/' := splitOn_append_cons [] rest'
    rw [names, lead, hpieces, hrest]
    rfl
  · next ht =>
    obtain ⟨rfl, rfl⟩ := Prod.mk.inj h
    simp only at ht
    subst ht
    rfl
  · next hroot hdot hhere =>
    obtain ⟨rfl, rfl⟩ := Prod.mk.inj h
    have hlead : lead ⟨t⟩ = [] := by
      rw [lead, if_neg, if_neg]
      · intro hfirst
        rcases head?_pieces (by simpa using hfirst) with ht | ⟨more, ht⟩
        · exact hhere ht
        · exact hdot more ht
      · intro habsolute
        obtain ⟨more, ht⟩ := List.head?_eq_some_iff.mp (by simpa [isAbsolute] using habsolute)
        exact hroot more ht
    rw [hlead]
    rfl

/-- What begins a path, up to a slash or its end, is split as the path is. -/
theorem splitHead_append {p : Path} {head front rest : Text}
    (h : p.splitHead = (head, front ++ rest))
    (hends : front ≠ [] → rest = [] ∨ rest.head? = some '/') :
    splitHead ⟨head ++ front⟩ = (head, front) := by
  obtain ⟨t⟩ := p
  unfold splitHead at h
  split at h
  · obtain ⟨rfl, -⟩ := Prod.mk.inj h
    rfl
  · next rest' _ =>
    obtain ⟨rfl, htext⟩ := Prod.mk.inj h
    cases front with
    | nil => rfl
    | cons c front =>
      obtain ⟨rfl, -⟩ := List.cons.inj htext
      rfl
  · obtain ⟨rfl, htext⟩ := Prod.mk.inj h
    obtain ⟨rfl, rfl⟩ := List.append_eq_nil_iff.mp htext.symm
    rfl
  · next hroot hdot hhere =>
    obtain ⟨rfl, rfl⟩ := Prod.mk.inj h
    rw [List.nil_append]
    unfold splitHead
    split
    · next more hfront =>
      simp only at hfront
      exact absurd (by rw [hfront]; rfl) (hroot (more ++ rest))
    · next more hfront =>
      simp only at hfront
      exact absurd (by rw [hfront]; rfl) (hdot (more ++ rest))
    · next hfront =>
      simp only at hfront
      subst hfront
      rcases hends (List.cons_ne_nil _ _) with rfl | hslash
      · exact absurd rfl hhere
      · obtain ⟨more, rfl⟩ := List.head?_eq_some_iff.mp hslash
        exact absurd rfl (hdot more)
    · rfl

/-! ## Parents -/

section

variable {p : Path} {head rest name : Text} {init : List Text}

/-- The text of the parent: what is left of a path without its last name. -/
def parentText (head : Text) (init : List Text) : Text :=
  head ++ ['/'].intercalate (dropIdle init)

theorem parent?_eq_none_of_idle (h : p.splitHead = (head, rest))
    (hidle : dropIdle (rest.splitOn '/') = []) : p.parent? = none := by
  simp only [parent?, h, hidle]

theorem parent?_eq_of_concat (h : p.splitHead = (head, rest))
    (hlast : dropIdle (rest.splitOn '/') = init ++ [name]) :
    p.parent? = if (parentText head init).isEmpty then none else some ⟨parentText head init⟩ := by
  obtain ⟨first, more, hcons⟩ :=
    List.exists_cons_of_ne_nil (List.append_ne_nil_of_right_ne_nil init (List.cons_ne_nil name []))
  simp only [parent?, h, hlast, hcons]
  rw [← hcons, List.dropLast_concat]
  rfl

theorem components_of_idle (h : p.splitHead = (head, rest))
    (hidle : dropIdle (rest.splitOn '/') = []) : p.components = ofHead head := by
  rw [components_of_splitHead h, ← filter_dropIdle, hidle]
  simp

/-- A path has the components of its parent's text, then one name. -/
theorem components_of_concat (h : p.splitHead = (head, rest))
    (hlast : dropIdle (rest.splitOn '/') = init ++ [name]) :
    p.components = components ⟨parentText head init⟩ ++ [.segment name] := by
  have hinit : init <+: dropIdle (rest.splitOn '/') := ⟨[name], hlast.symm⟩
  have hleads : dropIdle init <+: rest.splitOn '/' :=
    (dropIdle_leads init).trans (hinit.trans (dropIdle_leads (rest.splitOn '/')))
  have hname : isIdle name = false := isIdle_of_getLast?_dropIdle (by rw [hlast]; simp)
  have hnoslash : ∀ piece ∈ dropIdle init, '/' ∉ piece := fun piece hpiece =>
    slash_not_mem_of_mem_splitOn (hleads.subset hpiece)
  obtain ⟨more, hrest, hends⟩ := exists_append_of_leads hleads
  have hparent : splitHead ⟨parentText head init⟩ = (head, ['/'].intercalate (dropIdle init)) :=
    splitHead_append (by rw [h, ← hrest]) hends
  rw [components_of_splitHead h, components_of_splitHead hparent,
    filter_splitOn_intercalate hnoslash, ← filter_dropIdle (rest.splitOn '/'), hlast,
    List.filter_append, filter_dropIdle]
  simp [hname]

theorem length_ofHead_le (head : Text) : (ofHead head).length ≤ 1 := by
  unfold ofHead
  split
  · exact Nat.le_refl 1
  · exact Nat.le_refl 1
  · exact Nat.zero_le 1

/-- A path has a parent and one name more than that, or it has one component at most. -/
theorem parent?_cases (p : Path) :
    (p.parent? = none ∧ p.components.length ≤ 1) ∨
      ∃ parent name, p.parent? = some parent ∧ parent.text ≠ [] ∧ isIdle name = false ∧
        '/' ∉ name ∧ p.components = parent.components ++ [.segment name] := by
  cases hsplit : p.splitHead with
  | mk head rest =>
    rcases List.eq_nil_or_concat (dropIdle (rest.splitOn '/')) with hidle | ⟨init, name, hlast⟩
    · refine .inl ⟨parent?_eq_none_of_idle hsplit hidle, ?_⟩
      rw [components_of_idle hsplit hidle]
      exact length_ofHead_le head
    · rw [List.concat_eq_append] at hlast
      have hcomponents := components_of_concat hsplit hlast
      have hmem : name ∈ dropIdle (rest.splitOn '/') := by simp [hlast]
      by_cases hempty : parentText head init = []
      · refine .inl ⟨by rw [parent?_eq_of_concat hsplit hlast, if_pos (by simp [hempty])], ?_⟩
        rw [hcomponents, hempty]
        exact Nat.le_refl 1
      · refine .inr ⟨⟨parentText head init⟩, name, ?_, hempty, ?_, ?_, hcomponents⟩
        · rw [parent?_eq_of_concat hsplit hlast, if_neg (by simpa using hempty)]
        · exact isIdle_of_getLast?_dropIdle (by rw [hlast]; simp)
        · exact slash_not_mem_of_mem_splitOn ((dropIdle_leads _).subset hmem)

end

theorem components_eq_nil_iff {p : Path} : p.components = [] ↔ p.text = [] := by
  constructor
  · intro h
    rw [components_eq, List.append_eq_nil_iff, List.map_eq_nil_iff] at h
    obtain ⟨hlead, hnames⟩ := h
    obtain ⟨piece, more, hpieces⟩ := List.exists_cons_of_ne_nil p.pieces_ne_nil
    have hfirst : p.pieces.head? = some piece := by rw [hpieces, List.head?_cons]
    have hidle : piece = [] ∨ piece = ['.'] := by
      rw [names, hpieces, List.filter_eq_nil_iff] at hnames
      simpa [isIdle, or_iff_not_imp_left] using hnames piece List.mem_cons_self
    rw [lead, hfirst] at hlead
    rcases hidle with rfl | rfl
    · rcases head?_pieces hfirst with htext | ⟨rest, htext⟩
      · exact htext
      · simp [isAbsolute, htext] at hlead
    · split at hlead <;> cases hlead
  · intro h
    simp [components, isAbsolute, h, isIdle]

theorem exists_of_parent? {p parent : Path} (h : p.parent? = some parent) :
    parent.text ≠ [] ∧ ∃ name, isIdle name = false ∧ '/' ∉ name ∧
      p.components = parent.components ++ [.segment name] := by
  rcases p.parent?_cases with ⟨hnone, -⟩ | ⟨parent', name, hparent, hne, hname⟩
  · rw [hnone] at h
    cases h
  · obtain rfl := Option.some.inj (h.symm.trans hparent)
    exact ⟨hne, name, hname⟩

/-- Exactly the paths with two components or more have a parent. -/
theorem parent?_eq_none_iff {p : Path} : p.parent? = none ↔ p.components.length ≤ 1 := by
  rcases p.parent?_cases with ⟨hnone, hle⟩ | ⟨parent, name, hparent, hne, -, -, hcomponents⟩
  · exact ⟨fun _ => hle, fun _ => hnone⟩
  · have hpos := List.length_pos_of_ne_nil (mt components_eq_nil_iff.mp hne)
    rw [hparent, hcomponents, List.length_append, List.length_singleton]
    constructor
    · intro h
      cases h
    · intro h
      omega

/-- Behind a base, a name is one component more. -/
theorem components_join_name {base : Path} {name : Text} (hbase : base.text ≠ [])
    (hidle : isIdle name = false) (hslash : '/' ∉ name) :
    (base.join ⟨name⟩).components = base.components ++ [.segment name] := by
  have hrelative : isAbsolute ⟨name⟩ = false := by
    simp only [isAbsolute, beq_eq_false_iff_ne]
    exact fun hhead => hslash (List.mem_of_head? hhead)
  have hnames : names ⟨name⟩ = [name] := by
    rw [names, pieces, List.splitOn_eq_singleton hslash]
    simp [hidle]
  rw [components_join hbase hrelative, withoutHere_components hrelative, hnames]
  rfl

end Path

/-- **Includes are taken from beside the input file.** If the path of the input file names a
directory, which it does if it has more than one component, the base has the components of the path
without the last one. Joined with the last one, which is a name, it is the path again, and what is
requested by a relative path is found behind its components. Any other path leaves the current
directory as the base. -/
theorem Settings.forInput_parent (current p : Path) :
    let base := (Settings.forInput current (some p)).base
    (∀ parent, p.parent? = some parent →
      base = parent ∧ base.text ≠ [] ∧ base.components = p.components.dropLast ∧
      (∃ name, p.components.getLast? = some (.segment name) ∧
        (base.join ⟨name⟩).same p = true) ∧
      ∀ (tree : FileTree) (place : Place) (requested : Text), Path.isAbsolute ⟨requested⟩ = false →
        ((tree.source place base).resolve requested).components =
          p.components.dropLast ++ Component.withoutHere (Path.components ⟨requested⟩)) ∧
    (p.parent? = none → base = current) ∧
    (p.parent? = none ↔ p.components.length ≤ 1) := by
  intro base
  refine ⟨?_, ?_, Path.parent?_eq_none_iff⟩
  · intro parent hparent
    obtain ⟨hne, name, hidle, hslash, hcomponents⟩ := Path.exists_of_parent? hparent
    have hbase : base = parent := by
      simp only [base, Settings.forInput, Option.bind_some, hparent, Option.getD_some]
    have hfront : base.components = p.components.dropLast := by
      rw [hbase, hcomponents, List.dropLast_concat]
    rw [← hbase] at hne hcomponents
    refine ⟨hbase, hne, hfront, ⟨name, ?_, ?_⟩, ?_⟩
    · rw [hcomponents, List.getLast?_concat]
    · rw [Path.same, Path.components_join_name hne hidle hslash, hcomponents, beq_self_eq_true]
    · intro tree place requested hrelative
      rw [← hfront]
      exact Path.components_join hne hrelative
  · intro hnone
    simp only [base, Settings.forInput, Option.bind_some, hnone, Option.getD_none]

theorem Settings.forInput_parent_respelled :
    let p : Path := ⟨"./a//.././b.md/.".toList⟩
    let base := (Settings.forInput ⟨"/home".toList⟩ (some p)).base
    base.text = "./a//..".toList ∧ base.components = p.components.dropLast ∧
      ((FileTree.empty.source [] base).resolve "./c/d".toList).components =
        [.here, .segment ['a'], .segment ['.', '.'], .segment ['c'], .segment ['d']] := by
  intro p base
  have hparent : p.parent? = some ⟨"./a//..".toList⟩ := by decide
  obtain ⟨hbase, -, hfront, -, hresolve⟩ :=
    (Settings.forInput_parent ⟨"/home".toList⟩ p).1 ⟨"./a//..".toList⟩ hparent
  refine ⟨congrArg Path.text hbase, hfront, ?_⟩
  rw [hresolve FileTree.empty [] "./c/d".toList (by decide)]
  decide

end DocSplice
