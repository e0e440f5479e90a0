import DocSplice.Proofs.Halting
import DocSplice.Proofs.Lookup

/-!
# DocSplice.Proofs.Storage

Included files may be taken from a tree of files or from a shelf that holds the same documents. A
tree is walked step by step, and a shelf compares the names of paths; both find the same.

* `FileTree.Named`, `FileTree.Lists`: trees whose entries have names of files, and the documents of a
  tree.
* `FileTree.read_eq_ok_iff`: what a path leads to. On the way to an entry there are directories
  only, so a path that ends in a name finds a file if its names do.
* `Shelf.find?_holding_iff`: a shelf that holds the documents of a tree finds those by their names.
* `ofText_source_eq_holding`: runs over the two sources are the same.
-/

namespace DocSplice

/-! ## Trees -/

namespace FileTree

/-- The entries of the tree have names of files. -/
def Named (t : FileTree) : Prop :=
  ∀ name place, (t.find? (name :: place)).isSome = true → IsFileName name

/-- The documents are those of the tree, each with its place. Every file is a text. -/
structure Lists (t : FileTree) (files : List (Place × Text)) : Prop where
  mem_iff : ∀ place text, (place, text) ∈ files ↔ t.find? place = some (.file text.encode)
  isText : ∀ place contents, t.find? place = some (.file contents) →
    ∃ text : Text, contents = text.encode

section

variable {t : FileTree} {place : Place}

theorem find?_of_append {l : List Text} (hl : l ≠ []) (h : (t.find? (l ++ place)).isSome = true) :
    t.find? place = some .directory := by
  induction l with
  | nil => exact absurd rfl hl
  | cons name l ih =>
    have hup : t.find? (l ++ place) = some .directory := t.closed name (l ++ place) h
    by_cases hnil : l = []
    · subst hnil
      exact hup
    · exact ih hnil (by rw [hup]; rfl)

theorem Named.of_mem (ht : t.Named) (h : (t.find? place).isSome = true) {name : Text}
    (hname : name ∈ place) : IsFileName name := by
  obtain ⟨l, up, rfl⟩ := List.append_of_mem hname
  cases l with
  | nil => exact ht name up h
  | cons n l =>
    refine ht name up ?_
    rw [find?_of_append (List.cons_ne_nil n l) h]
    rfl

/-! ## Following a path -/

theorem advance_of_isIdle {piece : Text} (h : Path.isIdle piece = true) :
    place.advance piece = place := by
  rw [Place.advance, if_pos h]

theorem advance_of_leads {piece : Text} (h : Path.isIdle piece = false) (hup : piece ≠ ['.', '.']) :
    place.advance piece = piece :: place := by
  rw [Place.advance, if_neg (by simp [h]), if_neg (by simpa using hup)]

/-- The names among pieces, from the last one. -/
def namesAbove (pieces : List Text) : Place := (pieces.filter (!Path.isIdle ·)).reverse

theorem namesAbove_cons (piece : Text) (pieces : List Text) (hup : piece ≠ ['.', '.']) :
    namesAbove (piece :: pieces) ++ place = namesAbove pieces ++ place.advance piece := by
  cases hidle : Path.isIdle piece with
  | true => simp [namesAbove, hidle, advance_of_isIdle hidle]
  | false => simp [namesAbove, hidle, advance_of_leads hidle hup]

theorem namesAbove_ne_nil {pieces : List Text} {piece : Text} (h : piece ∈ pieces)
    (hleads : Path.isIdle piece = false) : namesAbove pieces ≠ [] := by
  have hmem : piece ∈ namesAbove pieces := by simp [namesAbove, h, hleads]
  exact List.ne_nil_of_mem hmem

theorem foldl_advance {pieces : List Text} (h : ['.', '.'] ∉ pieces) :
    pieces.foldl Place.advance place = namesAbove pieces ++ place := by
  induction pieces generalizing place with
  | nil => rfl
  | cons piece pieces ih =>
    rw [List.mem_cons, not_or] at h
    rw [List.foldl_cons, ih h.2, namesAbove_cons piece pieces (Ne.symm h.1)]

theorem enter_eq_ok_iff {piece : Text} {next : Place} :
    t.enter place piece = .ok next ↔
      t.find? place = some .directory ∧ piece.byteSize ≤ nameLimit ∧
        (t.find? (place.advance piece)).isSome = true ∧ next = place.advance piece := by
  unfold enter
  cases t.find? place with
  | none => simp
  | some entry =>
    cases entry with
    | file contents => simp
    | directory =>
      by_cases hlong : nameLimit < piece.byteSize
      · simp [hlong, Nat.not_le.mpr hlong]
      · cases hnext : t.find? (place.advance piece) with
        | none => simp [hlong]
        | some next => simp [hlong, Nat.not_lt.mp hlong, eq_comm]

theorem eq_of_foldlM_enter_eq_ok {pieces : List Text} {last : Place}
    (h : pieces.foldlM t.enter place = .ok last) : last = pieces.foldl Place.advance place := by
  induction pieces generalizing place with
  | nil =>
    cases h
    rfl
  | cons piece pieces ih =>
    rw [List.foldlM_cons] at h
    cases hnext : t.enter place piece with
    | error e => rw [hnext] at h; cases h
    | ok next =>
      rw [hnext] at h
      obtain ⟨-, -, -, rfl⟩ := enter_eq_ok_iff.mp hnext
      exact ih h

theorem short_of_isIdle {piece : Text} (h : Path.isIdle piece = true) :
    piece.byteSize ≤ nameLimit := by
  simp only [Path.isIdle, Bool.or_eq_true, beq_iff_eq] at h
  rcases h with rfl | rfl <;> decide

/-- Pieces that end in a name lead to an entry if there is one behind their names. -/
theorem foldlM_enter_eq_ok (ht : t.Named) {pieces : List Text} (hup : ['.', '.'] ∉ pieces)
    (hlast : ∀ piece, pieces.getLast? = some piece → Path.isIdle piece = false)
    (h : (t.find? (namesAbove pieces ++ place)).isSome = true) :
    pieces.foldlM t.enter place = .ok (namesAbove pieces ++ place) := by
  induction pieces generalizing place with
  | nil => rfl
  | cons piece pieces ih =>
    rw [List.mem_cons, not_or] at hup
    have hnames := @namesAbove_cons place piece pieces (Ne.symm hup.1)
    have hplace : t.find? place = some .directory := by
      obtain ⟨last, hmem⟩ : ∃ last, (piece :: pieces).getLast? = some last :=
        ⟨_, List.getLast?_eq_some_getLast (List.cons_ne_nil piece pieces)⟩
      exact find?_of_append (namesAbove_ne_nil (List.mem_of_getLast? hmem) (hlast last hmem)) h
    have hshort : piece.byteSize ≤ nameLimit := by
      cases hidle : Path.isIdle piece with
      | true => exact short_of_isIdle hidle
      | false => exact (ht.of_mem h (by simp [namesAbove, hidle])).short
    rw [hnames] at h ⊢
    have hnext : (t.find? (place.advance piece)).isSome = true := by
      by_cases hnil : namesAbove pieces = []
      · rwa [hnil] at h
      · rw [find?_of_append hnil h]
        rfl
    rw [List.foldlM_cons, enter_eq_ok_iff.mpr ⟨hplace, hshort, hnext, rfl⟩]
    refine ih hup.2 ?_ h
    intro last hmem
    refine hlast last ?_
    cases pieces with
    | nil => cases hmem
    | cons q pieces => rwa [List.getLast?_cons_cons]

/-! ## Reading -/

end

/-- A path that leads downwards from the root, ends in a name and is not too long. -/
structure Opens (p : Path) : Prop where
  absolute : p.isAbsolute = true
  direct : ['.', '.'] ∉ p.pieces
  named : ∀ piece, p.pieces.getLast? = some piece → Path.isIdle piece = false
  short : p.text.byteSize ≤ pathLimit

section

variable {t : FileTree} {current : Place} {p : Path}

theorem route_eq_ok_iff {pieces : List Text} :
    route p = .ok pieces ↔
      p.text.isEmpty = false ∧ p.text.byteSize ≤ pathLimit ∧ pieces = p.pieces := by
  unfold route
  cases p.text.isEmpty with
  | true => simp
  | false =>
    by_cases hlong : pathLimit < p.text.byteSize
    · simp [hlong, Nat.not_le.mpr hlong]
    · simp [hlong, Nat.not_lt.mp hlong, Path.pieces, eq_comm]

theorem locate_of_opens (hp : Opens p) :
    t.locate current p = p.pieces.foldlM t.enter [] := by
  have hne : p.text.isEmpty = false := by
    cases htext : p.text with
    | nil => have h := hp.absolute; simp [Path.isAbsolute, htext] at h
    | cons c text => rfl
  rw [locate, route_eq_ok_iff.mpr ⟨hne, hp.short, rfl⟩]
  simp only [follow, Path.origin, hp.absolute]
  rfl

theorem namesAbove_pieces (p : Path) : namesAbove p.pieces = p.names.reverse := rfl

theorem read_eq_ok_iff (ht : t.Named) (hp : Opens p) {contents : ByteArray} :
    t.read current p = .ok contents ↔ t.find? p.names.reverse = some (.file contents) := by
  rw [read, locate_of_opens hp]
  constructor
  · intro h
    cases hplace : p.pieces.foldlM t.enter [] with
    | error e => rw [hplace] at h; cases h
    | ok place =>
      have hnames : place = p.names.reverse := by
        rw [eq_of_foldlM_enter_eq_ok hplace, foldl_advance hp.direct, List.append_nil,
          namesAbove_pieces]
      rw [hplace, hnames] at h
      dsimp only at h
      split at h
      · next hfile => rw [hfile, Except.ok.inj h]
      · cases h
      · cases h
  · intro h
    have hfound : (t.find? (namesAbove p.pieces ++ [])).isSome = true := by
      rw [List.append_nil, namesAbove_pieces, h]
      rfl
    rw [foldlM_enter_eq_ok ht hp.direct hp.named hfound, List.append_nil, namesAbove_pieces]
    dsimp only
    rw [h]

/-- What the source of a tree finds: a file that the names of the path lead to. -/
theorem read_source_eq_present_iff {base : Path} {files : List (Place × Text)} (ht : t.Named)
    (hfiles : t.Lists files) (hp : Opens p) {text : Text} :
    (t.source current base).read p = .present text ↔
      t.find? p.names.reverse = some (.file text.encode) := by
  rw [← @read_eq_ok_iff t current p ht hp]
  simp only [source, readText]
  cases hread : t.read current p with
  | error e => cases e <;> simp
  | ok contents =>
    obtain ⟨u, rfl⟩ := hfiles.isText _ _ ((read_eq_ok_iff ht hp).mp hread)
    simp [Text.encode_inj]

theorem enter_ne_notText (place : Place) (piece : Text) : t.enter place piece ≠ .error .notText := by
  unfold enter
  split
  · nofun
  · nofun
  · split
    · nofun
    split <;> nofun

theorem foldlM_enter_ne_notText (pieces : List Text) (place : Place) :
    pieces.foldlM t.enter place ≠ .error .notText := by
  induction pieces generalizing place with
  | nil => nofun
  | cons piece pieces ih =>
    rw [List.foldlM_cons]
    cases hnext : t.enter place piece with
    | error e =>
      rintro ⟨⟩
      exact enter_ne_notText place piece hnext
    | ok next => exact ih next

theorem read_ne_notText (hp : Opens p) : t.read current p ≠ .error .notText := by
  rw [read, locate_of_opens hp]
  cases hplace : p.pieces.foldlM t.enter [] with
  | error e =>
    rintro ⟨⟩
    exact foldlM_enter_ne_notText p.pieces [] hplace
  | ok place =>
    dsimp only
    split <;> nofun

theorem read_source_ne_failed {base : Path} {files : List (Place × Text)} (ht : t.Named)
    (hfiles : t.Lists files) (hp : Opens p) (reason : Text) :
    (t.source current base).read p ≠ .failed reason := by
  simp only [source, readText]
  cases hread : t.read current p with
  | error e =>
    cases e with
    | notText => exact absurd hread (read_ne_notText hp)
    | _ => nofun
  | ok contents =>
    obtain ⟨u, rfl⟩ := hfiles.isText _ _ ((read_eq_ok_iff ht hp).mp hread)
    simp

end

end FileTree

/-! ## Shelves -/

/-- The shelf to which documents were added under the paths of their places. -/
def Shelf.holding (base : Path) (files : List (Place × Text)) : Shelf :=
  files.foldl (fun s file => s.add file.1.path.text file.2) { base }

namespace Shelf

theorem holding_eq (base : Path) (files : List (Place × Text)) :
    holding base files = ⟨base, (files.map fun file => (file.1.path, file.2)).reverse⟩ := by
  have hstocked : holding base files =
      stocked base (files.map fun file => (file.1.path.text, file.2)) := by
    rw [holding, stocked, List.foldl_map]
  have hjoin : ∀ place : Place, base.join ⟨place.path.text⟩ = place.path :=
    fun place => Path.join_of_isAbsolute base place.isAbsolute_path
  rw [hstocked, stocked_eq, List.map_map]
  simp [hjoin]

variable {t : FileTree} {files : List (Place × Text)} {base p : Path}

/-- A shelf that holds the documents of a tree finds those that the names of a path lead to. -/
theorem find?_holding_iff (ht : t.Named) (hfiles : t.Lists files) (hp : p.isAbsolute = true)
    {text : Text} :
    (holding base files).find? p = some text ↔
      t.find? p.names.reverse = some (.file text.encode) := by
  have hsame : ∀ place contents, (place, contents) ∈ files →
      (place.path.same p = true ↔ place = p.names.reverse) := by
    intro place contents hmem
    have hplace : (t.find? place).isSome = true := by
      rw [(hfiles.mem_iff place contents).mp hmem]
      rfl
    rw [Path.same_iff_of_isAbsolute place.isAbsolute_path hp,
      Place.names_path fun name hname => ht.of_mem hplace hname, List.reverse_eq_iff]
  have hfind : ∀ q contents, ((files.map fun file => (file.1.path, file.2)).reverse.find?
      fun entry => entry.1.same p) = some (q, contents) →
      (p.names.reverse, contents) ∈ files := by
    intro q contents h
    obtain ⟨place, hmem, rfl⟩ : ∃ place, (place, contents) ∈ files ∧ place.path = q := by
      have hmem := List.mem_of_find?_eq_some h
      simp only [List.mem_reverse, List.mem_map, Prod.mk.injEq, Prod.exists] at hmem
      obtain ⟨place, contents', hmem, hq, rfl⟩ := hmem
      exact ⟨place, hmem, hq⟩
    have hentry : place.path.same p = true := by simpa using List.find?_some h
    rwa [← (hsame place contents hmem).mp hentry]
  rw [← hfiles.mem_iff, holding_eq, find?]
  constructor
  · intro h
    obtain ⟨⟨q, contents⟩, hentry, rfl⟩ := Option.map_eq_some_iff.mp h
    exact hfind q contents hentry
  · intro hmem
    cases hentry : (files.map fun file => (file.1.path, file.2)).reverse.find?
        fun entry => entry.1.same p with
    | none =>
      have hplace : (Place.path p.names.reverse, text) ∈
          (files.map fun file => (file.1.path, file.2)).reverse := by
        rw [List.mem_reverse, List.mem_map]
        exact ⟨_, hmem, rfl⟩
      exact absurd ((hsame _ _ hmem).mpr rfl) (List.find?_eq_none.mp hentry _ hplace)
    | some entry =>
      obtain ⟨q, contents⟩ := entry
      have hfound := (hfiles.mem_iff _ _).mp (hfind q contents hentry)
      rw [(hfiles.mem_iff _ _).mp hmem] at hfound
      simp only [Option.some.injEq, Entry.file.injEq, Text.encode_inj] at hfound
      rw [Option.map_some, hfound]

theorem read_source_eq_present_iff {text : Text} (s : Shelf) :
    s.source.read p = .present text ↔ s.find? p = some text := by
  simp only [source]
  cases s.find? p <;> simp

theorem read_source_ne_failed (s : Shelf) (reason : Text) : s.source.read p ≠ .failed reason := by
  simp only [source]
  cases s.find? p <;> simp

end Shelf

/-! ## Both find the same -/

theorem Reading.eq_of_present_iff {r r' : Reading}
    (h : ∀ text, r = .present text ↔ r' = .present text) (hr : ∀ reason, r ≠ .failed reason)
    (hr' : ∀ reason, r' ≠ .failed reason) : r = r' := by
  cases r with
  | present text => exact ((h text).mp rfl).symm
  | failed reason => exact absurd rfl (hr reason)
  | absent =>
    cases r' with
    | present text => exact (h text).mpr rfl
    | failed reason => exact absurd rfl (hr' reason)
    | absent => rfl

/-- A path that an inclusion may ask for: relative, without double dots, and with a name at its end. -/
structure Path.IsPlain (p : Path) : Prop where
  relative : p.isAbsolute = false
  direct : ['.', '.'] ∉ p.pieces
  named : ∀ piece, p.pieces.getLast? = some piece → Path.isIdle piece = false

theorem Path.IsPlain.opens_join {base p : Path} (hp : p.IsPlain) (hbase : base.isAbsolute = true)
    (hdirect : ['.', '.'] ∉ base.pieces)
    (hshort : (base.join p).text.byteSize ≤ FileTree.pathLimit) :
    FileTree.Opens (base.join p) := by
  obtain ⟨lead, hpieces, -, hsub, -⟩ :=
    Path.exists_pieces_join (Path.text_ne_nil_of_isAbsolute hbase) hp.relative
  refine ⟨Path.isAbsolute_join hbase p, ?_, ?_, hshort⟩
  · rw [hpieces, List.mem_append, not_or]
    exact ⟨fun h => hdirect (hsub h), hp.direct⟩
  · rw [hpieces, List.getLast?_append_of_ne_nil _ p.pieces_ne_nil]
    exact hp.named

theorem FileTree.read_source_eq_holding {t : FileTree} {files : List (Place × Text)}
    (ht : t.Named) (hfiles : t.Lists files) (current : Place) {base p : Path} (hp : Opens p) :
    (t.source current base).read p = (Shelf.holding base files).source.read p := by
  refine Reading.eq_of_present_iff ?_ (read_source_ne_failed ht hfiles hp)
    (Shelf.read_source_ne_failed _)
  intro text
  rw [read_source_eq_present_iff ht hfiles hp, Shelf.read_source_eq_present_iff,
    Shelf.find?_holding_iff ht hfiles hp.absolute]

theorem Run.ofText_agree {source source' : IncludeSource} {t : Text}
    (h : source.AgreesOn source' t.spans) (predefined : List (Text × Text)) :
    ofText source' predefined t = ofText source predefined t := by
  have hsteps := Progress.steps_agree h (l := t.segments) (p := .seeded predefined) ?_
  · rw [ofText, ofText, hsteps]
  · intro body hbody
    obtain ⟨s, hs, hinner, -⟩ := @Span.exists_mem_collect 0 _ _ hbody
    rw [← Span.spans_eq_collect] at hs
    exact ⟨s, hs, hinner⟩

/-! ## A tree with one file -/

/-- The tree with one file, in a directory of its own. -/
def FileTree.single (directory name : Text) (contents : ByteArray) : FileTree :=
  (empty.set directory [] .directory).set name [directory] (.file contents)

theorem FileTree.find?_single (directory name : Text) (contents : ByteArray) (place : Place) :
    (single directory name contents).find? place =
      if place = [name, directory] then some (.file contents)
      else if place = [directory] ∨ place = [] then some .directory
      else none := by
  have hempty : ∀ place : Place, empty.find? place = if place = [] then some .directory else none := by
    intro place
    cases place <;> simp [find?, empty, Place.find?]
  have hdirectory : ∀ place : Place, (empty.set directory [] .directory).find? place =
      if place = [directory] ∨ place = [] then some .directory else none := by
    intro place
    rw [find?_set _ _ _ _ _ (by simp [hempty]), hempty]
    by_cases h : place = [directory] <;> simp [h]
  rw [single, find?_set _ _ _ _ _ (by simp [hdirectory]), hdirectory]

theorem FileTree.named_single {directory name : Text} (hdirectory : IsFileName directory)
    (hname : IsFileName name) (contents : ByteArray) :
    (single directory name contents).Named := by
  intro n place h
  rw [find?_single] at h
  split at h
  · next he => rwa [(List.cons.inj he).1]
  split at h
  · next he =>
    rcases he with he | he
    · rwa [(List.cons.inj he).1]
    · cases he
  · cases h

theorem FileTree.lists_single (directory name text : Text) :
    (single directory name text.encode).Lists [([name, directory], text)] := by
  constructor
  · intro place text'
    rw [find?_single]
    split
    · next h => simp [h, Text.encode_inj, eq_comm]
    split <;> simp [*]
  · intro place contents h
    rw [find?_single] at h
    split at h
    · next => exact ⟨text, by simpa using h.symm⟩
    split at h
    · cases h
    · cases h

/-! ## Runs over both -/

/-- The path that a span asks to include. -/
def Span.inclusion? (s : Span) : Option Text :=
  match Directive.ofText? s.inner with
  | some (.inclusion path) => some path
  | _ => none

theorem Span.inclusion?_eq_some {s : Span} {path : Text}
    (h : Directive.ofText? s.inner = some (.inclusion path)) : s.inclusion? = some path := by
  rw [inclusion?, h]

/-- The paths that a document asks to include. -/
def Text.inclusions (t : Text) : List Text := t.spans.filterMap Span.inclusion?

/-- **A tree of files and a shelf that holds its documents are the same to a run,** if the document
asks to include relative paths without double dots that end in a name, and none of them leads to a
path that is too long to be opened. -/
theorem ofText_source_eq_holding {t : FileTree} {files : List (Place × Text)} (ht : t.Named)
    (hfiles : t.Lists files) (current : Place) {base : Path} (hbase : base.isAbsolute = true)
    (hdirect : ['.', '.'] ∉ base.pieces) (predefined : List (Text × Text)) (document : Text)
    (hplain : ∀ path ∈ document.inclusions, Path.IsPlain ⟨path⟩)
    (hshort : ∀ path ∈ document.inclusions,
      (base.join ⟨path⟩).text.byteSize ≤ FileTree.pathLimit) :
    Run.ofText (t.source current base) predefined document =
      Run.ofText (Shelf.holding base files).source predefined document := by
  have hbase' : (Shelf.holding base files).base = base := by rw [Shelf.holding_eq]
  refine Run.ofText_agree ⟨?_, ?_⟩ predefined
  · funext requested
    simp only [FileTree.source, Shelf.source, hbase']
  · intro s hs path hpath
    have hmem : path ∈ document.inclusions :=
      List.mem_filterMap.mpr ⟨s, hs, Span.inclusion?_eq_some hpath⟩
    have hopens := (hplain path hmem).opens_join hbase hdirect (hshort path hmem)
    simp only [Shelf.source, hbase']
    exact FileTree.read_source_eq_holding ht hfiles current hopens

theorem ofText_source_eq_holding_nested :
    let t := FileTree.single ['d'] ['a'] (Text.encode ['x'])
    let files : List (Place × Text) := [([['a'], ['d']], ['x'])]
    let base : Path := ⟨"/./d/".toList⟩
    let document : Text := "{% include .//./a %}".toList
    t.Named ∧ t.Lists files ∧ base.isAbsolute = true ∧ ['.', '.'] ∉ base.pieces ∧
      (∀ path ∈ document.inclusions, Path.IsPlain ⟨path⟩) ∧
      (∀ path ∈ document.inclusions,
        (base.join ⟨path⟩).text.byteSize ≤ FileTree.pathLimit) ∧
      Run.ofText (t.source [] base) [] document =
        Run.ofText (Shelf.holding base files).source [] document ∧
      (Run.ofText (Shelf.holding base files).source [] document).result = .ok ⟨['x'], .none, 1⟩ := by
  intro t files base document
  have hd : IsFileName ['d'] := ⟨rfl, by decide, by decide, by decide, by decide⟩
  have ha : IsFileName ['a'] := ⟨rfl, by decide, by decide, by decide, by decide⟩
  have hnamed : t.Named := FileTree.named_single hd ha _
  have hfiles : t.Lists files := FileTree.lists_single _ _ _
  have hdirect : ['.', '.'] ∉ base.pieces := by decide
  have hinclusions : document.inclusions = [".//./a".toList] := by rfl
  have hplain : ∀ path ∈ document.inclusions, Path.IsPlain ⟨path⟩ := by
    intro path hpath
    rw [hinclusions] at hpath
    obtain rfl := List.mem_singleton.mp hpath
    refine ⟨rfl, by decide, ?_⟩
    intro piece hpiece
    obtain rfl : ['a'] = piece := Option.some.inj hpiece
    rfl
  have hshort : ∀ path ∈ document.inclusions,
      (base.join ⟨path⟩).text.byteSize ≤ FileTree.pathLimit := by
    intro path hpath
    rw [hinclusions] at hpath
    obtain rfl := List.mem_singleton.mp hpath
    decide
  exact ⟨hnamed, hfiles, rfl, hdirect, hplain, hshort,
    ofText_source_eq_holding hnamed hfiles [] rfl hdirect [] document hplain hshort, by rfl⟩

theorem Run.result_inclusion (source : IncludeSource) :
    (Run.ofText source [] "{% include a %}".toList).result =
      match source.read (source.resolve ['a']) with
      | .present contents => .ok ⟨Marker.unescape contents, Bindings.none, 1⟩
      | .absent => .error (.unresolvedInclude ['a'] (source.resolve ['a']) ⟨1, 1⟩)
      | .failed reason => .error (.unreadable (source.resolve ['a']) reason) := by
  have hsegments : Text.segments "{% include a %}".toList = [.directive " include a ".toList] := by
    rfl
  have hd : Directive.ofText? (Text.trim " include a ".toList) = some (.inclusion ['a']) := by rfl
  rw [ofText, hsegments, Progress.steps_cons]
  simp only [Progress.step, hd, Evaluation.of, Directive.evaluate]
  cases source.read (source.resolve ['a']) with
  | present contents =>
    simp [Except.bind, Progress.steps, pure, Except.pure, Progress.seeded, ofOutcome]
  | absent => rfl
  | failed reason => rfl

theorem FileTree.read_source_of_long {t : FileTree} {current : Place} {base p : Path}
    (h : pathLimit < p.text.byteSize) : (t.source current base).read p = .absent := by
  have hne : p.text.isEmpty = false := by
    cases htext : p.text with
    | nil => simp [htext] at h
    | cons c text => rfl
  simp only [source, readText, read, locate, route, hne, if_pos h]
  rfl

theorem Text.byteSize_replicate (n : Nat) (c : Char) :
    byteSize (List.replicate n c) = n * c.utf8Size := by
  induction n with
  | zero => simp
  | succ n ih => rw [List.replicate_succ, byteSize_cons, ih, Nat.succ_mul, Nat.add_comm]

/-- The directory `d`, with slashes behind it. -/
def slashed (n : Nat) : Path := ⟨"/d/.".toList ++ List.replicate n '/'⟩

theorem pieces_slashed (n : Nat) :
    (slashed n).pieces = [[], ['d'], ['.']] ++ List.replicate n [] :=
  Path.splitOn_append_replicate "/d/.".toList n

theorem names_slashed (n : Nat) : (slashed n).names = [['d']] := by
  rw [Path.names, pieces_slashed, List.filter_append, List.filter_replicate]
  rfl

theorem byteSize_slashed (n : Nat) : (slashed n).text.byteSize = 4 + n := by
  rw [slashed, Text.byteSize_append, Text.byteSize_replicate]
  change 4 + n * 1 = 4 + n
  rw [Nat.mul_one]

theorem byteSize_le_join (base p : Path) (hp : p.isAbsolute = false) :
    base.text.byteSize ≤ (base.join p).text.byteSize := by
  rw [Path.join, if_neg (by simp [hp])]
  split <;> simp

/-- On disk, a path that is too long leads nowhere, also where its names lead to a file. -/
theorem ofText_source_ne_holding_of_long :
    let t := FileTree.single ['d'] ['a'] (Text.encode ['x'])
    let files : List (Place × Text) := [([['a'], ['d']], ['x'])]
    let base := slashed 4096
    let document : Text := "{% include a %}".toList
    t.Named ∧ t.Lists files ∧ base.isAbsolute = true ∧ ['.', '.'] ∉ base.pieces ∧
      (∀ path ∈ document.inclusions, Path.IsPlain ⟨path⟩) ∧
      (Run.ofText (Shelf.holding base files).source [] document).result = .ok ⟨['x'], .none, 1⟩ ∧
      (Run.ofText (t.source [] base) [] document).result =
        .error (.unresolvedInclude ['a'] (base.join ⟨['a']⟩) ⟨1, 1⟩) := by
  have hlong : FileTree.pathLimit < (slashed 4096).text.byteSize := by
    rw [byteSize_slashed]
    decide
  have habsolute : (slashed 4096).isAbsolute = true := rfl
  have hdirect : ['.', '.'] ∉ (slashed 4096).pieces := by
    rw [pieces_slashed, List.mem_append, List.mem_replicate]
    decide
  have hnames := names_slashed 4096
  generalize slashed 4096 = base at hlong habsolute hdirect hnames ⊢
  intro t files base document
  have hd : IsFileName ['d'] := ⟨rfl, by decide, by decide, by decide, by decide⟩
  have ha : IsFileName ['a'] := ⟨rfl, by decide, by decide, by decide, by decide⟩
  have hnamed : t.Named := FileTree.named_single hd ha _
  have hfiles : t.Lists files := FileTree.lists_single _ _ _
  have hshelf : (Shelf.holding base files).find? (base.join ⟨['a']⟩) = some ['x'] := by
    have hjoin : (base.join ⟨['a']⟩).names = [['d'], ['a']] := by
      rw [Path.names_join habsolute rfl, hnames]
      rfl
    rw [Shelf.find?_holding_iff hnamed hfiles (Path.isAbsolute_join habsolute _), hjoin]
    exact (hfiles.mem_iff _ _).mp (List.mem_singleton.mpr rfl)
  have hdisk : (t.source [] base).read (base.join ⟨['a']⟩) = .absent :=
    FileTree.read_source_of_long (Nat.lt_of_lt_of_le hlong (byteSize_le_join base ⟨['a']⟩ rfl))
  refine ⟨hnamed, hfiles, habsolute, hdirect, ?_, ?_, ?_⟩
  · have hinclusions : document.inclusions = [['a']] := by rfl
    intro path hpath
    rw [hinclusions] at hpath
    obtain rfl := List.mem_singleton.mp hpath
    refine ⟨rfl, by decide, ?_⟩
    intro piece hpiece
    obtain rfl : ['a'] = piece := Option.some.inj hpiece
    rfl
  · have hresolve : (Shelf.holding base files).source.resolve ['a'] = base.join ⟨['a']⟩ := by
      simp only [Shelf.source, Shelf.holding_eq]
    rw [Run.result_inclusion, hresolve, (Shelf.read_source_eq_present_iff _).mpr hshelf]
    rfl
  · have hresolve : (t.source [] base).resolve ['a'] = base.join ⟨['a']⟩ := rfl
    rw [Run.result_inclusion, hresolve, hdisk]

end DocSplice
