import DocSplice.Alphanumeric
import DocSplice.Encoding
import DocSplice.Environment

/-!
# DocSplice.Dotenv

Files that set variables of the environment, one `KEY=VALUE` to an entry.

* `Dotenv.lines`: the lines of a file, up to the first that is no text.
* `Dotenv.entries`: lines put together. An entry goes on behind a line that leaves a quotation or
  an escape open, or that leaves a single blank at the end of the file.
* `Dotenv.Template`: a value as a file gives it, in which variables are referred to by their names;
  `Template.text` is what it stands for in an environment.
* `Dotenv.Value.read?`: the value that an entry gives, with quotations, escapes and references.
* `Dotenv.settings`: the settings of a file, which the first malformed entry ends.
* `Dotenv.references`: the variables that the settings refer to.
* `Dotenv.load`: an environment with the settings of a file. A variable that is set already keeps
  its value.
-/

namespace DocSplice
namespace Dotenv

/-! ## Lines -/

def byteOrderMark : List UInt8 := [0xEF, 0xBB, 0xBF]

/-- Texts of the pieces between line feeds, up to the first piece that is no text. Each keeps its
line feed; a piece at the end without one is a line if it is not empty. -/
def linesOf : List (List UInt8) → List Text
  | [] => []
  | piece :: pieces =>
    match Text.decode? piece.toByteArray, pieces with
    | none, _ => []
    | some line, [] => if line.isEmpty then [] else [line]
    | some line, _ :: _ => (line ++ ['\n']) :: linesOf pieces

/-- The lines of a file. A byte order mark at its beginning is passed over. -/
def lines (contents : ByteArray) : List Text :=
  let bytes := contents.data.toList
  linesOf (((byteOrderMark.isPrefixOf? bytes).getD bytes).splitOn 10)

/-! ## Entries -/

/-- What the character before leaves open in an entry. -/
inductive Mode where
  | closed
  | blank
  | escape
  | single
  | singleEscape
  | double
  | doubleEscape
  deriving DecidableEq, Repr

/-- Takes one character, unless a comment begins. A comment begins behind a blank, but every second
blank of a row counts as any other character. -/
def Mode.next? (c : Char) : Mode → Option Mode
  | closed => some (if isBlank c && c != '\n' && c != '\r' then blank else opened)
  | blank => if c == '#' then none else some opened
  | escape => some closed
  | single => some (if c == '\\' then singleEscape else if c == '\'' then closed else single)
  | singleEscape => some single
  | double => some (if c == '\\' then doubleEscape else if c == '"' then closed else double)
  | doubleEscape => some double
where
  /-- What a character opens outside quotations. -/
  opened : Mode :=
    if c == '\\' then escape else if c == '"' then double else if c == '\'' then single else closed

/-- Reads a line behind the text `held`, which is kept in reverse: the text of the entry so far, and
what it leaves open. A comment is left out, and closes the entry. -/
def extend (mode : Mode) (held : Text) : Text → Text × Mode
  | [] => (held, mode)
  | c :: t =>
    match mode.next? c with
    | none => (held, .closed)
    | some mode => extend mode (c :: held) t

def isComment (line : Text) : Bool := (line.dropWhile isBlank).head? == some '#'

/-- The entries of lines, behind the text `held` of an entry that is open. An entry that is open at
the end of the file is dropped. -/
def entriesFrom (mode : Mode) (held : Text) : List Text → List Text
  | [] => []
  | line :: lines =>
    if held.isEmpty && isComment line then entriesFrom .closed [] lines
    else match extend mode held line with
      | (held, .closed) => held.reverse :: entriesFrom .closed [] lines
      | (held, mode) => entriesFrom mode held lines

def entries (lines : List Text) : List Text := entriesFrom .closed [] lines

/-! ## Templates -/

/-- A piece of a value: a character, or a reference to a variable by its name. -/
inductive Piece where
  | char (c : Char)
  | reference (name : Text)
  deriving DecidableEq, Repr

/-- A value in which variables are referred to. -/
abbrev Template := List Piece

/-- What a piece stands for. A variable that is not set leaves nothing. -/
def Piece.text (e : Environment) : Piece → Text
  | char c => [c]
  | reference name => (e.value? name).getD []

def Template.text (e : Environment) (t : Template) : Text := t.flatMap (Piece.text e)

/-- The variable that a piece refers to. -/
def Piece.variable? : Piece → Option Text
  | char _ => none
  | reference name => some (Environment.variableOf name)

/-! ## Values -/

/-- Where the reading of a value stands. `quoted` says whether double quotes are open. -/
inductive Phase where
  | plain (quoted : Bool)
  | escape (quoted : Bool)
  | single
  | reference (quoted : Bool) (name : Text)
  | bracedReference (quoted : Bool) (name : Text)
  | ending
  | comment
  deriving DecidableEq, Repr

/-- A value read up to a point; its pieces, and the characters of a name, are kept in reverse. -/
structure Value where
  done : Template := []
  phase : Phase := .plain false
  deriving DecidableEq, Repr

namespace Value

/-- Takes one character. References to variables stand outside single quotes; their names are
letters and digits of any script, or anything between braces. Outside quotes a space or a tab ends
the value, and only a comment may follow. -/
def step (v : Value) (c : Char) : Option Value :=
  match v.phase with
  | .ending =>
    if c == ' ' || c == '\t' then some v
    else if c == '#' then some { v with phase := .comment }
    else none
  | .comment => some v
  | .escape quoted =>
    if c == '\\' || c == '\'' || c == '"' || c == '$' || c == ' ' then
      some ⟨.char c :: v.done, .plain quoted⟩
    else if c == 'n' then some ⟨.char '\n' :: v.done, .plain quoted⟩
    else none
  | .single => some (if c == '\'' then ⟨v.done, .plain false⟩ else ⟨.char c :: v.done, .single⟩)
  | .reference quoted name => some (
    if isAlphanumeric c then ⟨v.done, .reference quoted (c :: name)⟩
    else if c == '{' && name.isEmpty then ⟨v.done, .bracedReference quoted []⟩
    else if c == '$' then ⟨.reference name.reverse :: v.done, .reference quoted []⟩
    else ⟨.char c :: .reference name.reverse :: v.done, .plain quoted⟩)
  | .bracedReference quoted name => some (
    if c == '}' then ⟨.reference name.reverse :: v.done, .plain quoted⟩
    else ⟨v.done, .bracedReference quoted (c :: name)⟩)
  | .plain quoted => some (
    if c == '$' then ⟨v.done, .reference quoted []⟩
    else if c == '"' then ⟨v.done, .plain !quoted⟩
    else if c == '\\' then ⟨v.done, .escape quoted⟩
    else if !quoted && c == '\'' then ⟨v.done, .single⟩
    else if !quoted && (c == ' ' || c == '\t') then ⟨v.done, .ending⟩
    else ⟨.char c :: v.done, .plain quoted⟩)

def finish (v : Value) : Option Template :=
  match v.phase with
  | .plain false => some v.done.reverse
  | .escape false => some v.done.reverse
  | .ending => some v.done.reverse
  | .comment => some v.done.reverse
  | .reference false name => some (.reference name.reverse :: v.done).reverse
  | _ => none

/-- Reads a value. -/
def read? (t : Text) : Option Template := (t.foldlM step {}).bind finish

end Value

/-! ## Settings -/

/-- A character of a key: an ASCII letter or digit, an underscore or a dot. -/
def isKeyChar (c : Char) : Bool := c.isAlphanum || c == '_' || c == '.'

/-- The key that a text begins with, and what follows it. A key begins with an ASCII letter
or an underscore. -/
def key? : Text → Option (Text × Text) := Text.word? (fun c => c.isAlpha || c == '_') isKeyChar

inductive Statement where
  | idle
  | setting (name : Text) (value : Template)
  | malformed
  deriving DecidableEq, Repr

namespace Statement

/-- The setting of a key by what follows it: an equals sign, and a value that may be empty. -/
def assign (key rest : Text) : Statement :=
  match rest.dropWhile isBlank with
  | '=' :: rest =>
    let rest := rest.dropWhile isBlank
    if rest.isEmpty || rest.head? == some '#' then setting key []
    else match Value.read? rest with
      | some value => setting key value
      | none => malformed
  | _ => malformed

/-- Reads an entry. The word `export` may stand before a key, and is itself a key before an equals
sign. -/
def parse (entry : Text) : Statement :=
  let entry := entry.trim
  if entry.isEmpty || entry.head? == some '#' then idle
  else match key? entry with
    | none => malformed
    | some (key, rest) =>
      let rest := rest.dropWhile isBlank
      if key == "export".toList && rest.head? != some '=' then
        match key? rest with
        | none => malformed
        | some (key, rest) => assign key rest
      else assign key rest

end Statement

/-- The settings of entries, up to the first malformed one. -/
def settingsOf : List Text → List (Text × Template)
  | [] => []
  | entry :: entries =>
    match Statement.parse entry with
    | .idle => settingsOf entries
    | .setting name value => (name, value) :: settingsOf entries
    | .malformed => []

def settings (contents : ByteArray) : List (Text × Template) :=
  settingsOf (entries (lines contents))

/-- The variables that the settings of a file refer to. -/
def references (contents : ByteArray) : List Text :=
  (settings contents).flatMap fun (_, value) => value.filterMap Piece.variable?

/-- The environment behind settings. A reference is to a variable as it is set by then. -/
def apply (e : Environment) (l : List (Text × Template)) : Environment :=
  l.foldl (fun e (name, value) => e.supply name (value.text e)) e

def load (e : Environment) (contents : ByteArray) : Environment := apply e (settings contents)

end Dotenv
end DocSplice
