import DocSplice.Name

/-!
# DocSplice.Directive

What the text between two markers asks for.

* `Directive`: the three kinds of request.
* `Form`: their grammars. `Form.parse?` reads a text by one grammar, which the whole text has to
  match.
* `Directive.ofText?`: the directive of the first form that matches.

The forms are `include` separators path, `define` separators name separators value, and a bare name.
A path is trimmed of blanks, a value keeps all that follows the separators, and neither is empty.
-/

namespace DocSplice

/-- A request written between markers. -/
inductive Directive where
  | inclusion (path : Text)
  | definition (name value : Text)
  | dereference (name : Text)
  deriving DecidableEq, Repr

inductive Form where
  | inclusion
  | definition
  | dereference
  deriving DecidableEq, Repr

namespace Form

def label : Form → Text
  | inclusion => "include".toList
  | definition => "define".toList
  | dereference => "dereference".toList

/-- The forms in the order in which they are tried. -/
def all : List Form := [inclusion, definition, dereference]

/-- Reads `include`, separators and a path. -/
def parseInclusion? (t : Text) : Option Directive := do
  let rest ← Text.afterSeparators? (← "include".toList.isPrefixOf? t)
  let path := rest.trim
  if path.isEmpty then none else some (.inclusion path)

/-- Reads `define`, separators, a name, separators and a value. -/
def parseDefinition? (t : Text) : Option Directive := do
  let rest ← Text.afterSeparators? (← "define".toList.isPrefixOf? t)
  let (name, rest) ← readName? rest
  let value ← Text.afterSeparators? rest
  if value.isEmpty then none else some (.definition name value)

/-- Reads a name, which nothing may follow. -/
def parseDereference? (t : Text) : Option Directive := do
  let (name, rest) ← readName? t
  if rest.isEmpty then some (.dereference name) else none

def parse? : Form → Text → Option Directive
  | inclusion => parseInclusion?
  | definition => parseDefinition?
  | dereference => parseDereference?

/-- The first form that a text matches. -/
def ofText? (t : Text) : Option Form := all.find? fun form => (form.parse? t).isSome

end Form

namespace Directive

def form : Directive → Form
  | inclusion _ => .inclusion
  | definition _ _ => .definition
  | dereference _ => .dereference

/-- The directive that a text asks for, by the first form that matches. -/
def ofText? (t : Text) : Option Directive := Form.all.findSome? fun form => form.parse? t

/-- The form that matches first also reads the directive. -/
theorem ofText?_eq_bind (t : Text) :
    ofText? t = (Form.ofText? t).bind fun form => form.parse? t := by
  simp only [ofText?, Form.ofText?, Form.all, List.findSome?, List.find?]
  cases hi : Form.parse? .inclusion t with
  | some d => simp [hi]
  | none =>
    cases hd : Form.parse? .definition t with
    | some d => simp [hd]
    | none => cases hr : Form.parse? .dereference t <;> simp [hr]

end Directive
end DocSplice
