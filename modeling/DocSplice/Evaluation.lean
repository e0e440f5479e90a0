import DocSplice.Event
import DocSplice.Failure
import DocSplice.IncludeSource

/-!
# DocSplice.Evaluation

What one directive does.

* `Evaluation`: the variables afterwards, the events, and the replacement text or a failure.
* `Directive.evaluate`: evaluates a directive. Only a definition changes the variables.
* `Evaluation.of`: evaluates what was read from a text, where an unread text is a failure.
* `Form.evaluate`: reads a text by one grammar, then evaluates it.
-/

namespace DocSplice

/-- What one directive does. -/
structure Evaluation where
  bindings : Bindings
  events : List Event
  result : Except Failure Text

/-- Evaluates a directive that begins at `position`. -/
def Directive.evaluate (source : IncludeSource) (position : Position) (b : Bindings)
    (d : Directive) : Evaluation :=
  let announced := Event.evaluating d.form position.line
  match d with
  | inclusion path =>
    let resolved := source.resolve path
    let result := match source.read resolved with
      | .present contents => .ok contents
      | .absent => .error (.unresolvedInclude path resolved position)
      | .failed reason => .error (.unreadable resolved reason)
    ⟨b, [announced], result⟩
  | definition name value =>
    ⟨b.define name value, announced :: Event.redefinitions b name, .ok []⟩
  | dereference name =>
    let result := match b.value? name with
      | some value => .ok value
      | none => .error (.undefinedVariable name position)
    ⟨b, [announced], result⟩

/-- Evaluates what was read from the text `inner`. A text that asks for nothing is a failure, and
nothing is told about it. -/
def Evaluation.of (source : IncludeSource) (position : Position) (b : Bindings) (inner : Text) :
    Option Directive → Evaluation
  | some d => d.evaluate source position b
  | none => ⟨b, [], .error (.unrecognizedDirective inner position)⟩

/-- Evaluates a text as a directive of one form. -/
def Form.evaluate (source : IncludeSource) (position : Position) (b : Bindings) (inner : Text)
    (form : Form) : Evaluation :=
  .of source position b inner (form.parse? inner)

end DocSplice
