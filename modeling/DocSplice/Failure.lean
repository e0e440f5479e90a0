import DocSplice.Position
import DocSplice.Path

/-!
# DocSplice.Failure

Why a run stops.

* `Failure`: the causes. A run stops at the first one.
* `Failure.Kind`: the category of a cause, with a stable label.
* `Failure.message`: the wording, which ends in the position of the directive where there is one.
-/

namespace DocSplice

inductive Failure where
  | unresolvedInclude (requested : Text) (resolved : Path) (position : Position)
  | undefinedVariable (name : Text) (position : Position)
  | unrecognizedDirective (text : Text) (position : Position)
  | unreadable (path : Path) (reason : Text)
  deriving DecidableEq, Repr

namespace Failure

inductive Kind where
  | unresolvedInclude
  | undefinedVariable
  | unrecognizedDirective
  | io
  deriving DecidableEq, Repr

namespace Kind

def label : Kind → Text
  | unresolvedInclude => "unresolved_include".toList
  | undefinedVariable => "undefined_variable".toList
  | unrecognizedDirective => "unrecognized_directive".toList
  | io => "io".toList

def all : List Kind := [unresolvedInclude, undefinedVariable, unrecognizedDirective, io]

def ofLabel? (t : Text) : Option Kind := all.find? fun kind => kind.label == t

@[simp] theorem ofLabel?_label (kind : Kind) : ofLabel? kind.label = some kind := by
  cases kind <;> rfl

end Kind

def kind : Failure → Kind
  | unresolvedInclude _ _ _ => .unresolvedInclude
  | undefinedVariable _ _ => .undefinedVariable
  | unrecognizedDirective _ _ => .unrecognizedDirective
  | unreadable _ _ => .io

/-- Where the failing directive begins. A file that cannot be read is not blamed on a directive. -/
def position? : Failure → Option Position
  | unresolvedInclude _ _ position => some position
  | undefinedVariable _ position => some position
  | unrecognizedDirective _ position => some position
  | unreadable _ _ => none

/-- The wording of the cause, without its position. -/
def cause : Failure → Text
  | unresolvedInclude requested resolved _ =>
    "include: File ".toList ++ requested ++ " could not be found (full path: ".toList ++
      resolved.text ++ ")".toList
  | undefinedVariable name _ => "No definition found for variable ".toList ++ name
  | unrecognizedDirective text _ => "Syntax error for ".toList ++ text
  | unreadable path reason =>
    "include: Failed to read ".toList ++ path.text ++ ": ".toList ++ reason

def message (f : Failure) : Text :=
  match f.position? with
  | some position => f.cause ++ " (".toList ++ position.describe ++ ")".toList
  | none => f.cause

end Failure
end DocSplice
