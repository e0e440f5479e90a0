import DocSplice.Text

/-!
# DocSplice.Name

Names of variables: an ASCII letter, then ASCII letters, digits, underscores and hyphens.

* `isName`: the rule for a whole text.
* `readName?`: the reader of directives, which takes the name that a text begins with.
* `Assignment.parse`: a `NAME=VALUE` argument.
-/

namespace DocSplice

/-- A character that may follow the first one of a name. -/
def isNameChar (c : Char) : Bool := c.isAlphanum || c == '_' || c == '-'

/-- The text is a name of a variable. -/
def isName : Text → Bool
  | [] => false
  | c :: t => c.isAlpha && t.all isNameChar

/-- The name that a text begins with, and what follows it. -/
def readName? : Text → Option (Text × Text) := Text.word? Char.isAlpha isNameChar

namespace Assignment

/-- Why an argument is no assignment. -/
inductive Error where
  | noEquals (argument : Text)
  | badName (name : Text)
  deriving DecidableEq, Repr

/-- The wording of an assignment error. -/
def Error.message : Error → Text
  | noEquals argument => "expected NAME=VALUE, got '".toList ++ argument ++ "'".toList
  | badName name =>
    "invalid variable name '".toList ++ name ++ "': must match [A-Za-z][A-Za-z_-0-9]*".toList

/-- Splits an argument at its first equals sign into a name and a value. The value may be empty
and may hold further equals signs. -/
def parse (argument : Text) : Except Error (Text × Text) :=
  match argument.cut? '=' with
  | none => .error (.noEquals argument)
  | some (name, value) => if isName name then .ok (name, value) else .error (.badName name)

end Assignment
end DocSplice
