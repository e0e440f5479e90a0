import DocSplice.Failure
import DocSplice.Json.Quoted
import DocSplice.Json.Value

/-!
# DocSplice.Diagnostic

Failures as other programs read them: a JSON object with a kind, a message, and a line and a column
where the failure has a position.

* `Diagnostic.render`: the object on one line, absent members left out.
* `Diagnostic.ofText?`: reads a diagnostic. Unknown members are passed over; a repeated member, a
  missing kind or message, and a member of the wrong sort are refused. An array of the four members in
  their order is read as well, and there all of them must stand.
-/

namespace DocSplice

structure Diagnostic where
  kind : Failure.Kind
  message : Text
  line : Option Nat := none
  column : Option Nat := none
  deriving DecidableEq, Repr

def Failure.diagnostic (f : Failure) : Diagnostic where
  kind := f.kind
  message := f.message
  line := f.position?.map (·.line)
  column := f.position?.map (·.column)

namespace Diagnostic

/-! ## Writing -/

/-- A member of the object, behind a comma, unless it is absent. -/
def renderCount (name : Text) : Option Nat → Text
  | some n => ',' :: Json.quote name ++ ':' :: Text.ofNat n
  | none => []

/-- The diagnostic as a JSON object without blanks. -/
def render (d : Diagnostic) : Text :=
  '{' :: Json.quote "kind".toList ++ ':' :: Json.quote d.kind.label ++
    ',' :: Json.quote "message".toList ++ ':' :: Json.quote d.message ++
    renderCount "line".toList d.line ++ renderCount "column".toList d.column ++ ['}']

/-! ## Reading -/

/-- The members of a diagnostic that were met so far. An inner `none` is a null. -/
structure Members where
  kind : Option Failure.Kind := none
  message : Option Text := none
  line : Option (Option Nat) := none
  column : Option (Option Nat) := none
  deriving DecidableEq, Repr

/-- Lines and columns are below this number. -/
def countBound : Nat := UInt32.size

/-- A kind is its label, or an object whose only member is named by the label and holds a null. -/
def kindOf? : Json.Value → Option Failure.Kind
  | .string (some label) => Failure.Kind.ofLabel? label
  | .object [(some label, .null)] => Failure.Kind.ofLabel? label
  | _ => none

def messageOf? : Json.Value → Option Text
  | .string t => t
  | _ => none

/-- A line or a column is a null or a whole number below the bound. -/
def countOf? : Json.Value → Option (Option Nat)
  | .null => some none
  | .number (some n) => if n < countBound then some (some n) else none
  | _ => none

/-- Fills a member that must not have been met before. -/
def fill (old new : Option α) : Option (Option α) :=
  match old, new with
  | none, some a => some (some a)
  | _, _ => none

def Members.take (m : Members) : Option Text × Json.Value → Option Members
  | (none, _) => none
  | (some name, v) =>
    if name = "kind".toList then (fill m.kind (kindOf? v)).map fun kind => { m with kind }
    else if name = "message".toList then
      (fill m.message (messageOf? v)).map fun message => { m with message }
    else if name = "line".toList then (fill m.line (countOf? v)).map fun line => { m with line }
    else if name = "column".toList then
      (fill m.column (countOf? v)).map fun column => { m with column }
    else some m

/-- The diagnostic, if its kind and its message were met. -/
def Members.diagnostic? (m : Members) : Option Diagnostic :=
  match m.kind, m.message with
  | some kind, some message => some ⟨kind, message, m.line.join, m.column.join⟩
  | _, _ => none

def ofValue? : Json.Value → Option Diagnostic
  | .object members => (members.foldlM Members.take {}).bind Members.diagnostic?
  | .array [kind, message, line, column] => do
    return ⟨← kindOf? kind, ← messageOf? message, ← countOf? line, ← countOf? column⟩
  | _ => none

def ofText? (t : Text) : Option Diagnostic := (Json.Value.ofText? t).bind ofValue?

end Diagnostic
end DocSplice
