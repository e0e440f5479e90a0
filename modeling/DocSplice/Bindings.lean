import Std.Data.ExtTreeMap
import DocSplice.Text

/-!
# DocSplice.Bindings

The variables of a run. Two tables that answer every look-up alike are equal, and the last
definition of a name wins.

* `Bindings.define`, `Bindings.value?`, `Bindings.binds`, `Bindings.count`.
-/

namespace DocSplice

/-- A finite map from names to values. -/
abbrev Bindings := Std.ExtTreeMap Text Text

namespace Bindings

/-- No variable is bound. -/
def none : Bindings := ∅

/-- Binds a name, in place of an earlier binding. -/
def define (b : Bindings) (name value : Text) : Bindings := b.insert name value

/-- The value of a name. -/
def value? (b : Bindings) (name : Text) : Option Text := b[name]?

/-- The name is bound. -/
def binds (b : Bindings) (name : Text) : Bool := b.contains name

/-- Number of bound names. -/
def count (b : Bindings) : Nat := b.size

@[simp] theorem value?_none (name : Text) : none.value? name = .none := by
  simp [none, value?]

theorem value?_define (b : Bindings) (name value other : Text) :
    (b.define name value).value? other = if name = other then some value else b.value? other := by
  simp [define, value?, Std.ExtTreeMap.getElem?_insert]

theorem binds_eq_isSome (b : Bindings) (name : Text) : b.binds name = (b.value? name).isSome := by
  simp [binds, value?]

theorem count_define (b : Bindings) (name value : Text) :
    (b.define name value).count = if b.binds name then b.count else b.count + 1 := by
  simp [define, count, binds, Std.ExtTreeMap.size_insert]

/-- Tables that answer alike are equal. -/
theorem ext_value? {a b : Bindings} (h : ∀ name, a.value? name = b.value? name) : a = b :=
  Std.ExtTreeMap.ext_getElem? h

end Bindings
end DocSplice
