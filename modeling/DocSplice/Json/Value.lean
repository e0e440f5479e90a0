import DocSplice.Json.Token

/-!
# DocSplice.Json.Value

The values of JSON.

* `Value`: a value, as far as its tokens keep it. Members stay in order, repeated names included.
* `Value.Builder`: puts tokens together, at any depth; `Value.Builder.step` takes one token.
* `Value.ofText?`: the value that a whole text denotes.
-/

namespace DocSplice
namespace Json

inductive Value where
  | null
  | bool (value : Bool)
  | number (whole : Option Nat)
  | string (value : Option Text)
  | array (items : List Value)
  | object (members : List (Option Text × Value))
  deriving Repr

namespace Value

/-- A collection that is still open, with what it holds so far, in reverse. In an object, `name` is
the name whose value is being read. -/
inductive Frame where
  | array (items : List Value)
  | object (members : List (Option Text × Value)) (name : Option Text)
  deriving Repr

/-- What may come next, and the open collections around it, the innermost first. -/
inductive Builder where
  | value (outer : List Frame)
  | firstItem (outer : List Frame)
  | firstMember (outer : List Frame)
  | member (members : List (Option Text × Value)) (outer : List Frame)
  | colon (members : List (Option Text × Value)) (name : Option Text) (outer : List Frame)
  | complete (v : Value) (outer : List Frame)
  deriving Repr

namespace Builder

def start (outer : List Frame) : Token → Option Builder
  | .null => some (complete .null outer)
  | .bool b => some (complete (.bool b) outer)
  | .number n => some (complete (.number n) outer)
  | .string t => some (complete (.string t) outer)
  | .openArray => some (firstItem outer)
  | .openObject => some (firstMember outer)
  | _ => none

def step : Builder → Token → Option Builder
  | value outer, t => start outer t
  | firstItem outer, .closeArray => some (complete (.array []) outer)
  | firstItem outer, t => start (.array [] :: outer) t
  | firstMember outer, .closeObject => some (complete (.object []) outer)
  | firstMember outer, .string name => some (colon [] name outer)
  | member members outer, .string name => some (colon members name outer)
  | colon members name outer, .colon => some (value (.object members name :: outer))
  | complete v (.array items :: outer), .comma => some (value (.array (v :: items) :: outer))
  | complete v (.array items :: outer), .closeArray =>
    some (complete (.array (v :: items).reverse) outer)
  | complete v (.object members name :: outer), .comma =>
    some (member ((name, v) :: members) outer)
  | complete v (.object members name :: outer), .closeObject =>
    some (complete (.object ((name, v) :: members).reverse) outer)
  | _, _ => none

/-- The value, if it is complete and nothing is open around it. -/
def finish : Builder → Option Value
  | complete v [] => some v
  | _ => none

end Builder

def ofTokens? (l : List Token) : Option Value :=
  (l.foldlM Builder.step (.value [])).bind Builder.finish

/-- The value that a whole text denotes. -/
def ofText? (t : Text) : Option Value := (Token.ofText? t).bind ofTokens?

end Value
end Json
end DocSplice
