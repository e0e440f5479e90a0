import DocSplice.Text

/-!
# DocSplice.Json.Token

The words of JSON.

* `Token`: punctuation and scalars. Of a number only the value of an unsigned whole number without
  fraction and exponent is kept, and of a string only a value that is a text.
* `Token.Lexer`: reads tokens character by character; `Token.Lexer.step` takes one character.
* `Token.ofText?`: the tokens of a text.
-/

namespace DocSplice
namespace Json

inductive Token where
  | openArray
  | closeArray
  | openObject
  | closeObject
  | comma
  | colon
  | null
  | bool (value : Bool)
  | number (whole : Option Nat)
  | string (value : Option Text)
  deriving DecidableEq, Repr

namespace Token

def isSpace (c : Char) : Bool := c == ' ' || c == '\t' || c == '\n' || c == '\r'

def digit? (c : Char) : Option Nat :=
  if c.isDigit then some (c.toNat - '0'.toNat) else none

def hexDigit? (c : Char) : Option Nat :=
  if c.isDigit then some (c.toNat - '0'.toNat)
  else if 'a' ≤ c ∧ c ≤ 'f' then some (c.toNat - 'a'.toNat + 10)
  else if 'A' ≤ c ∧ c ≤ 'F' then some (c.toNat - 'A'.toNat + 10)
  else none

/-- The character that a letter stands for behind a backslash. -/
def shortEscape? : Char → Option Char
  | '"' => some '"'
  | '\\' => some '\\'
  | '/' => some '/'
  | 'b' => some '\x08'
  | 'f' => some '\x0c'
  | 'n' => some '\n'
  | 'r' => some '\r'
  | 't' => some '\t'
  | _ => none

/-! ## Strings -/

/-- A string that is being read: its characters so far, in reverse, a first half of a surrogate
pair that waits for its second half, and whether all of it is text so far. -/
structure Quote where
  done : Text := []
  half : Option Nat := none
  isText : Bool := true
  deriving DecidableEq, Repr

namespace Quote

/-- Takes a character. A half pair before it is no text. -/
def add (q : Quote) (c : Char) : Quote :=
  ⟨c :: q.done, none, q.isText && q.half.isNone⟩

/-- Takes a UTF-16 unit. Two halves of a pair make one character. -/
def addUnit (q : Quote) (unit : Nat) : Quote :=
  if 0xD800 ≤ unit ∧ unit < 0xDC00 then ⟨q.done, some unit, q.isText && q.half.isNone⟩
  else if 0xDC00 ≤ unit ∧ unit < 0xE000 then
    match q.half with
    | some first =>
      let c := Char.ofNat (0x10000 + (first - 0xD800) * 0x400 + (unit - 0xDC00))
      ⟨c :: q.done, none, q.isText⟩
    | none => ⟨q.done, none, false⟩
  else q.add (Char.ofNat unit)

def value? (q : Quote) : Option Text :=
  if q.isText && q.half.isNone then some q.done.reverse else none

end Quote

/-! ## Numbers -/

inductive Numeral where
  | minus
  | zero (whole : Option Nat)
  | digits (whole : Option Nat)
  | point
  | fraction
  | exponent
  | exponentSign
  | exponentDigits
  deriving DecidableEq, Repr

namespace Numeral

def token? : Numeral → Option Token
  | zero whole => some (.number whole)
  | digits whole => some (.number whole)
  | fraction => some (.number none)
  | exponentDigits => some (.number none)
  | _ => none

/-- Continues a number, unless the character is no part of it. A leading zero stands alone. -/
def step? (c : Char) : Numeral → Option Numeral
  | minus => (digit? c).map fun n => if n = 0 then zero none else digits none
  | zero _ => tail?
  | digits whole =>
    match digit? c with
    | some n => some (digits (whole.map fun m => 10 * m + n))
    | none => tail?
  | point => (digit? c).map fun _ => fraction
  | fraction =>
    if c.isDigit then some fraction
    else if c == 'e' || c == 'E' then some exponent
    else none
  | exponent =>
    if c.isDigit then some exponentDigits
    else if c == '+' || c == '-' then some exponentSign
    else none
  | exponentSign => (digit? c).map fun _ => exponentDigits
  | exponentDigits => (digit? c).map fun _ => exponentDigits
where
  /-- Begins a fraction or an exponent. -/
  tail? : Option Numeral :=
    if c == '.' then some point
    else if c == 'e' || c == 'E' then some exponent
    else none

end Numeral

/-! ## Reading -/

inductive Mode where
  | between
  | word (left : Text) (token : Token)
  | numeral (n : Numeral)
  | string (q : Quote)
  | escape (q : Quote)
  | hex (q : Quote) (left : Nat) (unit : Nat)
  deriving DecidableEq, Repr

/-- A text read up to a point: the tokens so far, in reverse, and what is being read. -/
structure Lexer where
  done : List Token := []
  mode : Mode := .between
  deriving DecidableEq, Repr

namespace Lexer

/-- Finishes a token. -/
def emit (l : Lexer) (t : Token) : Lexer := ⟨t :: l.done, .between⟩

/-- Begins a token, or passes a blank. -/
def start (l : Lexer) (c : Char) : Option Lexer :=
  if isSpace c then some l
  else match c with
    | '[' => some (l.emit .openArray)
    | ']' => some (l.emit .closeArray)
    | '{' => some (l.emit .openObject)
    | '}' => some (l.emit .closeObject)
    | ',' => some (l.emit .comma)
    | ':' => some (l.emit .colon)
    | '"' => some { l with mode := .string {} }
    | 'n' => some { l with mode := .word "ull".toList .null }
    | 't' => some { l with mode := .word "rue".toList (.bool true) }
    | 'f' => some { l with mode := .word "alse".toList (.bool false) }
    | '-' => some { l with mode := .numeral .minus }
    | c => (digit? c).map fun n =>
      { l with mode := .numeral (if n = 0 then .zero (some 0) else .digits (some n)) }

/-- Takes one character. Control characters stand in no string. -/
def step (l : Lexer) (c : Char) : Option Lexer :=
  match l.mode with
  | .between => l.start c
  | .word [] _ => none
  | .word (d :: left) t =>
    if c = d then some (if left.isEmpty then l.emit t else { l with mode := .word left t })
    else none
  | .numeral n =>
    match n.step? c with
    | some n => some { l with mode := .numeral n }
    | none => n.token?.bind fun t => start ⟨t :: l.done, .between⟩ c
  | .string q =>
    if c == '"' then some (l.emit (.string q.value?))
    else if c == '\\' then some { l with mode := .escape q }
    else if c.toNat < 0x20 then none
    else some { l with mode := .string (q.add c) }
  | .escape q =>
    if c == 'u' then some { l with mode := .hex q 3 0 }
    else (shortEscape? c).map fun c => { l with mode := .string (q.add c) }
  | .hex q left unit =>
    (hexDigit? c).map fun n =>
      match left with
      | 0 => { l with mode := .string (q.addUnit (16 * unit + n)) }
      | left + 1 => { l with mode := .hex q left (16 * unit + n) }

/-- The tokens, if the text may end here. -/
def finish (l : Lexer) : Option (List Token) :=
  match l.mode with
  | .between => some l.done.reverse
  | .numeral n => n.token?.map fun t => (t :: l.done).reverse
  | _ => none

end Lexer

/-- The tokens of a text. -/
def ofText? (t : Text) : Option (List Token) :=
  (t.foldlM Lexer.step {}).bind Lexer.finish

end Token
end Json
end DocSplice
