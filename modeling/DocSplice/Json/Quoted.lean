import DocSplice.Text

/-!
# DocSplice.Json.Quoted

How a text is written as a JSON string.

* `escaped`: a character as it stands between the quotes. The quote, the backslash and the control
  characters are escaped, the shortest way; all others stand as they are.
* `quote`: the string.
-/

namespace DocSplice
namespace Json

/-- A hexadecimal digit, in lower case. -/
def hexDigit (n : Nat) : Char := Nat.digitChar (n % 16)

/-- A character as it stands in a string. -/
def escaped (c : Char) : Text :=
  if c = '"' then ['\\', '"']
  else if c = '\\' then ['\\', '\\']
  else if c = '\x08' then ['\\', 'b']
  else if c = '\t' then ['\\', 't']
  else if c = '\n' then ['\\', 'n']
  else if c = '\x0c' then ['\\', 'f']
  else if c = '\r' then ['\\', 'r']
  else if c.toNat < 0x20 then ['\\', 'u', '0', '0', hexDigit (c.toNat / 16), hexDigit c.toNat]
  else [c]

/-- A text as a string. -/
def quote (t : Text) : Text := '"' :: (t.flatMap escaped ++ ['"'])

end Json
end DocSplice
