import PropertySets.Text.Ascii
import PropertySets.Text.Visible

/-!
# Quoted literals

A string literal of the generated source code stands between double quotes on one line. The quote,
the backslash and the usual controls have short escapes; a character that cannot be shown is
written as its code point in braces. A single quote needs no escape.

* `quote` — the literal of a string.
-/

namespace PropertySets.Text.Quoted

/-- The written form of one character inside a literal. -/
def escape (c : Char) : List Char :=
  if c = '\x00' then ['\\', '0']
  else if c = '\t' then ['\\', 't']
  else if c = '\r' then ['\\', 'r']
  else if c = '\n' then ['\\', 'n']
  else if c = '"' then ['\\', '"']
  else if c = '\\' then ['\\', '\\']
  else if isVisible c then [c]
  else ['\\', 'u', '\x7b'] ++ Nat.toDigits 16 c.toNat ++ ['\x7d']

/-- The literal of a list of characters, quotes included. -/
def encode (s : List Char) : List Char := '"' :: (s.flatMap escape ++ ['"'])

/-- The literal of a string, quotes included. -/
def quote (s : String) : String := String.ofList (encode s.toList)

end PropertySets.Text.Quoted
