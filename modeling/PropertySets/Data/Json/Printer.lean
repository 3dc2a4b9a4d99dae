import PropertySets.Data.Real
import PropertySets.Data.Value

/-!
# Writing JSON

Structured data is written as JSON with two spaces of indentation for each level, an empty list or
table on one line. In a string the quote, the backslash and the controls are escaped, everything
else stands as it is.

* `Json.quote` — a string as JSON.
* `Json.render` — a value as indented JSON.
-/

namespace PropertySets.Data.Json

/-- The written form of one character inside a string. -/
def escape (c : Char) : List Char :=
  if c = '"' then ['\\', '"']
  else if c = '\\' then ['\\', '\\']
  else if c = '\x08' then ['\\', 'b']
  else if c = '\x0c' then ['\\', 'f']
  else if c = '\n' then ['\\', 'n']
  else if c = '\r' then ['\\', 'r']
  else if c = '\t' then ['\\', 't']
  else if c.toNat < 0x20 then
    ['\\', 'u', '0', '0', Nat.digitChar (c.toNat / 16), Nat.digitChar (c.toNat % 16)]
  else [c]

/-- A string as JSON. -/
def quote (s : String) : List Char := '"' :: (s.toList.flatMap escape ++ ['"'])

/-- A line break and the indentation of a level. -/
def newLine (level : Nat) : List Char := '\n' :: List.replicate (2 * level) ' '

/-- Pieces of text with commas between them. -/
def separated : List (List Char) → List Char
  | [] => []
  | [piece] => piece
  | piece :: pieces => piece ++ ',' :: separated pieces

mutual

/-- A value at a level of indentation. -/
def write (level : Nat) : Value → List Char
  | .null => "null".toList
  | .boolean b => (if b then "true" else "false").toList
  | .integer n => (toString n).toList
  | .real x => (Real.text x).toList
  | .text s => quote s
  | .list [] => ['[', ']']
  | .list (item :: items) =>
    '[' :: separated (writeItems (level + 1) (item :: items)) ++ newLine level ++ [']']
  | .table [] => ['\x7b', '\x7d']
  | .table (field :: fields) =>
    '\x7b' :: separated (writeFields (level + 1) (field :: fields)) ++ newLine level ++ ['\x7d']

/-- The items of a list, each on a line of its own. -/
def writeItems (level : Nat) : List Value → List (List Char)
  | [] => []
  | item :: items => (newLine level ++ write level item) :: writeItems level items

/-- The fields of a table, each on a line of its own. -/
def writeFields (level : Nat) : List (String × Value) → List (List Char)
  | [] => []
  | (key, value) :: fields =>
    (newLine level ++ quote key ++ ": ".toList ++ write level value) :: writeFields level fields

end

/-- A value as indented JSON. -/
def render (v : Value) : String := String.ofList (write 0 v)

end PropertySets.Data.Json
