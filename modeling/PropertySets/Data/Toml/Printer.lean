/-!
# Writing TOML

Entries are written one on a line, a list of two or more items with one item on a line. A text is
written in the first form that needs no escapes: between double quotes, between single quotes,
between three double quotes, between three single quotes. If there is none it is written with
escapes. A text that has line breaks starts on a line of its own behind its three quotes.

* `writeText`, `writeFlag`, `writeList` — values.
* `writeEntry`, `writeHeading` — lines.
-/

namespace PropertySets.Data.Toml

/-! ## Texts -/

/-- A control other than the tabulator and the line break. -/
def isControl (c : Char) : Bool :=
  c != '\t' && c != '\n' && (c.toNat < 0x20 || c.toNat = 0x7F)

/-- Does a text hold a number of marks in a row? -/
def holdsRun (mark : Char) (count : Nat) : List Char → Bool
  | [] => false
  | c :: rest =>
    (List.replicate count mark).isPrefixOf (c :: rest) || holdsRun mark count rest

/-- The forms of a text. -/
inductive Form where
  | basic
  | literal
  | basicLines
  | literalLines
  deriving DecidableEq, Repr

/-- The form that a text is written in. -/
def formOf (s : List Char) : Form :=
  let plain := !s.any isControl
  let lines := s.contains '\n'
  let slashes := s.contains '\\'
  if plain && !slashes && !lines && !s.contains '"' then .basic
  else if plain && !lines && !s.contains '\'' then .literal
  else if plain && !slashes && !holdsRun '"' 3 s then .basicLines
  else if plain && !holdsRun '\'' 3 s then .literalLines
  else if lines then .basicLines
  else .basic

/-- A digit of base sixteen with capitals. -/
def upperDigit (n : Nat) : Char := (Nat.digitChar n).toUpper

/-- The written form of one character other than the quote; `lines` tells that line breaks stand
for themselves. -/
def escapeChar (lines : Bool) (c : Char) : List Char :=
  if c = '\x08' then ['\\', 'b']
  else if c = '\t' then ['\\', 't']
  else if c = '\n' then (if lines then ['\n'] else ['\\', 'n'])
  else if c = '\x0c' then ['\\', 'f']
  else if c = '\r' then ['\\', 'r']
  else if c = '\\' then ['\\', '\\']
  else if isControl c then
    ['\\', 'u', '0', '0', upperDigit (c.toNat / 16), upperDigit (c.toNat % 16)]
  else [c]

/-- A text between double quotes; with `lines`, two quotes in a row stand for themselves, and `run`
of them have just been written. -/
def escapeFrom (lines : Bool) (run : Nat) : List Char → List Char
  | [] => []
  | c :: rest =>
    if c = '"' then
      if lines && run < 2 then '"' :: escapeFrom lines (run + 1) rest
      else '\\' :: '"' :: escapeFrom lines 0 rest
    else escapeChar lines c ++ escapeFrom lines 0 rest

/-- What three quotes open with: a line break if the text has one. -/
def openBreak (s : List Char) : List Char := if s.contains '\n' then ['\n'] else []

/-- A text. -/
def writeText (s : List Char) : List Char :=
  match formOf s with
  | .basic => '"' :: escapeFrom false 0 s ++ ['"']
  | .literal => '\'' :: s ++ ['\'']
  | .basicLines => ['"', '"', '"'] ++ openBreak s ++ escapeFrom true 0 s ++ ['"', '"', '"']
  | .literalLines => ['\'', '\'', '\''] ++ openBreak s ++ s ++ ['\'', '\'', '\'']

/-! ## Other values, and lines -/

/-- A truth value. -/
def writeFlag (b : Bool) : List Char := (if b then "true" else "false").toList

/-- A list of written items. -/
def writeList : List (List Char) → List Char
  | [] => "[]".toList
  | [item] => '[' :: item ++ [']']
  | items =>
    "[\n".toList ++ items.flatMap (fun item => "    ".toList ++ item ++ ",\n".toList) ++ [']']

/-- An entry with a key that needs no quotes. -/
def writeEntry (key : String) (value : List Char) : List Char :=
  key.toList ++ " = ".toList ++ value ++ ['\n']

/-- The heading of a table with a key that needs no quotes. -/
def writeHeading (key : String) : List Char := '[' :: key.toList ++ "]\n".toList

end PropertySets.Data.Toml
