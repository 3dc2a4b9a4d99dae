import PropertySets.Data.Integer

/-!
# Strings in TOML

A string stands between quotes: double quotes with escapes, or single quotes without. Tripled
quotes hold several lines; a line break right behind the opening is dropped, and a backslash at the
end of a line joins it with the next text. Line breaks are single line feeds here.

* `cutLine`, `cutLines` — the inside of a string as it is written, up to the closing quotes.
* `decode` — the text that an inside with escapes denotes.
* `readString` — a string of any kind.
-/

namespace PropertySets.Data.Toml

/-- Blanks within a line. -/
def isBlank (c : Char) : Bool := c == ' ' || c == '\t'

/-- The characters that stand for themselves: all but the controls, and the tabulator. -/
def isPlain (c : Char) : Bool := c == '\t' || (0x20 ≤ c.toNat && c.toNat != 0x7F)

/-! ## The inside of a string -/

/-- The inside of a string on one line and what follows its closing quote; with `escapes`, a
backslash protects the character behind it. -/
def cutLine (escapes : Bool) (mark : Char) : List Char → Option (List Char × List Char)
  | [] => none
  | c :: rest =>
    if c = mark then some ([], rest)
    else if escapes && c = '\\' then
      match rest with
      | [] => none
      | d :: rest => (cutLine escapes mark rest).map fun (inside, tail) => (c :: d :: inside, tail)
    else (cutLine escapes mark rest).map fun (inside, tail) => (c :: inside, tail)

/-- The inside of a string between tripled quotes and what follows. Of up to five quotes in a row
the last three close the string. -/
def cutLines (escapes : Bool) (mark : Char) : List Char → Option (List Char × List Char)
  | [] => none
  | c :: rest =>
    if [c, c, c].isPrefixOf (c :: rest) && c = mark then
      -- up to two quotes before the closing ones belong to the inside
      let marks := ((rest.drop 2).takeWhile (· = mark)).take 2
      some (marks, rest.drop (2 + marks.length))
    else if escapes && c = '\\' then
      match rest with
      | [] => none
      | d :: rest => (cutLines escapes mark rest).map fun (inside, tail) => (c :: d :: inside, tail)
    else (cutLines escapes mark rest).map fun (inside, tail) => (c :: inside, tail)

/-! ## Escapes -/

/-- The character of a short escape. -/
def shortEscape? (c : Char) : Option Char :=
  match c with
  | 'b' => some '\x08'
  | 't' => some '\t'
  | 'n' => some '\n'
  | 'f' => some '\x0c'
  | 'r' => some '\r'
  | '"' => some '"'
  | '\\' => some '\\'
  | _ => none

/-- The character whose code point hexadecimal digits denote. -/
def codePoint? (digits : List Char) : Option Char :=
  let n := Integer.ofDigits 16 digits
  if (digits.all fun c => (Text.hexValue? c).isSome) && n.isValidChar then some (Char.ofNat n)
  else none

/-- Is nothing but blanks left on the line? -/
def isLineEnd (s : List Char) : Bool := (s.dropWhile isBlank).head? == some '\n'

/-- The text of an inside with escapes; with `lines`, it may hold line breaks, and `joining` tells
that a line is being joined with the next text. -/
def decode (lines : Bool) : Bool → List Char → Option (List Char)
  | _, [] => some []
  | _, '\\' :: 'u' :: a :: b :: c :: d :: rest => do
    let x ← codePoint? [a, b, c, d]
    return x :: (← decode lines false rest)
  | _, '\\' :: 'U' :: a :: b :: c :: d :: e :: f :: g :: h :: rest => do
    let x ← codePoint? [a, b, c, d, e, f, g, h]
    return x :: (← decode lines false rest)
  | _, '\\' :: e :: rest =>
    match shortEscape? e with
    | some x => (decode lines false rest).map (x :: ·)
    -- a backslash at the end of a line joins it with the next text
    | none => if lines && isLineEnd (e :: rest) then decode lines true (e :: rest) else none
  | joining, c :: rest =>
    if joining && (isBlank c || c == '\n') then decode lines true rest
    else if isPlain c && c != '\\' || lines && c == '\n' then
      (decode lines false rest).map (c :: ·)
    else none

/-- The inside of a string without escapes, if it is one. -/
def literal? (lines : Bool) (inside : List Char) : Option (List Char) :=
  if inside.all fun c => isPlain c || lines && c == '\n' then some inside else none

/-! ## Strings -/

/-- The inside of a string of several lines without the break behind the opening. -/
def dropBreak : List Char → List Char
  | '\n' :: rest => rest
  | s => s

/-- A string on one line, and what follows. -/
def readLine (s : List Char) : Option (List Char × List Char) :=
  match s with
  | '"' :: rest => do
    let (inside, rest) ← cutLine true '"' rest
    return (← decode false false inside, rest)
  | '\'' :: rest => do
    let (inside, rest) ← cutLine false '\'' rest
    return (← literal? false inside, rest)
  | _ => none

/-- A string, and what follows. -/
def readString (s : List Char) : Option (List Char × List Char) :=
  match s with
  | '"' :: '"' :: '"' :: rest => do
    let (inside, rest) ← cutLines true '"' rest
    return (← decode true false (dropBreak inside), rest)
  | '\'' :: '\'' :: '\'' :: rest => do
    let (inside, rest) ← cutLines false '\'' rest
    return (← literal? true (dropBreak inside), rest)
  | s => readLine s

end PropertySets.Data.Toml
