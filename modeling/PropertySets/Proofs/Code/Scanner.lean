import PropertySets.Text.Quoted

/-!
# Scanning generated code

The text of a module is words, string literals and signs, with blanks and comments between them.
The scanner goes through it character by character: a word is complete only when a character comes
that cannot be part of it, so a step can give more than one token.

Words are told from keywords by their place only. Which characters beyond ASCII words are made of
is left open: `letters` may be any set of them.

* `Token`, `Mode`, `Mode.step` — the scanner.
* `IsName` — the words that do not start with a digit.
-/

namespace PropertySets.Code

open Text

/-- A piece of code that stands for itself. -/
inductive Token where
  | word (name : String)
  /-- A string literal, by what it denotes. -/
  | text (content : String)
  | sign (c : Char)
  deriving DecidableEq, Repr

/-- What the scanner is in the middle of, with what it has read of it, last character first. -/
inductive Mode where
  | between
  | inWord (read : List Char)
  | inText (read : List Char)
  /-- Behind a backslash. -/
  | escaped (read : List Char)
  /-- Behind the start of a code point, before its brace. -/
  | beforeCode (read : List Char)
  /-- In a code point; `value` is what its digits denote so far. -/
  | inCode (read : List Char) (value : Nat)
  | slash
  | comment
  deriving DecidableEq, Repr

/-- The signs, each a token of its own. -/
def isSign : Char → Bool
  | '(' | ')' | '\x7b' | '\x7d' | '[' | ']' | '<' | '>' => true
  | '.' | ',' | ';' | ':' | '=' | '&' | '#' | '*' => true
  | _ => false

/-- The character that a short escape denotes. -/
def shortEscape? : Char → Option Char
  | '0' => some '\x00'
  | 't' => some '\t'
  | 'r' => some '\r'
  | 'n' => some '\n'
  | '"' => some '"'
  | '\'' => some '\''
  | '\\' => some '\\'
  | _ => none

section

variable (letters : Char → Bool)

/-- Can a word have the character? -/
def isNameChar (c : Char) : Bool := isWordChar c || (decide (128 ≤ c.toNat) && letters c)

/-- Can a word start with the character? -/
def isNameStart (c : Char) : Bool := isNameChar letters c && !c.isDigit

/-- A word that does not start with a digit. -/
def IsName (s : String) : Prop :=
  s.toList.all (isNameChar letters) = true ∧ s.toList.head?.any (isNameStart letters) = true

/-- A character that comes between tokens. -/
def startToken? (c : Char) : Option (List Token × Mode) :=
  if isNameStart letters c then some ([], .inWord [c])
  else if c = ' ' ∨ c = '\n' then some ([], .between)
  else if c = '"' then some ([], .inText [])
  else if c = '/' then some ([], .slash)
  else if isSign c then some ([.sign c], .between)
  else none

/-- Read a character: the tokens that it completes, and what the scanner is in afterwards. -/
def Mode.step : Mode → Char → Option (List Token × Mode)
  | between, c => startToken? letters c
  | inWord read, c =>
    if isNameChar letters c then some ([], .inWord (c :: read))
    -- the character that ends a word may itself be a token
    else (startToken? letters c).map fun (tokens, mode) =>
      (.word (String.ofList read.reverse) :: tokens, mode)
  | inText read, c =>
    if c = '"' then some ([.text (String.ofList read.reverse)], .between)
    else if c = '\\' then some ([], .escaped read)
    else some ([], .inText (c :: read))
  | escaped read, c =>
    if c = 'u' then some ([], .beforeCode read)
    else (shortEscape? c).map fun denoted => ([], .inText (denoted :: read))
  | beforeCode read, c => if c = '\x7b' then some ([], .inCode read 0) else none
  | inCode read value, c =>
    if c = '\x7d' then
      if value.isValidChar then some ([], .inText (Char.ofNat value :: read)) else none
    else (hexValue? c).map fun digit => ([], .inCode read (value * 16 + digit))
  | slash, c => if c = '/' then some ([], .comment) else none
  | comment, c => some ([], if c = '\n' then .between else .comment)

end

end PropertySets.Code
