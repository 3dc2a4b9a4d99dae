import PropertySets.Data.Json.Number

/-!
# Reading JSON

A JSON text is one value with white space around it. Of two fields with the same key the later one
counts.

* `Json.read?` — the value of a text.
-/

namespace PropertySets.Data.Json

/-- The characters that may stand between the parts of a value. -/
def isSpace (c : Char) : Bool := c == ' ' || c == '\t' || c == '\n' || c == '\r'

/-! ## Strings -/

/-- What a string is written of. -/
inductive Piece where
  /-- A character, written as it is or with a short escape. -/
  | character (c : Char)
  /-- A code of sixteen bits, written as four hexadecimal digits. -/
  | code (n : Nat)
  deriving DecidableEq, Repr

/-- The character of a short escape. -/
def shortEscape? (c : Char) : Option Char :=
  match c with
  | '"' => some '"'
  | '\\' => some '\\'
  | '/' => some '/'
  | 'b' => some '\x08'
  | 'f' => some '\x0c'
  | 'n' => some '\n'
  | 'r' => some '\r'
  | 't' => some '\t'
  | _ => none

/-- The pieces of a string up to its closing quote, and what follows. -/
def readPieces : List Char → Option (List Piece × List Char)
  | [] => none
  | '"' :: rest => some ([], rest)
  | '\\' :: 'u' :: a :: b :: c :: d :: rest => do
    let digits := [a, b, c, d]
    if !digits.all fun x => (Text.hexValue? x).isSome then none
    let (pieces, tail) ← readPieces rest
    return (.code (Integer.ofDigits 16 digits) :: pieces, tail)
  | '\\' :: e :: rest => do
    let c ← shortEscape? e
    let (pieces, tail) ← readPieces rest
    return (.character c :: pieces, tail)
  | c :: rest => do
    if c.toNat < 0x20 then none
    let (pieces, tail) ← readPieces rest
    return (.character c :: pieces, tail)

/-- The characters of pieces: two surrogate codes in a row are one character, and a surrogate code
may not stand alone. -/
def joinPieces : List Piece → Option (List Char)
  | [] => some []
  | .character c :: rest => (joinPieces rest).map (c :: ·)
  | .code high :: rest =>
    if 0xD800 ≤ high ∧ high < 0xDC00 then
      match rest with
      | .code low :: rest =>
        if 0xDC00 ≤ low ∧ low < 0xE000 then
          let c := Char.ofNat (0x10000 + (high - 0xD800) * 0x400 + (low - 0xDC00))
          (joinPieces rest).map (c :: ·)
        else none
      | _ => none
    else if high.isValidChar then (joinPieces rest).map (Char.ofNat high :: ·)
    else none

/-- The text of a string whose opening quote has been read, and what follows. -/
def readString (s : List Char) : Option (String × List Char) := do
  let (pieces, rest) ← readPieces s
  return (String.ofList (← joinPieces pieces), rest)

/-! ## Values -/

/-- A text, a number or one of the three words, and what follows. -/
def readScalar (s : List Char) : Option (Value × List Char) :=
  match s with
  | '"' :: rest => (readString rest).map fun (text, rest) => (.text text, rest)
  | 't' :: 'r' :: 'u' :: 'e' :: rest => some (.boolean true, rest)
  | 'f' :: 'a' :: 'l' :: 's' :: 'e' :: rest => some (.boolean false, rest)
  | 'n' :: 'u' :: 'l' :: 'l' :: rest => some (.null, rest)
  | s => readNumber s

/-- At least one item and the bracket behind the last, given how an item is read. Each step of
`fuel` reads one item. -/
def readItems (item : List Char → Option (Value × List Char)) :
    Nat → List Char → Option (List Value × List Char)
  | 0, _ => none
  | fuel + 1, s => do
    let (v, s) ← item (s.dropWhile isSpace)
    match s.dropWhile isSpace with
    | ']' :: rest => return ([v], rest)
    | ',' :: rest =>
      let (vs, rest) ← readItems item fuel rest
      return (v :: vs, rest)
    | _ => none

/-- At least one field and the brace behind the last, given how a value is read. Each step of
`fuel` reads one field. -/
def readFields (item : List Char → Option (Value × List Char)) :
    Nat → List Char → Option (List (String × Value) × List Char)
  | 0, _ => none
  | fuel + 1, s => do
    match s.dropWhile isSpace with
    | '"' :: rest =>
      let (key, rest) ← readString rest
      match rest.dropWhile isSpace with
      | ':' :: rest =>
        let (v, rest) ← item (rest.dropWhile isSpace)
        match rest.dropWhile isSpace with
        | '\x7d' :: rest => return ([(key, v)], rest)
        | ',' :: rest =>
          let (fields, rest) ← readFields item fuel rest
          return ((key, v) :: fields, rest)
        | _ => none
      | _ => none
    | _ => none

/-- A value in which lists and tables are nested at most `depth` deep, and what follows. -/
def readValue : Nat → List Char → Option (Value × List Char)
  | 0, s => readScalar s
  | depth + 1, s =>
    match s with
    | '[' :: rest =>
      match rest.dropWhile isSpace with
      | ']' :: rest => some (.list [], rest)
      -- the fuel is enough, as every item has a character at least
      | rest => (readItems (readValue depth) rest.length rest).map fun (items, rest) =>
        (.list items, rest)
    | '\x7b' :: rest =>
      match rest.dropWhile isSpace with
      | '\x7d' :: rest => some (.table [], rest)
      | rest => (readFields (readValue depth) rest.length rest).map fun (fields, rest) =>
        (.table (lastFields fields), rest)
    | s => readScalar s

/-- How deep lists and tables may be nested. -/
def depthLimit : Nat := 127

/-- The value of a text. -/
def read? (s : List Char) : Option Value :=
  match readValue depthLimit (s.dropWhile isSpace) with
  | some (v, rest) => if rest.all isSpace then some v else none
  | none => none

end PropertySets.Data.Json
