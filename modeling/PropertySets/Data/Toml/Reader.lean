import PropertySets.Data.Toml.Moment
import PropertySets.Data.Toml.Number
import PropertySets.Data.Toml.Quoted
import PropertySets.Data.Toml.Tree

/-!
# Reading TOML

A text is a list of lines: headings, entries, comments and blank lines. A value may reach over
several lines. A line break is a line feed, with or without a carriage return before it.

* `readValue`, `readEntry` — the parts of a line.
* `Line`, `readLines?` — the lines of a text.
* `read?` — the value that a text denotes.
-/

namespace PropertySets.Data.Toml

/-- The text with each carriage return and line feed made one line feed. -/
def unifyBreaks : List Char → List Char
  | [] => []
  | '\r' :: '\n' :: rest => '\n' :: unifyBreaks rest
  | c :: rest => c :: unifyBreaks rest

/-! ## Blanks and comments -/

/-- What follows blanks, line breaks and comments; `comment` tells that a comment has begun. None
if a comment holds a control. -/
def skipFiller (comment : Bool) : List Char → Option (List Char)
  | [] => some []
  | c :: rest =>
    if c = '\n' then skipFiller false rest
    else if comment then (if isPlain c then skipFiller true rest else none)
    else if c = '#' then skipFiller true rest
    else if isBlank c then skipFiller false rest
    else some (c :: rest)

/-- What follows the end of a line: blanks, perhaps a comment, and a line break or the end. -/
def readLineEnd (s : List Char) : Option (List Char) :=
  let s := s.dropWhile isBlank
  let s := if s.head? = some '#' then s.dropWhile isPlain else s
  match s with
  | [] => some []
  | '\n' :: rest => some rest
  | _ => none

/-! ## Keys -/

/-- The characters of a key without quotes. -/
def isBareChar (c : Char) : Bool := c.isAlphanum || c == '_' || c == '-'

/-- A key, and what follows. -/
def readKey (s : List Char) : Option (String × List Char) :=
  match s with
  | [] => none
  | c :: _ =>
    if c = '"' ∨ c = '\'' then (readLine s).map fun (key, rest) => (String.ofList key, rest)
    else
      let key := s.takeWhile isBareChar
      if key.isEmpty then none else some (String.ofList key, s.drop key.length)

/-- Keys with points between them and blanks around them, and what follows. Each step of `fuel`
reads one key. -/
def readKeysFrom : Nat → List Char → Option (List String × List Char)
  | 0, _ => none
  | fuel + 1, s => do
    let (key, rest) ← readKey (s.dropWhile isBlank)
    match rest.dropWhile isBlank with
    | '.' :: rest => do
      let (keys, rest) ← readKeysFrom fuel rest
      return (key :: keys, rest)
    | rest => return ([key], rest)

/-- How many keys in a row, and how many lists and tables in one another, are too many. -/
def depthLimit : Nat := 80

/-- Keys with points between them, and what follows. -/
def readKeys (s : List Char) : Option (List String × List Char) := do
  let (keys, rest) ← readKeysFrom (s.length + 1) s
  if keys.length < depthLimit then return (keys, rest) else none

/-! ## Values -/

/-- A value that is no list or table, and what follows. -/
def readScalar (s : List Char) : Option (Value × List Char) :=
  match s with
  | [] => none
  | 't' :: 'r' :: 'u' :: 'e' :: rest => some (.boolean true, rest)
  | 'f' :: 'a' :: 'l' :: 's' :: 'e' :: rest => some (.boolean false, rest)
  | c :: rest =>
    if c = '"' ∨ c = '\'' then
      (readString (c :: rest)).map fun (text, rest) => (.text (String.ofList text), rest)
    else
      match readMoment (c :: rest) with
      | some (moment, rest) => some (moment.toValue, rest)
      | none => readNumber (c :: rest)

/-- The items of a list and the bracket behind them, given how an item is read; a comma may stand
behind the last. Each step of `fuel` reads one item. -/
def readItems (item : List Char → Option (Value × List Char)) :
    Nat → List Char → Option (List Value × List Char)
  | 0, _ => none
  | fuel + 1, s => do
    match ← skipFiller false s with
    | ']' :: rest => return ([], rest)
    | s =>
      let (v, s) ← item s
      match ← skipFiller false s with
      | ']' :: rest => return ([v], rest)
      | ',' :: rest =>
        let (vs, rest) ← readItems item fuel rest
        return (v :: vs, rest)
      | _ => none

/-- An entry, given how a value is read, and what follows. -/
def readEntryWith (item : List Char → Option (Value × List Char)) (s : List Char) :
    Option ((List String × Value) × List Char) := do
  let (keys, s) ← readKeys s
  let s ← skip '=' s
  let (v, s) ← item (s.dropWhile isBlank)
  return ((keys, v), s.dropWhile isBlank)

/-- At least one entry and the brace behind the last, given how a value is read. Each step of
`fuel` reads one entry. -/
def readEntries (item : List Char → Option (Value × List Char)) :
    Nat → List Char → Option (List (List String × Value) × List Char)
  | 0, _ => none
  | fuel + 1, s => do
    let (entry, s) ← readEntryWith item s
    match s with
    | '\x7d' :: rest => return ([entry], rest)
    | ',' :: rest =>
      let (entries, rest) ← readEntries item fuel rest
      return (entry :: entries, rest)
    | _ => none

/-- A value in which lists and tables are nested at most `depth` deep, and what follows. -/
def readValue : Nat → List Char → Option (Value × List Char)
  | 0, s => readScalar s
  | depth + 1, s =>
    match s with
    | '[' :: rest => (readItems (readValue depth) (rest.length + 1) rest).map fun (items, rest) =>
      (.list items, rest)
    | '\x7b' :: rest =>
      match rest.dropWhile isBlank with
      | '\x7d' :: rest => some (.table [], rest)
      | rest => do
        let (entries, rest) ← readEntries (readValue depth) (rest.length + 1) rest
        return (← inlineTable? entries, rest)
    | s => readScalar s

/-- An entry, and what follows. -/
def readEntry (s : List Char) : Option ((List String × Value) × List Char) :=
  readEntryWith (readValue (depthLimit - 1)) s

/-! ## Lines -/

/-- A line that counts. -/
inductive Line where
  | entry (keys : List String) (v : Value)
  | heading (h : Heading)
  deriving Repr

/-- The heading whose first bracket has been read, and what follows. -/
def readHeading (s : List Char) : Option (Heading × List Char) :=
  match s with
  | '[' :: rest => do
    let (keys, rest) ← readKeys rest
    return (.element keys, ← skip ']' (← skip ']' rest))
  | s => do
    let (keys, rest) ← readKeys s
    return (.table keys, ← skip ']' rest)

/-- A line that is neither blank nor a comment, and what follows its end. -/
def readContent (s : List Char) : Option (Line × List Char) :=
  match s with
  | '[' :: rest => do
    let (h, rest) ← readHeading rest
    return (.heading h, ← readLineEnd rest)
  | s => do
    let ((keys, v), rest) ← readEntry s
    return (.entry keys v, ← readLineEnd rest)

/-- The lines that count; each step of `fuel` reads one. -/
def readLinesFrom : Nat → List Char → Option (List Line)
  | 0, _ => none
  | fuel + 1, s => do
    match ← skipFiller false s with
    | [] => return []
    | s =>
      let (line, rest) ← readContent s
      return line :: (← readLinesFrom fuel rest)

/-- The lines that count. -/
def readLines? (s : List Char) : Option (List Line) := readLinesFrom (s.length + 1) s

/-- The entries above all headings, and the sections. -/
def sectionsOf : List Line → List (List String × Value) × List Section
  | [] => ([], [])
  | .entry keys v :: rest =>
    let (top, sections) := sectionsOf rest
    ((keys, v) :: top, sections)
  | .heading h :: rest =>
    let (entries, sections) := sectionsOf rest
    ([], ⟨h, entries⟩ :: sections)

/-- The value that a text denotes, a table as a rule; a byte order mark at its start is dropped. -/
def read? (s : List Char) : Option Value := do
  let s := if s.head? = some '\ufeff' then s.drop 1 else s
  let (top, sections) := sectionsOf (← readLines? (unifyBreaks s))
  settle (← ofSections? top sections)

end PropertySets.Data.Toml
