import PropertySets.Data.Value

/-!
# Tables of a TOML text

A text is a list of sections: entries under a heading. A heading names a table, or one more
element of a list of tables, by the keys that lead to it; an entry sets the value that its keys
lead to. Tables on the way come about by themselves, but no table is defined twice: a table with a
heading is not opened again, and a table that entries made grows only by entries.

* `Section`, `Heading` — the sections of a text.
* `insertEntry` — the effect of an entry on a table.
* `insertSection` — the effect of a section on the whole.
* `ofSections?` — the table that sections denote.
-/

namespace PropertySets.Data.Toml

/-- How a table came about. -/
inductive Origin where
  /-- It has a heading. -/
  | heading
  /-- A heading leads through it. -/
  | passage
  /-- The keys of an entry lead through it. -/
  | entry
  deriving DecidableEq, Repr

/-- What a key leads to while a text is read. -/
inductive Node where
  | value (v : Value)
  | table (origin : Origin) (fields : List (String × Node))
  | elements (tables : List (List (String × Node)))

/-- The fields of a table. -/
abbrev Fields := List (String × Node)

mutual

/-- The finished value of a node. -/
def Node.toValue : Node → Value
  | .value v => v
  | .table _ fields => .table (valuesOf fields)
  | .elements tables => .list (tablesOf tables)

/-- The finished values of fields. -/
def valuesOf : List (String × Node) → List (String × Value)
  | [] => []
  | (key, node) :: rest => (key, node.toValue) :: valuesOf rest

/-- The finished tables of a list. -/
def tablesOf : List (List (String × Node)) → List Value
  | [] => []
  | fields :: rest => .table (valuesOf fields) :: tablesOf rest

end

/-- Change the last element of a list. -/
def alterLast {α : Type} (change : α → Option α) : List α → Option (List α)
  | [] => none
  | [a] => (change a).map ([·])
  | a :: rest => (alterLast change rest).map (a :: ·)

/-! ## Entries -/

/-- Set the value that keys lead to, in a table whose origin is `origin`. Only the top of a section
and tables made by entries take the value itself. -/
def insertAlong (v : Value) (takes : Bool) : List String → Fields → Option Fields
  | [], _ => none
  | [key], fields =>
    if takes && (fields.lookup key).isNone then some (fields ++ [(key, .value v)]) else none
  | key :: rest, fields =>
    match fields.lookup key with
    | none => do return fields ++ [(key, .table .entry (← insertAlong v true rest []))]
    | some (.table .entry inner) => do
      return putField key (.table .entry (← insertAlong v true rest inner)) fields
    | some (.table .passage inner) => do
      return putField key (.table .passage (← insertAlong v false rest inner)) fields
    | some (.elements tables) => do
      return putField key (.elements (← alterLast (insertAlong v false rest) tables)) fields
    | some (.table .heading _) | some (.value _) => none

/-- Set the value that the keys of an entry lead to in the table of its section. -/
def insertEntry (fields : Fields) (entry : List String × Value) : Option Fields :=
  insertAlong entry.2 true entry.1 fields

/-- Set the values of entries, one after the other. -/
def insertEntries (entries : List (List String × Value)) (fields : Fields) : Option Fields :=
  entries.foldlM insertEntry fields

/-- The table that entries between braces denote. -/
def inlineTable? (entries : List (List String × Value)) : Option Value :=
  (insertEntries entries []).map fun fields => .table (valuesOf fields)

/-! ## Sections -/

/-- What a heading names. -/
inductive Heading where
  | table (keys : List String)
  /-- One more element of a list of tables. -/
  | element (keys : List String)
  deriving DecidableEq, Repr

/-- Entries under a heading. -/
structure Section where
  heading : Heading
  entries : List (List String × Value)
  deriving Repr

/-- Change the table that keys lead to, tables on the way being made where they are missing. -/
def alterAt (change : Fields → Option Fields) : List String → Fields → Option Fields
  | [], fields => change fields
  | key :: rest, fields =>
    match fields.lookup key with
    | none => do return fields ++ [(key, .table .passage (← alterAt change rest []))]
    | some (.table origin inner) => do
      return putField key (.table origin (← alterAt change rest inner)) fields
    | some (.elements tables) => do
      return putField key (.elements (← alterLast (alterAt change rest) tables)) fields
    | some (.value _) => none

/-- Define the table of a key; one that headings lead through already takes its place at the end. -/
def defineTable (entries : List (List String × Value)) (key : String) (fields : Fields) :
    Option Fields :=
  match fields.lookup key with
  | none => do return fields ++ [(key, .table .heading (← insertEntries entries []))]
  | some (.table .passage inner) => do
    let others := fields.filter fun field => field.1 != key
    return others ++ [(key, .table .heading (← insertEntries entries inner))]
  | some _ => none

/-- Define one more element of the list of tables of a key. -/
def defineElement (entries : List (List String × Value)) (key : String) (fields : Fields) :
    Option Fields :=
  match fields.lookup key with
  | none => do return fields ++ [(key, .elements [← insertEntries entries []])]
  | some (.elements tables) => do
    return putField key (.elements (tables ++ [← insertEntries entries []])) fields
  | some _ => none

/-- The effect of a section on the whole. -/
def insertSection (fields : Fields) (s : Section) : Option Fields :=
  match s.heading with
  | .table keys => do alterAt (defineTable s.entries (← keys.getLast?)) keys.dropLast fields
  | .element keys => do alterAt (defineElement s.entries (← keys.getLast?)) keys.dropLast fields

/-- The table that the entries above all headings and the sections denote. -/
def ofSections? (top : List (List String × Value)) (sections : List Section) : Option Value := do
  return .table (valuesOf (← sections.foldlM insertSection (← insertEntries top [])))

end PropertySets.Data.Toml
