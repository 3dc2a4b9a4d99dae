import PropertySets.Data.Integer
import PropertySets.Data.Real
import PropertySets.Data.Value
import PropertySets.Text.CaseMap
import PropertySets.Text.Pieces

/-!
# Layers of settings

Settings come in layers, and a later layer wins: tables are merged key by key, anything else takes
the place of what was there. A key at the top of a layer may be a path (`output.path`, `list[0]`);
one that is no path stands for itself. Keys do not distinguish capitals from small letters.

* `merge` — one value put over another under a key.
* `Step`, `readKeyPath?` — keys that are paths.
* `addLayer` — the effect of a layer.
* `ofEnvironment` — the layer of environment variables.
-/

namespace PropertySets.Configuration

open Data

/-- One layer of settings, in the order in which they are set. -/
abbrev Layer := List (String × Value)

/-! ## Merging -/

mutual

/-- The table `target` with `v` merged into its field of `key`; what is no table counts as an empty
one. -/
def merge (key : String) (v : Value) (target : Value) : Value :=
  let name := Text.lowercase key
  match v with
  | .table fields =>
    -- fields that the table does not set stay
    let inner := (target.field? name).getD (.table [])
    .table (putField name (mergeAll fields inner) target.fields)
  | v => .table (putField name v target.fields)

/-- The table `target` with fields merged into it, one after the other. -/
def mergeAll (fields : List (String × Value)) (target : Value) : Value :=
  match fields with
  | [] => target
  | (key, v) :: rest => mergeAll rest (merge key v target)

end

/-! ## Paths -/

/-- A step of a path. -/
inductive Step where
  | field (key : String)
  /-- An item of a list, counted from its end if negative. -/
  | item (index : Int)
  deriving DecidableEq, Repr

/-- The characters of a key within a path. -/
def isKeyChar (c : Char) : Bool := c.isAlphanum || c == ' ' || c == '_' || c == '-'

/-- A key within a path, and what follows. -/
def readKey (s : List Char) : Option (String × List Char) :=
  let key := s.takeWhile isKeyChar
  if key.isEmpty then none else some (String.ofList key, s.drop key.length)

/-- The index whose opening bracket has been read, and what follows its closing one. -/
def readIndex (s : List Char) : Option (Int × List Char) :=
  let isBlank (c : Char) : Bool := c == ' ' || c == '\t'
  let s := s.dropWhile isBlank
  let digits := s.takeWhile fun c => c.isDigit || c == '-'
  match Integer.read? digits, (s.drop digits.length).dropWhile isBlank with
  | some index, ']' :: rest => some (index, rest)
  | _, _ => none

/-- The steps behind the first key; each step of `fuel` reads one. -/
def readSteps : Nat → List Char → Option (List Step)
  | _, [] => some []
  | 0, _ => none
  | fuel + 1, '.' :: rest => do
    let (key, rest) ← readKey rest
    return .field key :: (← readSteps fuel rest)
  | fuel + 1, '[' :: rest => do
    let (index, rest) ← readIndex rest
    return .item index :: (← readSteps fuel rest)
  | _, _ => none

/-- The steps of a key that is a path. -/
def readKeyPath? (s : List Char) : Option (List Step) := do
  let (key, rest) ← readKey s
  return .field key :: (← readSteps rest.length rest)

/-- The items of a list, none for any other value. -/
def itemsOf : Value → List Value
  | .list items => items
  | _ => []

/-- The place of an index in a list of some length. -/
def placeOf (index : Int) (length : Nat) : Nat :=
  if 0 ≤ index then index.toNat else (length + index).toNat

/-- The items with the one at `place` changed, the list being filled up to it. -/
def alterItem (place : Nat) (change : Value → Value) (items : List Value) : List Value :=
  let filled := items ++ List.replicate (place + 1 - items.length) .null
  filled.modify place change

/-- Put `v` where steps lead to; at the last key it is merged. -/
def setAlong (v : Value) : List Step → Value → Value
  | [], _ => v
  | [.field key], target => merge key v target
  | .field key :: rest, target =>
    let name := Text.lowercase key
    .table (putField name (setAlong v rest ((target.field? name).getD .null)) target.fields)
  | .item index :: rest, target =>
    let items := itemsOf target
    .list (alterItem (placeOf index items.length) (setAlong v rest) items)

/-! ## Layers -/

/-- The settings with one more of a layer set. -/
def addSetting (settings : Value) (entry : String × Value) : Value :=
  match readKeyPath? entry.1.toList with
  | some steps => setAlong entry.2 steps settings
  | none => merge entry.1 entry.2 settings

/-- The settings with a layer put over them. -/
def addLayer (settings : Value) (layer : Layer) : Value := layer.foldl addSetting settings

/-- The settings of layers, later ones winning. -/
def combine (layers : List Layer) : Value := layers.foldl addLayer (.table [])

/-! ## Environment variables -/

/-- How the names of variables that hold settings start, in small letters. -/
def variableStart : List Char := "psdgen__".toList

/-- The key that a name behind its start stands for: two underscores divide it. -/
def keyOfName : List Char → List Char
  | [] => []
  | '_' :: '_' :: rest => '.' :: keyOfName rest
  | c :: rest => c :: keyOfName rest

/-- The value of a variable: a truth value or a number if it reads as one, and else a text. -/
def valueOfText (s : String) : Value :=
  let word := Text.lowercase s
  if word = "true" then .boolean true
  else if word = "false" then .boolean false
  else match Integer.read? s.toList with
    | some n => .integer n
    | none =>
      match Real.read? s.toList with
      | some x => .real x
      | none => .text s

/-- The setting that a variable holds, if its name is that of a setting. -/
def ofVariable? (v : String × String) : Option (String × Value) :=
  (Text.stripStart? variableStart (Text.lowercase v.1).toList).map fun name =>
    (String.ofList (keyOfName name), valueOfText v.2)

/-- The layer of environment variables. -/
def ofEnvironment (environment : List (String × String)) : Layer :=
  environment.filterMap ofVariable?

end PropertySets.Configuration
