import PropertySets.Text.Blank
import PropertySets.Text.Digit
import PropertySets.Text.Pieces

/-!
# Names derived from schema names

* `sanitizeLiteral` — the variant declaration of an enumeration literal.
* `stripDecorations` — a data type name without its measure vocabulary.
* `subIndexCandidate` — the identifier that a property set may have as a sub-element.
* `versionModule` — the module of a version tag.
* `className` — the entity type named by an applicable class.
* `calculatorKey` — the key that a property's calculator is filed under.
-/

namespace PropertySets.Naming

open Text

/-- The variant declaration of a literal: digits get an underscore before them, a literal of digits
only also its value, and dots and dashes are dropped everywhere. -/
def sanitizeLiteral (literal : String) : String :=
  let s := literal.toList
  let value := if !s.isEmpty && s.all isDecimalDigit then " = ".toList ++ s else []
  -- the digits are looked for before anything is dropped
  let named := if s.head?.any isDecimalDigit then '_' :: s ++ value else s
  String.ofList (named.filter fun c => c ≠ '.' && c ≠ '-')

/-- A data type name without `Ifc` and, after that, without `Measure`. -/
def stripDecorations (dataType : String) : String :=
  trim (String.ofList (erase "Measure".toList (erase "Ifc".toList dataType.toList)))

/-- The sub-element identifier that belongs to a property set name. -/
def subIndexCandidate (setName : String) : String :=
  let s := setName.toList
  match (stripStart? "Pset_".toList s).or (stripStart? "PSet_".toList s) with
  | some rest => "PSet" ++ String.ofList rest
  | none => setName

/-- The module that holds the enumerations of a version tag. -/
def versionModule (tag : String) : String :=
  let s := tag.toList.map fun c => if c.isAlphanum then c.toLower else '_'
  match s with
  | [] => "_"
  | c :: _ => if c.isDigit then String.ofList ('_' :: s) else String.ofList s

/-- The entity type of an applicable class: a predefined type behind a slash is cut off. -/
def className (raw : String) : String := String.ofList (raw.toList.takeWhile (· ≠ '/'))

/-- The key of a property's calculator. -/
def calculatorKey (propertyName : String) : String := propertyName ++ "Calculator"

end PropertySets.Naming
