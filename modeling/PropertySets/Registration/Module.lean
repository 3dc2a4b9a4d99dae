import PropertySets.Language
import PropertySets.Version

/-!
# Registration modules

The generated module registers property sets with the exporter. It has a routine for each set,
which describes the set and fills it in blocks, one for each definition; a block is entered only
if the revision of its definition is exported and the set is allowed. A routine that calls all
others comes first.
-/

namespace PropertySets.Registration

/-- The kinds of values in generated code. -/
inductive ValueKind where
  | singleValue
  | referenceValue
  | enumeratedValue
  | boundedValue
  | listValue
  | tableValue
  deriving DecidableEq, Repr

/-- The name of a kind in generated code. -/
def ValueKind.name : ValueKind → String
  | singleValue => "SingleValue"
  | referenceValue => "ReferenceValue"
  | enumeratedValue => "EnumeratedValue"
  | boundedValue => "BoundedValue"
  | listValue => "ListValue"
  | tableValue => "TableValue"

/-- A reference to an enumeration in the module of its tag. -/
structure EnumReference where
  /-- The module that the enumeration modules are mounted in. -/
  enumModule : String
  /-- The module of the tag. -/
  tagModule : String
  name : String
  deriving DecidableEq, Repr

/-- A localized name of an entry. -/
structure LocalizedName where
  language : Language
  text : String
  deriving DecidableEq, Repr

/-- What a block adds to the description for one property. -/
structure PropertyEntry where
  name : String
  /-- The type that backs the value. -/
  backingType : String
  kind : ValueKind
  enumeration : Option EnumReference
  localizedNames : List LocalizedName
  calculatorKey : String
  deriving DecidableEq, Repr

/-- What one definition adds to the description of its set. -/
structure Block where
  revision : Revision
  entityTypes : List String
  entries : List PropertyEntry
  deriving DecidableEq, Repr

/-- The routine of one property set. -/
structure Routine where
  setName : String
  /-- The name of the routine. -/
  routineName : String
  /-- The local variable that holds the description. -/
  localName : String
  /-- The known sub-element identifier of the set. -/
  subIndex : Option String
  blocks : List Block
  deriving DecidableEq, Repr

/-- A registration module. -/
structure Module where
  /-- The module that the types are taken from. -/
  runtimeModule : String
  /-- The routines that are called, in order. -/
  calls : List String
  routines : List Routine
  deriving DecidableEq, Repr

end PropertySets.Registration
