/-!
# Diagnostics

Reading documents and generating code never stop at a flaw of the documents; they report it. A
diagnostic names the kind of flaw, where it was found and what it is about. An omission means that
something was left out, a warning that the best was made of something, an information that a
lookup found nothing.

* `Code` — the kinds of flaws, with their identifiers and severities.
* `Diagnostic` — one flaw; `Diagnostics` — the flaws of a run, in the order they were found.
-/

namespace PropertySets

/-- How bad a flaw is. -/
inductive Severity where
  | info
  | warning
  | omission
  deriving DecidableEq, Repr

/-- The name of a severity. -/
def Severity.name : Severity → String
  | info => "info"
  | warning => "warning"
  | omission => "omission"

/-- The kinds of flaws. -/
inductive Code where
  /-- A required element or attribute is absent. -/
  | missingRequiredField
  /-- A property has no type. -/
  | missingPropertyType
  /-- A property has a type that is not known. -/
  | unknownPropertyType
  /-- The file is no well-formed document. -/
  | malformedDocument
  /-- An enumeration has neither literals nor constants. -/
  | emptyEnumeration
  /-- An enumeration has different numbers of literals and constants. -/
  | enumConstantMismatch
  /-- An enumeration has no literals; they were taken from its constants. -/
  | enumListEmpty
  /-- A missing data type was replaced by the default one. -/
  | defaultedDataType
  /-- An enumeration was defined before with other literals. -/
  | conflictingEnumDefinition
  /-- A definition belongs to no revision that can be exported. -/
  | unknownRevision
  /-- A complex property lies in a complex property. -/
  | nestedComplexProperty
  /-- A property without a type was skipped. -/
  | typelessProperty
  /-- A variant was moved to a free discriminant. -/
  | discriminantCollision
  /-- A property set has no known sub-element index. -/
  | subIndexNotFound
  /-- A locale tag is not known. -/
  | unknownLanguage
  deriving DecidableEq, Repr

namespace Code

/-- The identifier of a kind of flaw. -/
def id : Code → String
  | missingRequiredField => "P001"
  | missingPropertyType => "P002"
  | unknownPropertyType => "P003"
  | malformedDocument => "P004"
  | emptyEnumeration => "P005"
  | enumConstantMismatch => "W001"
  | enumListEmpty => "W002"
  | defaultedDataType => "W003"
  | conflictingEnumDefinition => "W004"
  | unknownRevision => "W005"
  | nestedComplexProperty => "W006"
  | typelessProperty => "W007"
  | discriminantCollision => "W008"
  | subIndexNotFound => "L001"
  | unknownLanguage => "L002"

/-- The severity of a kind of flaw. -/
def severity : Code → Severity
  | missingRequiredField | missingPropertyType | unknownPropertyType | malformedDocument
  | emptyEnumeration => .omission
  | enumConstantMismatch | enumListEmpty | defaultedDataType | conflictingEnumDefinition
  | unknownRevision | nestedComplexProperty | typelessProperty | discriminantCollision => .warning
  | subIndexNotFound | unknownLanguage => .info

end Code

/-- A flaw that was found. -/
structure Diagnostic where
  /-- The file or property set it was found in. -/
  source : String
  code : Code
  message : String
  /-- Further facts, a line each. -/
  context : List String
  deriving DecidableEq, Repr

namespace Diagnostic

/-- A flaw without further facts. -/
def of (source : String) (code : Code) (message : String) : Diagnostic :=
  ⟨source, code, message, []⟩

/-- A required element or attribute of `owner` is missing. -/
def missingField (source owner field : String) : Diagnostic :=
  of source .missingRequiredField ("Missing required '" ++ field ++ "' for " ++ owner)

/-- The numbers of literals and of constants of a property differ. -/
def enumMismatch (source property : String) (literals constants : Nat) : Diagnostic :=
  ⟨source, .enumConstantMismatch,
    "EnumList (" ++ toString literals ++ ") is not consistent with the ConstantList (" ++
      toString constants ++ ") for " ++ property,
    ["matching constants were used where found"]⟩

/-- The severity of a flaw. -/
def severity (d : Diagnostic) : Severity := d.code.severity

/-- A flaw as it is shown: one line, and one for each further fact. -/
def render (d : Diagnostic) : String :=
  "[" ++ d.code.id ++ "] " ++ d.severity.name ++ ": " ++ d.message ++ " (" ++ d.source ++ ")" ++
    String.join (d.context.map fun fact => "\n  - " ++ fact)

end Diagnostic

/-- The flaws of a run, in the order they were found. -/
abbrev Diagnostics := List Diagnostic

namespace Diagnostics

/-- The flaws of a severity. -/
def withSeverity (ds : Diagnostics) (s : Severity) : Diagnostics := ds.filter (·.severity == s)

/-- The flaws that left something out. -/
def omissions (ds : Diagnostics) : Diagnostics := withSeverity ds .omission

/-- The flaws that the best was made of. -/
def warnings (ds : Diagnostics) : Diagnostics := withSeverity ds .warning

/-- The lookups that found nothing. -/
def lookupMisses (ds : Diagnostics) : Diagnostics := withSeverity ds .info

/-- The flaws of a kind. -/
def withCode (ds : Diagnostics) (code : Code) : Diagnostics := ds.filter (·.code == code)

/-- Was anything left out? -/
def hasOmissions (ds : Diagnostics) : Bool := ds.any (·.severity == .omission)

/-- All flaws as they are shown, with a closing count unless there are none. -/
def render (ds : Diagnostics) : String :=
  String.join (ds.map fun d => d.render ++ "\n") ++
    if ds.isEmpty then ""
    else "\n" ++ toString (omissions ds).length ++ " omission(s), " ++
      toString (warnings ds).length ++ " warning(s)\n"

end Diagnostics

end PropertySets
