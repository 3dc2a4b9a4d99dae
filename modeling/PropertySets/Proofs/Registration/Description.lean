import PropertySets.Proofs.Code.Machine
import PropertySets.Registration.OfRegistry

/-!
# What a registry means to the exporter

The exporter has flags for the revisions it exports, an allow-list of sets, and calculators. In an
export a set is described by those of its editions that are enabled, one after the other; a set
none of whose enabled editions has an entry is not described.

* `ExportContext`, `ExportContext.enables` — an export, and the editions that count in it.
* `ExportedEntry`, `Description` — what is known of a property and of a set.
* `descriptions` — the descriptions of the sets of a registry.
* `ExportContext.value`, `ExportedEntry.value`, `Description.value` — the same as values of
  generated code.
-/

namespace PropertySets.Registration

open Code Naming

/-! ## Exports -/

/-- What the exporter is told about an export. -/
structure ExportContext where
  as2x2 : Bool
  as2x3 : Bool
  as4add1 : Bool
  as4add2 : Bool
  /-- The version of the exported file, as it is shown. -/
  fileVersion : String
  /-- Is a set allowed in a version of the file? -/
  allows : String → String → Bool
  calculators : Calculators

namespace ExportContext

/-- Is the flag of a revision set? -/
def exports (x : ExportContext) : Revision → Bool
  | .ifc2x2 => x.as2x2
  | .ifc2x3tc1 => x.as2x3
  | .ifc4add1 => x.as4add1
  | .ifc4add2 => x.as4add2

/-- Is a set allowed? -/
def allowsSet (x : ExportContext) (setName : String) : Bool :=
  x.allows (Text.uppercase x.fileVersion) setName

/-- Does an edition of a set count? -/
def enables (x : ExportContext) (setName : String) (e : Edition) : Bool :=
  (revision? e).any x.exports && x.allowsSet setName

end ExportContext

/-! ## Descriptions -/

/-- What the exporter knows of a property. -/
structure ExportedEntry where
  name : String
  backingType : String
  kind : ValueKind
  /-- The path to the enumeration. -/
  enumeration : Option String
  localizedNames : List LocalizedName
  calculator : Option Calculator

/-- What the exporter knows of a set. -/
structure Description where
  setName : String
  subIndex : Option String
  entityTypes : List String
  entries : List ExportedEntry

/-- The path to an enumeration. -/
def EnumReference.path (r : EnumReference) : String :=
  r.enumModule ++ "::" ++ r.tagModule ++ "::" ++ r.name

/-- What is known of a property of an edition. Properties without a type, and complex ones, are not
exported. -/
def ExportedEntry.ofProperty? (x : ExportContext) (c : Configuration) (e : Edition) :
    Property → Option ExportedEntry
  | .typeless _ => none
  | .complex _ _ _ => none
  | .valued l shape => some {
      name := l.name
      backingType := backingTypeOf shape
      kind := .ofShape shape
      enumeration := (enumReference? c e shape).map EnumReference.path
      localizedNames := l.aliases.map fun a => ⟨.ofTag a.language, a.text⟩
      calculator := x.calculators.find? (calculatorKey l.name) }

/-- The entries of an edition. -/
def exportedEntries (x : ExportContext) (c : Configuration) (e : Edition) : List ExportedEntry :=
  (flattened e.definition).filterMap (ExportedEntry.ofProperty? x c e)

/-- What is known of a set, if there is an entry. -/
def Description.ofGroup? (x : ExportContext) (c : Configuration) (group : String × List Edition) :
    Option Description :=
  let enabled := group.2.filter (x.enables group.1)
  let entries := enabled.flatMap (exportedEntries x c)
  if entries.isEmpty then none
  else some {
    setName := group.1
    subIndex := subIndex? c group.1
    entityTypes := enabled.flatMap fun e => e.definition.applicableClasses.map (entityType c)
    entries := entries }

/-- What is known of the sets of a registry, in the order of their names. -/
def descriptions (x : ExportContext) (c : Configuration) (r : Registry) : List Description :=
  r.groups.filterMap (Description.ofGroup? x c)

/-! ## Values -/

/-- The export context that routines are given. -/
def ExportContext.value (x : ExportContext) : Value :=
  .record "ExportContext"
    [("options", .record "ExportOptions"
      [("export_as_2x2", .flag x.as2x2), ("export_as_2x3", .flag x.as2x3),
        ("export_as_4_add1", .flag x.as4add1), ("export_as_4_add2", .flag x.as4add2),
        ("file_version", .text x.fileVersion)]),
      ("certified_psets", .allowList x.allows), ("calculators", .calculators x.calculators)]

/-- A localized name in an entry. -/
def LocalizedName.value (l : LocalizedName) : Value :=
  .list [.constant ["LanguageType", l.language.name], .text l.text]

/-- An entry of a description. -/
def ExportedEntry.value (e : ExportedEntry) : Value :=
  .record "PropertySetEntry"
    [("parameter_name", .text e.name), ("property_name", .text e.name),
      ("property_type", .constant ["PropertyType", e.backingType]),
      ("property_value_type", .constant ["PropertyValueType", e.kind.name]),
      ("property_enumeration_type", .ofOption .text e.enumeration),
      ("localized_parameter_names", .list (e.localizedNames.map LocalizedName.value)),
      ("property_calculator", .ofOption .calculator e.calculator)]

/-- A description as it is pushed. Without a sub-element index, that field stays as it is made. -/
def Description.value (d : Description) : Value :=
  .record "PropertySetDescription"
    [("name", .text d.setName),
      ("sub_element_index", (d.subIndex.map fun s => .number ["IfcCommonPSets", s]).getD .absent),
      ("entity_types", .list (d.entityTypes.map fun entity => .constant ["IfcEntityType", entity])),
      ("entries", .list (d.entries.map ExportedEntry.value))]

end PropertySets.Registration
