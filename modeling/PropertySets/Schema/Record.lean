import PropertySets.Data.Value
import PropertySets.Registry

/-!
# The model as structured data

The fields under which definitions are written to a data format. An identifier that is missing and
aliases that are missing leave their field out; a missing type is written as null.

* `Definition.toValue`, `Edition.toValue`, `Registry.toValue`.
-/

namespace PropertySets

open Data

/-- An optional text, null when it is missing. -/
def optionalText (s : Option String) : Value := (s.map Value.text).getD .null

/-- A localized name. -/
def Alias.toValue (a : Alias) : Value :=
  .table [("alias", .text a.text), ("language", .text a.language)]

/-- A literal with its localized names. -/
def EnumItem.toValue (i : EnumItem) : Value :=
  .table [("enum_item", .text i.literal), ("aliases", .list (i.aliases.map Alias.toValue))]

/-- A shape, its kind first. -/
def Shape.toValue : Shape → Value
  | .single t => .table [("kind", .text "SingleValue"), ("data_type", .text t)]
  | .reference e => .table [("kind", .text "ReferenceValue"), ("ref_entity", .text e)]
  | .enumerated name items =>
    .table [("kind", .text "EnumeratedValue"), ("name", .text name),
      ("enum_def", .list (items.map EnumItem.toValue))]
  | .bounded t => .table [("kind", .text "BoundedValue"), ("data_type", optionalText t)]
  | .list t => .table [("kind", .text "ListValue"), ("data_type", optionalText t)]
  | .table expression defining defined =>
    .table [("kind", .text "TableValue"), ("expression", optionalText expression),
      ("defining_value_type", optionalText defining), ("defined_value_type", optionalText defined)]

/-- The fields of a label, and behind them the type. -/
def Label.fieldsWith (l : Label) (type : Value) : List (String × Value) :=
  [("name", .text l.name)] ++
    (l.guid.toList.map fun guid => ("ifd_guid", .text guid)) ++
    (if l.aliases.isEmpty then []
      else [("name_aliases", .list (l.aliases.map Alias.toValue))]) ++
    [("property_type", type)]

/-- A bundle of properties. -/
def bundleValue (name : String) (properties : List Value) : Value :=
  .table [("kind", .text "ComplexProperty"), ("name", .text name), ("properties", .list properties)]

mutual

/-- A property. -/
def Property.toValue : Property → Value
  | .typeless l => .table (l.fieldsWith .null)
  | .valued l shape => .table (l.fieldsWith shape.toValue)
  | .complex l name properties =>
    .table (l.fieldsWith (bundleValue name (Property.valuesOfList properties)))

/-- The values of properties. -/
def Property.valuesOfList : List Property → List Value
  | [] => []
  | p :: ps => Property.toValue p :: Property.valuesOfList ps

end

/-- A type. -/
def PropertyType.toValue : PropertyType → Value
  | .value shape => shape.toValue
  | .bundle name properties => bundleValue name (Property.valuesOfList properties)

/-- A definition. -/
def Definition.toValue (d : Definition) : Value :=
  .table ([("name", .text d.name), ("ifc_version", .text d.version)] ++
    (d.guid.toList.map fun guid => ("ifd_guid", .text guid)) ++
    [("applicable_classes", .list (d.applicableClasses.map Value.text)),
      ("properties", .list (Property.valuesOfList d.properties))])

/-- An edition. -/
def Edition.toValue (e : Edition) : Value :=
  .table [("schema_folder", .text e.folder), ("ifc_version", .text e.version),
    ("definition", e.definition.toValue)]

/-- A registry: a list of editions under each name. -/
def Registry.toValue (r : Registry) : Value :=
  .table (r.groups.map fun (name, editions) => (name, .list (editions.map Edition.toValue)))

end PropertySets
