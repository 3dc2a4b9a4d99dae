import PropertySets.Schema.Definition

/-!
# Definitions as text

The readable listing of a definition: its head, then one line for each property with its type, and
below it the lines of its identifier, its localized names and what its type contains, indented.

* `PropertyType.describe` — a type on one line.
* `Definition.listing` — the whole definition.
-/

namespace PropertySets

/-- An optional text, a dash when it is missing. -/
def orDash (s : Option String) : String := s.getD "-"

/-- A shape on one line. -/
def Shape.describe : Shape → String
  | .single t => "SingleValue(" ++ t ++ ")"
  | .reference e => "ReferenceValue(" ++ e ++ ")"
  | .enumerated name items =>
    "EnumeratedValue(" ++ name ++ ": " ++ ", ".intercalate (items.map EnumItem.literal) ++ ")"
  | .bounded t => "BoundedValue(" ++ orDash t ++ ")"
  | .list t => "ListValue(" ++ orDash t ++ ")"
  | .table expression defining defined =>
    "TableValue(defining: " ++ orDash defining ++ ", defined: " ++ orDash defined ++
      ", expression: " ++ orDash expression ++ ")"

/-- A bundle of properties on one line. -/
def describeBundle (name : String) (size : Nat) : String :=
  "ComplexProperty(" ++ name ++ ", " ++ toString size ++ " properties)"

namespace PropertyType

/-- A type on one line. -/
def describe : PropertyType → String
  | value shape => shape.describe
  | bundle name properties => describeBundle name properties.length

/-- The element that a type is written as in a definition document. -/
def elementName : PropertyType → String
  | value (.single _) => "TypePropertySingleValue"
  | value (.reference _) => "TypePropertyReferenceValue"
  | value (.enumerated _ _) => "TypePropertyEnumeratedValue"
  | value (.bounded _) => "TypePropertyBoundedValue"
  | value (.list _) => "TypePropertyListValue"
  | value (.table _ _ _) => "TypePropertyTableValue"
  | bundle _ _ => "TypeComplexProperty"

/-- Is the type a bundle of properties? -/
def isComplex : PropertyType → Bool
  | value _ => false
  | bundle _ _ => true

end PropertyType

/-- The lines that every property starts with: its name and type, its identifier and aliases. -/
def Label.lines (l : Label) (indent : Nat) (type : String) : List String :=
  let pad := String.ofList (List.replicate indent ' ')
  (pad ++ l.name ++ ": " ++ type) ::
    (l.guid.toList.map fun guid => pad ++ "  ifdguid: " ++ guid) ++
    l.aliases.map fun a => pad ++ "  alias [" ++ a.language ++ "]: " ++ a.text

/-- The localized names of a literal, a line each. -/
def EnumItem.lines (indent : Nat) (item : EnumItem) : List String :=
  item.aliases.map fun a =>
    String.ofList (List.replicate indent ' ') ++ item.literal ++ " [" ++ a.language ++ "]: " ++
      a.text

/-- The lines of a shape's literals. -/
def Shape.lines (indent : Nat) : Shape → List String
  | .enumerated _ items => items.flatMap (EnumItem.lines indent)
  | _ => []

mutual

/-- The lines of a property. -/
def Property.lines (indent : Nat) : Property → List String
  | .typeless l => l.lines indent "<no type>"
  | .valued l shape => l.lines indent shape.describe ++ shape.lines (indent + 2)
  | .complex l name properties =>
    l.lines indent (describeBundle name properties.length) ++
      Property.linesOfList (indent + 4) properties

/-- The lines of properties one after the other. -/
def Property.linesOfList (indent : Nat) : List Property → List String
  | [] => []
  | p :: ps => Property.lines indent p ++ Property.linesOfList indent ps

end

namespace Definition

/-- The lines of a definition. -/
def lines (d : Definition) : List String :=
  ["Name: " ++ d.name, "IfcVersion: " ++ d.version] ++
    (d.guid.toList.map fun guid => "IfdGuid: " ++ guid) ++
    ["ApplicableClasses: " ++ ", ".intercalate d.applicableClasses, "Properties:"] ++
    Property.linesOfList 2 d.properties

/-- The listing of a definition, every line ended. -/
def listing (d : Definition) : String := String.join (d.lines.map (· ++ "\n"))

end Definition

end PropertySets
