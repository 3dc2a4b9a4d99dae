/-!
# Property set definitions

A definition names a property set, the schema version it belongs to, the entity types it applies
to, and its properties in document order. A property is typeless, has a value of some shape, or is
complex: a named bundle of further properties.

* `Shape` — the shapes of a value.
* `Property`, `Property.type?`, `Property.ofType` — properties, and their type as one value.
* `Definition`, `Edition` — a definition, and a definition with the schema folder it lies in.
-/

namespace PropertySets

/-- A localized name with the locale tag it was written under. -/
structure Alias where
  text : String
  language : String
  deriving DecidableEq, Repr

/-- A literal of an enumeration with its localized names. -/
structure EnumItem where
  literal : String
  aliases : List Alias
  deriving DecidableEq, Repr

/-- The shape of a property's value. -/
inductive Shape where
  | single (dataType : String)
  | reference (entity : String)
  | enumerated (name : String) (items : List EnumItem)
  | bounded (dataType : Option String)
  | list (dataType : Option String)
  | table (expression definingType definedType : Option String)
  deriving DecidableEq, Repr

/-- What every property carries whatever its type. -/
structure Label where
  name : String
  guid : Option String
  aliases : List Alias
  deriving DecidableEq, Repr

/-- A property of a property set. -/
inductive Property where
  | typeless (label : Label)
  | valued (label : Label) (shape : Shape)
  | complex (label : Label) (typeName : String) (properties : List Property)
  deriving Repr

/-- The type of a property: a shape, or a named bundle of properties. -/
inductive PropertyType where
  | value (shape : Shape)
  | bundle (name : String) (properties : List Property)
  deriving Repr

namespace Property

/-- The label of a property. -/
def label : Property → Label
  | typeless l => l
  | valued l _ => l
  | complex l _ _ => l

/-- The name of a property. -/
def name (p : Property) : String := p.label.name

/-- The type of a property, if it has one. -/
def type? : Property → Option PropertyType
  | typeless _ => none
  | valued _ shape => some (.value shape)
  | complex _ name properties => some (.bundle name properties)

/-- The property with a label and, if it has one, a type. -/
def ofType (label : Label) : Option PropertyType → Property
  | none => typeless label
  | some (.value shape) => valued label shape
  | some (.bundle name properties) => complex label name properties

end Property

/-- A property set as one document defines it. -/
structure Definition where
  name : String
  /-- The normalized version tag. -/
  version : String
  guid : Option String
  /-- The entity types the set applies to, in document order. -/
  applicableClasses : List String
  /-- The properties, in document order. -/
  properties : List Property
  deriving Repr

/-- A definition and the schema folder it was found in. -/
structure Edition where
  folder : String
  definition : Definition
  deriving Repr

namespace Edition

/-- The name of the set. -/
def name (e : Edition) : String := e.definition.name

/-- The version tag of the definition. -/
def version (e : Edition) : String := e.definition.version

end Edition

end PropertySets
