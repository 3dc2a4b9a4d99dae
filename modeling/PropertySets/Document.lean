import PropertySets.Diagnostic
import PropertySets.Naming.Tokens
import PropertySets.Schema.Definition
import PropertySets.Text.CaseMap
import PropertySets.Version
import PropertySets.Xml.Reader

/-!
# Definition documents

A definition document is an XML document that defines one property set. Elements are matched by
their local names and attributes are those without a namespace, so documents of every release are
read alike. Missing data never fails the reading: the property, or the whole set when its name or
version is missing, is left out or left without a type, and that is reported.

Every reader returns what it read together with the flaws it found, in document order.

* `Document.readProperty` — a property, its complex type opened a given number of levels deep.
* `Document.readElement` — the definition that a root element holds.
* `Document.read` — the definition in a text.
-/

namespace PropertySets.Document

open Text Xml

/-- The data type of a value whose document leaves it open. -/
def defaultDataType : String := "IfcLabel"

/-- How deep complex properties are opened below a property of the set: its own properties, and
those of complex properties among them. -/
def complexDepth : Nat := 2

/-! ## Parts of elements -/

/-- All text in a node, without blanks at its ends. -/
def contentOf (n : Node) : String := String.ofList (trimEnds isBlank n.characters)

/-- An attribute whose value is not blank, without blanks at its ends. -/
def filledAttribute? (n : Node) (name : String) : Option String :=
  ((n.attribute? name).map trim).filter (· ≠ "")

/-- The type that a `DataType` element names. -/
def dataType? (n : Node) : Option String := filledAttribute? n "type"

/-- The data type that a child element names. -/
def childDataType? (n : Node) : Option String := (n.child? "DataType").bind dataType?

/-- The text of the child element `Name`, unless it is missing or blank. -/
def name? (n : Node) : Option String := ((n.child? "Name").map contentOf).filter (· ≠ "")

/-- The localized names in the child element `NameAliases`. -/
def aliases (n : Node) : List Alias :=
  match n.child? "NameAliases" with
  | none => []
  | some holder => (holder.childrenNamed "NameAlias").map fun a =>
    ⟨contentOf a, (a.attribute? "lang").getD ""⟩

/-! ## Value shapes -/

/-- A single value; without a data type it has the default one. -/
def readSingle (source path : String) (n : Node) : Shape × Diagnostics :=
  match childDataType? n with
  | some t => (.single t, [])
  | none =>
    (.single defaultDataType, [.of source .defaultedDataType
      ("Missing TypePropertySingleValue data type for " ++ path ++ ", using " ++ defaultDataType)])

/-- A reference: the entity is named by a `DataType` element if there is one, and by an attribute
of the type otherwise. -/
def readReference (source path : String) (n : Node) : Option Shape × Diagnostics :=
  let entity? := match n.child? "DataType" with
    | some t => dataType? t
    | none => filledAttribute? n "reftype"
  match entity? with
  | some entity => (some (.reference entity), [])
  | none => (none, [.missingField source path "TypePropertyReferenceValue reftype"])

/-- The literal that a constant stands for, with its localized names. -/
def constantItem (constant : Node) : EnumItem :=
  ⟨((constant.child? "Name").map contentOf).getD "", aliases constant⟩

/-- Does a constant have a name that is a literal up to case? -/
def namesLiteral (literal : String) (constant : Node) : Bool :=
  match constant.child? "Name" with
  | some n => lowercase (contentOf n) == lowercase literal
  | none => false

/-- The items of a literal: the constants that it names, or just the literal if there are none. -/
def itemsOf (constants : List Node) (literal : String) : List EnumItem :=
  match constants.filter (namesLiteral literal) with
  | [] => [⟨literal, []⟩]
  | matching => matching.map constantItem

/-- An enumeration: its literals, enriched by the constants, which also stand in for literals when
there are none. -/
def readEnumerated (source path propertyName : String) (n : Node) : Option Shape × Diagnostics :=
  let literals := (n.descendantsNamed "EnumItem").map contentOf
  let constantList? := n.child? "ConstantList"
  let constants := (constantList?.map fun l => l.childrenNamed "ConstantDef").getD []
  if literals.isEmpty then
    if constants.isEmpty then
      (none, [.of source .emptyEnumeration
        ("Enumeration of " ++ path ++ " has neither EnumItems nor ConstantDefs")])
    else
      (some (.enumerated ("PEnum_" ++ propertyName) (constants.map constantItem)),
        [.of source .enumListEmpty
          ("EnumList of " ++ path ++ " is empty, items taken from ConstantList")])
  else
    match (n.child? "EnumList").bind fun l => l.attribute? "name" with
    | none => (none, [.missingField source path "EnumList@name"])
    | some name =>
      (some (.enumerated name (literals.flatMap (itemsOf constants))),
        if constantList?.isSome ∧ constants.length ≠ literals.length then
          [.enumMismatch source path literals.length constants.length]
        else [])

/-- A list: its data type stands anywhere inside. -/
def readList (n : Node) : Shape := .list ((n.descendantsNamed "DataType").head?.bind dataType?)

/-- A table, with the data types of its two columns. -/
def readTable (n : Node) : Shape :=
  let columnType (name : String) : Option String := (n.child? name).bind childDataType?
  .table ((n.child? "Expression").map contentOf) (columnType "DefiningValue")
    (columnType "DefinedValue")

/-- The type of a property that is not complex: a shape, or none when it cannot be read. -/
def readShape (source path propertyName : String) (n : Node) : Option Shape × Diagnostics :=
  match n.localName with
  | "TypePropertySingleValue" =>
    let (shape, flaws) := readSingle source path n
    (some shape, flaws)
  | "TypePropertyReferenceValue" => readReference source path n
  | "TypePropertyEnumeratedValue" => readEnumerated source path propertyName n
  | "TypePropertyBoundedValue" => (some (.bounded (childDataType? n)), [])
  | "TypePropertyListValue" => (some (readList n), [])
  | "TypePropertyTableValue" => (some (readTable n), [])
  | other =>
    (none, [.of source .unknownPropertyType
      ("Unrecognized property type <" ++ other ++ "> for " ++ path)])

/-! ## Properties and definitions -/

/-- What several readers read, with all flaws in order. -/
def gather {α : Type} (results : List (Option α × Diagnostics)) : List α × Diagnostics :=
  (results.filterMap (·.1), results.flatMap (·.2))

/-- A property, none if it has no name. `owner` is the path of what holds it, and `depth` how many
levels of complex properties are still opened. -/
def readProperty (source : String) : Nat → String → Node → Option Property × Diagnostics
  | depth, owner, n =>
    match name? n with
    | none => (none, [.missingField source owner "PropertyDef/Name"])
    | some name =>
      let path := owner ++ "." ++ name
      let label : Label := ⟨name, n.attribute? "ifdguid", aliases n⟩
      match (n.child? "PropertyType").bind Node.firstElement? with
      | none =>
        (some (.typeless label),
          [.of source .missingPropertyType ("Missing PropertyType for " ++ path)])
      | some type =>
        if type.localName = "TypeComplexProperty" then
          match type.attribute? "name" with
          | none =>
            (some (.typeless label), [.missingField source path "TypeComplexProperty@name"])
          | some typeName =>
            -- below the last level the bundle keeps its name only
            let (properties, flaws) : List Property × Diagnostics := match depth with
              | 0 => ([], [])
              | d + 1 =>
                gather ((type.childrenNamed "PropertyDef").map (readProperty source d path))
            (some (.complex label typeName properties), flaws)
        else
          let (shape?, flaws) := readShape source path name type
          (some (.ofType label (shape?.map .value)), flaws)

/-- The definition that a root element holds, none if it has no name or no version. -/
def readElement (folder source : String) (root : Node) : Option Definition × Diagnostics :=
  if root.localName ≠ "PropertySetDef" then
    (none, [.missingField source "document" "PropertySetDef"])
  else
    match name? root with
    | none => (none, [.missingField source "PropertySetDef" "Name"])
    | some name =>
      match (root.child? "IfcVersion").bind fun v => v.attribute? "version" with
      | none => (none, [.missingField source name "IfcVersion@version"])
      | some raw =>
        -- classes are looked for at any depth, properties only where they are listed
        let classes := (root.descendantsNamed "ClassName").map fun n =>
          Naming.className (contentOf n)
        let defs :=
          ((root.child? "PropertyDefs").map fun d => d.childrenNamed "PropertyDef").getD []
        let (properties, flaws) := gather (defs.map (readProperty source complexDepth name))
        (some ⟨name, normalizeVersion raw folder, root.attribute? "ifdguid", classes, properties⟩,
          flaws)

/-- A text without the byte order mark at its start. -/
def dropMark (s : List Char) : List Char :=
  match s with
  | '\uFEFF' :: rest => rest
  | _ => s

/-- The definition in a text, none if there is none or the text is no XML document. A byte order
mark may precede the document, and the document may carry one of its own. -/
def read (text folder source : String) : Option Definition × Diagnostics :=
  match readDocument (dropMark (dropMark text.toList)) with
  | .error fault => (none, [.of source .malformedDocument fault.message])
  | .ok root => readElement folder source root

end PropertySets.Document
