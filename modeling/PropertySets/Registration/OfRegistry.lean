import PropertySets.Configuration.Basic
import PropertySets.Enumeration.Reconciler
import PropertySets.Naming.Routine
import PropertySets.Registration.Module
import PropertySets.Text.Blank

/-!
# The registration module of a registry

Each set becomes a routine, each of its editions with a known revision a block, and each property
an entry. A complex property stands for its direct children; properties without a type, and complex
properties inside complex ones, have no entry.

* `Block.ofEdition?`, `Routine.ofGroup`, `Module.ofRegistry`.
* `requestOf` — the enumeration that comes up with a property.
-/

namespace PropertySets.Registration

open Naming

/-- The backing type of a property that leaves it open. -/
def defaultBackingType : String := "Label"

/-- The backing type of an optional data type. -/
def strippedOrDefault (dataType : Option String) : String :=
  (dataType.map stripDecorations).getD defaultBackingType

/-- The backing type of a shape. -/
def backingTypeOf : Shape → String
  | .single t => stripDecorations t
  | .reference entity => Text.trim entity
  | .enumerated _ _ => defaultBackingType
  | .bounded t => strippedOrDefault t
  | .list t => strippedOrDefault t
  | .table _ _ defined => strippedOrDefault defined

/-- The kind of value of a shape. -/
def ValueKind.ofShape : Shape → ValueKind
  | .single _ => .singleValue
  | .reference _ => .referenceValue
  | .enumerated _ _ => .enumeratedValue
  | .bounded _ => .boundedValue
  | .list _ => .listValue
  | .table _ _ _ => .tableValue

/-- What flaws of an edition's properties are reported about. -/
def sourceOf (e : Edition) : String := e.name ++ "@" ++ e.folder

/-- The enumeration that comes up with a shape in an edition. -/
def requestOf (e : Edition) : Shape → Option Enumeration.Request
  | .enumerated name items => some ⟨e.version, e.folder, name, items, sourceOf e⟩
  | _ => none

/-- The reference to the enumeration of a shape, if it has one that is filed. -/
def enumReference? (c : Configuration) (e : Edition) (shape : Shape) : Option EnumReference := do
  let q ← requestOf e shape
  let tag ← q.filingTag?
  return ⟨c.output.enumModule, versionModule tag, q.name⟩

/-- The entry of a property, if it has one. -/
def PropertyEntry.ofProperty? (c : Configuration) (e : Edition) : Property → Option PropertyEntry
  | .typeless _ => none
  | .complex _ _ _ => none
  | .valued l shape => some {
      name := l.name
      backingType := backingTypeOf shape
      kind := .ofShape shape
      enumeration := enumReference? c e shape
      localizedNames := l.aliases.map fun a => ⟨.ofTag a.language, a.text⟩
      calculatorKey := Naming.calculatorKey l.name }

/-- The properties that can have entries: a complex property stands for its direct children. -/
def flattened (d : Definition) : List Property :=
  d.properties.flatMap fun
    | .complex _ _ properties => properties
    | p => [p]

/-- The revision of an edition. -/
def revision? (e : Edition) : Option Revision := Revision.detect? e.version e.folder

/-- The entity type of an applicable class; a blank one stands for the default. -/
def entityType (c : Configuration) (className : String) : String :=
  let name := Text.trim className
  if name.isEmpty then c.naming.defaultEntityType else name

/-- The block of an edition, if its revision is known. -/
def Block.ofEdition? (c : Configuration) (e : Edition) : Option Block :=
  (revision? e).map fun revision => {
    revision := revision
    entityTypes := e.definition.applicableClasses.map (entityType c)
    entries := (flattened e.definition).filterMap (PropertyEntry.ofProperty? c e) }

/-- The known sub-element identifier of a set. -/
def subIndex? (c : Configuration) (setName : String) : Option String :=
  let candidate := subIndexCandidate setName
  if candidate ∈ c.naming.knownSubIndices then some candidate else none

/-- The routine of a set under its identifiers. -/
def Routine.ofGroup (c : Configuration) (names : SetNames) (setName : String)
    (editions : List Edition) : Routine where
  setName := setName
  routineName := names.routine
  localName := names.localName
  subIndex := subIndex? c setName
  blocks := editions.filterMap (Block.ofEdition? c)

/-- The registration module of a registry. -/
def Module.ofRegistry (c : Configuration) (r : Registry) : Module :=
  let table := NameTable.assign r.names
  { runtimeModule := c.output.runtimeModule
    calls := r.names.filterMap fun name => (table.find? name).map (·.routine)
    routines := r.groups.filterMap fun (name, editions) =>
      (table.find? name).map fun names => Routine.ofGroup c names name editions }

end PropertySets.Registration
