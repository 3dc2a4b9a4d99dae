import PropertySets.Proofs.Code.Reading
import PropertySets.Registration.Printer

/-!
# The code of a registration module

What a registration module says, statement by statement.

* `PropertyEntry.statements`, `Block.statement`, `Routine.function`, `Module.functions` — the code
  of a module and of its parts.
* `PropertyEntry.Named`, `Block.Named`, `Routine.Named`, `Module.Named` — identifiers are names.
-/

namespace PropertySets.Registration

open Code

/-! ## Statements and functions -/

namespace EnumReference

/-- The path to the enumeration, segment by segment. -/
def segments (r : EnumReference) : List String := pathSegments r.enumModule ++ [r.tagModule, r.name]

/-- The statement that refers an entry to the enumeration. -/
def statement (r : EnumReference) : Statement :=
  .assign (.field (.name ["entry"]) "property_enumeration_type")
    (.call ["Some"] [.ofType ["std", "any", "type_name"] r.segments])

end EnumReference

/-- The statement that gives an entry a localized name. -/
def LocalizedName.statement (l : LocalizedName) : Statement :=
  .evaluate (.method (.name ["entry"]) "add_localized_parameter_name"
    [.name ["LanguageType", l.language.name], .text l.text])

/-- The statements of an entry for the description in the variable `v`. -/
def PropertyEntry.statements (v : String) (e : PropertyEntry) : List Statement :=
  [.declare "entry" (.call ["PropertySetEntry", "new"] [.text e.name]),
    .assign (.field (.name ["entry"]) "property_name") (.method (.text e.name) "to_string" []),
    .assign (.field (.name ["entry"]) "property_type") (.name ["PropertyType", e.backingType]),
    .assign (.field (.name ["entry"]) "property_value_type")
      (.name ["PropertyValueType", e.kind.name])] ++
  (e.enumeration.toList.map EnumReference.statement ++
  (e.localizedNames.flatMap (fun l => [l.statement]) ++
  [.assign (.field (.name ["entry"]) "property_calculator")
      (.method (.field (.name ["ctx"]) "calculators") "lookup" [.text e.calculatorKey]),
    .evaluate (.method (.name [v]) "add_entry" [.name ["entry"]]),
    .assign (.name ["entry_added"]) (.name ["true"])]))

/-- The statement that adds an entity type. -/
def entityStatement (v entity : String) : Statement :=
  .evaluate (.method (.field (.name [v]) "entity_types") "push" [.name ["IfcEntityType", entity]])

namespace Block

/-- The condition under which a block is entered. -/
def condition (setName : String) (b : Block) : Expr :=
  .both (.field (.field (.name ["ctx"]) "options") b.revision.exportFlag)
    (.method (.field (.name ["ctx"]) "certified_psets") "allow_pset_to_be_created"
      [.borrow false (.name ["file_version"]), .text setName])

/-- The statements of a block. -/
def body (v : String) (b : Block) : List Statement :=
  b.entityTypes.flatMap (fun entity => [entityStatement v entity]) ++
    b.entries.flatMap (PropertyEntry.statements v)

/-- A block is one statement. -/
def statement (setName v : String) (b : Block) : Statement :=
  .when (b.condition setName) (b.body v)

end Block

namespace Routine

/-- The statement that gives the description its sub-element index. -/
def indexStatement (v identifier : String) : Statement :=
  .assign (.field (.name [v]) "sub_element_index")
    (.cast (.name ["IfcCommonPSets", identifier]) "i32")

/-- The statements of a routine. -/
def body (r : Routine) : List Statement :=
  [.declare r.localName (.call ["PropertySetDescription", "default"] []),
    .assign (.field (.name [r.localName]) "name") (.method (.text r.setName) "to_string" [])] ++
  (r.subIndex.toList.map (indexStatement r.localName) ++
  ([.declare "entry_added" (.name ["false"]),
    .declare "file_version" (.method (.method (.field (.field (.name ["ctx"]) "options")
      "file_version") "to_string" []) "to_uppercase" [])] ++
  (r.blocks.flatMap (fun b => [b.statement r.setName r.localName]) ++
  [.when (.name ["entry_added"])
    [.evaluate (.method (.name ["common_property_sets"]) "push" [.name [r.localName]])]])))

/-- A routine is one function. -/
def function (r : Routine) : Function :=
  ⟨r.routineName, ["common_property_sets", "ctx"], r.body⟩

end Routine

namespace Module

/-- The statement that calls a routine. -/
def callStatement (name : String) : Statement :=
  .evaluate (.call [name] [.borrow true (.name ["common_property_sets"]), .name ["ctx"]])

/-- The function that calls all routines. -/
def callsFunction (calls : List String) : Function :=
  ⟨"init_common_property_sets", ["property_sets", "ctx"],
    .declare "common_property_sets" (.call ["Vec", "new"] []) ::
      (calls.flatMap (fun name => [callStatement name]) ++
      [.evaluate (.method (.name ["property_sets"]) "push" [.name ["common_property_sets"]])])⟩

/-- The functions of a module. -/
def functions (m : Module) : List Function :=
  callsFunction m.calls :: m.routines.map Routine.function

end Module

/-! ## Identifiers -/

section

variable (letters : Char → Bool)

/-- The parts of the path to an enumeration are names. -/
structure EnumReference.Named (r : EnumReference) : Prop where
  enumModule : Naming.isModulePath r.enumModule = true
  tagModule : IsName letters r.tagModule
  name : IsName letters r.name

/-- The identifiers of an entry are names. -/
structure PropertyEntry.Named (e : PropertyEntry) : Prop where
  backingType : IsName letters e.backingType
  enumeration : ∀ r ∈ e.enumeration, r.Named letters

/-- The identifiers of a block are names. -/
structure Block.Named (b : Block) : Prop where
  entityTypes : ∀ entity ∈ b.entityTypes, IsName letters entity
  entries : ∀ e ∈ b.entries, e.Named letters

/-- The identifiers of a routine are names. -/
structure Routine.Named (r : Routine) : Prop where
  routineName : IsName letters r.routineName
  localName : IsName letters r.localName
  subIndex : ∀ identifier ∈ r.subIndex, IsName letters identifier
  blocks : ∀ b ∈ r.blocks, b.Named letters

/-- The identifiers of a module are names. -/
structure Module.Named (m : Module) : Prop where
  runtimeModule : Naming.isModulePath m.runtimeModule = true
  calls : ∀ name ∈ m.calls, IsName letters name
  routines : ∀ r ∈ m.routines, r.Named letters

end

end PropertySets.Registration
