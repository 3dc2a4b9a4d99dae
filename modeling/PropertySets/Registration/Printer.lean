import PropertySets.Registration.Module
import PropertySets.Text.Quoted

/-!
# The text of a registration module

Every statement is a line of its own, and every text of the model stands in a quoted literal.

* `Module.render` — the text of a module.
* `Routine.render` — the text of one routine, which depends on nothing else in the module.
-/

namespace PropertySets.Registration

open Text.Quoted (quote)

/-- The statements of an entry for the description in `variable`. -/
def PropertyEntry.render (variableName : String) (e : PropertyEntry) : String :=
  "\n        let mut entry = PropertySetEntry::new(" ++ quote e.name ++ ");\n" ++
    "        entry.property_name = " ++ quote e.name ++ ".to_string();\n" ++
    "        entry.property_type = PropertyType::" ++ e.backingType ++ ";\n" ++
    "        entry.property_value_type = PropertyValueType::" ++ e.kind.name ++ ";\n" ++
    (match e.enumeration with
      | none => ""
      | some r =>
        "        entry.property_enumeration_type = Some(std::any::type_name::<" ++ r.enumModule ++
          "::" ++ r.tagModule ++ "::" ++ r.name ++ ">());\n") ++
    String.join (e.localizedNames.map fun l =>
      "        entry.add_localized_parameter_name(LanguageType::" ++ l.language.name ++ ", " ++
        quote l.text ++ ");\n") ++
    "        entry.property_calculator = ctx.calculators.lookup(" ++ quote e.calculatorKey ++
      ");\n" ++
    "        " ++ variableName ++ ".add_entry(entry);\n" ++
    "        entry_added = true;\n"

/-- A block for the set `setName`. -/
def Block.render (setName variableName : String) (b : Block) : String :=
  "\n    if ctx.options." ++ b.revision.exportFlag ++
      " && ctx.certified_psets.allow_pset_to_be_created(&file_version, " ++ quote setName ++
      ") \x7b\n" ++
    String.join (b.entityTypes.map fun entity =>
      "        " ++ variableName ++ ".entity_types.push(IfcEntityType::" ++ entity ++ ");\n") ++
    String.join (b.entries.map (PropertyEntry.render variableName)) ++
    "    \x7d\n"

/-- The text of a routine. -/
def Routine.render (r : Routine) : String :=
  "#[allow(unused_mut, unused_variables)]\n" ++
    "fn " ++ r.routineName ++
      "(common_property_sets: &mut Vec<PropertySetDescription>, ctx: &ExportContext) \x7b\n" ++
    "    let mut " ++ r.localName ++ " = PropertySetDescription::default();\n" ++
    "    " ++ r.localName ++ ".name = " ++ quote r.setName ++ ".to_string();\n" ++
    (match r.subIndex with
      | none => ""
      | some identifier =>
        "    " ++ r.localName ++ ".sub_element_index = IfcCommonPSets::" ++ identifier ++
          " as i32;\n") ++
    "    let mut entry_added = false;\n" ++
    "    let file_version = ctx.options.file_version.to_string().to_uppercase();\n" ++
    String.join (r.blocks.map (Block.render r.setName r.localName)) ++
    "\n    if entry_added \x7b\n" ++
    "        common_property_sets.push(" ++ r.localName ++ ");\n" ++
    "    \x7d\n" ++
    "\x7d\n"

namespace Module

/-- The start of a module. -/
def renderHead (runtimeModule : String) : String :=
  "// @generated by pset-codegen from IFC psd files.\n" ++
    "// Do not edit by hand: this file is overwritten every time it is regenerated.\n\n" ++
    "#[allow(unused_imports)]\n" ++
    "use " ++ runtimeModule ++ "::*;\n\n"

/-- The routine that calls all others. -/
def renderCalls (calls : List String) : String :=
  "/// Register every common property set known to this build\n" ++
    "pub fn init_common_property_sets(property_sets: &mut Vec<Vec<PropertySetDescription>>, " ++
      "ctx: &ExportContext) \x7b\n" ++
    "    let mut common_property_sets: Vec<PropertySetDescription> = Vec::new();\n" ++
    String.join (calls.map fun name => "    " ++ name ++ "(&mut common_property_sets, ctx);\n") ++
    "\n    property_sets.push(common_property_sets);\n" ++
    "\x7d\n"

/-- The text of a module. -/
def render (m : Module) : String :=
  renderHead m.runtimeModule ++ renderCalls m.calls ++
    String.join (m.routines.map fun r => "\n" ++ r.render)

end Module

end PropertySets.Registration
