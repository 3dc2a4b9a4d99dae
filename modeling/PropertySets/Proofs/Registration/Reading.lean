import PropertySets.Proofs.Registration.Code

/-!
# How a registration module is read

Every line of a registration module is a statement, or opens or closes a block. Provided that the
identifiers of the module are names, its text is read as its code.

* `reads_entry`, `reads_block`, `reads_routine` — the parts of a module.
* `functions?_render` — the module.
-/

namespace PropertySets.Registration

open Code Text.Quoted

variable {letters : Char → Bool}

/-! ## Entries -/

theorem reads_newEntry (name : String) :
    ReadsAs letters ("\n        let mut entry = PropertySetEntry::new(" ++ quote name ++ ");\n")
      [.declare "entry" (.call ["PropertySetEntry", "new"] [.text name])] :=
  fun _ _ => .text (.fixed rfl) rfl (.fixed rfl)

theorem reads_propertyName (name : String) :
    ReadsAs letters ("        entry.property_name = " ++ quote name ++ ".to_string();\n")
      [.assign (.field (.name ["entry"]) "property_name") (.method (.text name) "to_string" [])] :=
  fun _ _ => .text (.fixed rfl) rfl (.fixed rfl)

theorem reads_propertyType {type : String} (h : IsName letters type) :
    ReadsAs letters ("        entry.property_type = PropertyType::" ++ type ++ ";\n")
      [.assign (.field (.name ["entry"]) "property_type") (.name ["PropertyType", type])] :=
  fun _ _ => .name (.fixed rfl) h rfl rfl (.fixed rfl)

theorem reads_valueType (kind : ValueKind) :
    ReadsAs letters
      ("        entry.property_value_type = PropertyValueType::" ++ kind.name ++ ";\n")
      [.assign (.field (.name ["entry"]) "property_value_type")
        (.name ["PropertyValueType", kind.name])] :=
  have hKind : IsName letters kind.name := .ofIdentifier (by cases kind <;> rfl)
  fun _ _ => .name (.fixed rfl) hKind rfl rfl (.fixed rfl)

theorem reads_enumeration {r : EnumReference} (h : r.Named letters) :
    ReadsAs letters ("        entry.property_enumeration_type = Some(std::any::type_name::<" ++
      r.enumModule ++ "::" ++ r.tagModule ++ "::" ++ r.name ++ ">());\n") [r.statement] := by
  intro done fs
  -- the call that asks for the name of the type is read inside the parentheses of `Some`
  let segments : List String := pathSegments r.enumModule
  let start : List Node := [.word "std", .sign ':', .sign ':', .word "any", .sign ':', .sign ':',
    .word "type_name", .sign ':', .sign ':', .sign '<']
  let outer : Frame := ⟨.block done,
    [.word "Some", .sign '=', .word "property_enumeration_type", .sign '.', .word "entry"]⟩
  obtain ⟨r', hPath, hEnd⟩ := reads_modulePath h.enumModule ⟨.arguments [], start.reverse⟩
    (outer :: fs)
  have hCall : Reads letters
      ⟨.between, ⟨.arguments [], [.word r.name, .sign ':', .sign ':', .word r.tagModule] ++
        ((pathNodes segments).reverse ++ start.reverse)⟩ :: outer :: fs⟩
      ">()"
      ⟨.between, ⟨.arguments [], (typeNameNodes segments r.tagModule r.name).reverse⟩ ::
        outer :: fs⟩ := by
    rw [typeNameNodes, List.reverse_append, List.reverse_append]
    exact .fixed rfl
  have hClose := hCall.append (reads_close (List.cons_ne_nil _ _)
    (ofNodes?_typeNameNodes segments r.tagModule r.name) outer fs)
  -- the last of the parentheses ends a piece whose nodes come from the model
  have hText : ">());\n" = ">()" ++ ")" ++ ";\n" := rfl
  refine .name (.name (Reads.append (Reads.append (.fixed rfl) hPath) hEnd) h.tagModule rfl rfl
    (.fixed rfl)) h.name rfl rfl ?_
  rw [hText]
  exact hClose.append (.fixed rfl)

theorem reads_localizedName (l : LocalizedName) :
    ReadsAs letters ("        entry.add_localized_parameter_name(LanguageType::" ++
      l.language.name ++ ", " ++ quote l.text ++ ");\n") [l.statement] :=
  have hLanguage : IsName letters l.language.name := .ofIdentifier (by cases l.language <;> rfl)
  fun _ _ => .text (.name (.fixed rfl) hLanguage rfl rfl (.fixed rfl)) rfl (.fixed rfl)

theorem reads_calculator (key : String) :
    ReadsAs letters ("        entry.property_calculator = ctx.calculators.lookup(" ++ quote key ++
      ");\n")
      [.assign (.field (.name ["entry"]) "property_calculator")
        (.method (.field (.name ["ctx"]) "calculators") "lookup" [.text key])] :=
  fun _ _ => .text (.fixed rfl) rfl (.fixed rfl)

theorem reads_addEntry {v : String} (h : IsName letters v) :
    ReadsAs letters ("        " ++ v ++ ".add_entry(entry);\n")
      [.evaluate (.method (.name [v]) "add_entry" [.name ["entry"]])] :=
  fun _ _ => .name (.fixed rfl) h rfl rfl (.fixed rfl)

theorem reads_entryAdded :
    ReadsAs letters "        entry_added = true;\n"
      [.assign (.name ["entry_added"]) (.name ["true"])] :=
  fun _ _ => .fixed rfl

/-- An entry is read as its statements. -/
theorem reads_entry {e : PropertyEntry} (h : e.Named letters) {v : String}
    (hName : IsName letters v) : ReadsAs letters (e.render v) (e.statements v) := by
  have hStart := (((reads_newEntry e.name).append (reads_propertyName e.name)).append
    (reads_propertyType h.backingType)).append (reads_valueType e.kind)
  have hLocalized : ReadsAs letters (String.join (e.localizedNames.map fun l =>
      "        entry.add_localized_parameter_name(LanguageType::" ++ l.language.name ++ ", " ++
        quote l.text ++ ");\n")) (e.localizedNames.flatMap fun l => [l.statement]) :=
    .join fun l _ => reads_localizedName l
  have hEnd := ((reads_calculator e.calculatorKey).append (reads_addEntry hName)).append
    reads_entryAdded
  -- the statements for an enumeration are there, or nothing is in their place
  cases hReference : e.enumeration with
  | none =>
    have hAll := hStart.append (hLocalized.append hEnd)
    refine hAll.congr ?_ ?_
    · unfold PropertyEntry.render
      simp only [hReference, String.append_assoc, String.empty_append]
    · simp only [PropertyEntry.statements, hReference, List.append_assoc]
      rfl
  | some r =>
    have hAll := hStart.append ((reads_enumeration (h.enumeration r hReference)).append
      (hLocalized.append hEnd))
    refine hAll.congr ?_ ?_
    · unfold PropertyEntry.render
      simp only [hReference, String.append_assoc]
    · simp only [PropertyEntry.statements, hReference, List.append_assoc]
      rfl

/-! ## Blocks -/

theorem reads_entity {v entity : String} (hName : IsName letters v) (h : IsName letters entity) :
    ReadsAs letters ("        " ++ v ++ ".entity_types.push(IfcEntityType::" ++ entity ++ ");\n")
      [entityStatement v entity] :=
  fun _ _ => .name (.name (.fixed rfl) hName rfl rfl (.fixed rfl)) h rfl rfl (.fixed rfl)

/-- The statements of a block are read as its body. -/
theorem reads_blockBody {b : Block} (h : b.Named letters) {v : String} (hName : IsName letters v) :
    ReadsAs letters (String.join (b.entityTypes.map fun entity =>
        "        " ++ v ++ ".entity_types.push(IfcEntityType::" ++ entity ++ ");\n") ++
      String.join (b.entries.map (PropertyEntry.render v))) (b.body v) :=
  .append (.join fun entity hMem => reads_entity hName (h.entityTypes entity hMem))
    (.join fun e hMem => reads_entry (h.entries e hMem) hName)

/-- A block is read as one statement. -/
theorem reads_block {b : Block} (h : b.Named letters) {v : String} (hName : IsName letters v)
    (setName : String) : ReadsAs letters (b.render setName v) [b.statement setName v] := by
  intro done fs
  have hFlag : IsName letters b.revision.exportFlag := .ofIdentifier (by cases b.revision <;> rfl)
  have hHead : Reads letters ⟨.between, ⟨.block done, []⟩ :: fs⟩
      ("\n    if ctx.options." ++ b.revision.exportFlag ++
        " && ctx.certified_psets.allow_pset_to_be_created(&file_version, " ++ quote setName ++
        ") \x7b\n") _ :=
    .text (.name (.fixed rfl) hFlag rfl rfl (.fixed rfl)) rfl (.fixed rfl)
  -- the statements in the braces are read before the block becomes a node of the conditional
  obtain ⟨read, hRead, hBody⟩ := (reads_blockBody h hName).inside _
  have hAll := (hHead.append hBody).append (t := "    \x7d\n") (.fixed rfl)
  rw [Block.statement, ← hRead]
  refine hAll.congr ?_
  unfold Block.render
  simp only [String.append_assoc]

/-! ## Routines -/

section

variable {v : String}

theorem reads_newDescription (hName : IsName letters v) :
    ReadsAs letters ("    let mut " ++ v ++ " = PropertySetDescription::default();\n")
      [.declare v (.call ["PropertySetDescription", "default"] [])] :=
  fun _ _ => .name (.fixed rfl) hName rfl rfl (.fixed rfl)

theorem reads_setName (hName : IsName letters v) (setName : String) :
    ReadsAs letters ("    " ++ v ++ ".name = " ++ quote setName ++ ".to_string();\n")
      [.assign (.field (.name [v]) "name") (.method (.text setName) "to_string" [])] :=
  fun _ _ => .text (.name (.fixed rfl) hName rfl rfl (.fixed rfl)) rfl (.fixed rfl)

theorem reads_subIndex (hName : IsName letters v) {identifier : String}
    (h : IsName letters identifier) :
    ReadsAs letters ("    " ++ v ++ ".sub_element_index = IfcCommonPSets::" ++ identifier ++
      " as i32;\n") [Routine.indexStatement v identifier] :=
  fun _ _ => .name (.name (.fixed rfl) hName rfl rfl (.fixed rfl)) h rfl rfl (.fixed rfl)

theorem reads_flags :
    ReadsAs letters ("    let mut entry_added = false;\n" ++
        "    let file_version = ctx.options.file_version.to_string().to_uppercase();\n")
      [.declare "entry_added" (.name ["false"]),
        .declare "file_version" (.method (.method (.field (.field (.name ["ctx"]) "options")
          "file_version") "to_string" []) "to_uppercase" [])] :=
  fun _ _ => .append (.fixed rfl) (.fixed rfl)

theorem reads_pushDescription (hName : IsName letters v) :
    ReadsAs letters ("\n    if entry_added \x7b\n" ++
        "        common_property_sets.push(" ++ v ++ ");\n" ++ "    \x7d\n")
      [.when (.name ["entry_added"])
        [.evaluate (.method (.name ["common_property_sets"]) "push" [.name [v]])]] :=
  fun _ _ =>
    .append (.name (.append (.fixed rfl) (.fixed rfl)) hName rfl rfl (.fixed rfl)) (.fixed rfl)

end

/-- Behind its head, the text of a routine is read as its body. -/
theorem exists_routineBody {r : Routine} (h : r.Named letters) :
    ∃ text, ReadsAs letters text r.body ∧
      r.render = "#[allow(unused_mut, unused_variables)]\n" ++ "fn " ++ r.routineName ++
        "(common_property_sets: &mut Vec<PropertySetDescription>, ctx: &ExportContext) \x7b\n" ++
        text ++ "\x7d\n" := by
  have hStart := (reads_newDescription h.localName).append (reads_setName h.localName r.setName)
  have hBlocks : ReadsAs letters (String.join (r.blocks.map (Block.render r.setName r.localName)))
      (r.blocks.flatMap fun b => [b.statement r.setName r.localName]) :=
    .join fun b hMem => reads_block (h.blocks b hMem) h.localName r.setName
  have hEnd := reads_flags.append (hBlocks.append (reads_pushDescription h.localName))
  -- the statement for an index is there, or nothing is in its place
  cases hIndex : r.subIndex with
  | none =>
    refine ⟨_, (hStart.append hEnd).congr rfl ?_, ?_⟩
    · rw [Routine.body, hIndex]
      rfl
    · unfold Routine.render
      simp only [hIndex, String.append_assoc, String.empty_append]
  | some identifier =>
    have hIndexed := reads_subIndex h.localName (h.subIndex _ hIndex)
    refine ⟨_, (hStart.append (hIndexed.append hEnd)).congr rfl ?_, ?_⟩
    · rw [Routine.body, hIndex]
      rfl
    · unfold Routine.render
      simp only [hIndex, String.append_assoc]

/-- A routine is read as one function. -/
theorem reads_routine {r : Routine} (h : r.Named letters) (done : List Function) :
    Reads letters ⟨.between, [⟨.file done, []⟩]⟩ r.render
      ⟨.between, [⟨.file (r.function :: done), []⟩]⟩ := by
  have hHead : Reads letters ⟨.between, [⟨.file done, []⟩]⟩
      ("#[allow(unused_mut, unused_variables)]\n" ++ "fn " ++ r.routineName ++
        "(common_property_sets: &mut Vec<PropertySetDescription>, ctx: &ExportContext) \x7b\n") _ :=
    .name (.append (.fixed rfl) (.fixed rfl)) h.routineName rfl rfl (.fixed rfl)
  obtain ⟨text, hBody, hRender⟩ := exists_routineBody h
  obtain ⟨read, hRead, hInside⟩ := hBody.inside _
  rw [hRender, Routine.function, ← hRead]
  exact (hHead.append hInside).append (.fixed rfl)

/-! ## Modules -/

theorem reads_call {name : String} (h : IsName letters name) :
    ReadsAs letters ("    " ++ name ++ "(&mut common_property_sets, ctx);\n")
      [Module.callStatement name] :=
  fun _ _ => .name (.fixed rfl) h rfl rfl (.fixed rfl)

set_option maxRecDepth 1024 in
/-- The routine that calls all others is read as one function. -/
theorem reads_calls {calls : List String} (h : ∀ name ∈ calls, IsName letters name)
    (done : List Function) :
    Reads letters ⟨.between, [⟨.file done, []⟩]⟩ (Module.renderCalls calls)
      ⟨.between, [⟨.file (Module.callsFunction calls :: done), []⟩]⟩ := by
  have hHead : Reads letters ⟨.between, [⟨.file done, []⟩]⟩
      ("/// Register every common property set known to this build\n" ++
        "pub fn init_common_property_sets(property_sets: &mut Vec<Vec<PropertySetDescription>>, " ++
          "ctx: &ExportContext) \x7b\n") _ :=
    .append (.append (.fixed rfl) (.fixed rfl)) (.fixed rfl)
  have hNew : ReadsAs letters
      "    let mut common_property_sets: Vec<PropertySetDescription> = Vec::new();\n"
      [.declare "common_property_sets" (.call ["Vec", "new"] [])] := fun _ _ => .fixed rfl
  have hCalls : ReadsAs letters
      (String.join (calls.map fun name => "    " ++ name ++ "(&mut common_property_sets, ctx);\n"))
      (calls.flatMap fun name => [Module.callStatement name]) :=
    .join fun name hMem => reads_call (h name hMem)
  have hPush : ReadsAs letters "\n    property_sets.push(common_property_sets);\n"
      [.evaluate (.method (.name ["property_sets"]) "push" [.name ["common_property_sets"]])] :=
    fun _ _ => .fixed rfl
  -- the statements are kept in reverse while the body is open
  obtain ⟨read, hRead, hInside⟩ := (hNew.append (hCalls.append hPush)).inside _
  have hAll := (hHead.append hInside).append (t := "\x7d\n") (.fixed rfl)
  have hBody : Module.callsFunction calls =
      ⟨"init_common_property_sets", ["property_sets", "ctx"], read.reverse⟩ := by
    rw [hRead]
    rfl
  rw [hBody]
  refine hAll.congr ?_
  unfold Module.renderCalls
  simp only [String.append_assoc]

/-- The start of a module holds nothing that is executed. -/
theorem reads_head {runtimeModule : String} (h : Naming.isModulePath runtimeModule = true) :
    Reads letters .start (Module.renderHead runtimeModule) .start := by
  let start : List Node := [.sign '#', .attribute, .word "use"]
  let path : List Node := pathNodes (pathSegments runtimeModule)
  let star : List Node := [.sign '*']
  have hComment : Reads letters .start
      ("// @generated by pset-codegen from IFC psd files.\n" ++
        "// Do not edit by hand: this file is overwritten every time it is regenerated.\n\n" ++
        "#[allow(unused_imports)]\n" ++ "use ")
      ⟨.between, [⟨.file [], start.reverse⟩]⟩ :=
    .append (.append (.append (.fixed rfl) (.fixed rfl)) (.fixed rfl)) (.fixed rfl)
  obtain ⟨r, hPath, hEnd⟩ : ∃ r,
      Reads letters ⟨.between, [⟨.file [], start.reverse⟩]⟩ runtimeModule r ∧
      Reads letters r "::" ⟨.between, [⟨.file [], path.reverse ++ start.reverse⟩]⟩ :=
    reads_modulePath h ⟨.file [], start.reverse⟩ []
  have hStar : Reads letters ⟨.between, [⟨.file [], path.reverse ++ start.reverse⟩]⟩ "*"
      ⟨.between, [⟨.file [], (start ++ path ++ star).reverse⟩]⟩ := by
    rw [List.reverse_append, List.reverse_append]
    rfl
  -- the path is not looked at: a `use` leaves no function behind
  have hSemicolon : Reads letters ⟨.between, [⟨.file [], (start ++ path ++ star).reverse⟩]⟩
      ";" .start := reads_semicolon rfl
  have hText : "::*;\n\n" = "::" ++ "*" ++ ";" ++ "\n\n" := rfl
  have hUse : Reads letters r ("::" ++ "*" ++ ";" ++ "\n\n") .start :=
    ((hEnd.append hStar).append hSemicolon).append rfl
  refine ((hComment.append hPath).append hUse).congr ?_
  unfold Module.renderHead
  simp only [hText, String.append_assoc]

theorem reads_routines {routines : List Routine} (h : ∀ r ∈ routines, r.Named letters)
    (done : List Function) :
    Reads letters ⟨.between, [⟨.file done, []⟩]⟩
      (String.join (routines.map fun r => "\n" ++ r.render))
      ⟨.between, [⟨.file ((routines.map Routine.function).reverse ++ done), []⟩]⟩ := by
  -- functions that have been read are kept last first
  induction routines generalizing done with
  | nil => exact rfl
  | cons r rest ih =>
    have hRest := ih (fun r hMem => h r (List.mem_cons_of_mem _ hMem)) (r.function :: done)
    rw [List.map_cons, String.join_cons, List.map_cons, List.reverse_cons, List.append_assoc]
    have hBlank : Reads letters ⟨.between, [⟨.file done, []⟩]⟩ "\n"
        ⟨.between, [⟨.file done, []⟩]⟩ := rfl
    exact (hBlank.append (reads_routine (h r List.mem_cons_self) done)).append hRest

/-- **Reading a module.** The text of a module whose identifiers are names is read as its code. -/
theorem functions?_render {m : Module} (h : m.Named letters) :
    functions? letters m.render = some m.functions := by
  have hAll := ((reads_head h.runtimeModule).append (reads_calls h.calls [])).append
    (reads_routines h.routines [Module.callsFunction m.calls])
  rw [functions?, Module.render, hAll]
  simp [Reader.functions?, Module.functions]

end PropertySets.Registration
