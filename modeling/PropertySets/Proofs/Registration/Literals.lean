import PropertySets.Proofs.Registration.Meaning
import PropertySets.Proofs.Registration.Occurrences

/-!
# The texts in a registration module

A module is code with texts in it: the names of sets and properties, localized names, and the keys
of calculators. They come from documents and may be anything. Each of them stands in a literal of
its own, the code around them does not depend on them, and so neither do the functions and the
statements that are read. The key that an entry looks its calculator up with is the one that
calculators for the property are filed under.

* `Part`, `Module.parts`, `Module.render_eq` — a module as code and literals, in the order of its
  text.
* `Module.literal_mem_parts` — the texts in a module.
* `Module.withTexts`, `Function.withTexts` — modules, and code that was read, with other texts.
* `Module.parts_withTexts`, `Module.functions_withTexts` — what depends on the texts.
* `Calculators.find?_register` — what is found after a calculator is filed.
* `texts_stay_in_literals` — the texts in the module of a registry.
-/

namespace PropertySets

open Text.Quoted (quote)

/-! ## Code with other texts -/

namespace Code

variable (f : String → String)

mutual

/-- The expression with other texts in its literals. -/
def Expr.withTexts : Expr → Expr
  | .text content => .text (f content)
  | .name segments => .name segments
  | .ofType function type => .ofType function type
  | .field e name => .field e.withTexts name
  | .call function arguments => .call function (exprsWithTexts arguments)
  | .method e name arguments => .method e.withTexts name (exprsWithTexts arguments)
  | .borrow mutable e => .borrow mutable e.withTexts
  | .both left right => .both left.withTexts right.withTexts
  | .cast e type => .cast e.withTexts type

/-- Expressions with other texts in their literals. -/
def exprsWithTexts : List Expr → List Expr
  | [] => []
  | e :: rest => e.withTexts :: exprsWithTexts rest

end

mutual

/-- The statement with other texts in its literals. -/
def Statement.withTexts : Statement → Statement
  | .declare name value => .declare name (value.withTexts f)
  | .assign target value => .assign (target.withTexts f) (value.withTexts f)
  | .evaluate e => .evaluate (e.withTexts f)
  | .when condition body => .when (condition.withTexts f) (statementsWithTexts body)

/-- Statements with other texts in their literals. -/
def statementsWithTexts : List Statement → List Statement
  | [] => []
  | s :: rest => s.withTexts :: statementsWithTexts rest

end

/-- The function with other texts in its literals. -/
def Function.withTexts (function : Function) : Function :=
  ⟨function.name, function.parameters, statementsWithTexts f function.body⟩

theorem statementsWithTexts_append (ss ts : List Statement) :
    statementsWithTexts f (ss ++ ts) = statementsWithTexts f ss ++ statementsWithTexts f ts := by
  induction ss with
  | nil => rfl
  | cons s rest ih => rw [List.cons_append, statementsWithTexts, ih]; rfl

theorem statementsWithTexts_flatMap {α : Type} (g : α → List Statement) (items : List α) :
    statementsWithTexts f (items.flatMap g) =
      items.flatMap fun a => statementsWithTexts f (g a) := by
  induction items with
  | nil => rfl
  | cons a rest ih =>
    rw [List.flatMap_cons, statementsWithTexts_append, ih, List.flatMap_cons]

end Code

/-! ## Calculators -/

namespace Calculators

/-- What is found after a calculator is filed: under its key the calculator, under others what was
found before. -/
theorem find?_register (cs : Calculators) (filed key : String) (c : Calculator) :
    (cs.register filed c).find? key = if key = filed then some c else cs.find? key := by
  obtain ⟨entries⟩ := cs
  show (registerIn filed c entries).lookup key = if key = filed then some c else entries.lookup key
  have hCons : ∀ (k : String) (d : Calculator) (rest : List (String × Calculator)),
      List.lookup key ((k, d) :: rest) = if key = k then some d else rest.lookup key := by
    intro k d rest
    rw [List.lookup_cons]
    by_cases hKey : key = k
    · rw [if_pos hKey, beq_iff_eq.2 hKey]
    · rw [if_neg hKey, beq_eq_false_iff_ne.2 hKey]
  induction entries with
  | nil => exact hCons filed c []
  | cons entry rest ih =>
    obtain ⟨k, d⟩ := entry
    unfold registerIn
    -- the calculator takes the place of this one, or comes before it, or is filed further on
    split
    · subst k
      rw [hCons, hCons]
      split <;> rfl
    split
    · exact hCons filed c _
    · rename_i hOther _
      rw [hCons, ih, hCons]
      by_cases hKey : key = k
      · have hNew : key ≠ filed := fun hSame => hOther (hSame.symm.trans hKey)
        rw [if_pos hKey, if_neg hNew, if_pos hKey]
      · rw [if_neg hKey, if_neg hKey]

end Calculators

namespace Registration

open Code

/-! ## Parts -/

/-- A part of the text of a module. -/
inductive Part where
  | code (text : String)
  /-- The literal of a text. -/
  | literal (content : String)
  deriving DecidableEq, Repr

namespace Part

/-- The text of a part. -/
def render : Part → String
  | code text => text
  | literal content => quote content

/-- The part with another text, if it is a literal. -/
def withText (f : String → String) : Part → Part
  | code text => .code text
  | literal content => .literal (f content)

end Part

/-- The text of parts. -/
def renderParts (parts : List Part) : String := String.join (parts.map Part.render)

/-- The start of the call that looks a calculator up. -/
def lookupStart : Part := .code "        entry.property_calculator = ctx.calculators.lookup("

/-- The literals in the statement of a localized name, with the code around them. -/
def LocalizedName.parts (l : LocalizedName) : List Part :=
  [.code ("        entry.add_localized_parameter_name(LanguageType::" ++ l.language.name ++ ", "),
    .literal l.text, .code ");\n"]

/-- The parts of an entry for the description in the variable `v`. -/
def PropertyEntry.parts (v : String) (e : PropertyEntry) : List Part :=
  [.code "\n        let mut entry = PropertySetEntry::new(", .literal e.name,
    .code (");\n" ++ "        entry.property_name = "), .literal e.name,
    .code (".to_string();\n" ++
      "        entry.property_type = PropertyType::" ++ e.backingType ++ ";\n" ++
      "        entry.property_value_type = PropertyValueType::" ++ e.kind.name ++ ";\n" ++
      (match e.enumeration with
        | none => ""
        | some r =>
          "        entry.property_enumeration_type = Some(std::any::type_name::<" ++ r.enumModule ++
            "::" ++ r.tagModule ++ "::" ++ r.name ++ ">());\n"))] ++
  (e.localizedNames.flatMap LocalizedName.parts ++
  [lookupStart, .literal e.calculatorKey,
    .code (");\n" ++ "        " ++ v ++ ".add_entry(entry);\n" ++
      "        entry_added = true;\n")])

/-- The parts of a block for the set `setName`. -/
def Block.parts (setName v : String) (b : Block) : List Part :=
  [.code ("\n    if ctx.options." ++ b.revision.exportFlag ++
      " && ctx.certified_psets.allow_pset_to_be_created(&file_version, "), .literal setName,
    .code (") \x7b\n" ++ String.join (b.entityTypes.map fun entity =>
      "        " ++ v ++ ".entity_types.push(IfcEntityType::" ++ entity ++ ");\n"))] ++
  (b.entries.flatMap (PropertyEntry.parts v) ++ [.code "    \x7d\n"])

/-- The parts of a routine. -/
def Routine.parts (r : Routine) : List Part :=
  [.code ("#[allow(unused_mut, unused_variables)]\n" ++ "fn " ++ r.routineName ++
        "(common_property_sets: &mut Vec<PropertySetDescription>, ctx: &ExportContext) \x7b\n" ++
      "    let mut " ++ r.localName ++ " = PropertySetDescription::default();\n" ++
      "    " ++ r.localName ++ ".name = "), .literal r.setName,
    .code (".to_string();\n" ++
      (match r.subIndex with
        | none => ""
        | some identifier =>
          "    " ++ r.localName ++ ".sub_element_index = IfcCommonPSets::" ++ identifier ++
            " as i32;\n") ++
      "    let mut entry_added = false;\n" ++
      "    let file_version = ctx.options.file_version.to_string().to_uppercase();\n")] ++
  (r.blocks.flatMap (Block.parts r.setName r.localName) ++
  [.code ("\n    if entry_added \x7b\n" ++
    "        common_property_sets.push(" ++ r.localName ++ ");\n" ++ "    \x7d\n" ++ "\x7d\n")])

/-- A module as code and literals, in the order of its text. -/
def Module.parts (m : Module) : List Part :=
  .code (Module.renderHead m.runtimeModule ++ Module.renderCalls m.calls) ::
    m.routines.flatMap fun r => .code "\n" :: r.parts

/-! ## The text of the parts -/

theorem renderParts_cons (part : Part) (parts : List Part) :
    renderParts (part :: parts) = part.render ++ renderParts parts := by
  rw [renderParts, List.map_cons, String.join_cons]
  rfl

theorem renderParts_append (parts parts' : List Part) :
    renderParts (parts ++ parts') = renderParts parts ++ renderParts parts' := by
  rw [renderParts, List.map_append, String.join_append]
  rfl

theorem renderParts_flatMap {α : Type} (g : α → List Part) (items : List α) :
    renderParts (items.flatMap g) = String.join (items.map fun a => renderParts (g a)) := by
  induction items with
  | nil => rfl
  | cons a rest ih =>
    rw [List.flatMap_cons, renderParts_append, ih, List.map_cons, String.join_cons]

theorem renderParts_nil : renderParts [] = "" := rfl

theorem LocalizedName.renderParts_parts (l : LocalizedName) :
    renderParts l.parts = "        entry.add_localized_parameter_name(LanguageType::" ++
      l.language.name ++ ", " ++ quote l.text ++ ");\n" := by
  simp only [parts, renderParts_cons, renderParts_nil, Part.render, String.append_assoc,
    String.append_empty]

theorem PropertyEntry.render_eq (v : String) (e : PropertyEntry) :
    e.render v = renderParts (e.parts v) := by
  unfold render
  cases hReference : e.enumeration <;>
    simp only [parts, hReference, renderParts_append, renderParts_flatMap, renderParts_cons,
      renderParts_nil, LocalizedName.renderParts_parts, lookupStart, Part.render,
      String.append_assoc, String.append_empty]

theorem Block.render_eq (setName v : String) (b : Block) :
    b.render setName v = renderParts (b.parts setName v) := by
  unfold render
  simp only [parts, renderParts_append, renderParts_flatMap, renderParts_cons, renderParts_nil,
    ← PropertyEntry.render_eq, Part.render, String.append_assoc, String.append_empty]

theorem Routine.render_eq (r : Routine) : r.render = renderParts r.parts := by
  unfold render
  cases hIndex : r.subIndex <;>
    simp only [parts, hIndex, renderParts_append, renderParts_flatMap, renderParts_cons,
      renderParts_nil, ← Block.render_eq, Part.render, String.append_assoc, String.append_empty]

/-- The text of a module is that of its parts. -/
theorem Module.render_eq (m : Module) : m.render = renderParts m.parts := by
  unfold render
  simp only [parts, renderParts_flatMap, renderParts_cons, ← Routine.render_eq, Part.render]

/-! ## The literals -/

/-- The literals of a module: names of sets, and for each entry the name of its property, its
localized names, and the key of its calculator. -/
theorem Module.literal_mem_parts {m : Module} {s : String} :
    Part.literal s ∈ m.parts ↔ (∃ r ∈ m.routines, s = r.setName) ∨
      ∃ e ∈ m.entries, s = e.name ∨ (∃ l ∈ e.localizedNames, s = l.text) ∨
        s = e.calculatorKey := by
  -- level by level, from an entry up to a routine
  have hInEntry : ∀ (v : String) (e : PropertyEntry), Part.literal s ∈ e.parts v ↔
      s = e.name ∨ (∃ l ∈ e.localizedNames, s = l.text) ∨ s = e.calculatorKey := by
    intro v e
    simp [PropertyEntry.parts, LocalizedName.parts, lookupStart]
  have hInBlock : ∀ (setName v : String) (b : Block), Part.literal s ∈ b.parts setName v ↔
      s = setName ∨ ∃ e ∈ b.entries, Part.literal s ∈ e.parts v := by
    intro setName v b
    simp [Block.parts]
  have hInRoutine : ∀ r : Routine, Part.literal s ∈ r.parts ↔
      s = r.setName ∨ ∃ b ∈ r.blocks, Part.literal s ∈ b.parts r.setName r.localName := by
    intro r
    simp [Routine.parts]
  simp only [parts, List.mem_cons, reduceCtorEq, false_or, List.mem_flatMap, hInRoutine, hInBlock,
    hInEntry, Module.entries]
  constructor
  · rintro ⟨r, hRoutine, rfl | ⟨b, hBlock, rfl | ⟨e, hEntry, hText⟩⟩⟩
    · exact .inl ⟨r, hRoutine, rfl⟩
    · exact .inl ⟨r, hRoutine, rfl⟩
    · exact .inr ⟨e, ⟨r, hRoutine, b, hBlock, hEntry⟩, hText⟩
  · rintro (⟨r, hRoutine, rfl⟩ | ⟨e, ⟨r, hRoutine, b, hBlock, hEntry⟩, hText⟩)
    · exact ⟨r, hRoutine, .inl rfl⟩
    · exact ⟨r, hRoutine, .inr ⟨b, hBlock, .inr ⟨e, hEntry, hText⟩⟩⟩

/-- The parts of an entry follow each other in those of its module. -/
theorem Module.exists_parts_infix {m : Module} {e : PropertyEntry} (h : e ∈ m.entries) :
    ∃ v, e.parts v <:+: m.parts := by
  -- from the entry outwards: its block, its routine, the module
  have hMember : ∀ {α : Type} (g : α → List Part) {a : α} {items : List α}, a ∈ items →
      g a <:+: items.flatMap g :=
    fun g _ _ hMem => List.infix_of_mem_flatten (List.mem_map_of_mem hMem)
  obtain ⟨r, hRoutine, hBlocks⟩ := List.mem_flatMap.1 h
  obtain ⟨b, hBlock, hEntry⟩ := List.mem_flatMap.1 hBlocks
  have hInBlock : e.parts r.localName <:+: b.parts r.setName r.localName :=
    (hMember (PropertyEntry.parts r.localName) hEntry).trans (List.infix_append' _ _ _)
  have hInRoutine : b.parts r.setName r.localName <:+: r.parts :=
    (hMember (Block.parts r.setName r.localName) hBlock).trans (List.infix_append' _ _ _)
  have hInModule : r.parts <:+: m.parts :=
    (List.suffix_cons _ _).isInfix.trans <|
      (hMember (fun r : Routine => Part.code "\n" :: r.parts) hRoutine).trans
        (List.suffix_cons _ _).isInfix
  exact ⟨r.localName, hInBlock.trans (hInRoutine.trans hInModule)⟩

/-- An entry looks its calculator up under the key that it was given. -/
theorem PropertyEntry.lookup_infix (v : String) (e : PropertyEntry) :
    [lookupStart, .literal e.calculatorKey] <:+: e.parts v := by
  have hLast : [lookupStart, .literal e.calculatorKey] <+: [lookupStart, .literal e.calculatorKey,
      .code (");\n" ++ "        " ++ v ++ ".add_entry(entry);\n" ++
        "        entry_added = true;\n")] := List.prefix_append [_, _] [_]
  exact hLast.isInfix.trans ((List.suffix_append _ _).trans (List.suffix_append _ _)).isInfix

/-- The key of an entry in the module of a registry is that of its property. -/
theorem calculatorKey_of_mem_entries {c : Configuration} {r : Registry} {e : PropertyEntry}
    (h : e ∈ (Module.ofRegistry c r).entries) : e.calculatorKey = Naming.calculatorKey e.name := by
  obtain ⟨o, -, hEntry⟩ := mem_entries_ofRegistry.1 h
  -- only properties with a value have entries
  rw [PropertyEntry.ofOccurrence?] at hEntry
  cases hProperty : o.property with
  | valued label shape =>
    rw [hProperty] at hEntry
    cases hEntry
    rfl
  | _ =>
    rw [hProperty] at hEntry
    cases hEntry

/-! ## Other texts -/

section

variable (f : String → String)

/-- The entry with other texts. -/
def PropertyEntry.withTexts (e : PropertyEntry) : PropertyEntry :=
  { e with
    name := f e.name
    localizedNames := e.localizedNames.map fun l => ⟨l.language, f l.text⟩
    calculatorKey := f e.calculatorKey }

/-- The block with other texts. -/
def Block.withTexts (b : Block) : Block :=
  { b with entries := b.entries.map (PropertyEntry.withTexts f) }

/-- The routine with other texts. -/
def Routine.withTexts (r : Routine) : Routine :=
  { r with setName := f r.setName, blocks := r.blocks.map (Block.withTexts f) }

/-- The module with other texts; the identifiers that were made from them stay as they are. -/
def Module.withTexts (m : Module) : Module :=
  { m with routines := m.routines.map (Routine.withTexts f) }

theorem PropertyEntry.parts_withTexts (v : String) (e : PropertyEntry) :
    (e.withTexts f).parts v = (e.parts v).map (Part.withText f) := by
  simp [parts, withTexts, LocalizedName.parts, lookupStart, Part.withText, List.flatMap_map,
    List.map_flatMap]

theorem Block.parts_withTexts (setName v : String) (b : Block) :
    (b.withTexts f).parts (f setName) v = (b.parts setName v).map (Part.withText f) := by
  simp [parts, withTexts, Part.withText, List.flatMap_map, List.map_flatMap,
    PropertyEntry.parts_withTexts]

theorem Routine.parts_withTexts (r : Routine) :
    (r.withTexts f).parts = r.parts.map (Part.withText f) := by
  simp [parts, withTexts, Part.withText, List.flatMap_map, List.map_flatMap,
    Block.parts_withTexts]

/-- With other texts a module has the same parts, with these texts in its literals. -/
theorem Module.parts_withTexts (m : Module) :
    (m.withTexts f).parts = m.parts.map (Part.withText f) := by
  simp [parts, withTexts, Part.withText, List.flatMap_map, List.map_flatMap,
    Routine.parts_withTexts]

/-! ### The code -/

theorem PropertyEntry.statements_withTexts (v : String) (e : PropertyEntry) :
    (e.withTexts f).statements v = statementsWithTexts f (e.statements v) := by
  have hReference : statementsWithTexts f (e.enumeration.toList.map EnumReference.statement) =
      e.enumeration.toList.map EnumReference.statement := by
    cases e.enumeration <;> rfl
  have hLocalized : ((e.withTexts f).localizedNames.flatMap fun l => [l.statement]) =
      e.localizedNames.flatMap fun l => statementsWithTexts f [l.statement] :=
    List.flatMap_map ..
  unfold statements
  simp only [statementsWithTexts_append, statementsWithTexts_flatMap, hReference, hLocalized]
  rfl

theorem Block.statement_withTexts (setName v : String) (b : Block) :
    (b.withTexts f).statement (f setName) v = (b.statement setName v).withTexts f := by
  have hTypes : (b.entityTypes.flatMap fun entity => [entityStatement v entity]) =
      b.entityTypes.flatMap fun entity => statementsWithTexts f [entityStatement v entity] := rfl
  have hEntries : (b.withTexts f).entries.flatMap (PropertyEntry.statements v) =
      b.entries.flatMap fun e => statementsWithTexts f (e.statements v) := by
    simp only [← PropertyEntry.statements_withTexts]
    exact List.flatMap_map ..
  have hBody : (b.withTexts f).body v = statementsWithTexts f (b.body v) := by
    rw [body, body, hEntries, statementsWithTexts_append, statementsWithTexts_flatMap,
      statementsWithTexts_flatMap, ← hTypes]
    rfl
  rw [statement, hBody]
  rfl

theorem Routine.function_withTexts (r : Routine) :
    (r.withTexts f).function = r.function.withTexts f := by
  have hIndex : statementsWithTexts f (r.subIndex.toList.map (indexStatement r.localName)) =
      r.subIndex.toList.map (indexStatement r.localName) := by
    cases r.subIndex <;> rfl
  have hBlocks : ((r.withTexts f).blocks.flatMap fun b => [b.statement (f r.setName) r.localName]) =
      r.blocks.flatMap fun b => statementsWithTexts f [b.statement r.setName r.localName] := by
    simp only [statementsWithTexts, ← Block.statement_withTexts]
    exact List.flatMap_map ..
  have hBody : (r.withTexts f).body = statementsWithTexts f r.body := by
    unfold body
    simp only [statementsWithTexts_append, statementsWithTexts_flatMap, hIndex, ← hBlocks]
    rfl
  rw [function, hBody]
  rfl

theorem Module.functions_withTexts (m : Module) :
    (m.withTexts f).functions = m.functions.map (Function.withTexts f) := by
  have hCalls : (callsFunction m.calls).withTexts f = callsFunction m.calls := by
    simp only [callsFunction, Function.withTexts, statementsWithTexts, statementsWithTexts_append,
      statementsWithTexts_flatMap]
    rfl
  rw [functions, functions, List.map_cons, hCalls]
  refine congrArg (_ :: ·) ?_
  show (m.routines.map _).map _ = (m.routines.map _).map _
  rw [List.map_map, List.map_map]
  exact List.map_congr_left fun r _ => r.function_withTexts f

variable {f}

/-- Texts are no identifiers. -/
theorem Module.Named.withTexts {letters : Char → Bool} {m : Module} (h : m.Named letters) :
    (m.withTexts f).Named letters := by
  refine ⟨h.runtimeModule, h.calls, fun _ hRoutine => ?_⟩
  obtain ⟨r, hMem, rfl⟩ := List.mem_map.1 hRoutine
  have hNamed := h.routines r hMem
  refine ⟨hNamed.routineName, hNamed.localName, hNamed.subIndex, fun _ hBlock => ?_⟩
  obtain ⟨b, hMem, rfl⟩ := List.mem_map.1 hBlock
  have hNamed := hNamed.blocks b hMem
  refine ⟨hNamed.entityTypes, fun _ hEntry => ?_⟩
  obtain ⟨e, hMem, rfl⟩ := List.mem_map.1 hEntry
  have hNamed := hNamed.entries e hMem
  exact ⟨hNamed.backingType, hNamed.enumeration⟩

end

/-! ## The texts of a registry -/

/-- **Texts stay in their literals.** The module of a registry is code and literals. Its literals
hold the names of sets and properties, localized names, and the keys of calculators, whatever these
are. Each literal is on one line, and read from its opening quote it denotes its text and ends
where the code behind it starts. With other texts in the literals nothing else of the module
changes, and the code that is read in it, its identifiers being names, has the same functions and
statements. What an entry looks up is what was last filed for its property, or for another one with
the same key. -/
theorem texts_stay_in_literals {c : Configuration} {r : Registry} {m : Module}
    (hModule : m = Module.ofRegistry c r) :
    m.render = renderParts m.parts ∧
      (∀ s, .literal s ∈ m.parts ↔ (∃ routine ∈ m.routines, s = routine.setName) ∨
        ∃ e ∈ m.entries, s = e.name ∨ (∃ l ∈ e.localizedNames, s = l.text) ∨
          s = e.calculatorKey) ∧
      (∀ before s after, m.parts = before ++ .literal s :: after →
        IsOnOneLine (quote s) ∧
          readLiteral? (renderParts (.literal s :: after)) = some (s, renderParts after)) ∧
      (∀ f, (m.withTexts f).parts = m.parts.map (Part.withText f) ∧
        ∀ letters, m.Named letters → ∃ functions, functions? letters m.render = some functions ∧
          functions? letters (m.withTexts f).render =
            some (functions.map (Function.withTexts f))) ∧
      ∀ e ∈ m.entries, (∃ v, e.parts v <:+: m.parts ∧
          [lookupStart, .literal e.calculatorKey] <:+: e.parts v) ∧
        ∀ (calculators : Calculators) (calculator : Calculator) (key : String),
          (calculators.registerFor e.name calculator).find? key =
            if key = e.calculatorKey then some calculator else calculators.find? key := by
  refine ⟨m.render_eq, fun s => Module.literal_mem_parts, fun before s after _ => ?_, fun f => ?_,
    fun e hEntry => ⟨?_, fun calculators calculator key => ?_⟩⟩
  · refine ⟨isOnOneLine_quote s, ?_⟩
    rw [renderParts_cons]
    exact readLiteral?_quote s (renderParts after)
  · refine ⟨m.parts_withTexts f, fun letters hNamed => ?_⟩
    -- the code is read from the printed text, and the texts are changed in what was read
    refine ⟨m.functions, functions?_render hNamed, ?_⟩
    rw [functions?_render hNamed.withTexts, m.functions_withTexts]
  · obtain ⟨v, hInfix⟩ := Module.exists_parts_infix hEntry
    exact ⟨v, hInfix, e.lookup_infix v⟩
  · subst m
    -- an entry looks up under the key that its calculator is registered under
    rw [Calculators.registerFor, Calculators.find?_register, calculatorKey_of_mem_entries hEntry]

/-- A text that looks like the end of a literal, of a statement and of a block, with a line break
and an escape. -/
def unrulyText : String := "\"); \x7d\n\\u\x7b41\x7d"

/-- A registry with such a text for a property and for its localized name. -/
def unrulyRegistry : Registry :=
  .ofList [⟨"IFC4_ADD1", "Pset_A\"); //", "IFC4", none, [],
    [.valued ⟨unrulyText, none, [⟨unrulyText, "de"⟩]⟩ (.single "IfcLabel")]⟩]

/-- What is unruly about the registry is in its texts. -/
theorem wellNamed_unrulyRegistry : WellNamed (fun _ => false) unrulyRegistry := by
  refine ⟨by decide, by unfold IsName; decide, ?_, ?_⟩
  · intro group hGroup e hEdition l shape hProperty
    obtain rfl := List.mem_singleton.1 hGroup
    obtain rfl := List.mem_singleton.1 hEdition
    obtain ⟨rfl, rfl⟩ := Property.valued.inj (List.mem_singleton.1 hProperty)
    unfold IsName
    decide +kernel
  · intro group hGroup e hEdition l name items hProperty _
    obtain rfl := List.mem_singleton.1 hGroup
    obtain rfl := List.mem_singleton.1 hEdition
    cases (Property.valued.inj (List.mem_singleton.1 hProperty)).2

theorem unrulyText_stays_in_literal :
    ∃ before after, (Module.ofRegistry {} unrulyRegistry).parts =
        before ++ .literal unrulyText :: after ∧
      IsOnOneLine (quote unrulyText) ∧
      readLiteral? (renderParts (.literal unrulyText :: after)) =
        some (unrulyText, renderParts after) ∧
      ∃ functions,
        functions? (fun _ => false) (Module.ofRegistry {} unrulyRegistry).render =
            some functions ∧
          functions? (fun _ => false)
              ((Module.ofRegistry {} unrulyRegistry).withTexts fun _ => "Plain").render =
            some (functions.map (Function.withTexts fun _ => "Plain")) := by
  have hNamed := named_ofRegistry (Configuration.problems_eq_nil_iff.1
    Configuration.problems_default) wellNamed_unrulyRegistry
  obtain ⟨-, hLiterals, hReads, hTexts, -⟩ :=
    texts_stay_in_literals (rfl : Module.ofRegistry {} unrulyRegistry = _)
  -- the text is the name of a property, so it is a literal of the module
  have hEntry : (Module.ofRegistry {} unrulyRegistry).entries.any (·.name = unrulyText) := by
    decide +kernel
  obtain ⟨e, hMem, hName⟩ := List.any_eq_true.1 hEntry
  obtain ⟨before, after, hParts⟩ := List.append_of_mem
    ((hLiterals unrulyText).2 (.inr ⟨e, hMem, .inl (of_decide_eq_true hName).symm⟩))
  obtain ⟨hLine, hDenotes⟩ := hReads before unrulyText after hParts
  exact ⟨before, after, hParts, hLine, hDenotes, (hTexts fun _ => "Plain").2 _ hNamed⟩

end Registration

end PropertySets
