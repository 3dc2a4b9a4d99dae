import PropertySets.Configuration.Validation
import PropertySets.Proofs.Registration.Assignment
import PropertySets.Proofs.Registration.Execution
import PropertySets.Proofs.Registration.Reading

/-!
# What a registration module means

The text of the registration module of a registry, executed statement by statement, pushes the list
of the descriptions that the registry has in the export. This needs a valid configuration, and names
in the documents that can stand where identifiers stand.

* `WellNamed` — the names of a registry can stand in code.
* `named_ofRegistry`, `callable_ofRegistry` — so can those of its module, and its routines are told
  apart.
* `description?_ofGroup` — the routine of a set describes it as the registry does.
* `render_means` — reading and executing the text gives the descriptions.
-/

namespace PropertySets.Registration

open Code Naming

/-! ## Names -/

/-- The names of a registry can stand in code: set names are ASCII, and class names that are not
blank, the types that back values, and the names of enumerations are names. -/
structure WellNamed (letters : Char → Bool) (r : Registry) : Prop where
  setNames : ∀ n ∈ r.names, IsAscii n
  classes : ∀ group ∈ r.groups, ∀ e ∈ group.2, ∀ k ∈ e.definition.applicableClasses,
    Text.trim k ≠ "" → IsName letters (Text.trim k)
  backingTypes : ∀ group ∈ r.groups, ∀ e ∈ group.2, ∀ l shape,
    Property.valued l shape ∈ flattened e.definition → IsName letters (backingTypeOf shape)
  enumerations : ∀ group ∈ r.groups, ∀ e ∈ group.2, ∀ l name items,
    Property.valued l (.enumerated name items) ∈ flattened e.definition →
      name ≠ "" → IsName letters name

variable {letters : Char → Bool} {c : Configuration} {r : Registry}

/-- A reference to an enumeration holds the enumeration's name and the module of its tag. -/
theorem enumReference?_eq_some {e : Edition} {shape : Shape} {reference : EnumReference}
    (h : enumReference? c e shape = some reference) :
    ∃ name items tag, shape = .enumerated name items ∧ name ≠ "" ∧
      reference = ⟨c.output.enumModule, versionModule tag, name⟩ := by
  cases shape with
  | enumerated name items =>
    simp only [enumReference?, requestOf, Option.bind_eq_bind, Option.bind_some,
      Option.bind_eq_some_iff, Enumeration.Request.filingTag?] at h
    obtain ⟨tag, hTag, hReference⟩ := h
    split at hTag
    · cases hTag
    · rename_i hFiled
      refine ⟨name, items, tag, rfl, fun hEmpty => hFiled ?_, (Option.some.inj hReference).symm⟩
      simp [hEmpty]
  | _ => cases h

section

variable {group : String × List Edition} {e : Edition}

theorem named_ofProperty? (hValid : c.Valid) (h : WellNamed letters r)
    (hGroup : group ∈ r.groups) (hEdition : e ∈ group.2) {p : Property}
    (hProperty : p ∈ flattened e.definition) {entry : PropertyEntry}
    (hEntry : PropertyEntry.ofProperty? c e p = some entry) : entry.Named letters := by
  cases p with
  | typeless l => cases hEntry
  | complex l name properties => cases hEntry
  | valued l shape =>
    cases hEntry
    refine ⟨h.backingTypes group hGroup e hEdition l shape hProperty, fun reference hMem => ?_⟩
    obtain ⟨name, items, tag, rfl, hName, rfl⟩ := enumReference?_eq_some hMem
    exact ⟨hValid.enumModule, .ofIdentifier (isIdentifier_versionModule tag),
      h.enumerations group hGroup e hEdition l name items hProperty hName⟩

theorem named_ofEdition? (hValid : c.Valid) (h : WellNamed letters r)
    (hGroup : group ∈ r.groups) (hEdition : e ∈ group.2) {b : Block}
    (hBlock : Block.ofEdition? c e = some b) : b.Named letters := by
  obtain ⟨revision, -, rfl⟩ := Option.map_eq_some_iff.1 hBlock
  refine ⟨fun entity hMem => ?_, fun entry hMem => ?_⟩
  · obtain ⟨k, hClass, rfl⟩ := List.mem_map.1 hMem
    rw [entityType]
    split
    · exact .ofIdentifier hValid.defaultEntityType
    · rename_i hBlank
      exact h.classes group hGroup e hEdition k hClass fun hEmpty => hBlank (by rw [hEmpty]; rfl)
  · obtain ⟨p, hProperty, hEntry⟩ := List.mem_filterMap.1 hMem
    exact named_ofProperty? hValid h hGroup hEdition hProperty hEntry

end

/-! ## The routines of a registry -/

/-- Names made from a stem of word characters. -/
structure FitNames (names : SetNames) : Prop where
  routine : isIdentifier names.routine = true
  localName : isIdentifier names.localName = true
  isLocal : IsLocal names.localName
  ne_main : names.routine ≠ "init_common_property_sets"

theorem fitNames_ofStem {stem : String} (h : IsWord stem) : FitNames (.ofStem stem) := by
  -- no fixed name starts as the names of sets do
  have hStart : ∀ {start w : String}, ¬ start.toList <+: w.toList → start ++ stem ≠ w := by
    rintro start w hOther rfl
    exact hOther (by rw [String.toList_append]; exact List.prefix_append _ _)
  refine ⟨isIdentifier_append (by decide) h, isIdentifier_append (by decide) h,
    ⟨⟨?_, ?_⟩, ?_, ?_, ?_, ?_, ?_⟩, ?_⟩ <;> exact hStart (by decide)

/-- The names of a set can stand in code. -/
theorem fitNames_assigned (h : WellNamed letters r) {n : String} (hMem : n ∈ r.names) :
    FitNames (assignedNames r n) := by
  obtain ⟨stem, -, hNames, hWord⟩ :=
    (NameTable.sound_assign h.setNames).stems _ (NameTable.mem_of_find? (find?_assign hMem))
  have hOfStem : assignedNames r n = .ofStem stem := hNames
  exact hOfStem ▸ fitNames_ofStem hWord

theorem named_ofRegistry (hValid : c.Valid) (h : WellNamed letters r) :
    (Module.ofRegistry c r).Named letters := by
  refine ⟨hValid.runtimeModule, fun name hMem => ?_, fun routine hMem => ?_⟩
  · rw [calls_ofRegistry] at hMem
    obtain ⟨n, hName, rfl⟩ := List.mem_map.1 hMem
    exact .ofIdentifier (fitNames_assigned h hName).routine
  · rw [routines_ofRegistry] at hMem
    obtain ⟨group, hGroup, rfl⟩ := List.mem_map.1 hMem
    -- the names of a routine come from the table, all others from the configuration and the texts
    -- of the set
    have hFit := fitNames_assigned h (List.mem_map_of_mem hGroup)
    refine ⟨.ofIdentifier hFit.routine, .ofIdentifier hFit.localName, fun identifier hIndex => ?_,
      fun b hBlock => ?_⟩
    · have hKnown : subIndex? c group.1 = some identifier := hIndex
      rw [subIndex?] at hKnown
      split at hKnown
      · rename_i hMem
        cases hKnown
        exact .ofIdentifier (hValid.knownSubIndices _ hMem)
      · cases hKnown
    · obtain ⟨e, hEdition, hBlock⟩ := List.mem_filterMap.1 hBlock
      exact named_ofEdition? hValid h hGroup hEdition hBlock

theorem callable_ofRegistry (c : Configuration) (h : WellNamed letters r) :
    (Module.ofRegistry c r).Callable := by
  have hNodup := nodup_calls c r
  rw [calls_eq_routines] at hNodup
  refine ⟨calls_eq_routines c r, hNodup, ?_, ?_⟩
  · intro routine hMem hMain
    refine main_notMem_calls c r ?_
    rw [calls_eq_routines, ← hMain]
    exact List.mem_map_of_mem hMem
  · intro routine hMem
    rw [routines_ofRegistry] at hMem
    obtain ⟨group, hGroup, rfl⟩ := List.mem_map.1 hMem
    exact (fitNames_assigned h (List.mem_map_of_mem hGroup)).isLocal

/-! ## Descriptions -/

variable {x : ExportContext}

theorem exported_ofProperty? (x : ExportContext) (c : Configuration) (e : Edition) (p : Property) :
    (PropertyEntry.ofProperty? c e p).map (PropertyEntry.exported x) =
      ExportedEntry.ofProperty? x c e p := by
  cases p <;> rfl

/-- The blocks that are entered are those of the enabled editions. -/
theorem filter_entered (x : ExportContext) (c : Configuration) (setName : String)
    (editions : List Edition) :
    (editions.filterMap (Block.ofEdition? c)).filter (entered x setName) =
      (editions.filter (x.enables setName)).filterMap (Block.ofEdition? c) := by
  rw [List.filter_filterMap, List.filterMap_filter]
  refine List.filterMap_congr fun e _ => ?_
  rw [Block.ofEdition?, ExportContext.enables]
  cases revision? e with
  | none => rfl
  | some revision => exact (Option.filter_some ..).trans rfl

/-- An enabled edition has a block with its entity types and entries. -/
theorem exists_block {setName : String} {e : Edition} (h : x.enables setName e = true) :
    ∃ b, Block.ofEdition? c e = some b ∧
      b.entityTypes = e.definition.applicableClasses.map (entityType c) ∧
      b.entries.map (PropertyEntry.exported x) = exportedEntries x c e := by
  rw [ExportContext.enables] at h
  cases hRevision : revision? e with
  | none => rw [hRevision] at h; cases h
  | some revision =>
    refine ⟨_, by rw [Block.ofEdition?, hRevision]; rfl, rfl, ?_⟩
    rw [List.map_filterMap, exportedEntries]
    exact List.filterMap_congr fun p _ => exported_ofProperty? x c e p

/-- The blocks of enabled editions have what the editions have. -/
theorem blocks_of_enabled {setName : String} {editions : List Edition}
    (h : ∀ e ∈ editions, x.enables setName e = true) :
    (editions.filterMap (Block.ofEdition? c)).flatMap Block.entityTypes =
        editions.flatMap (fun e => e.definition.applicableClasses.map (entityType c)) ∧
      entriesOf x (editions.filterMap (Block.ofEdition? c)) =
        editions.flatMap (exportedEntries x c) := by
  induction editions with
  | nil => exact ⟨rfl, rfl⟩
  | cons e rest ih =>
    -- an edition that is enabled has a known revision, and so a block
    obtain ⟨b, hBlock, hTypes, hEntries⟩ := exists_block (c := c) (h e List.mem_cons_self)
    obtain ⟨ihTypes, ihEntries⟩ := ih fun e' hMem => h e' (List.mem_cons_of_mem _ hMem)
    rw [List.filterMap_cons_some hBlock]
    refine ⟨?_, ?_⟩
    · rw [List.flatMap_cons, List.flatMap_cons, hTypes, ihTypes]
    · rw [entriesOf, List.flatMap_cons, List.flatMap_cons, hEntries]
      exact congrArg _ ihEntries

/-- The routine of a set describes it as the registry does. -/
theorem description?_ofGroup (x : ExportContext) (c : Configuration) (names : SetNames)
    (group : String × List Edition) :
    (Routine.ofGroup c names group.1 group.2).description? x =
      Description.ofGroup? x c group := by
  have hEnabled : ∀ e ∈ group.2.filter (x.enables group.1), x.enables group.1 e = true :=
    fun e hMem => (List.mem_filter.1 hMem).2
  obtain ⟨hTypes, hEntries⟩ := blocks_of_enabled (c := c) hEnabled
  rw [Routine.description?, Description.ofGroup?]
  simp only [Routine.ofGroup, filter_entered, hTypes, hEntries]

/-- The descriptions of a module are those of the registry. -/
theorem descriptions_ofRegistry (x : ExportContext) (c : Configuration) (r : Registry) :
    (Module.ofRegistry c r).routines.filterMap (Routine.description? x) = descriptions x c r := by
  rw [routines_ofRegistry, List.filterMap_map, descriptions]
  exact List.filterMap_congr fun group _ => description?_ofGroup x c _ group

theorem setName_of_ofGroup? {group : String × List Edition} {d : Description}
    (h : Description.ofGroup? x c group = some d) : d.setName = group.1 := by
  rw [Description.ofGroup?] at h
  split at h
  · cases h
  · cases h
    rfl

theorem setNames_sublist (x : ExportContext) (c : Configuration)
    (groups : List (String × List Edition)) :
    ((groups.filterMap (Description.ofGroup? x c)).map Description.setName).Sublist
      (groups.map (·.1)) := by
  induction groups with
  | nil => exact .slnil
  | cons group rest ih =>
    rw [List.filterMap_cons]
    cases hDescription : Description.ofGroup? x c group with
    | none => exact ih.cons _
    | some d =>
      rw [List.map_cons, List.map_cons, setName_of_ofGroup? hDescription]
      exact ih.cons_cons _

/-- Descriptions are in the order of the names of their sets, and each set is described once. -/
theorem ascending_descriptions (x : ExportContext) (c : Configuration) (r : Registry) :
    ((descriptions x c r).map Description.setName).Pairwise (· < ·) :=
  r.ascending.sublist (setNames_sublist x c r.groups)

/-- **What a registration module means.** The text of the module of a registry can be read; and
whatever the export is, and whatever has been pushed before, executing it from its first routine
pushes one list, which holds the descriptions that the registry has in the export. -/
theorem render_means (hValid : c.problems = []) (h : WellNamed letters r) :
    ∃ functions, functions? letters (Module.ofRegistry c r).render = some functions ∧
      ∀ (x : ExportContext) (before : List Value) (depth : Nat),
        call functions (depth + 2) "init_common_property_sets" [.list before, x.value] =
          some [.list (before ++ [.list ((descriptions x c r).map Description.value)]), x.value] ∧
        ((descriptions x c r).map Description.setName).Pairwise (· < ·) := by
  have hNamed : (Module.ofRegistry c r).Named letters :=
    named_ofRegistry (Configuration.problems_eq_nil_iff.1 hValid) h
  refine ⟨_, functions?_render hNamed, fun x before depth => ⟨?_, ascending_descriptions x c r⟩⟩
  rw [call_module (callable_ofRegistry c h), descriptions_ofRegistry x c r]

/-- A set for walls, with an enumeration and a reference. -/
def wallEdition : Edition where
  folder := "IFC4_ADD1"
  definition := {
    name := "Pset_WallCommon"
    version := "IFC4_ADD1"
    guid := none
    applicableClasses := ["IfcWall", " "]
    properties := [
      .valued ⟨"Status", none, [⟨"Zustand", "de-DE"⟩]⟩ (.enumerated "PEnum_Status" [⟨"NEW", []⟩]),
      .typeless ⟨"Note", none, []⟩,
      .valued ⟨"Owner", none, []⟩ (.reference " IfcPerson")] }

/-- The registry of that set. -/
def wallRegistry : Registry := .ofList [wallEdition]

/-- An export of the first addendum of IFC4. -/
def addendumExport : ExportContext where
  as2x2 := false
  as2x3 := false
  as4add1 := true
  as4add2 := false
  fileVersion := "ifc4"
  allows := fun version _ => version = "IFC4"
  calculators := .empty

/-- The description of the set in that export. -/
def wallDescription : Description where
  setName := "Pset_WallCommon"
  subIndex := some "PSetWallCommon"
  entityTypes := ["IfcWall", "IfcBuildingElementProxy"]
  entries := [
    ⟨"Status", "Label", .enumeratedValue,
      some "crate::exporter::property_set::ifc4_add1::PEnum_Status", [⟨.german, "Zustand"⟩], none⟩,
    ⟨"Owner", "IfcPerson", .referenceValue, none, [], none⟩]

theorem wellNamed_wallRegistry : WellNamed (fun _ => false) wallRegistry := by
  refine ⟨by decide, by unfold IsName; decide, ?_, ?_⟩
  · intro group hGroup e hEdition l shape hProperty
    obtain rfl := List.mem_singleton.1 hGroup
    obtain rfl := List.mem_singleton.1 hEdition
    -- there are two properties with a value, and both have names to be read
    simp only [flattened, wallEdition, List.flatMap_cons, List.flatMap_nil, List.cons_append,
      List.nil_append, List.mem_cons, List.not_mem_nil, Property.valued.injEq, reduceCtorEq,
      false_or, or_false] at hProperty
    rcases hProperty with ⟨rfl, rfl⟩ | ⟨rfl, rfl⟩
    all_goals
      unfold IsName
      decide
  · intro group hGroup e hEdition l name items hProperty _
    obtain rfl := List.mem_singleton.1 hGroup
    obtain rfl := List.mem_singleton.1 hEdition
    simp only [flattened, wallEdition, List.flatMap_cons, List.flatMap_nil, List.cons_append,
      List.nil_append, List.mem_cons, List.not_mem_nil, Property.valued.injEq, reduceCtorEq,
      Shape.enumerated.injEq, and_false, or_false] at hProperty
    obtain ⟨-, rfl, -⟩ := hProperty
    unfold IsName
    decide

theorem wallRegistry_module_means :
    ∃ functions,
      functions? (fun _ => false) (Module.ofRegistry {} wallRegistry).render = some functions ∧
      call functions 2 "init_common_property_sets" [.list [], addendumExport.value] =
        some [.list [.list [wallDescription.value]], addendumExport.value] := by
  obtain ⟨functions, hRead, hCall⟩ :=
    render_means Configuration.problems_default wellNamed_wallRegistry
  exact ⟨functions, hRead, (hCall addendumExport [] 0).1⟩

end PropertySets.Registration
