import PropertySets.Proofs.Registration.Composition
import PropertySets.Proofs.Registration.Meaning

/-!
# Calls and definitions

The first function of a registration module calls the others. Whatever is in the registry, it calls
each of them once, in the order in which they are defined, which is that of the names of their sets.
If the text can be read as code, the calls and the definitions that are read are these.

* `Code.Function.callees` — the functions that a function calls.
* `callees_callsFunction` — those that the first function of a module calls.
* `calls_are_definitions` — what a rendered module calls and defines.
-/

namespace PropertySets

/-- The function that a statement calls, if it is a call of a function of the text. -/
def Code.Statement.callee? : Code.Statement → Option String
  | .evaluate (.call [name] _) => some name
  | _ => none

/-- The functions of the text that a function calls, statement by statement. -/
def Code.Function.callees (f : Code.Function) : List String :=
  f.body.filterMap Code.Statement.callee?

namespace Registration

open Code Enumeration FileTree Naming

theorem callees_callsFunction (calls : List String) :
    (Module.callsFunction calls).callees = calls := by
  have hCalls : (calls.flatMap fun name => [Module.callStatement name]).filterMap
      Statement.callee? = calls := by
    induction calls with
    | nil => rfl
    | cons name rest ih => rw [List.flatMap_cons, List.filterMap_append, ih]; rfl
  show (_ ++ _ : List Statement).filterMap Statement.callee? = calls
  rw [List.filterMap_append, hCalls]
  exact List.append_nil calls

/-- The functions that are read in a module whose identifiers are names. -/
theorem exists_functions {letters : Char → Bool} {m : Module} (h : m.Named letters) :
    ∃ first definitions, functions? letters m.render = some (first :: definitions) ∧
      first.name = "init_common_property_sets" ∧ first.callees = m.calls ∧
      definitions.map (·.name) = m.routines.map (·.routineName) := by
  refine ⟨Module.callsFunction m.calls, m.routines.map Routine.function, functions?_render h, rfl,
    callees_callsFunction m.calls, ?_⟩
  rw [List.map_map]
  rfl

/-- **Calls and definitions.** A module that is rendered consists of its head, the function that
calls, and the routines. The calls are the names of the routines in order; there is one routine for
each set, in ascending order of the sets' names; and no two routines, nor a routine and the function
that calls, have the same name. So it is with the functions that are read in the text, wherever its
identifiers are names. -/
theorem calls_are_definitions {c : Configuration} {r : Registry} {reconciler : Reconciler Handle}
    {s : Emitted Handle} {t t' : FileTree} {text : String}
    (hRun : (renderModule c r reconciler : StateM FileTree _) t = ((.ok text, s), t')) :
    text = Module.renderHead c.output.runtimeModule ++
        Module.renderCalls (Module.ofRegistry c r).calls ++
        String.join ((Module.ofRegistry c r).routines.map fun routine => "\n" ++ routine.render) ∧
      (Module.ofRegistry c r).calls = (Module.ofRegistry c r).routines.map (·.routineName) ∧
      (Module.ofRegistry c r).routines.map (·.setName) = r.names ∧ r.names.Pairwise (· < ·) ∧
      (Module.ofRegistry c r).calls.Nodup ∧
      "init_common_property_sets" ∉ (Module.ofRegistry c r).calls ∧
      ∀ letters, (Module.ofRegistry c r).Named letters → ∃ first definitions,
        functions? letters text = some (first :: definitions) ∧
          first.name = "init_common_property_sets" ∧
          first.callees = definitions.map (·.name) ∧
          first.callees = (Module.ofRegistry c r).calls := by
  obtain ⟨hText, -⟩ := emit_of_renderModule hRun
  refine ⟨hText, calls_eq_routines c r, setNames_routines c r, r.ascending, nodup_calls c r,
    main_notMem_calls c r, fun letters hNamed => ?_⟩
  -- the text is read back as the functions that were printed
  obtain ⟨first, definitions, hRead, hName, hCallees, hDefinitions⟩ := exists_functions hNamed
  refine ⟨first, definitions, by rw [hText, hRead], hName, ?_, hCallees⟩
  rw [hCallees, hDefinitions, calls_eq_routines]

/-- A set without properties. -/
def emptyEdition (name : String) : Edition := ⟨"IFC4", name, "IFC4", none, [], []⟩

/-- Two sets whose names are the same in snake case. -/
def doorRegistry : Registry :=
  .ofList [emptyEdition "Pset_Door_Common", emptyEdition "Pset_DoorCommon"]

theorem wellNamed_doorRegistry : WellNamed (fun _ => false) doorRegistry := by
  have hEmpty : ∀ group ∈ doorRegistry.groups, ∀ e ∈ group.2,
      e.definition.applicableClasses = [] ∧ (flattened e.definition).isEmpty = true := by decide
  have hNone : ∀ group ∈ doorRegistry.groups, ∀ e ∈ group.2, ∀ p, p ∉ flattened e.definition := by
    intro group hGroup e hEdition p hMem
    rw [List.isEmpty_iff.1 (hEmpty group hGroup e hEdition).2] at hMem
    cases hMem
  refine ⟨by decide, fun group hGroup e hEdition k hClass => ?_,
    fun group hGroup e hEdition _ _ hMem => absurd hMem (hNone group hGroup e hEdition _),
    fun group hGroup e hEdition _ _ _ hMem => absurd hMem (hNone group hGroup e hEdition _)⟩
  rw [(hEmpty group hGroup e hEdition).1] at hClass
  cases hClass

theorem exists_run_doorRegistry :
    ∃ report t', (generate {} doorRegistry : ExceptT Failure (StateM FileTree) Report).run
      emptyProject = (.ok report, t') :=
  exists_run_emptyProject (by decide) (by decide)

/-- The second of the two sets has a number in the name of its routine. -/
theorem doorRegistry_calls_read :
    ∃ (reconciler : Reconciler Handle) (t t' : FileTree) (s : Emitted Handle) (text : String),
      (renderModule {} doorRegistry reconciler : StateM FileTree _) t = ((.ok text, s), t') ∧
      ∃ first definitions, functions? (fun _ => false) text = some (first :: definitions) ∧
        first.name = "init_common_property_sets" ∧
        first.callees = ["init_pset_door_common", "init_pset_door_common_2"] ∧
        definitions.map (·.name) = ["init_pset_door_common", "init_pset_door_common_2"] := by
  obtain ⟨_, _, hRun⟩ := exists_run_doorRegistry
  obtain ⟨reconciler, t, s, t', hRenders⟩ := exists_rendered hRun
  obtain ⟨-, -, -, -, -, -, hReads⟩ := calls_are_definitions hRenders
  obtain ⟨first, definitions, hRead, hName, hSame, hCalls⟩ := hReads (fun _ => false)
    (named_ofRegistry (Configuration.problems_eq_nil_iff.1 Configuration.problems_default)
      wellNamed_doorRegistry)
  -- the names of the routines come from the table, which is computed
  have hNames : (Module.ofRegistry {} doorRegistry).calls =
      ["init_pset_door_common", "init_pset_door_common_2"] := by decide +kernel
  rw [hNames] at hCalls
  exact ⟨reconciler, t, t', s, _, hRenders, first, definitions, hRead, hName, hCalls,
    by rw [← hSame, hCalls]⟩

end Registration

end PropertySets
