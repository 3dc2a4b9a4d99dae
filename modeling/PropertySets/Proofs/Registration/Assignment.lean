import PropertySets.Proofs.Naming.Routines
import PropertySets.Registration.OfRegistry

/-!
# The names in a module

The calls of a module and its routines are made in two passes over the registry, and each pass asks
the table for the names of a set and leaves the set out if there are none. But every set has names,
and names of its own. So neither pass leaves a set out, and the calls are the names of the routines.

* `assignedNames`, `find?_assign` — the names of a set.
* `calls_ofRegistry`, `routines_ofRegistry` — what the two passes make.
* `calls_eq_routines`, `nodup_calls`, `main_notMem_calls` — each routine is called once.
-/

namespace PropertySets.Registration

open Naming

variable {r : Registry}

/-- The names of a set in the module of a registry. -/
def assignedNames (r : Registry) (setName : String) : SetNames :=
  ((NameTable.assign r.names).find? setName).getD (.ofStem "")

/-- Every set is found, so the default never counts. -/
theorem find?_assign {n : String} (h : n ∈ r.names) :
    (NameTable.assign r.names).find? n = some (assignedNames r n) := by
  obtain ⟨names, hFound⟩ := NameTable.exists_find? h
  rw [assignedNames, hFound, Option.getD_some]

theorem exists_stem {n : String} (h : n ∈ r.names) : ∃ stem, assignedNames r n = .ofStem stem := by
  obtain ⟨stem, -, hNames⟩ :=
    (NameTable.apart_assign r.names).stems _ (NameTable.mem_of_find? (find?_assign h))
  exact ⟨stem, hNames⟩

theorem filterMap_eq_map_of_some {α β : Type} {f : α → Option β} {g : α → β} {l : List α}
    (h : ∀ a ∈ l, f a = some (g a)) : l.filterMap f = l.map g :=
  (List.filterMap_congr h).trans (congrFun List.filterMap_eq_map l)

theorem calls_ofRegistry (c : Configuration) (r : Registry) :
    (Module.ofRegistry c r).calls = r.names.map fun n => (assignedNames r n).routine := by
  refine filterMap_eq_map_of_some fun n hMem => ?_
  rw [find?_assign hMem, Option.map_some]

theorem routines_ofRegistry (c : Configuration) (r : Registry) :
    (Module.ofRegistry c r).routines =
      r.groups.map fun group => .ofGroup c (assignedNames r group.1) group.1 group.2 := by
  refine filterMap_eq_map_of_some fun group hMem => ?_
  show ((NameTable.assign r.names).find? group.1).map _ = _
  rw [find?_assign (List.mem_map_of_mem hMem), Option.map_some]

/-- The calls are the names of the routines, in the same order. -/
theorem calls_eq_routines (c : Configuration) (r : Registry) :
    (Module.ofRegistry c r).calls = (Module.ofRegistry c r).routines.map (·.routineName) := by
  rw [calls_ofRegistry, routines_ofRegistry, List.map_map, Registry.names, List.map_map]
  rfl

/-- There is one routine for each set. -/
theorem setNames_routines (c : Configuration) (r : Registry) :
    (Module.ofRegistry c r).routines.map (·.setName) = r.names := by
  rw [routines_ofRegistry, List.map_map]
  rfl

theorem nodup_calls (c : Configuration) (r : Registry) : (Module.ofRegistry c r).calls.Nodup := by
  rw [calls_ofRegistry]
  exact r.nodup_names.map_on fun n hMem n' hMem' hRoutine =>
    (NameTable.apart_assign r.names).name_eq (find?_assign hMem) (find?_assign hMem') hRoutine

/-- No set takes the name of the routine that calls all others. -/
theorem main_notMem_calls (c : Configuration) (r : Registry) :
    "init_common_property_sets" ∉ (Module.ofRegistry c r).calls := by
  rw [calls_ofRegistry, List.mem_map]
  rintro ⟨n, hMem, hRoutine⟩
  obtain ⟨stem, hStem⟩ := exists_stem hMem
  exact SetNames.routine_ne_main stem (hStem ▸ hRoutine)

end PropertySets.Registration
