import PropertySets.Proofs.Generation.FirstEnumerations
import PropertySets.Proofs.Registration.Composition

/-!
# Routines are local

The text of a set is composed in the midst of an emission, with a reconciler that knows other sets'
enumerations, and with what was reported and counted for other sets. None of this gets into the
text: two emissions in which the set has the same editions and the same names compose the same text
for it.

* `exists_texts` — a module is composed of the texts of its sets.
* `routine_text_local` — a set composed in the emissions of two registries.
-/

namespace PropertySets.Registration

open Enumeration FileTree Naming

theorem lookup_map_groups {r : Registry} {n : String} {editions : List Edition}
    (h : r.find? n = some editions) (f : String × List Edition → String) :
    (r.groups.map fun group => (group.1, f group)).lookup n = some (f (n, editions)) := by
  obtain ⟨before, after, hGroups, hBefore⟩ := List.lookup_eq_some_iff.1 h
  rw [List.lookup_eq_some_iff]
  refine ⟨before.map fun group => (group.1, f group), after.map fun group => (group.1, f group),
    by rw [hGroups, List.map_append, List.map_cons], fun entry hMem => ?_⟩
  obtain ⟨group, hGroup, rfl⟩ := List.mem_map.1 hMem
  exact hBefore group hGroup

section

variable {c : Configuration} {r : Registry} {reconciler : Reconciler Handle} {s : Emitted Handle}
  {t t' : FileTree} {text : String}

/-- A module that is rendered is composed of the texts of its sets. -/
theorem exists_texts
    (h : (renderModule c r reconciler : StateM FileTree _) t = ((.ok text, s), t')) :
    ∃ texts : List (String × String),
      ((composeSets c r).run.run (.start reconciler) : StateM FileTree _) t =
          ((.ok texts, s), t') ∧
        text = moduleText c r (texts.map (·.2)) ∧ texts.map (·.1) = r.names ∧
        ∀ n editions, r.find? n = some editions →
          texts.lookup n = some (setText c r (n, editions)) := by
  obtain ⟨hText, hEmit⟩ := emit_of_renderModule h
  refine ⟨_, (performs_composeSets c r).run_of_emit hEmit, ?_, ?_,
    fun n editions hFound => lookup_map_groups hFound (setText c r)⟩
  · rw [hText, ← moduleText_setText, List.map_map]
    rfl
  · rw [List.map_map]
    rfl

end

/-- **Routines are local.** Two modules are rendered, of any registries, with whatever reconcilers,
and on whatever trees; a set has the same editions and the same names in both registries. Then both
modules are composed of texts of their sets, and the text of this set is the same in both. -/
theorem routine_text_local {c : Configuration} {r₁ r₂ : Registry} {n : String}
    {editions : List Edition} (hEditions₁ : r₁.find? n = some editions)
    (hEditions₂ : r₂.find? n = some editions)
    (hNames : (NameTable.assign r₁.names).find? n = (NameTable.assign r₂.names).find? n)
    {reconciler₁ reconciler₂ : Reconciler Handle} {s₁ s₂ : Emitted Handle}
    {t₁ t₂ t₁' t₂' : FileTree} {text₁ text₂ : String}
    (hRun₁ : (renderModule c r₁ reconciler₁ : StateM FileTree _) t₁ = ((.ok text₁, s₁), t₁'))
    (hRun₂ : (renderModule c r₂ reconciler₂ : StateM FileTree _) t₂ = ((.ok text₂, s₂), t₂')) :
    ∃ (texts₁ texts₂ : List (String × String)) (routine : String),
      ((composeSets c r₁).run.run (.start reconciler₁) : StateM FileTree _) t₁ =
          ((.ok texts₁, s₁), t₁') ∧
        ((composeSets c r₂).run.run (.start reconciler₂) : StateM FileTree _) t₂ =
          ((.ok texts₂, s₂), t₂') ∧
        text₁ = moduleText c r₁ (texts₁.map (·.2)) ∧
        text₂ = moduleText c r₂ (texts₂.map (·.2)) ∧
        texts₁.map (·.1) = r₁.names ∧ texts₂.map (·.1) = r₂.names ∧
        texts₁.lookup n = some routine ∧ texts₂.lookup n = some routine := by
  obtain ⟨texts₁, hSets₁, hText₁, hSetNames₁, hLookup₁⟩ := exists_texts hRun₁
  obtain ⟨texts₂, hSets₂, hText₂, hSetNames₂, hLookup₂⟩ := exists_texts hRun₂
  -- the text of a set depends on its names and editions, and on nothing else of the registry
  have hSame : setText c r₁ (n, editions) = setText c r₂ (n, editions) := by
    have hAssigned : assignedNames r₁ n = assignedNames r₂ n := by
      rw [assignedNames, hNames, assignedNames]
    rw [setText, hAssigned, setText]
  exact ⟨texts₁, texts₂, setText c r₁ (n, editions), hSets₁, hSets₂, hText₁, hText₂, hSetNames₁,
    hSetNames₂, hLookup₁ n editions hEditions₁, by rw [hSame]; exact hLookup₂ n editions hEditions₂⟩

/-- A registry that has, of the sets of `recurringRegistry`, only the one that comes last. -/
def lateRegistry : Registry :=
  .ofList [⟨"IFC4_ADD1", "Pset_B", "X", none, [], [enumerationOf "LATE"]⟩]

theorem exists_run_lateRegistry :
    ∃ report t', (generate {} lateRegistry : ExceptT Failure (StateM FileTree) Report).run
      emptyProject = (.ok report, t') :=
  exists_run_emptyProject (by decide) (by decide)

/-- In one registry the enumeration of `Pset_B` is new, in the other it is in conflict with that of
another set; its routine is the same in both. -/
theorem late_routine_composed_alike :
    ∃ (reconciler₁ reconciler₂ : Reconciler Handle) (s₁ s₂ : Emitted Handle)
      (t₁ t₂ t₁' t₂' : FileTree) (texts₁ texts₂ : List (String × String)) (routine : String),
      ((composeSets {} lateRegistry).run.run (.start reconciler₁) : StateM FileTree _) t₁ =
          ((.ok texts₁, s₁), t₁') ∧
        ((composeSets {} recurringRegistry).run.run (.start reconciler₂) : StateM FileTree _) t₂ =
          ((.ok texts₂, s₂), t₂') ∧
        texts₁.map (·.1) = ["Pset_B"] ∧ texts₂.map (·.1) = ["Pset_A", "Pset_B"] ∧
        texts₁.lookup "Pset_B" = some routine ∧ texts₂.lookup "Pset_B" = some routine := by
  obtain ⟨_, _, hRun₁⟩ := exists_run_lateRegistry
  obtain ⟨_, _, hRun₂⟩ := exists_run_recurringRegistry
  obtain ⟨reconciler₁, t₁, s₁, t₁', hRenders₁⟩ := exists_rendered hRun₁
  obtain ⟨reconciler₂, t₂, s₂, t₂', hRenders₂⟩ := exists_rendered hRun₂
  -- both tables give the set the same names
  have hAlike : (NameTable.assign lateRegistry.names).find? "Pset_B" =
      (NameTable.assign recurringRegistry.names).find? "Pset_B" := by decide
  obtain ⟨texts₁, texts₂, routine, hSets₁, hSets₂, -, -, hNames₁, hNames₂, hRoutine₁, hRoutine₂⟩ :=
    routine_text_local rfl rfl hAlike hRenders₁ hRenders₂
  exact ⟨reconciler₁, reconciler₂, s₁, s₂, t₁, t₂, t₁', t₂', texts₁, texts₂, routine, hSets₁,
    hSets₂, hNames₁, hNames₂, hRoutine₁, hRoutine₂⟩

end PropertySets.Registration
