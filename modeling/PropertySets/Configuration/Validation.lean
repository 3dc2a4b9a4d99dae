import PropertySets.Configuration.Basic
import PropertySets.Naming.Identifier

/-!
# Validation of a configuration

A configuration can be loaded and still make unusable code. Each violated condition is a problem
of its own, reported in the order of the settings.

* `Problem`, `Problem.message` — what can be wrong, and its wording.
* `Configuration.problems` — what is wrong with a configuration.
* `Configuration.Valid`, `Configuration.problems_eq_nil_iff` — what holds of a configuration with
  which nothing is wrong.
-/

namespace PropertySets

/-- What can be wrong with a configuration. -/
inductive Problem where
  /-- The output path names no file. -/
  | noFileName (path : Path)
  /-- The value of a setting is no module path. -/
  | notModulePath (setting value : String)
  /-- The default entity type is no identifier. -/
  | entityTypeNotIdentifier (value : String)
  /-- A known sub-element index is no identifier. -/
  | subIndexNotIdentifier (value : String)
  /-- The name of the document directories is empty. -/
  | emptyFolderName
  deriving DecidableEq, Repr

/-- The wording of a problem. -/
def Problem.message : Problem → String
  | noFileName path => "output.path '" ++ path.text ++ "' has no file name"
  | notModulePath setting value => setting ++ " '" ++ value ++ "' is not a Rust module path"
  | entityTypeNotIdentifier value =>
    "naming.default_entity_type '" ++ value ++ "' is not an identifier"
  | subIndexNotIdentifier value =>
    "naming.known_sub_indices entry '" ++ value ++ "' is not an identifier"
  | emptyFolderName => "source.schema_dir_name is empty"

namespace Configuration

open Naming

/-- The problem `p` when `ok` fails. -/
def demand (ok : Bool) (p : Problem) : List Problem := if ok then [] else [p]

/-- What is wrong with a configuration, in the order of the settings. -/
def problems (c : Configuration) : List Problem :=
  demand c.output.path.stem?.isSome (.noFileName c.output.path) ++
  demand (isModulePath c.output.runtimeModule)
    (.notModulePath "output.runtime_module" c.output.runtimeModule) ++
  demand (isModulePath c.output.enumModule)
    (.notModulePath "output.enum_module" c.output.enumModule) ++
  demand (isIdentifier c.naming.defaultEntityType)
    (.entityTypeNotIdentifier c.naming.defaultEntityType) ++
  (c.naming.knownSubIndices.flatMap fun s => demand (isIdentifier s) (.subIndexNotIdentifier s)) ++
  demand (c.source.scan.folderName ≠ "") .emptyFolderName

theorem demand_eq_nil_iff {ok : Bool} {p : Problem} : demand ok p = [] ↔ ok = true := by
  cases ok <;> simp [demand]

/-- Every condition holds. -/
structure Valid (c : Configuration) : Prop where
  output : ∃ stem, c.output.path.stem? = some stem
  runtimeModule : isModulePath c.output.runtimeModule = true
  enumModule : isModulePath c.output.enumModule = true
  defaultEntityType : isIdentifier c.naming.defaultEntityType = true
  knownSubIndices : ∀ s ∈ c.naming.knownSubIndices, isIdentifier s = true
  folderName : c.source.scan.folderName ≠ ""

theorem problems_eq_nil_iff {c : Configuration} : c.problems = [] ↔ c.Valid := by
  simp only [problems, List.append_eq_nil_iff, List.flatMap_eq_nil_iff, demand_eq_nil_iff,
    decide_eq_true_eq, Option.isSome_iff_exists]
  constructor
  · rintro ⟨⟨⟨⟨⟨hOutput, hRuntime⟩, hEnum⟩, hEntity⟩, hIndices⟩, hFolder⟩
    exact ⟨hOutput, hRuntime, hEnum, hEntity, hIndices, hFolder⟩
  · rintro ⟨hOutput, hRuntime, hEnum, hEntity, hIndices, hFolder⟩
    exact ⟨⟨⟨⟨⟨hOutput, hRuntime⟩, hEnum⟩, hEntity⟩, hIndices⟩, hFolder⟩

/-- Nothing is wrong with the standard configuration. -/
theorem problems_default : ({} : Configuration).problems = [] := by decide +kernel

end Configuration

end PropertySets
