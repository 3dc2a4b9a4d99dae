import PropertySets.Configuration.Validation
import PropertySets.Proofs.Disk.Siblings
import PropertySets.Proofs.Naming.ModulePaths

/-!
# What validation demands

A configuration is validated setting by setting. Each setting has to meet a requirement, which is
said here without the scans that decide it, and each requirement that is not met is a problem of its
own. The problems come in the order of the requirements, so they are determined by them: a problem
is neither left out because of an earlier one nor reported twice.

* `Path.NamesFile`, `Path.namesFile_iff` — paths that end in the name of a file.
* `Configuration.requirements` — the requirements, in order, with the problems they stand for.
* `Reports` — the problems that a list of requirements gives rise to.
* `Configuration.problems_in_order` — validation reports these problems.
-/

namespace PropertySets

open Naming

/-! ## Paths that name files -/

/-- The last segment that is neither empty nor a dot is a name, and not the two dots that lead
upwards. -/
def Path.NamesFile (p : Path) : Prop :=
  ∃ before name fillers, p.segments = before ++ name :: fillers ∧
    (name ≠ "" ∧ name ≠ "." ∧ name ≠ "..") ∧ ∀ s ∈ fillers, s = "" ∨ s = "."

theorem Path.isFiller_iff {s : String} : isFiller s = true ↔ s = "" ∨ s = "." := by
  rw [isFiller, Bool.or_eq_true, beq_iff_eq, beq_iff_eq]

theorem Path.namesFile_iff {p : Path} : p.stem?.isSome = true ↔ p.NamesFile := by
  rw [stem?, Option.isSome_map, Option.isSome_iff_exists]
  constructor
  · rintro ⟨name, hName⟩
    -- the name is the last segment that is no filler, with fillers behind it
    obtain ⟨before, hSignificant⟩ := exists_significant hName
    obtain ⟨fillers, hSegments, hFillers⟩ := exists_segments hSignificant
    obtain ⟨hNamed, hUp⟩ := plain_of_fileName? hName
    obtain ⟨hEmpty, hDot⟩ := ne_of_not_filler hNamed
    exact ⟨before.reverse, name, fillers, hSegments, ⟨hEmpty, hDot, hUp⟩,
      fun s hMem => isFiller_iff.1 (hFillers s hMem)⟩
  · rintro ⟨before, name, fillers, hSegments, ⟨hEmpty, hDot, hUp⟩, hFillers⟩
    have hNamed : isFiller name = false := by
      rw [Bool.eq_false_iff, ne_eq, isFiller_iff]
      exact not_or.2 ⟨hEmpty, hDot⟩
    rw [← List.reverse_reverse before] at hSegments
    have hSignificant : p.significant = name :: before.reverse :=
      significant_of_segments hSegments hNamed fun s hMem => isFiller_iff.2 (hFillers s hMem)
    exact ⟨name, by rw [fileName?, hSignificant]; exact if_neg hUp⟩

/-! ## Requirements and problems -/

/-- The setting that a problem is about. -/
def Problem.setting : Problem → String
  | noFileName _ => "output.path"
  | notModulePath setting _ => setting
  | entityTypeNotIdentifier _ => "naming.default_entity_type"
  | subIndexNotIdentifier _ => "naming.known_sub_indices"
  | emptyFolderName => "source.schema_dir_name"

theorem append_of_start {start setting after : String} (h : start = setting ++ after)
    (value ending : String) : start ++ value ++ ending = setting ++ (after ++ value ++ ending) := by
  rw [h]
  simp only [String.append_assoc]

/-- The wording of a problem starts with the name of the setting. -/
theorem Problem.message_names_setting (p : Problem) : ∃ rest, p.message = p.setting ++ rest := by
  have hOutput : "output.path '" = "output.path" ++ " '" := by decide
  have hEntity : "naming.default_entity_type '" = "naming.default_entity_type" ++ " '" := by decide
  have hIndex : "naming.known_sub_indices entry '" =
      "naming.known_sub_indices" ++ " entry '" := by decide
  have hFolder : "source.schema_dir_name is empty" = "source.schema_dir_name" ++ " is empty" := by
    decide
  cases p with
  | noFileName path => exact ⟨_, append_of_start hOutput path.text "' has no file name"⟩
  | notModulePath setting value =>
    exact ⟨_, @append_of_start _ setting " '" rfl value "' is not a Rust module path"⟩
  | entityTypeNotIdentifier value =>
    exact ⟨_, append_of_start hEntity value "' is not an identifier"⟩
  | subIndexNotIdentifier value => exact ⟨_, append_of_start hIndex value "' is not an identifier"⟩
  | emptyFolderName => exact ⟨" is empty", hFolder⟩

/-- What is demanded of a setting. -/
structure Requirement where
  /-- The demand. -/
  Met : Prop
  /-- What is wrong if it is not met. -/
  problem : Problem

/-- The problems that requirements give rise to: one for each that is not met, in order. -/
inductive Reports : List Requirement → List Problem → Prop
  | done : Reports [] []
  | met {r : Requirement} {rs : List Requirement} {ps : List Problem} (holds : r.Met)
    (rest : Reports rs ps) : Reports (r :: rs) ps
  | violated {r : Requirement} {rs : List Requirement} {ps : List Problem} (fails : ¬ r.Met)
    (rest : Reports rs ps) : Reports (r :: rs) (r.problem :: ps)

namespace Reports

variable {r : Requirement} {rs rs' : List Requirement} {ps ps' : List Problem}

theorem append (h : Reports rs ps) (h' : Reports rs' ps') : Reports (rs ++ rs') (ps ++ ps') := by
  induction h with
  | done => exact h'
  | met holds _ ih => exact .met holds ih
  | violated fails _ ih => exact .violated fails ih

/-- Requirements determine the problems. -/
theorem eq (h : Reports rs ps) (h' : Reports rs ps') : ps = ps' := by
  induction h generalizing ps' with
  | done =>
    cases h'
    rfl
  | met holds _ ih =>
    cases h' with
    | met _ rest => exact ih rest
    | violated fails _ => exact absurd holds fails
  | violated fails _ ih =>
    cases h' with
    | met holds _ => exact absurd holds fails
    | violated _ rest => rw [ih rest]

/-- There is no problem if every requirement is met, and only then. -/
theorem eq_nil_iff (h : Reports rs ps) : ps = [] ↔ ∀ r ∈ rs, r.Met := by
  induction h with
  | done => exact iff_of_true rfl nofun
  | met holds _ ih =>
    rw [List.forall_mem_cons, ih]
    exact (and_iff_right holds).symm
  | violated fails _ _ =>
    refine iff_of_false (List.cons_ne_nil _ _) fun hAll => ?_
    exact fails (hAll _ List.mem_cons_self)

/-- A check reports on the requirement that it decides. -/
theorem of_demand {ok : Bool} (h : ok = true ↔ r.Met) :
    Reports [r] (Configuration.demand ok r.problem) := by
  cases ok with
  | true => exact .met (h.1 rfl) .done
  | false =>
    refine .violated (fun holds => ?_) .done
    exact Bool.false_ne_true (h.2 holds)

/-- Checks that are made one after the other report on a list of requirements. -/
theorem of_flatMap {requirement : String → Requirement} {check : String → List Problem}
    (h : ∀ s, Reports [requirement s] (check s)) (values : List String) :
    Reports (values.map requirement) (values.flatMap check) := by
  induction values with
  | nil => exact .done
  | cons s values ih =>
    rw [List.map_cons, List.flatMap_cons]
    exact (h s).append ih

end Reports

namespace Configuration

/-- What is demanded of a known sub-element index. -/
def subIndexRequirement (s : String) : Requirement := ⟨IsIdentifier s, .subIndexNotIdentifier s⟩

/-- What is demanded of a configuration, in the order of the settings. -/
def requirements (c : Configuration) : List Requirement :=
  [⟨c.output.path.NamesFile, .noFileName c.output.path⟩,
    ⟨IsModulePath c.output.runtimeModule,
      .notModulePath "output.runtime_module" c.output.runtimeModule⟩,
    ⟨IsModulePath c.output.enumModule, .notModulePath "output.enum_module" c.output.enumModule⟩,
    ⟨IsIdentifier c.naming.defaultEntityType,
      .entityTypeNotIdentifier c.naming.defaultEntityType⟩] ++
  c.naming.knownSubIndices.map subIndexRequirement ++
  [⟨c.source.scan.folderName ≠ "", .emptyFolderName⟩]

theorem reports_problems (c : Configuration) : Reports c.requirements c.problems := by
  -- each check decides the requirement in its place; those of a list are made in a row
  have hOutput := Reports.of_demand (r := ⟨_, .noFileName c.output.path⟩)
    (Path.namesFile_iff (p := c.output.path))
  have hRuntime := Reports.of_demand
    (r := ⟨_, .notModulePath "output.runtime_module" c.output.runtimeModule⟩)
    (isModulePath_iff (s := c.output.runtimeModule))
  have hEnum := Reports.of_demand
    (r := ⟨_, .notModulePath "output.enum_module" c.output.enumModule⟩)
    (isModulePath_iff (s := c.output.enumModule))
  have hEntity := Reports.of_demand
    (r := ⟨_, .entityTypeNotIdentifier c.naming.defaultEntityType⟩)
    (isIdentifier_iff (s := c.naming.defaultEntityType))
  have hIndex : ∀ s, Reports [subIndexRequirement s] _ := fun s =>
    .of_demand (isIdentifier_iff (s := s))
  have hIndices := Reports.of_flatMap hIndex c.naming.knownSubIndices
  have hFolder := Reports.of_demand (r := ⟨_, .emptyFolderName⟩)
    (decide_eq_true_iff (p := c.source.scan.folderName ≠ ""))
  exact ((((hOutput.append hRuntime).append hEnum).append hEntity).append hIndices).append hFolder

/-- All requirements, setting by setting. -/
theorem forall_met_iff (c : Configuration) : (∀ r ∈ c.requirements, r.Met) ↔
    c.output.path.NamesFile ∧ IsModulePath c.output.runtimeModule ∧
    IsModulePath c.output.enumModule ∧ IsIdentifier c.naming.defaultEntityType ∧
    (∀ s ∈ c.naming.knownSubIndices, IsIdentifier s) ∧ c.source.scan.folderName ≠ "" := by
  unfold requirements
  rw [List.forall_mem_append, List.forall_mem_append, List.forall_mem_map,
    List.forall_mem_singleton]
  simp only [List.forall_mem_cons, List.not_mem_nil, false_imp_iff, implies_true, and_true,
    and_assoc]
  rfl

/-- **Problems in order.** Validation reports the problems of the requirements and nothing else: one
for each requirement that is not met, in their order, in a wording that starts with the name of the
setting. It reports none exactly if the output names a file, both modules are module paths, the
default entity type and all known sub-element indices are identifiers, and the name of the document
directories is not empty. -/
theorem problems_in_order (c : Configuration) :
    (∀ reported, Reports c.requirements reported ↔ reported = c.problems) ∧
    (∀ p ∈ c.problems, ∃ rest, p.message = p.setting ++ rest) ∧
    (c.problems = [] ↔ c.output.path.NamesFile ∧ IsModulePath c.output.runtimeModule ∧
      IsModulePath c.output.enumModule ∧ IsIdentifier c.naming.defaultEntityType ∧
      (∀ s ∈ c.naming.knownSubIndices, IsIdentifier s) ∧ c.source.scan.folderName ≠ "") := by
  have hReports := reports_problems c
  refine ⟨fun reported => ⟨fun h => h.eq hReports, ?_⟩, fun p _ => p.message_names_setting, ?_⟩
  · rintro rfl
    exact hReports
  · rw [hReports.eq_nil_iff, forall_met_iff]

/-- Problems of several settings, and two of one list. -/
example :
    ({ output := { path := ⟨"out/.."⟩, enumModule := "crate::" }
       naming := { knownSubIndices := ["PSet-A", "PSetB", "9C"] } } : Configuration).problems =
      [.noFileName ⟨"out/.."⟩, .notModulePath "output.enum_module" "crate::",
        .subIndexNotIdentifier "PSet-A", .subIndexNotIdentifier "9C"] := by
  decide +kernel

end Configuration

end PropertySets
