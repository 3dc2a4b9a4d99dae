import PropertySets.Proofs.Generation.Footprint

/-!
# Outputs without a name

The output has to have a name, and that is looked at twice: validation asks the path as it is
configured, a run asks it as seen from the working directory. The two agree unless the configured
path spells nothing but dots: it stands for the working directory then, and a run takes the name of
that for the name of its output.

* `Path.fileName?_join_of_dots`, `Path.fileName?_join_of_step` — the name of a joined path.
* `noFileName_mem_problems_iff` — what validation says of the output.
* `generate_rejects_iff` — when a run refuses its output, and that it does nothing else then.
* `dots_pass_for_output` — an output without a name that a run does not refuse.
-/

namespace PropertySets

open FileTree

namespace Path

variable {p q : Path}

/-! ## Names of joined paths -/

/-- Dots stay where they are: with them a path has the name that it has without them. -/
theorem fileName?_join_of_dots (hRelative : q.isAbsolute = false)
    (hDots : ∀ s ∈ route q, s = ".") : (p.join q).fileName? = p.fileName? := by
  rw [fileName?_eq, fileName?_eq, route_join hRelative,
    List.eq_replicate_iff.2 ⟨rfl, hDots⟩, routeName?_dots]

/-- Past the last step of a path, what stands before it makes no difference to the name. -/
theorem fileName?_join_of_step (hRelative : q.isAbsolute = false)
    (hStep : ∃ s ∈ route q, s ≠ ".") : (p.join q).fileName? = q.fileName? := by
  have hLeft : ((route q).reverse.dropWhile (· == ".")).isEmpty = false := by
    obtain ⟨s, hMem, hDot⟩ := hStep
    rw [List.isEmpty_eq_false_iff, ne_eq, List.dropWhile_eq_nil_iff]
    exact fun hAll => hDot (by simpa using hAll s (List.mem_reverse.2 hMem))
  rw [fileName?_eq, fileName?_eq, route_join hRelative, routeName?, routeName?,
    List.reverse_append, List.dropWhile_append, hLeft, if_neg Bool.false_ne_true,
    List.head?_append_of_ne_nil _ (List.isEmpty_eq_false_iff.1 hLeft)]

/-- Nothing but dots is no name. -/
theorem fileName?_of_dots (hDots : ∀ s ∈ route p, s = ".") : p.fileName? = none := by
  have hNone := routeName?_dots [] (route p).length
  rw [fileName?_eq, List.eq_replicate_iff.2 ⟨rfl, hDots⟩]
  exact hNone

theorem stem?_eq_none_iff : p.stem? = none ↔ p.fileName? = none :=
  Option.map_eq_none_iff

end Path

/-! ## Validation and runs -/

variable {c : Configuration} {r : Registry} {t : FileTree}

theorem noFileName_mem_problems_iff :
    .noFileName c.output.path ∈ c.problems ↔ c.output.path.fileName? = none := by
  rw [← Path.stem?_eq_none_iff]
  simp [Configuration.problems, Configuration.demand]

/-- As seen from the working directory the output lacks a name if it does so by itself, unless it
stands for the working directory and that has one. -/
theorem fileName?_outputIn_eq_none_iff :
    (c.outputIn t).fileName? = none ↔ c.output.path.fileName? = none ∧
      ¬ (c.output.path.isAbsolute = false ∧ (∀ s ∈ route c.output.path, s = ".") ∧
        (pathOf t.workingDirectory).fileName? ≠ none) := by
  rw [Configuration.outputIn, Configuration.outputPath]
  cases hAbsolute : c.output.path.isAbsolute with
  | true =>
    rw [Path.join, hAbsolute, Bool.true_or, if_pos rfl]
    simp
  | false =>
    -- a path of dots stands for the working directory itself, and takes its name
    by_cases hDots : ∀ s ∈ route c.output.path, s = "."
    · rw [Path.fileName?_join_of_dots hAbsolute hDots, Path.fileName?_of_dots hDots]
      exact ⟨fun hNone => ⟨rfl, fun hNamed => hNamed.2.2 hNone⟩,
        fun hNot => Decidable.byContradiction fun hNamed => hNot.2 ⟨rfl, hDots, hNamed⟩⟩
    · have hStep : ∃ s ∈ route c.output.path, s ≠ "." := by simpa using hDots
      rw [Path.fileName?_join_of_step hAbsolute hStep]
      exact ⟨fun hNone => ⟨hNone, fun hNamed => hDots hNamed.2.1⟩, And.left⟩

/-- A run refuses its output if that has no name as seen from the working directory. -/
theorem exists_run_invalidPath_iff :
    (∃ p t', (generate c r : ExceptT Failure (StateM FileTree) Report).run t =
      (.error (.invalidPath p), t')) ↔ (c.outputIn t).fileName? = none := by
  rw [← Path.stem?_eq_none_iff]
  constructor
  · rintro ⟨p, t', hRun⟩
    rcases generate_cases hRun with ⟨hStem, -⟩ | ⟨_, _, _, _, _, _, _, hFailure⟩
    · exact hStem
    · obtain ⟨_, _, hSame⟩ := hFailure _ rfl
      cases hSame
  · exact fun hStem => ⟨_, _, generate_run_of_nameless hStem⟩

/-- **Outputs that are refused.** A run refuses its output exactly if validation finds that the
output has no file name, except for a relative path that spells nothing but dots, in a working
directory that has a name. A run that refuses its output changes nothing. -/
theorem generate_rejects_iff (c : Configuration) (r : Registry) (t : FileTree) :
    ((∃ p t', (generate c r : ExceptT Failure (StateM FileTree) Report).run t =
        (.error (.invalidPath p), t')) ↔
      .noFileName c.output.path ∈ c.problems ∧
        ¬ (c.output.path.isAbsolute = false ∧ (∀ s ∈ route c.output.path, s = ".") ∧
          (pathOf t.workingDirectory).fileName? ≠ none)) ∧
    ∀ p t', (generate c r : ExceptT Failure (StateM FileTree) Report).run t =
        (.error (.invalidPath p), t') → p = c.outputIn t ∧ t' = t := by
  refine ⟨?_, fun p t' hRun => ?_⟩
  · rw [exists_run_invalidPath_iff, fileName?_outputIn_eq_none_iff, noFileName_mem_problems_iff]
  · rcases generate_cases hRun with ⟨-, hResult, rfl⟩ | ⟨_, _, _, _, _, _, _, hFailure⟩
    · cases hResult
      exact ⟨rfl, rfl⟩
    · obtain ⟨_, _, hSame⟩ := hFailure _ rfl
      cases hSame

/-- The output is the working directory. -/
def hereConfiguration : Configuration := { output := { path := ⟨"."⟩ } }

/-- Validation finds that this output has no name, and yet a run does not refuse it. -/
theorem dots_pass_for_output :
    .noFileName hereConfiguration.output.path ∈ hereConfiguration.problems ∧
      ¬ ∃ p t', (generate hereConfiguration (.ofList []) :
        ExceptT Failure (StateM FileTree) Report).run emptyProject =
          (.error (.invalidPath p), t') := by
  refine ⟨noFileName_mem_problems_iff.2 (by decide), ?_⟩
  rw [exists_run_invalidPath_iff]
  decide

end PropertySets
