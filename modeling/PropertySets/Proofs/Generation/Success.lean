import PropertySets.Proofs.Generation.Completion

/-!
# What a successful run did

A run that succeeds went through all of its steps: the directories were made, the dump was written
if one was wanted, the emission went to its end, the module was written and the sheets completed,
and every file was read back. None of this depends on what the tree held before.

* `exists_of_run_bind` — the success of two steps is a success of each.
* `ReadBack` — the artifacts of files that were read back.
* `Carried`, `emit_preserves` — the events of an emission that went to its end.
* `Course`, `exists_course` — the steps of a successful run, with the trees between them.
-/

namespace PropertySets

open Enumeration FileTree Registration

/-! ## Inverting the steps of a run -/

section

variable {α β : Type} {x : ExceptT Failure (StateM FileTree) α} {a : α} {t t' : FileTree}

/-- Two steps that succeed one after the other have both succeeded. -/
theorem exists_of_run_bind {ε : Type} {x : ExceptT ε (StateM FileTree) α}
    {f : α → ExceptT ε (StateM FileTree) β} {b : β} (h : (x >>= f).run t = (.ok b, t')) :
    ∃ a t₁, x.run t = (.ok a, t₁) ∧ (f a).run t₁ = (.ok b, t') := by
  rcases hFirst : x.run t with ⟨result, t₁⟩
  cases result with
  | error failure =>
    rw [run_bind_error hFirst] at h
    cases h
  | ok a =>
    rw [run_bind_ok hFirst] at h
    exact ⟨a, t₁, rfl, h⟩

theorem apply_of_run_liftM {action : StateM FileTree α}
    (h : (liftM action : ExceptT Failure (StateM FileTree) α).run t = (.ok a, t')) :
    action t = (a, t') := by
  rcases hAction : action t with ⟨b, t₁⟩
  rw [run_liftM hAction] at h
  cases h
  rfl

theorem run_attempt_error {p : Path} {action : StateM FileTree (Except DiskError α)}
    {e : DiskError} (h : action t = (.error e, t')) :
    (Disk.attempt p action).run t = (.error (.onDisk p e), t') :=
  bind_apply h

theorem apply_of_run_attempt {p : Path} {action : StateM FileTree (Except DiskError α)}
    (h : (Disk.attempt p action).run t = (.ok a, t')) : action t = (.ok a, t') := by
  rcases hAction : action t with ⟨result, t₁⟩
  cases result with
  | error e =>
    rw [run_attempt_error hAction] at h
    cases h
  | ok b =>
    rw [run_attempt_ok hAction] at h
    cases h
    rfl

theorem read_of_run_ofFile {kind : ArtifactKind} {p : Path} {artifact : Artifact}
    (h : (Artifact.ofFile kind p : ExceptT Failure (StateM FileTree) _).run t =
      (.ok artifact, t')) :
    t' = t ∧ ∃ content, t.read p = .ok content ∧ artifact = ⟨kind, p, .ofBytes content⟩ := by
  -- a file that cannot be read makes the run fail
  cases hRead : t.read p with
  | error e =>
    have hFailed : (Disk.read p : StateM FileTree _) t = (.error e, t) := by
      show (t.read p, t) = _
      rw [hRead]
    obtain ⟨content, t₁, hAttempt, -⟩ := exists_of_run_bind h
    have hDone := apply_of_run_attempt hAttempt
    rw [hFailed] at hDone
    cases hDone
  | ok content =>
    rw [run_ofFile hRead] at h
    cases h
    exact ⟨rfl, content, rfl, rfl⟩

end

/-- The artifacts of files of the tree, one for each path. -/
structure ReadBack (t : FileTree) (kind : ArtifactKind) (paths : List Path)
    (artifacts : List Artifact) : Prop where
  listed : artifacts.map (·.path) = paths
  ofPath : ∀ p ∈ paths, ∃ content, t.read p = .ok content ∧
    ⟨kind, p, .ofBytes content⟩ ∈ artifacts
  ofArtifact : ∀ a ∈ artifacts, a.path ∈ paths ∧
    ∃ content, t.read a.path = .ok content ∧ a = ⟨kind, a.path, .ofBytes content⟩

theorem readBack_of_run_mapM {kind : ArtifactKind} {paths : List Path} {artifacts : List Artifact}
    {t t' : FileTree}
    (h : (paths.mapM (Artifact.ofFile kind) : ExceptT Failure (StateM FileTree) _).run t =
      (.ok artifacts, t')) :
    t' = t ∧ ReadBack t kind paths artifacts := by
  induction paths generalizing artifacts with
  | nil =>
    cases h
    exact ⟨rfl, rfl, nofun, nofun⟩
  | cons p rest ih =>
    rw [List.mapM_cons] at h
    obtain ⟨first, t₁, hFirst, h⟩ := exists_of_run_bind h
    -- reading changes nothing, so the rest is read from the same tree
    obtain ⟨rfl, content, hRead, rfl⟩ := read_of_run_ofFile hFirst
    obtain ⟨others, t₂, hOthers, h⟩ := exists_of_run_bind h
    cases h
    obtain ⟨rfl, hBack⟩ := ih hOthers
    refine ⟨rfl, by rw [List.map_cons, hBack.listed], fun p' hMem => ?_, fun a hMem => ?_⟩
    · rcases List.mem_cons.1 hMem with rfl | hMem
      · exact ⟨content, hRead, List.mem_cons_self⟩
      · obtain ⟨content', hRead', hListed⟩ := hBack.ofPath p' hMem
        exact ⟨content', hRead', List.mem_cons_of_mem _ hListed⟩
    · rcases List.mem_cons.1 hMem with rfl | hMem
      · exact ⟨List.mem_cons_self, content, hRead, rfl⟩
      · obtain ⟨hPath, hContent⟩ := hBack.ofArtifact a hMem
        exact ⟨List.mem_cons_of_mem _ hPath, hContent⟩

/-! ## Emissions that went to their end -/

namespace Registration

/-- An event that was carried out: it adds to the flaws or to the counts, or the reconciler deals
with an enumeration. -/
inductive Carried : Event → Emitted Handle → FileTree → Emitted Handle → FileTree → Prop
  | report (flaw : Diagnostic) (s : Emitted Handle) (t : FileTree) :
    Carried (.report flaw) s t ⟨s.reconciler, s.flaws ++ [flaw], s.counts⟩ t
  | entry (s : Emitted Handle) (t : FileTree) :
    Carried .entry s t
      ⟨s.reconciler, s.flaws, ⟨s.counts.routines, s.counts.blocks, s.counts.entries + 1⟩⟩ t
  | block (s : Emitted Handle) (t : FileTree) :
    Carried .block s t
      ⟨s.reconciler, s.flaws, ⟨s.counts.routines, s.counts.blocks + 1, s.counts.entries⟩⟩ t
  | routine (s : Emitted Handle) (t : FileTree) :
    Carried .routine s t
      ⟨s.reconciler, s.flaws, ⟨s.counts.routines + 1, s.counts.blocks, s.counts.entries⟩⟩ t
  | enumeration {q : Request} {s : Emitted Handle} {t t₁ : FileTree} {outcome : Outcome}
      {r : Reconciler Handle}
      (answers : (s.reconciler.reconcile q : StateM FileTree _) t = ((outcome, r), t₁))
      (ok : outcome.result.isOk = true) :
    Carried (.enumeration q) s t ⟨r, s.flaws ++ outcome.flaws, s.counts⟩ t₁

theorem carried_of_emit_cons {event : Event} {rest : List Event} {s s' : Emitted Handle}
    {t t' : FileTree}
    (h : (emit s (event :: rest) : StateM FileTree _) t = ((s', none), t')) :
    ∃ s₁ t₁, Carried event s t s₁ t₁ ∧
      (emit s₁ rest : StateM FileTree _) t₁ = ((s', none), t') := by
  cases event with
  | report flaw => exact ⟨_, t, .report flaw s t, h⟩
  | entry => exact ⟨_, t, .entry s t, h⟩
  | block => exact ⟨_, t, .block s t, h⟩
  | routine => exact ⟨_, t, .routine s t, h⟩
  | enumeration q =>
    rcases hAnswer : (s.reconciler.reconcile q : StateM FileTree _) t with ⟨⟨outcome, r⟩, t₁⟩
    have hEmit : (emit s (.enumeration q :: rest) : StateM FileTree _) t = _ := bind_apply hAnswer
    rw [hEmit] at h
    cases hResult : outcome.result with
    | error failure =>
      -- a failure would have stopped the emission here
      simp only [hResult] at h
      cases h
    | ok filed =>
      simp only [hResult] at h
      exact ⟨_, t₁, .enumeration hAnswer (by rw [hResult]; rfl), h⟩

theorem emit_cons_of_carried {event : Event} {s s₁ : Emitted Handle} {t t₁ : FileTree}
    (h : Carried event s t s₁ t₁) (rest : List Event) :
    (emit s (event :: rest) : StateM FileTree _) t = (emit s₁ rest : StateM FileTree _) t₁ := by
  cases h with
  | report | entry | block | routine => rfl
  | @enumeration q s t t₁ outcome r hAnswers hOk =>
    refine (bind_apply hAnswers).trans ?_
    cases hResult : outcome.result with
    | error failure =>
      rw [hResult] at hOk
      cases hOk
    | ok filed => simp only [hResult]

/-- What holds at the start of an emission and is kept by every event that is carried out holds at
its end. -/
theorem emit_preserves (holds : List Event → Emitted Handle → FileTree → Prop)
    {s s' : Emitted Handle} {t t' : FileTree} {events : List Event} (hStart : holds [] s t)
    (hStep : ∀ done event s t s₁ t₁, Carried event s t s₁ t₁ → holds done s t →
      holds (done ++ [event]) s₁ t₁)
    (h : (emit s events : StateM FileTree _) t = ((s', none), t')) : holds events s' t' := by
  -- the events carried out so far grow along the emission
  have hFrom : ∀ rest done s t, holds done s t →
      (emit s rest : StateM FileTree _) t = ((s', none), t') → holds (done ++ rest) s' t' := by
    intro rest
    induction rest with
    | nil =>
      intro done s t hHere hEmit
      cases hEmit
      rwa [List.append_nil]
    | cons event rest ih =>
      intro done s t hHere hEmit
      obtain ⟨s₁, t₁, hCarried, hRest⟩ := carried_of_emit_cons hEmit
      have hNext := ih (done ++ [event]) s₁ t₁ (hStep done event s t s₁ t₁ hCarried hHere) hRest
      rwa [List.append_assoc] at hNext
  exact hFrom events [] s t hStart h

end Registration

/-! ## The course of a run -/

section

variable {c : Configuration} {r : Registry} {t t' : FileTree}

/-- So does a module that cannot be written. -/
theorem writeModule_of_unwritten {output : Path} {r₀ : Reconciler Handle} {s : Emitted Handle}
    {e : DiskError} {t₁ : FileTree} (hBeside : Reconciler.beside output = .ok r₀)
    (hEmit : (emit (.start r₀) (emission c r) : StateM FileTree _) t = ((s, none), t₁))
    (hReplace : (Disk.replace output (Module.ofRegistry c r).render.toUTF8 : StateM FileTree _) t₁ =
      (.error e, t')) :
    (writeModule c r output : ExceptT Failure (StateM FileTree) _).run t =
      (.error (.onDisk output e), stopped s.reconciler (.onDisk output e) t') := by
  have hRender : (renderModule c r r₀ : StateM FileTree _) t =
      ((.ok (Module.ofRegistry c r).render, s), t₁) := (bind_apply hEmit).trans rfl
  rw [writeModule, hBeside]
  refine (bind_apply hRender).trans ((bind_apply (run_attempt_error hReplace)).trans ?_)
  exact flush_unless_endless s.reconciler (.onDisk output e) t'

theorem emitted_of_run_writeModule {output : Path} {s : Emitted Handle}
    (h : (writeModule c r output : ExceptT Failure (StateM FileTree) _).run t = (.ok s, t')) :
    ∃ r₀ t₁, Reconciler.beside output = .ok r₀ ∧
      (emit (.start r₀) (emission c r) : StateM FileTree _) t = ((s, none), t₁) ∧
      (Disk.replace output (Module.ofRegistry c r).render.toUTF8 : StateM FileTree _) t₁ =
        (.ok (), t') := by
  cases hBeside : (Reconciler.beside output : Except Failure (Reconciler Handle)) with
  | error failure =>
    have hFailed : (writeModule c r output : ExceptT Failure (StateM FileTree) _).run t =
        (.error failure, t) := by
      rw [writeModule, hBeside]
      rfl
    rw [hFailed] at h
    cases h
  | ok r₀ =>
    -- an emission that stopped and a module that was not written are both failures
    rcases hEmit : (emit (.start r₀) (emission c r) : StateM FileTree _) t with ⟨⟨s', failure?⟩, t₁⟩
    cases failure? with
    | some failure =>
      rw [writeModule_of_failed hBeside hEmit] at h
      cases h
    | none =>
      rcases hReplace : (Disk.replace output (Module.ofRegistry c r).render.toUTF8 :
        StateM FileTree _) t₁ with ⟨result, t₂⟩
      cases result with
      | error e =>
        rw [writeModule_of_unwritten hBeside hEmit hReplace] at h
        cases h
      | ok =>
        rw [writeModule_of_emitted hBeside hEmit hReplace] at h
        cases h
        exact ⟨r₀, t₁, rfl, hEmit, hReplace⟩

/-- The steps of a run that succeeded. -/
structure Course (c : Configuration) (r : Registry) (t : FileTree) (report : Report)
    (t' : FileTree) where
  /-- What the output lies in. -/
  directory : Path
  /-- Where the dump was written, if one was wanted. -/
  dump? : Option Path
  /-- The reconciler at the start of the emission. -/
  reconciler : Reconciler Handle
  /-- What was emitted. -/
  emitted : Emitted Handle
  /-- The tree with the directory of the output. -/
  readied : FileTree
  /-- The tree when the emission begins. -/
  begun : FileTree
  /-- The tree when the emission has ended. -/
  filed : FileTree
  /-- The tree when the module is written. -/
  written : FileTree
  /-- What the output is read back as. -/
  registered : ByteArray
  enums : List Artifact
  dumps : List Artifact
  parent : (c.outputIn t).parent? = some directory
  makes : (Disk.makeDirectories directory : StateM FileTree _) t = (.ok (), readied)
  dumpStep : (dumpStep c r (c.outputIn t)).run readied = (.ok dump?, begun)
  beside : Reconciler.beside (c.outputIn t) = .ok reconciler
  emits : (emit (.start reconciler) (emission c r) : StateM FileTree _) begun =
    ((emitted, none), filed)
  replaces : (Disk.replace (c.outputIn t) (Module.ofRegistry c r).render.toUTF8 :
    StateM FileTree _) filed = (.ok (), written)
  finishes : (emitted.reconciler.finish : StateM FileTree _) written =
    (emitted.reconciler.sheets.map (·.path), t')
  readEnums : ReadBack t' .enumeration (emitted.reconciler.sheets.map (·.path)) enums
  readDumps : ReadBack t' .dump dump?.toList dumps
  readRegistration : written.read (c.outputIn t) = .ok registered
  report_eq : report = ⟨emitted.counts, emitted.reconciler.size,
    ⟨.registration, c.outputIn t, .ofBytes registered⟩ :: enums ++ dumps, emitted.flaws⟩

/-- A dump that is wanted is written. -/
theorem replace_of_run_dumpStep {output : Path} {dump? : Option Path}
    (hWanted : c.output.dump = true) (h : (dumpStep c r output).run t = (.ok dump?, t')) :
    (Disk.replace (Dump.path output c.output.dumpFormat)
      (Dump.render r c.output.dumpFormat).toUTF8 : StateM FileTree _) t = (.ok (), t') := by
  rw [dumpStep, if_pos hWanted, map_eq_pure_bind] at h
  obtain ⟨path, t₁, hDump, hReturn⟩ := exists_of_run_bind h
  obtain rfl : t₁ = t' := congrArg Prod.snd hReturn
  rw [writeDump] at hDump
  obtain ⟨_, t₂, hAttempt, hReturn⟩ := exists_of_run_bind hDump
  obtain rfl : t₂ = t₁ := congrArg Prod.snd hReturn
  exact apply_of_run_attempt hAttempt

/-- Without a name for its output a run fails at once. -/
theorem generate_run_of_nameless (hStem : (c.outputIn t).stem? = none) :
    (generate c r : ExceptT Failure (StateM FileTree) Report).run t =
      (.error (.invalidPath (c.outputIn t)), t) := by
  rw [Configuration.outputIn] at hStem
  rw [generate, run_bind_ok (run_workingDirectory t)]
  simp only [hStem, Option.isNone_none, if_true]
  exact run_bind_error rfl

/-- What a run goes on with when it has a name for its output. -/
theorem generate_run_of_named {stem : String} {dir : Path}
    (hStem : (c.outputIn t).stem? = some stem) (hParent : (c.outputIn t).parent? = some dir) :
    (generate c r : ExceptT Failure (StateM FileTree) Report).run t =
      (Disk.attempt dir (Disk.makeDirectories dir) >>= fun _ =>
        dumpStep c r (c.outputIn t) >>= completeRun c r (c.outputIn t)).run t := by
  rw [Configuration.outputIn] at hStem hParent
  rw [generate, run_bind_ok (run_workingDirectory t)]
  simp only [hStem, hParent, Option.isNone_some, Bool.false_eq_true, if_false]
  rw [dumpStep]
  split
  · rfl
  · rfl

/-- A run that succeeds made the directory of its output, took care of the dump and completed. -/
theorem exists_of_run_generate {report : Report}
    (h : (generate c r : ExceptT Failure (StateM FileTree) Report).run t = (.ok report, t')) :
    ∃ dir readied dump? begun, (c.outputIn t).parent? = some dir ∧
      (Disk.makeDirectories dir : StateM FileTree _) t = (.ok (), readied) ∧
      (dumpStep c r (c.outputIn t)).run readied = (.ok dump?, begun) ∧
      (completeRun c r (c.outputIn t) dump?).run begun = (.ok report, t') := by
  -- an output without a stem is refused before anything is done
  cases hStem : (c.outputIn t).stem? with
  | none =>
    rw [generate_run_of_nameless hStem] at h
    cases h
  | some stem =>
    obtain ⟨dir, hParent⟩ := Path.exists_parent hStem
    rw [generate_run_of_named hStem hParent] at h
    obtain ⟨_, readied, hMake, hRest⟩ := exists_of_run_bind h
    obtain ⟨dump?, begun, hDump, hCompletes⟩ := exists_of_run_bind hRest
    exact ⟨dir, readied, dump?, begun, hParent, apply_of_run_attempt hMake, hDump, hCompletes⟩

theorem exists_course {report : Report}
    (h : (generate c r : ExceptT Failure (StateM FileTree) Report).run t = (.ok report, t')) :
    Nonempty (Course c r t report t') := by
  obtain ⟨dir, readied, dump?, begun, hParent, hMake, hDump, hCompletes⟩ :=
    exists_of_run_generate h
  rw [completeRun] at hCompletes
  obtain ⟨s, written, hModule, hRegisters⟩ := exists_of_run_bind hCompletes
  obtain ⟨r₀, filed, hBeside, hEmit, hReplace⟩ := emitted_of_run_writeModule hModule
  obtain ⟨registration, t₁, hRegistration, hFinishes⟩ := exists_of_run_bind hRegisters
  obtain ⟨rfl, content, hContent, rfl⟩ := read_of_run_ofFile hRegistration
  obtain ⟨paths, t₂, hFinish, hReadsEnums⟩ := exists_of_run_bind hFinishes
  -- the paths to read back are those of the sheets
  obtain ⟨t₃, hFinished, -⟩ := finish_keepsFiles s.reconciler t₁
  cases hFinished.symm.trans (apply_of_run_liftM hFinish)
  obtain ⟨enums, t₄, hEnums, hReadsDumps⟩ := exists_of_run_bind hReadsEnums
  obtain ⟨rfl, hEnums⟩ := readBack_of_run_mapM hEnums
  obtain ⟨dumps, t₅, hDumps, hReturns⟩ := exists_of_run_bind hReadsDumps
  obtain ⟨rfl, hDumps⟩ := readBack_of_run_mapM hDumps
  cases hReturns
  exact ⟨⟨dir, dump?, r₀, s, readied, begun, filed, t₁, content, enums, dumps, hParent, hMake,
    hDump, hBeside, hEmit, hReplace, hFinished, hEnums, hDumps, hContent, rfl⟩⟩

/-- The enumeration files of a report are those that were read back as such. -/
theorem Course.mem_enums {report : Report} (course : Course c r t report t') {a : Artifact}
    (hMem : a ∈ report.artifacts) (hKind : a.kind = .enumeration) : a ∈ course.enums := by
  rw [course.report_eq] at hMem
  rcases List.mem_append.1 hMem with hMem | hMem
  · rcases List.mem_cons.1 hMem with rfl | hMem
    · cases hKind
    · exact hMem
  · obtain ⟨-, content, -, hSame⟩ := course.readDumps.ofArtifact a hMem
    rw [hSame] at hKind
    cases hKind

end

/-- In an empty directory a run with the standard configuration succeeds if the names of all tags'
files fit and all enumerations can be numbered. -/
theorem exists_run_emptyProject {r : Registry}
    (hFits : ∀ tag ∈ r.filedTags, FitsName besideExporter.directory (besideExporter.fileName tag))
    (hEnds : ∀ q ∈ r.requests, (assign? q.literals).isSome = true) :
    ∃ report t', (generate {} r : ExceptT Failure (StateM FileTree) Report).run emptyProject =
      (.ok report, t') :=
  exists_report freshOutput_emptyProject beside_emptyProject
    (fun tag _ => tagSafe_besideExporter tag) hFits (numberable_of_requests hEnds)

end PropertySets
