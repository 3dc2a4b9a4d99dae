import PropertySets.Configuration.Validation
import PropertySets.Generate
import PropertySets.Proofs.Generation.Emission

/-!
# Which runs complete

A run of the generator writes into one directory: the registration module, the files of the tags,
and the dump if one is wanted. When the directory is fresh, only two things can keep the run from
its end: a tag that makes no file name, and an enumeration that cannot be numbered. Both come from
the documents, so this is a matter of their content.

* `completeRun_of_emitted`, `completeRun_of_failed` — how a run goes on after its emission.
* `FreshOutput` — the output lies in a fresh directory.
* `RunOutcome`, `generate_outcome` — what can come of a run.
* `generate_isOk_iff` — a run completes exactly if the names of all tags' files fit and no numbering
  goes on for ever.
* `slash_in_version_stops_run` — a document whose version makes no file name.
* `greatest_value_stalls_run` — a document whose enumeration cannot be numbered.
-/

namespace PropertySets

open Enumeration FileTree Registration

/-! ## Steps of a run -/

section

variable {α β : Type} {x : ExceptT Failure (StateM FileTree) α} {a : α} {t t' : FileTree}

theorem run_bind_ok {ε : Type} {x : ExceptT ε (StateM FileTree) α}
    {f : α → ExceptT ε (StateM FileTree) β} (h : x.run t = (.ok a, t')) :
    (x >>= f).run t = (f a).run t' :=
  bind_apply (f := ExceptT.bindCont f) h

theorem run_bind_error {ε : Type} {x : ExceptT ε (StateM FileTree) α}
    {f : α → ExceptT ε (StateM FileTree) β} {failure : ε}
    (h : x.run t = (.error failure, t')) : (x >>= f).run t = (.error failure, t') :=
  bind_apply (f := ExceptT.bindCont f) h

theorem run_map_ok {f : α → β} (h : x.run t = (.ok a, t')) :
    (f <$> x).run t = (.ok (f a), t') := by
  rw [ExceptT.run_map]
  exact congrArg (fun y : Except Failure α × FileTree => (Except.map f y.1, y.2)) h

theorem run_liftM {action : StateM FileTree α} (h : action t = (a, t')) :
    (liftM action : ExceptT Failure (StateM FileTree) α).run t = (.ok a, t') :=
  congrArg (fun y : α × FileTree => ((.ok y.1, y.2) : Except Failure α × FileTree)) h

theorem run_workingDirectory (t : FileTree) :
    (liftM (Disk.workingDirectory : StateM FileTree Path) :
      ExceptT Failure (StateM FileTree) Path).run t = (.ok (pathOf t.workingDirectory), t) :=
  run_liftM rfl

theorem run_attempt_ok {p : Path} {action : StateM FileTree (Except DiskError α)}
    (h : action t = (.ok a, t')) : (Disk.attempt p action).run t = (.ok a, t') :=
  bind_apply h

theorem run_ofFile {kind : ArtifactKind} {p : Path} {content : ByteArray}
    (h : t.read p = .ok content) :
    (Artifact.ofFile kind p : ExceptT Failure (StateM FileTree) _).run t =
      (.ok ⟨kind, p, .ofBytes content⟩, t) := by
  have hRead : (Disk.read p : StateM FileTree _) t = (.ok content, t) := by
    show (t.read p, t) = _
    rw [h]
  exact run_bind_ok (run_attempt_ok hRead)

/-- Files that can be read have their artifacts. -/
theorem run_mapM_ofFile (kind : ArtifactKind) {paths : List Path}
    (h : ∀ p ∈ paths, ∃ content, t.read p = .ok content) :
    ∃ artifacts, (paths.mapM (Artifact.ofFile kind) : ExceptT Failure (StateM FileTree) _).run t =
      (.ok artifacts, t) := by
  induction paths with
  | nil => exact ⟨[], rfl⟩
  | cons p rest ih =>
    obtain ⟨content, hRead⟩ := h p List.mem_cons_self
    obtain ⟨artifacts, hRest⟩ := ih fun p' hMem => h p' (List.mem_cons_of_mem _ hMem)
    refine ⟨⟨kind, p, .ofBytes content⟩ :: artifacts, ?_⟩
    rw [List.mapM_cons, run_bind_ok (run_ofFile hRead), run_bind_ok hRest]
    rfl

end

/-- What a run does once its dump is written. -/
def completeRun (c : Configuration) (r : Registry) (output : Path) (dump? : Option Path) :
    ExceptT Failure (StateM FileTree) Report := do
  let emitted ← writeModule c r output
  let registration ← Artifact.ofFile .registration output
  let enumPaths ← (emitted.reconciler.finish : StateM FileTree (List Path))
  let enums ← enumPaths.mapM (Artifact.ofFile .enumeration)
  let dumps ← dump?.toList.mapM (Artifact.ofFile .dump)
  return ⟨emitted.counts, emitted.reconciler.size, registration :: enums ++ dumps, emitted.flaws⟩

section

variable {c : Configuration} {r : Registry} {t t' : FileTree} {output dir : Path}

/-- The dump, if one is wanted. -/
def dumpStep (c : Configuration) (r : Registry) (output : Path) :
    ExceptT Failure (StateM FileTree) (Option Path) :=
  if c.output.dump then some <$> writeDump r output c.output.dumpFormat else pure none

theorem generate_run_eq {dump? : Option Path}
    (hOutput : c.outputPath (pathOf t.workingDirectory) = output)
    (hStem : output.stem?.isNone = false) (hParent : output.parent? = some dir)
    (hDirectories : (Disk.makeDirectories dir : StateM FileTree _) t = (.ok (), t))
    (hDump : (dumpStep c r output).run t = (.ok dump?, t')) :
    (generate c r : ExceptT Failure (StateM FileTree) Report).run t =
      (completeRun c r output dump?).run t' := by
  rw [generate, run_bind_ok (run_workingDirectory t)]
  simp only [hOutput, hStem, Bool.false_eq_true, if_false, hParent]
  rw [run_bind_ok (run_attempt_ok hDirectories)]
  -- the dump is written in place, as `dumpStep` says
  rw [dumpStep] at hDump
  split at hDump
  · rename_i hWanted
    rw [if_pos hWanted]
    exact run_bind_ok hDump
  · rename_i hUnwanted
    rw [if_neg hUnwanted]
    exact run_bind_ok hDump

/-- The module is written once the emission has gone through. -/
theorem writeModule_of_emitted {r₀ : Reconciler Handle} {s : Emitted Handle} {t₁ : FileTree}
    (hBeside : Reconciler.beside output = .ok r₀)
    (hEmit : (emit (.start r₀) (emission c r) : StateM FileTree _) t = ((s, none), t₁))
    (hReplace : (Disk.replace output (Module.ofRegistry c r).render.toUTF8 : StateM FileTree _) t₁ =
      (.ok (), t')) :
    (writeModule c r output : ExceptT Failure (StateM FileTree) _).run t = (.ok s, t') := by
  have hRender : (renderModule c r r₀ : StateM FileTree _) t =
      ((.ok (Module.ofRegistry c r).render, s), t₁) := (bind_apply hEmit).trans rfl
  rw [writeModule, hBeside]
  refine (bind_apply hRender).trans ?_
  exact (bind_apply (run_attempt_ok hReplace)).trans rfl

/-- The tree in which a run stops that has sheets open: they are written as far as they got, unless
the run goes on for ever. -/
def stopped (r : Reconciler Handle) (failure : Failure) (t : FileTree) : FileTree :=
  if failure.isEndless then t else ((r.flush : StateM FileTree Unit) t).2

theorem flush_unless_endless {α : Type} (r : Reconciler Handle) (failure : Failure) (t : FileTree) :
    (do
      unless failure.isEndless do r.flush
      return .error failure : StateM FileTree (Except Failure α)) t =
      (.error failure, stopped r failure t) := by
  rw [stopped]
  by_cases hEndless : failure.isEndless = true
  · rw [if_pos hEndless, if_pos hEndless]
    rfl
  · rw [if_neg hEndless, if_neg hEndless]
    rfl

/-- An emission that stops stops the run. -/
theorem writeModule_of_failed {r₀ : Reconciler Handle} {s : Emitted Handle} {t₁ : FileTree}
    {failure : Failure} (hBeside : Reconciler.beside output = .ok r₀)
    (hEmit : (emit (.start r₀) (emission c r) : StateM FileTree _) t = ((s, some failure), t₁)) :
    (writeModule c r output : ExceptT Failure (StateM FileTree) _).run t =
      (.error failure, stopped s.reconciler failure t₁) := by
  have hRender : (renderModule c r r₀ : StateM FileTree _) t = ((.error failure, s), t₁) :=
    (bind_apply hEmit).trans rfl
  rw [writeModule, hBeside]
  exact (bind_apply hRender).trans (flush_unless_endless s.reconciler failure t₁)

/-- The files are completed, and none is lost. -/
theorem finish_keepsFiles (r : Reconciler Handle) (t : FileTree) :
    ∃ t', (r.finish : StateM FileTree _) t = (r.sheets.map (·.path), t') ∧ KeepsFiles t t' := by
  have hAll : ∀ (sheets : List (Sheet Handle)) (t : FileTree), ∃ t',
      (sheets.forM fun s => Disk.append s.handle (s.text ++ sheetFoot).toUTF8 :
        StateM FileTree Unit) t = ((), t') ∧ KeepsFiles t t' := by
    intro sheets
    induction sheets with
    | nil => exact fun t => ⟨t, rfl, .refl t⟩
    | cons s rest ih =>
      intro t
      obtain ⟨t', hRest, hKeeps⟩ := ih (t.append s.handle (s.text ++ sheetFoot).toUTF8)
      exact ⟨t', hRest, (append_keepsFiles t _ _).trans hKeeps⟩
  obtain ⟨t', hWritten, hKeeps⟩ := hAll r.sheets t
  exact ⟨t', (bind_apply hWritten).trans rfl, hKeeps⟩

/-- A run whose emission goes through completes if all files that it reads back can be read. -/
theorem completeRun_of_reads {r₀ : Reconciler Handle} {s : Emitted Handle} {t₁ written : FileTree}
    {dump? : Option Path} {paths : List Path} (hBeside : Reconciler.beside output = .ok r₀)
    (hEmit : (emit (.start r₀) (emission c r) : StateM FileTree _) t = ((s, none), t₁))
    (hReplace : (Disk.replace output (Module.ofRegistry c r).render.toUTF8 : StateM FileTree _) t₁ =
      (.ok (), written))
    (hOutput : ∃ content, written.read output = .ok content)
    (hFinish : (s.reconciler.finish : StateM FileTree (List Path)) written = (paths, t'))
    (hEnums : ∀ p ∈ paths, ∃ content, t'.read p = .ok content)
    (hDumps : ∀ p ∈ dump?.toList, ∃ content, t'.read p = .ok content) :
    ∃ report, (completeRun c r output dump?).run t = (.ok report, t') := by
  obtain ⟨content, hRead⟩ := hOutput
  obtain ⟨enums, hEnums⟩ := run_mapM_ofFile .enumeration hEnums
  obtain ⟨dumps, hDumps⟩ := run_mapM_ofFile .dump hDumps
  have hFinish : (liftM (s.reconciler.finish : StateM FileTree (List Path)) :
      ExceptT Failure (StateM FileTree) _).run written = (.ok paths, t') := run_liftM hFinish
  -- each step is known to succeed, so the report can be given
  refine ⟨⟨s.counts, s.reconciler.size,
    ⟨.registration, output, .ofBytes content⟩ :: enums ++ dumps, s.flaws⟩, ?_⟩
  rw [completeRun, run_bind_ok (writeModule_of_emitted hBeside hEmit hReplace),
    run_bind_ok (run_ofFile hRead), run_bind_ok hFinish, run_bind_ok hEnums, run_bind_ok hDumps]
  rfl

/-- That is so in a flat directory: writing the module and finishing the sheets loses no file. -/
theorem completeRun_of_emitted {r₀ : Reconciler Handle} {s : Emitted Handle} {t₁ : FileTree}
    {d : Location} {name : String} {dump? : Option Path}
    (hBeside : Reconciler.beside output = .ok r₀)
    (hEmit : (emit (.start r₀) (emission c r) : StateM FileTree _) t = ((s, none), t₁))
    (hFlat : t₁.FlatDirectory d) (hOutput : t₁.Names output d name)
    (hSheets : ∀ p ∈ s.reconciler.sheets.map (·.path),
      ∃ name', t₁.Names p d name' ∧ t₁.HasFile (d ++ [name']))
    (hDump : ∀ p ∈ dump?.toList, ∃ name', t₁.Names p d name' ∧ t₁.HasFile (d ++ [name'])) :
    ∃ report t', (completeRun c r output dump?).run t = (.ok report, t') := by
  obtain ⟨t₂, serial, hReplace, hChange, hNode⟩ := replace_of_names hOutput hFlat
    (Module.ofRegistry c r).render.toUTF8
  have hWritten : KeepsFiles t₁ t₂ := .ofFileChange hChange ⟨_, _, hNode⟩
  obtain ⟨t₃, hFinish, hFinished⟩ := finish_keepsFiles s.reconciler t₂
  have hKeeps := hWritten.trans hFinished
  -- so each path of the report can be read at the end
  have hThere : ∀ p, (∃ name', t₁.Names p d name' ∧ t₁.HasFile (d ++ [name'])) →
      ∃ content, t₃.read p = .ok content := by
    rintro p ⟨name', hNames, hFile⟩
    exact read_of_hasFile (hNames.ofFrame hKeeps.frame) (hKeeps.flat d hFlat)
      (hKeeps.files _ hFile)
  have hRead := read_of_node (hOutput.ofFrame hWritten.frame) (hWritten.flat d hFlat) hNode
  obtain ⟨report, hRun⟩ := completeRun_of_reads hBeside hEmit hReplace ⟨_, hRead⟩ hFinish
    (fun p hMem => hThere p (hSheets p hMem)) fun p hMem => hThere p (hDump p hMem)
  exact ⟨report, t₃, hRun⟩

/-- That is so when the emission keeps the invariant of a run. -/
theorem completeRun_of_filled {σ : Site} {done : List Request} {s : Emitted Handle}
    {t₁ : FileTree} {name : String} {dump? : Option Path}
    (hBeside : Reconciler.beside output = .ok σ.reconciler)
    (hEmit : (emit (.start σ.reconciler) (emission c r) : StateM FileTree _) t = ((s, none), t₁))
    (hFilled : Filled σ done s.reconciler t₁)
    (hSafe : ∀ q ∈ done, ∀ tag, q.filingTag? = some tag → σ.reconciler.TagSafe tag)
    (hOutput : σ.tree.Names output σ.location name)
    (hDump : ∀ p ∈ dump?, ∃ name', σ.tree.Names p σ.location name' ∧
      t₁.HasFile (σ.location ++ [name'])) :
    ∃ report t', (completeRun c r output dump?).run t = (.ok report, t') := by
  refine completeRun_of_emitted hBeside hEmit hFilled.flat (hOutput.ofFrame hFilled.frame) ?_ ?_
  · intro p hMem
    -- each sheet has its file at its own path
    obtain ⟨sheet, hListed, rfl⟩ := List.mem_map.1 hMem
    have hSheet := hFilled.kept sheet hListed
    have hNames := hFilled.names_of_mem hSafe hListed
    rw [hSheet.path]
    exact ⟨_, hNames.ofFrame hFilled.frame, _, _, hSheet.location ▸ hSheet.node⟩
  · intro p hMem
    -- the dump has been there since before the emission
    obtain ⟨name', hNames, hFile⟩ := hDump p (Option.mem_toList.1 hMem)
    exact ⟨name', hNames.ofFrame hFilled.frame, hFile⟩

theorem completeRun_of_failed {r₀ : Reconciler Handle} {s : Emitted Handle} {t₁ : FileTree}
    {failure : Failure} (dump? : Option Path) (hBeside : Reconciler.beside output = .ok r₀)
    (hEmit : (emit (.start r₀) (emission c r) : StateM FileTree _) t = ((s, some failure), t₁)) :
    ∃ t', (completeRun c r output dump?).run t = (.error failure, t') := by
  exact ⟨_, run_bind_error (writeModule_of_failed hBeside hEmit)⟩

/-- A dump is written to a path that is free for it. -/
theorem dumpStep_of_names {d : Location} (hFlat : t.FlatDirectory d)
    (hNames : c.output.dump = true →
      ∃ name, t.Names (Dump.path output c.output.dumpFormat) d name) :
    ∃ dump? t', (dumpStep c r output).run t = (.ok dump?, t') ∧ KeepsFiles t t' ∧
      ∀ p ∈ dump?, ∃ name, t.Names p d name ∧ t'.HasFile (d ++ [name]) := by
  rw [dumpStep]
  split
  · rename_i hWanted
    obtain ⟨name, hNames⟩ := hNames hWanted
    -- whatever file has the name is replaced
    obtain ⟨t', serial, hReplace, hChange, hNode⟩ := replace_of_names hNames hFlat
      (Dump.render r c.output.dumpFormat).toUTF8
    refine ⟨some (Dump.path output c.output.dumpFormat), t', ?_,
      .ofFileChange hChange ⟨_, _, hNode⟩, ?_⟩
    · have hDump : (writeDump r output c.output.dumpFormat :
          ExceptT Failure (StateM FileTree) Path).run t =
          (.ok (Dump.path output c.output.dumpFormat), t') :=
        (run_bind_ok (run_attempt_ok hReplace)).trans rfl
      exact run_map_ok hDump
    · intro p hMem
      obtain rfl := Option.some.inj hMem
      exact ⟨name, hNames, _, _, hNode⟩
  · exact ⟨none, t, rfl, .refl t, nofun⟩

end

/-! ## Output in a fresh directory -/

/-- The path that the module of a configuration is written to. -/
def Configuration.outputIn (c : Configuration) (t : FileTree) : Path :=
  c.outputPath (pathOf t.workingDirectory)

/-- A path that ends in a free name of the directory `d`. -/
structure FreeIn (t : FileTree) (d : Location) (p : Path) : Prop where
  unslashed : endsInSlash p = false
  vacant : ∃ name, t.resolve .itself p = .ok (.vacant d name)

/-- The output of a configuration lies in the directory `d`, which is there and holds nothing; its
path, and that of the dump if one is wanted, can be used for files. -/
structure FreshOutput (c : Configuration) (t : FileTree) (d : Location) : Prop where
  leads : ∀ dir, (c.outputIn t).parent? = some dir → t.resolve .followed dir = .ok (.occupied d)
  directory : t.node? d = some .directory
  empty : ∀ name, t.node? (d ++ [name]) = none
  output : FreeIn t d (c.outputIn t)
  dump : c.output.dump = true → FreeIn t d (Dump.path (c.outputIn t) c.output.dumpFormat)

theorem FreeIn.names {t : FileTree} {d : Location} {p : Path} (h : FreeIn t d p) :
    ∃ name, t.Names p d name := by
  obtain ⟨name, hVacant⟩ := h.vacant
  exact ⟨name, names_of_vacant hVacant h.unslashed⟩

theorem FreshOutput.flat {c : Configuration} {t : FileTree} {d : Location}
    (h : FreshOutput c t d) : t.FlatDirectory d :=
  ⟨h.directory, fun name node hNode => by rw [h.empty name] at hNode; cases hNode⟩

theorem mem_filedTags {r : Registry} {tag : String} :
    tag ∈ r.filedTags ↔ ∃ q ∈ r.requests, q.filingTag? = some tag :=
  List.mem_filterMap

/-- With its output in a fresh directory a run gets to the emission, and no file is lost on the
way. -/
theorem FreshOutput.exists_begun {c : Configuration} {t : FileTree} {d : Location}
    (hFresh : FreshOutput c t d) {r₀ : Reconciler Handle}
    (hBeside : Reconciler.beside (c.outputIn t) = .ok r₀) (r : Registry) :
    ∃ dump? begun, (generate c r : ExceptT Failure (StateM FileTree) Report).run t =
        (completeRun c r (c.outputIn t) dump?).run begun ∧
      KeepsFiles t begun ∧
      ∀ p ∈ dump?, ∃ name, t.Names p d name ∧ begun.HasFile (d ++ [name]) := by
  obtain ⟨stem, dir, hStem, hParent, -⟩ := exists_of_beside hBeside
  obtain ⟨dump?, begun, hDump, hKeeps, hDumped⟩ := dumpStep_of_names (c := c) (r := r) hFresh.flat
    fun hWanted => (hFresh.dump hWanted).names
  refine ⟨dump?, begun, ?_, hKeeps, hDumped⟩
  exact generate_run_eq rfl (by rw [hStem]; rfl) hParent
    (makeDirectories_of_directory (hFresh.leads dir hParent) hFresh.directory) hDump

/-- What can come of a run: it completes, the names of all files fit and all enumerations can be
numbered; or it fails at the file of a tag that does not fit; or it goes on for ever at an
enumeration that cannot be numbered. -/
inductive RunOutcome (c : Configuration) (r : Registry) (r₀ : Reconciler Handle) (t : FileTree) :
    Prop
  | completed (report : Report) (t' : FileTree)
    (run : (generate c r : ExceptT Failure (StateM FileTree) Report).run t = (.ok report, t'))
    (fits : ∀ tag ∈ r.filedTags, FitsName r₀.directory (r₀.fileName tag))
    (numberable : Numberable r.requests)
  | misfit (tag : String) (e : DiskError) (t' : FileTree) (filed : tag ∈ r.filedTags)
    (unfit : ¬ FitsName r₀.directory (r₀.fileName tag)) (reached : e ≠ .unreached)
    (run : (generate c r : ExceptT Failure (StateM FileTree) Report).run t =
      (.error (.onDisk (r₀.pathFor tag) e), t'))
  | endless (k : Key) (literals : List String) (t' : FileTree)
    (first : firstLiterals? r.requests k = some literals) (unnumbered : assign? literals = none)
    (run : (generate c r : ExceptT Failure (StateM FileTree) Report).run t =
      (.error (.onDisk (r₀.pathFor k.tag) .unreached), t'))

theorem generate_outcome {c : Configuration} {t : FileTree} {d : Location} (r : Registry)
    (hFresh : FreshOutput c t d) {r₀ : Reconciler Handle}
    (hBeside : Reconciler.beside (c.outputIn t) = .ok r₀)
    (hSafe : ∀ tag ∈ r.filedTags, r₀.TagSafe tag) : RunOutcome c r r₀ t := by
  obtain ⟨dump?, t₁, hRun, hKeeps, hDumped⟩ := hFresh.exists_begun hBeside r
  obtain ⟨stem, dir, -, hParent, rfl⟩ := exists_of_beside hBeside
  let σ : Site := ⟨⟨.empty, dir, stem, []⟩, t, d, leadsTo_of_resolve (hFresh.leads dir hParent),
    hFresh.directory, .ofBeside hBeside⟩
  have hStart : Filled σ [] (Emitted.start σ.reconciler).reconciler t₁ :=
    .start σ rfl rfl hKeeps.frame (hKeeps.flat d hFresh.flat)
  have hSafe' : ∀ q ∈ r.requests, ∀ tag, q.filingTag? = some tag → σ.reconciler.TagSafe tag :=
    fun q hMem tag hFiled => hSafe tag (mem_filedTags.2 ⟨q, hMem, hFiled⟩)
  have hRequests := requests_emission c r
  -- the emission decides how the run ends
  cases emit_run (emission c r) hStart (hRequests ▸ hSafe') with
  | done s t₂ hEmit hFilled hKeeps' =>
    rw [hRequests, List.nil_append] at hFilled
    obtain ⟨name, hOutput⟩ := hFresh.output.names
    obtain ⟨report, t', hComplete⟩ := completeRun_of_filled hBeside hEmit hFilled hSafe' hOutput
      fun p hMem => by
        obtain ⟨name', hNames, hFile⟩ := hDumped p hMem
        exact ⟨name', hNames, hKeeps'.files _ hFile⟩
    refine .completed report t' (hRun.trans hComplete) (fun tag hMem => ?_) hFilled.numberable
    obtain ⟨q, hRequest, hFiled⟩ := mem_filedTags.1 hMem
    exact hFilled.fits_of_mem (key_mem_keysOf hRequest hFiled)
  | misfit s t₂ tag e hEmit hFiled hMisfit hReached =>
    obtain ⟨t', hFailed⟩ := completeRun_of_failed dump? hBeside hEmit
    exact .misfit tag e t' (mem_filedTags.2 (hRequests ▸ hFiled)) hMisfit hReached
      (hRun.trans hFailed)
  | endless s t₂ k literals hEmit hFirst hEndless =>
    rw [hRequests, List.nil_append] at hFirst
    obtain ⟨t', hFailed⟩ := completeRun_of_failed dump? hBeside hEmit
    exact .endless k literals t' hFirst hEndless (hRun.trans hFailed)

/-- A run completes if the names of all tags' files fit and all enumerations can be numbered. -/
theorem exists_report {c : Configuration} {t : FileTree} {d : Location} {r : Registry}
    (hFresh : FreshOutput c t d) {r₀ : Reconciler Handle}
    (hBeside : Reconciler.beside (c.outputIn t) = .ok r₀)
    (hSafe : ∀ tag ∈ r.filedTags, r₀.TagSafe tag)
    (hFits : ∀ tag ∈ r.filedTags, FitsName r₀.directory (r₀.fileName tag))
    (hNumberable : Numberable r.requests) :
    ∃ report t', (generate c r : ExceptT Failure (StateM FileTree) Report).run t =
      (.ok report, t') := by
  cases generate_outcome r hFresh hBeside hSafe with
  | completed report t' hRun _ _ => exact ⟨report, t', hRun⟩
  | misfit tag _ _ hMem hMisfit _ _ => exact absurd (hFits tag hMem) hMisfit
  | endless k literals _ hFirst hEndless _ => exact absurd hEndless (hNumberable.ne_none hFirst)

/-- **Which runs complete.** Let a valid configuration have its output in a fresh directory, and
let the stem of the output stand before the tags of the registry. Then a run completes exactly if
the names of all tags' files fit and all enumerations that are filed can be numbered. A run that
does not complete fails at the file of a tag that does not fit, or it goes on for ever: then the
numbering of the first enumeration under some key does not come to its end, and the file of the
key's tag is never reached. -/
theorem generate_isOk_iff {c : Configuration} {t : FileTree} {d : Location}
    (hValid : c.problems = []) (hFresh : FreshOutput c t d) (r : Registry) :
    ∃ r₀ : Reconciler Handle, Reconciler.beside (c.outputIn t) = .ok r₀ ∧
      ((∀ tag ∈ r.filedTags, r₀.TagSafe tag) →
        (((generate c r : ExceptT Failure (StateM FileTree) Report).run t).1.isOk = true ↔
          (∀ tag ∈ r.filedTags, FitsName r₀.directory (r₀.fileName tag)) ∧
            Numberable r.requests) ∧
        ∀ failure,
          ((generate c r : ExceptT Failure (StateM FileTree) Report).run t).1 = .error failure →
          (∃ tag ∈ r.filedTags, ¬ FitsName r₀.directory (r₀.fileName tag) ∧
            ∃ e, e ≠ .unreached ∧ failure = .onDisk (r₀.pathFor tag) e) ∨
          ∃ k literals, firstLiterals? r.requests k = some literals ∧ assign? literals = none ∧
            failure = .onDisk (r₀.pathFor k.tag) .unreached) := by
  obtain ⟨stem, hStem⟩ := (Configuration.problems_eq_nil_iff.1 hValid).output
  obtain ⟨r₀, hBeside⟩ : ∃ r₀ : Reconciler Handle, Reconciler.beside (c.outputIn t) = .ok r₀ := by
    -- the output has a file name, so there is a stem that the files of tags begin with
    refine ⟨⟨.empty, (c.outputIn t).parent?.getD ⟨""⟩, stem, []⟩, ?_⟩
    have hJoined : (c.outputIn t).stem? = some stem := Path.stem?_join hStem
    rw [Reconciler.beside, hJoined]
  refine ⟨r₀, hBeside, fun hSafe => ?_⟩
  cases generate_outcome r hFresh hBeside hSafe with
  | completed report t' hRun hFits hNumberable =>
    rw [hRun]
    exact ⟨⟨fun _ => ⟨hFits, hNumberable⟩, fun _ => rfl⟩, fun failure hFailed => by cases hFailed⟩
  | misfit tag e t' hMem hMisfit hReached hRun =>
    rw [hRun]
    refine ⟨⟨fun hOk => absurd hOk Bool.false_ne_true,
      fun hAll => absurd (hAll.1 tag hMem) hMisfit⟩, ?_⟩
    rintro failure hSame
    cases hSame
    exact .inl ⟨tag, hMem, hMisfit, e, hReached, rfl⟩
  | endless k literals t' hFirst hEndless hRun =>
    rw [hRun]
    refine ⟨⟨fun hOk => absurd hOk Bool.false_ne_true,
      fun hAll => absurd hEndless (hAll.2.ne_none hFirst)⟩, ?_⟩
    rintro failure hSame
    cases hSame
    exact .inr ⟨k, literals, hFirst, hEndless, rfl⟩

/-! ## A run that completes and one that does not -/

/-- A tree with an empty directory. -/
def emptyProject : FileTree := ⟨[(["project"], .directory)], 0, ["project"]⟩

theorem resolve_emptyProject (last : LastName) :
    emptyProject.resolve last ⟨"/project"⟩ = .ok (.occupied ["project"]) := by
  rw [resolve_of_text (by decide) (by decide) (by decide),
    show endsInSlash ⟨"/project"⟩ = false by decide,
    show emptyProject.startOf ⟨"/project"⟩ = [] by decide,
    show route ⟨"/project"⟩ = ["project"] by decide,
    walk_entry ⟨by decide, by decide, by decide⟩ fun _ => .inl rfl]
  exact walk_nil

theorem outputIn_emptyProject :
    Configuration.outputIn {} emptyProject = ⟨"/project/ExporterInitializer_PsetDef.rs"⟩ := by
  decide

theorem empty_emptyProject (name : String) : emptyProject.node? (["project"] ++ [name]) = none := by
  simp [node?, emptyProject]

theorem freeIn_emptyProject {p : Path} (name : String) (hText : p.text ≠ "")
    (hTerminator : '\x00' ∉ p.text.toList) (hLength : p.text.utf8ByteSize ≤ 4095)
    (hSlash : endsInSlash p = false) (hAbsolute : p.isAbsolute = true)
    (hRoute : route p = ["project", name]) (hName : IsEntryName name) :
    FreeIn emptyProject ["project"] p := by
  refine ⟨hSlash, name, ?_⟩
  rw [resolve_of_text hText hTerminator hLength, hSlash, startOf, hAbsolute, if_pos rfl, hRoute,
    walk_entry ⟨by decide, by decide, by decide⟩ fun _ => .inl rfl]
  show emptyProject.walk _ _ _ ["project"] _ = _
  rw [walk_entry hName fun _ => .inl rfl, empty_emptyProject]
  rfl

/-- Output in the empty directory. -/
theorem freshOutput_of_free {c : Configuration}
    (hParent : (c.outputIn emptyProject).parent? = some ⟨"/project"⟩)
    (hOutput : FreeIn emptyProject ["project"] (c.outputIn emptyProject))
    (hDump : c.output.dump = true →
      FreeIn emptyProject ["project"] (Dump.path (c.outputIn emptyProject) c.output.dumpFormat)) :
    FreshOutput c emptyProject ["project"] where
  leads dir hDir := by
    obtain rfl := Option.some.inj (hParent.symm.trans hDir)
    exact resolve_emptyProject .followed
  directory := rfl
  empty := empty_emptyProject
  output := hOutput
  dump := hDump

/-- The standard configuration writes into the empty directory. -/
theorem freshOutput_emptyProject : FreshOutput {} emptyProject ["project"] := by
  refine freshOutput_of_free (by decide) ?_ nofun
  rw [outputIn_emptyProject]
  exact freeIn_emptyProject "ExporterInitializer_PsetDef.rs" (by decide) (by decide) (by decide)
    (by decide) (by decide) (by decide) ⟨by decide, by decide, by decide⟩

/-- The reconciler for files beside the standard output. -/
def besideExporter : Reconciler Handle :=
  ⟨.empty, ⟨"/project"⟩, "ExporterInitializer_PsetDef", []⟩

theorem beside_emptyProject :
    Reconciler.beside (Configuration.outputIn {} emptyProject) = .ok besideExporter := by
  rw [outputIn_emptyProject]
  rfl

theorem tagSafe_besideExporter (tag : String) : besideExporter.TagSafe tag :=
  Reconciler.tagSafe_of_plainStem (.ofBeside beside_emptyProject) fun hDots => by
    simp [besideExporter] at hDots

/-- A registry with an enumeration under a published version. -/
def sideRegistry : Registry :=
  .ofList [⟨"IFC2X2", "Pset_Side", "IFC2X2", none, [],
    [.valued ⟨"Side", none, []⟩ (.enumerated "PEnum_Side" [⟨"LEFT", []⟩])]⟩]

theorem sideRegistry_run_completes :
    ((generate {} sideRegistry : ExceptT Failure (StateM FileTree) Report).run
      emptyProject).1.isOk = true := by
  obtain ⟨r₀, hBeside, hRun⟩ :=
    generate_isOk_iff Configuration.problems_default freshOutput_emptyProject sideRegistry
  obtain rfl := Except.ok.inj (beside_emptyProject.symm.trans hBeside)
  exact (hRun fun tag _ => tagSafe_besideExporter tag).1.2
    ⟨by decide, numberable_of_requests (by decide)⟩

/-- A document with an enumeration, whose version holds a slash. -/
def slashDocument : String :=
  "<PropertySetDef><Name>A</Name><IfcVersion version=\"a/b\"/><PropertyDefs><PropertyDef>" ++
    "<Name>P</Name><PropertyType><TypePropertyEnumeratedValue><EnumList name=\"E\">" ++
    "<EnumItem>X</EnumItem></EnumList></TypePropertyEnumeratedValue></PropertyType>" ++
    "</PropertyDef></PropertyDefs></PropertySetDef>"

/-- The registry of the definition that is read from the document. -/
def slashRegistry : Registry :=
  .ofList ((Document.read slashDocument "IFC4_ADD1" "psd").1.toList.map fun definition =>
    ⟨"IFC4_ADD1", definition⟩)

theorem requests_slashRegistry :
    ∃ q, slashRegistry.requests = [q] ∧ q.filingTag? = some "a/b" ∧
      (assign? q.literals).isSome = true := by
  have hRequest : slashRegistry.requests.map (fun q =>
      (q.filingTag?, (assign? q.literals).isSome)) = [(some "a/b", true)] := by
    -- reading a list of characters, the kernel need not decode the bytes of the string
    have hText : slashDocument = String.ofList (_ ++ _ ++ _ ++ _) :=
      Text.eq_ofList_append (Text.eq_ofList_append (Text.eq_ofList_append rfl _) _) _
    rw [slashRegistry, Document.read, hText, String.toList_ofList]
    decide +kernel
  simpa using List.map_eq_singleton_iff.1 hRequest

theorem filedTags_of_requests {r : Registry} {q : Request} {tag : String}
    (hRequests : r.requests = [q]) (hFiled : q.filingTag? = some tag) : r.filedTags = [tag] := by
  rw [Registry.filedTags, hRequests, List.filterMap_cons_some hFiled]
  rfl

/-- A document whose version holds a slash stops the run. -/
theorem slash_in_version_stops_run :
    ({} : Configuration).problems = [] ∧ FreshOutput {} emptyProject ["project"] ∧
      ∃ e t', (generate {} slashRegistry : ExceptT Failure (StateM FileTree) Report).run
          emptyProject =
        (.error (.onDisk ⟨"/project/ExporterInitializer_PsetDefa/bEnum.rs"⟩ e), t') := by
  refine ⟨Configuration.problems_default, freshOutput_emptyProject, ?_⟩
  obtain ⟨q, hRequests, hFiled, hEnds⟩ := requests_slashRegistry
  have hTags := filedTags_of_requests hRequests hFiled
  have hPath : besideExporter.pathFor "a/b" =
      ⟨"/project/ExporterInitializer_PsetDefa/bEnum.rs"⟩ := by decide
  cases generate_outcome slashRegistry freshOutput_emptyProject beside_emptyProject
    fun tag _ => tagSafe_besideExporter tag with
  | completed report t' hRun hFits hNumberable =>
    have hUnslashed := (hFits "a/b" (by rw [hTags]; exact List.mem_cons_self)).unslashed
    exact absurd (by decide) hUnslashed
  | misfit tag e t' hMem hMisfit hReached hRun =>
    rw [hTags, List.mem_singleton] at hMem
    rw [hMem, hPath] at hRun
    exact ⟨e, t', hRun⟩
  | endless k literals t' hFirst hEndless hRun =>
    -- the only enumeration can be numbered
    have hNumberable : Numberable slashRegistry.requests :=
      numberable_of_requests (by rw [hRequests]; simpa using hEnds)
    exact absurd hEndless (hNumberable.ne_none hFirst)

/-- A document with an enumeration whose first item is the greatest value. -/
def greatestDocument : String :=
  "<PropertySetDef><Name>A</Name><IfcVersion version=\"IFC2X2\"/><PropertyDefs><PropertyDef>" ++
    "<Name>P</Name><PropertyType><TypePropertyEnumeratedValue><EnumList name=\"E\">" ++
    "<EnumItem>9223372036854775807</EnumItem><EnumItem>X</EnumItem></EnumList>" ++
    "</TypePropertyEnumeratedValue></PropertyType></PropertyDef></PropertyDefs></PropertySetDef>"

/-- The registry of the definition that is read from the document. -/
def greatestRegistry : Registry :=
  .ofList ((Document.read greatestDocument "IFC2X2" "psd").1.toList.map fun definition =>
    ⟨"IFC2X2", definition⟩)

theorem requests_greatestRegistry :
    ∃ q, greatestRegistry.requests = [q] ∧ q.filingTag? = some "IFC2X2" ∧
      assign? q.literals = none := by
  have hRequest : greatestRegistry.requests.map (fun q =>
      (q.filingTag?, assign? q.literals)) = [(some "IFC2X2", none)] := by
    have hText : greatestDocument = String.ofList (_ ++ _ ++ _ ++ _) :=
      Text.eq_ofList_append (Text.eq_ofList_append (Text.eq_ofList_append rfl _) _) _
    rw [greatestRegistry, Document.read, hText, String.toList_ofList]
    decide +kernel
  simpa using List.map_eq_singleton_iff.1 hRequest

/-- Behind the greatest value a variant without one is searched a value for ever: the run does not
come back, and the file of the tag, whose name fits, is never reached. -/
theorem greatest_value_stalls_run :
    (∀ tag ∈ greatestRegistry.filedTags, FitsName ⟨"/project"⟩ (besideExporter.fileName tag)) ∧
      ∃ t', (generate {} greatestRegistry : ExceptT Failure (StateM FileTree) Report).run
          emptyProject =
        (.error (.onDisk ⟨"/project/ExporterInitializer_PsetDefIFC2X2Enum.rs"⟩ .unreached),
          t') := by
  obtain ⟨q, hRequests, hFiled, hEndless⟩ := requests_greatestRegistry
  have hTags := filedTags_of_requests hRequests hFiled
  have hKey := key?_of_filingTag? hFiled
  have hFits : ∀ tag ∈ greatestRegistry.filedTags,
      FitsName ⟨"/project"⟩ (besideExporter.fileName tag) := by
    rw [hTags]
    decide
  have hFirst : firstLiterals? greatestRegistry.requests ⟨"IFC2X2", q.name⟩ = some q.literals := by
    rw [hRequests]
    show firstLiterals? ([] ++ [q]) _ = _
    exact firstLiterals?_append_cons rfl hKey
  refine ⟨hFits, ?_⟩
  cases generate_outcome greatestRegistry freshOutput_emptyProject beside_emptyProject
    fun tag _ => tagSafe_besideExporter tag with
  | completed report t' hRun _ hNumberable => exact absurd hEndless (hNumberable.ne_none hFirst)
  | misfit tag e t' hMem hMisfit hReached hRun => exact absurd (hFits tag hMem) hMisfit
  | endless k literals t' hKeyed hUnnumbered hRun =>
    -- the only key is that of the tag
    have hTag : k.tag = "IFC2X2" := by
      obtain ⟨q', hMem, hFiled'⟩ :=
        exists_filed_of_mem_keysOf (mem_keysOf_of_firstLiterals? hKeyed)
      rw [hRequests, List.mem_singleton] at hMem
      rw [hMem, hFiled] at hFiled'
      exact (Option.some.inj hFiled').symm
    rw [hTag] at hRun
    exact ⟨t', hRun⟩

end PropertySets
