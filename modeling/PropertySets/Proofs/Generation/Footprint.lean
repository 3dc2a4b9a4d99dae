import PropertySets.Proofs.Disk.Confined
import PropertySets.Proofs.Generation.Rewriting

/-!
# Where a run writes

A run makes the directories that its output is to lie in. After that it removes, creates and writes
files at a few paths only, whether it succeeds or fails, and whatever the tree held: at the path of
the output, at that of the dump if one is wanted, and at the paths of the tags' files. The first two
are in the directory of the output, and so is the file of a tag without a slash.

* `Keeps` — an invariant of the tree that a computation keeps, and how the computation can end.
* `Enumeration.StaysWithin`, `confined_of_emit` — an emission writes at the paths of its tags.
* `WritesTo`, `keeps_completeRun` — the paths of a run, and that its steps keep to them.
* `generate_footprint` — what a run changes; `slash_in_version_leaves_directory` — a tag with a
  slash leads it out of the directory.
-/

namespace PropertySets

open Enumeration FileTree Registration

/-! ## Computations that keep an invariant -/

section

variable {α β : Type} {holds : FileTree → Prop} {x : ExceptT Failure (StateM FileTree) α}
  {good : α → Prop} {good' : β → Prop} {p : Path}

/-- However the computation ends, the tree keeps what held of it; a result is as it should be, and a
failure is one of the disk. -/
def Keeps (holds : FileTree → Prop) (x : ExceptT Failure (StateM FileTree) α) (good : α → Prop) :
    Prop :=
  ∀ t result t', holds t → x.run t = (result, t') →
    holds t' ∧ match result with
      | .ok a => good a
      | .error failure => ∃ p e, failure = .onDisk p e

namespace Keeps

theorem pure {a : α} (h : good a) :
    Keeps holds (Pure.pure a : ExceptT Failure (StateM FileTree) α) good := by
  intro t result t' hHolds hRun
  cases hRun
  exact ⟨hHolds, h⟩

theorem bind {f : α → ExceptT Failure (StateM FileTree) β} (hFirst : Keeps holds x good)
    (hRest : ∀ a, good a → Keeps holds (f a) good') : Keeps holds (x >>= f) good' := by
  intro t result t' hHolds hRun
  rcases hX : x.run t with ⟨first, t₁⟩
  obtain ⟨hKept, hEnd⟩ := hFirst t first t₁ hHolds hX
  cases first with
  | error failure =>
    rw [run_bind_error hX] at hRun
    cases hRun
    exact ⟨hKept, hEnd⟩
  | ok a =>
    rw [run_bind_ok hX] at hRun
    exact hRest a hEnd t₁ result t' hKept hRun

theorem attempt {action : StateM FileTree (Except DiskError α)}
    (h : ∀ t result t', holds t → action t = (result, t') → holds t') :
    Keeps holds (Disk.attempt p action) fun _ => True := by
  intro t result t' hHolds hRun
  rcases hAction : action t with ⟨done, t₁⟩
  have hKept := h t done t₁ hHolds hAction
  cases done with
  | error e =>
    rw [run_attempt_error hAction] at hRun
    cases hRun
    exact ⟨hKept, p, e, rfl⟩
  | ok a =>
    rw [run_attempt_ok hAction] at hRun
    cases hRun
    exact ⟨hKept, trivial⟩

theorem lift {action : StateM FileTree α} (h : ∀ t, holds t → holds (action t).2) :
    Keeps holds (liftM action : ExceptT Failure (StateM FileTree) α) fun _ => True := by
  intro t result t' hHolds hRun
  rw [run_liftM (rfl : action t = ((action t).1, (action t).2))] at hRun
  cases hRun
  exact ⟨h t hHolds, trivial⟩

end Keeps

/-- To read a file back changes nothing. -/
theorem keeps_ofFile (kind : ArtifactKind) (p : Path) :
    Keeps holds (Artifact.ofFile kind p) fun _ => True := by
  refine Keeps.bind (Keeps.attempt fun t result t' hHolds hRead => ?_) fun _ _ => .pure trivial
  cases hRead
  exact hHolds

theorem keeps_mapM_ofFile (kind : ArtifactKind) (paths : List Path) :
    Keeps holds (paths.mapM (Artifact.ofFile kind)) fun _ => True := by
  induction paths with
  | nil => exact .pure trivial
  | cons p rest ih =>
    rw [List.mapM_cons]
    exact (keeps_ofFile kind p).bind fun _ _ => ih.bind fun _ _ => .pure trivial

end

/-! ## Emissions -/

namespace Enumeration

open Reconciler

variable {base t t' : FileTree} {written : Path → Prop} {r₀ r r' : Reconciler Handle}
  {q : Request} {tag : String}

/-- The files of the sheets are where the paths lead, and further files go beside them. -/
structure StaysWithin (base : FileTree) (written : Path → Prop) (r₀ r : Reconciler Handle) :
    Prop where
  directory : r.directory = r₀.directory
  stem : r.stem = r₀.stem
  sheets : ∀ s ∈ r.sheets, base.DesignatedBy written s.handle.location

theorem StaysWithin.pathFor (h : StaysWithin base written r₀ r) (tag : String) :
    r.pathFor tag = r₀.pathFor tag := by
  rw [Reconciler.pathFor, Reconciler.pathFor, h.directory, h.stem]

theorem StaysWithin.addBody (h : StaysWithin base written r₀ r) (tag body : String) :
    StaysWithin base written r₀ (r.addBody tag body) := by
  refine ⟨h.directory, h.stem, fun s hMem => ?_⟩
  obtain ⟨s', hListed, rfl⟩ := List.mem_map.1 hMem
  have hPlace := h.sheets s' hListed
  split
  · exact hPlace
  · exact hPlace

/-- Whatever comes of opening the sheet of a tag, the changes stay with the path of the tag. -/
theorem confined_of_openSheet (hConfined : Confined base written t)
    (hStays : StaysWithin base written r₀ r) (hTag : written (r₀.pathFor tag))
    {result : Except Failure (Reconciler Handle)}
    (h : (r.openSheet tag : StateM FileTree _) t = (result, t')) :
    Confined base written t' ∧ match result with
      | .ok opened => StaysWithin base written r₀ opened
      | .error failure => ∃ p e, failure = .onDisk p e := by
  have hPath := hStays.pathFor tag
  rcases openSheet_cases h with
    ⟨opened, rfl, hOpened⟩ | ⟨e, rfl, hClear | ⟨cleared, hClear, hCreate⟩⟩
  · cases hOpened with
    | there => exact ⟨hConfined, hStays⟩
    | created _ hClear hCreate =>
      rw [hPath] at hClear hCreate
      obtain ⟨hCreated, hPlace⟩ := (hConfined.clear hTag hClear).create hTag hCreate
      refine ⟨hCreated, hStays.directory, hStays.stem, fun s hMem => ?_⟩
      rcases mem_insertSheet.1 hMem with rfl | hListed
      · exact hPlace _ rfl
      · exact hStays.sheets s hListed
  · -- a failure leaves the path as it is, or cleared
    rw [hPath] at hClear
    exact ⟨hConfined.clear hTag hClear, _, e, rfl⟩
  · rw [hPath] at hClear hCreate
    exact ⟨((hConfined.clear hTag hClear).create hTag hCreate).1, _, e, rfl⟩

theorem confined_of_reconcile (hConfined : Confined base written t)
    (hStays : StaysWithin base written r₀ r)
    (hTags : ∀ tag, q.filingTag? = some tag → written (r₀.pathFor tag)) {outcome : Outcome}
    (h : (r.reconcile q : StateM FileTree _) t = ((outcome, r'), t')) :
    Confined base written t' ∧ StaysWithin base written r₀ r' ∧
      ∀ failure, outcome.result = .error failure → ∃ p e, failure = .onDisk p e := by
  -- the ledger has no part in this
  have hEntered : ∀ ledger : Ledger,
      StaysWithin base written r₀ ⟨ledger, r.directory, r.stem, r.sheets⟩ :=
    fun ledger => ⟨hStays.directory, hStays.stem, hStays.sheets⟩
  cases reconciled_of_run h with
  | unfiled hUnfiled => exact ⟨hConfined, hStays, nofun⟩
  | known hFiled hKnown => exact ⟨hConfined, hStays, nofun⟩
  | endless hFiled hNew _ =>
    refine ⟨hConfined, hEntered _, fun failure hSame => ?_⟩
    cases hSame
    exact ⟨_, _, rfl⟩
  | opened hFiled hNew _ hOpened =>
    obtain ⟨hConfined', hStays'⟩ := confined_of_openSheet hConfined (hEntered _)
      (hTags _ hFiled) (openSheet_of_sheetOpened hOpened)
    exact ⟨hConfined', hStays'.addBody _ _, nofun⟩
  | failed hFiled hNew _ hFails =>
    obtain ⟨hConfined', hFailure⟩ := confined_of_openSheet hConfined (hEntered _)
      (hTags _ hFiled) hFails
    refine ⟨hConfined', hEntered _, fun failure hSame => ?_⟩
    cases hSame
    exact hFailure

/-- What every write into a sheet keeps, completing the sheets keeps. -/
theorem appends_keep {holds : FileTree → Prop} {sheets : List (Sheet Handle)}
    (content : Sheet Handle → ByteArray)
    (hStep : ∀ s ∈ sheets, ∀ t, holds t → holds (t.append s.handle (content s)))
    (hHolds : holds t) :
    holds ((sheets.forM fun s => Disk.append s.handle (content s) : StateM FileTree Unit) t).2 := by
  induction sheets generalizing t with
  | nil => exact hHolds
  | cons s rest ih =>
    rw [List.forall_mem_cons] at hStep
    exact ih hStep.2 (hStep.1 t hHolds)

end Enumeration

section

variable {base t t' : FileTree} {written : Path → Prop} {r₀ : Reconciler Handle}

/-- However an emission ends, the changes stay with the paths of its tags. -/
theorem confined_of_emit {events : List Event} {s s' : Emitted Handle} {failure? : Option Failure}
    (hTags : ∀ q ∈ events.filterMap Event.request?, ∀ tag, q.filingTag? = some tag →
      written (r₀.pathFor tag))
    (hConfined : Confined base written t) (hStays : StaysWithin base written r₀ s.reconciler)
    (h : (emit s events : StateM FileTree _) t = ((s', failure?), t')) :
    Confined base written t' ∧ StaysWithin base written r₀ s'.reconciler ∧
      ∀ failure ∈ failure?, ∃ p e, failure = .onDisk p e := by
  -- only enumerations touch the reconciler and the tree
  induction events generalizing s t with
  | nil =>
    cases h
    exact ⟨hConfined, hStays, nofun⟩
  | cons event rest ih =>
    cases event with
    | report flaw =>
      rw [emit_cons_of_carried (.report flaw s t)] at h
      exact ih hTags hConfined (by exact hStays) h
    | entry =>
      rw [emit_cons_of_carried (.entry s t)] at h
      exact ih hTags hConfined (by exact hStays) h
    | block =>
      rw [emit_cons_of_carried (.block s t)] at h
      exact ih hTags hConfined (by exact hStays) h
    | routine =>
      rw [emit_cons_of_carried (.routine s t)] at h
      exact ih hTags hConfined (by exact hStays) h
    | enumeration q =>
      have hRequests : (Event.enumeration q :: rest).filterMap Event.request? =
          q :: rest.filterMap Event.request? := rfl
      rw [hRequests, List.forall_mem_cons] at hTags
      rcases hAnswer : (s.reconciler.reconcile q : StateM FileTree _) t with ⟨⟨outcome, r⟩, t₁⟩
      have hEmit : (emit s (.enumeration q :: rest) : StateM FileTree _) t = _ :=
        bind_apply hAnswer
      rw [hEmit] at h
      obtain ⟨hConfined', hStays', hFailure⟩ :=
        confined_of_reconcile hConfined hStays hTags.1 hAnswer
      cases hResult : outcome.result with
      | error failure =>
        simp only [hResult] at h
        cases h
        refine ⟨hConfined', hStays', fun failure' hSame => ?_⟩
        cases hSame
        exact hFailure failure hResult
      | ok filed =>
        simp only [hResult] at h
        exact ih hTags.2 hConfined' hStays' h

end

/-! ## The steps of a run -/

variable {c : Configuration} {r : Registry} {t t' base : FileTree} {written : Path → Prop}
  {output : Path}

theorem keeps_dumpStep
    (hDump : c.output.dump = true → written (Dump.path output c.output.dumpFormat)) :
    Keeps (Confined base written) (dumpStep c r output) fun _ => True := by
  rw [dumpStep]
  split
  · rename_i hWanted
    rw [map_eq_pure_bind, writeDump]
    -- only the replacement touches the tree
    have hReplace : Keeps (Confined base written)
        (Disk.attempt (Dump.path output c.output.dumpFormat)
          (Disk.replace (Dump.path output c.output.dumpFormat)
            (Dump.render r c.output.dumpFormat).toUTF8)) fun _ => True :=
      Keeps.attempt fun t result t' hConfined hReplace =>
        hConfined.replace (hDump hWanted) hReplace
    have hPath : Keeps (Confined base written)
        (pure (Dump.path output c.output.dumpFormat)) fun _ => True := .pure trivial
    exact (hReplace.bind fun _ _ => hPath).bind fun _ _ => .pure trivial
  · exact .pure trivial

theorem keeps_writeModule {r₀ : Reconciler Handle} (hOutput : written output)
    (hTags : ∀ tag ∈ r.filedTags, written (r₀.pathFor tag))
    (hBeside : Reconciler.beside output = .ok r₀) :
    Keeps (Confined base written) (writeModule c r output)
      fun s => StaysWithin base written r₀ s.reconciler := by
  intro t result t' hConfined hRun
  obtain ⟨stem, dir, -, -, hStart⟩ := exists_of_beside hBeside
  rcases hEmit : (emit (.start r₀) (emission c r) : StateM FileTree _) t with ⟨⟨s, failure?⟩, t₁⟩
  obtain ⟨hEmitted, hStays, hFailure⟩ := confined_of_emit (fun q hMem tag hFiled =>
    hTags tag (mem_filedTags.2 ⟨q, requests_emission c r ▸ hMem, hFiled⟩)) hConfined
    ⟨rfl, rfl, by rw [hStart]; nofun⟩ hEmit
  -- when the run fails from here on, the sheets are written as far as they got
  have hStopped : ∀ failure {t}, Confined base written t →
      Confined base written (stopped s.reconciler failure t) := by
    intro failure t hHere
    rw [stopped]
    split
    · exact hHere
    · exact appends_keep _ (fun s hMem t hHere => hHere.append (hStays.sheets s hMem) _) hHere
  cases failure? with
  | some failure =>
    cases (writeModule_of_failed hBeside hEmit).symm.trans hRun
    exact ⟨hStopped failure hEmitted, hFailure failure rfl⟩
  | none =>
    rcases hReplace : (Disk.replace output (Module.ofRegistry c r).render.toUTF8 :
      StateM FileTree _) t₁ with ⟨replaced, t₂⟩
    have hReplaced := hEmitted.replace hOutput hReplace
    cases replaced with
    | error e =>
      cases (writeModule_of_unwritten hBeside hEmit hReplace).symm.trans hRun
      exact ⟨hStopped _ hReplaced, output, e, rfl⟩
    | ok =>
      cases (writeModule_of_emitted hBeside hEmit hReplace).symm.trans hRun
      exact ⟨hReplaced, hStays⟩

/-- When the module is written, a run reads the files back and completes the sheets. -/
theorem keeps_completion {holds : FileTree → Prop} {s : Emitted Handle} (dump? : Option Path)
    (hFinish : ∀ t, holds t → holds ((s.reconciler.finish : StateM FileTree (List Path)) t).2) :
    Keeps holds (do
      let registration ← Artifact.ofFile .registration output
      let enumPaths ← (s.reconciler.finish : StateM FileTree (List Path))
      let enums ← enumPaths.mapM (Artifact.ofFile .enumeration)
      let dumps ← dump?.toList.mapM (Artifact.ofFile .dump)
      return (⟨s.counts, s.reconciler.size, registration :: enums ++ dumps, s.flaws⟩ : Report))
      fun _ => True :=
  (keeps_ofFile _ _).bind fun _ _ => (Keeps.lift hFinish).bind fun _ _ =>
    (keeps_mapM_ofFile _ _).bind fun _ _ => (keeps_mapM_ofFile _ _).bind fun _ _ => .pure trivial

theorem keeps_completeRun {r₀ : Reconciler Handle} (hOutput : written output)
    (hTags : ∀ tag ∈ r.filedTags, written (r₀.pathFor tag))
    (hBeside : Reconciler.beside output = .ok r₀) (dump? : Option Path) :
    Keeps (Confined base written) (completeRun c r output dump?) fun _ => True := by
  refine (keeps_writeModule hOutput hTags hBeside).bind fun s hStays => ?_
  exact keeps_completion dump? fun t hConfined =>
    appends_keep _ (fun s hMem t hHere => hHere.append (hStays.sheets s hMem) _) hConfined

/-! ## A run -/

/-- The paths that a run writes to: its output, the dump if one is wanted, and the files of the tags
of the registry. -/
inductive WritesTo (c : Configuration) (r : Registry) (t : FileTree) : Path → Prop
  | output : WritesTo c r t (c.outputIn t)
  | dump (wanted : c.output.dump = true) :
    WritesTo c r t (Dump.path (c.outputIn t) c.output.dumpFormat)
  | sheet {r₀ : Reconciler Handle} {tag : String}
    (beside : Reconciler.beside (c.outputIn t) = .ok r₀) (filed : tag ∈ r.filedTags) :
    WritesTo c r t (r₀.pathFor tag)

/-- How a run can end: without a name for its output at once, and otherwise with the directories
made and with changes at the paths of the run only. Once it has a name, it fails only if an
operation of the disk does. -/
theorem generate_cases {result : Except Failure Report}
    (hRun : (generate c r : ExceptT Failure (StateM FileTree) Report).run t = (result, t')) :
    ((c.outputIn t).stem? = none ∧ result = .error (.invalidPath (c.outputIn t)) ∧ t' = t) ∨
    ∃ stem dir readied, (c.outputIn t).stem? = some stem ∧ (c.outputIn t).parent? = some dir ∧
      FurnishedBy t dir.ancestors readied ∧
      (t' = readied ∨
        readied.isDirectory dir = true ∧ Confined readied (WritesTo c r t) t') ∧
      ∀ failure, result = .error failure → ∃ p e, failure = .onDisk p e := by
  cases hStem : (c.outputIn t).stem? with
  | none =>
    cases (generate_run_of_nameless hStem).symm.trans hRun
    exact .inl ⟨rfl, rfl, rfl⟩
  | some stem =>
    obtain ⟨dir, hParent⟩ := Path.exists_parent hStem
    obtain ⟨name, hName, -⟩ := Option.map_eq_some_iff.1 hStem
    -- seen from the working directory, the output is never in the directory without a text
    have hText : dir.text ≠ "" := by
      have hAbsolute := (Path.endsIn_parent hName hParent).absolute
      rw [isAbsolute_outputIn] at hAbsolute
      intro hEmpty
      rw [Path.isAbsolute, hEmpty] at hAbsolute
      cases hAbsolute
    rcases hMake : (Disk.makeDirectories dir : StateM FileTree _) t with ⟨made, readied⟩
    obtain ⟨hFurnished, hThere⟩ := furnishedBy_of_makeDirectories hText hMake
    refine .inr ⟨stem, dir, readied, rfl, hParent, hFurnished, ?_⟩
    rw [generate_run_of_named hStem hParent] at hRun
    cases made with
    | error e =>
      rw [run_bind_error (run_attempt_error hMake)] at hRun
      cases hRun
      refine ⟨.inl rfl, fun failure hSame => ?_⟩
      cases hSame
      exact ⟨dir, e, rfl⟩
    | ok =>
      rw [run_bind_ok (run_attempt_ok hMake)] at hRun
      have hBeside : Reconciler.beside (c.outputIn t) =
          .ok (⟨.empty, (c.outputIn t).parent?.getD ⟨""⟩, stem, []⟩ : Reconciler Handle) := by
        rw [Reconciler.beside, hStem]
      have hKeeps : Keeps (Confined readied (WritesTo c r t))
          (dumpStep c r (c.outputIn t) >>= completeRun c r (c.outputIn t)) fun _ => True :=
        (keeps_dumpStep .dump).bind fun dump? _ =>
          keeps_completeRun .output (fun tag hFiled => .sheet hBeside hFiled) hBeside dump?
      obtain ⟨hConfined, hEnd⟩ := hKeeps readied result t' (.refl _ _) hRun
      refine ⟨.inr ⟨hThere rfl, hConfined⟩, fun failure hSame => ?_⟩
      rw [hSame] at hEnd
      exact hEnd

/-- A run writes at the location: in the directory `dir` of its output, under the name of the output
or of the dump, or where the path of a tag's file leads. Without a slash in the tag that is in the
directory too. -/
inductive WritesAt (c : Configuration) (r : Registry) (output dir : Path) (t : FileTree)
    (l : Location) : Prop
  | output {name : String} (named : output.fileName? = some name)
    (there : t.InDirectory dir name l)
  | dump {name : String} (wanted : c.output.dump = true)
    (named : (Dump.path output c.output.dumpFormat).fileName? = some name)
    (there : t.InDirectory dir name l)
  | sheet {stem tag : String} (named : output.stem? = some stem) (filed : tag ∈ r.filedTags)
    (leads : t.Designates (dir.join ⟨stem ++ tag ++ "Enum.rs"⟩) l)
    (there : '/' ∉ tag.toList → t.InDirectory dir (stem ++ tag ++ "Enum.rs") l)

/-- The file of a tag without a slash has its name behind the directory. -/
theorem endsIn_pathFor {r₀ : Reconciler Handle} (hBeside : Reconciler.beside output = .ok r₀)
    {tag : String} (hTag : '/' ∉ tag.toList) :
    (r₀.pathFor tag).EndsIn r₀.directory (r₀.fileName tag) ∧
      Path.isFiller (r₀.fileName tag) = false := by
  have hStem := Reconciler.PlainStem.ofBeside hBeside
  obtain ⟨first, others, hHead⟩ :=
    Reconciler.exists_headedBy hStem (Reconciler.tagSafe_of_plainStem hStem fun _ => hTag)
  have hUnslashed : '/' ∉ (r₀.fileName tag).toList := by
    rw [Reconciler.toList_fileName, List.mem_append, List.mem_append, not_or, not_or]
    exact ⟨hStem.unslashed, hTag, by decide⟩
  obtain ⟨rfl, rfl⟩ := hHead.eq_of_notMem hUnslashed
  obtain ⟨-, -, -, hAbsolute⟩ := exists_segments_join (p := r₀.directory) hHead.relative
  refine ⟨⟨hAbsolute, 0, 0, ?_⟩, by simp [Path.isFiller, hHead.first_ne_empty, hHead.first_ne_dot]⟩
  rw [Reconciler.pathFor, ← Reconciler.fileName, route_join hHead.relative, hHead.route]
  rfl

/-- **Where a run writes.** Whether a run succeeds or fails, it first makes directories, each of
them the parent of the output or what that is in. Then it changes files only, in the directory of
the output: under the names of the output and of the dump, if one is wanted, and where the paths
of the tags' files lead, which is in the directory too unless there is a slash in the tag. A link
of such a name is followed. -/
theorem generate_footprint (c : Configuration) (r : Registry) (t : FileTree) :
    ∃ readied, FurnishedBy t ((c.outputIn t).parent?.toList.flatMap Path.ancestors) readied ∧
      ∀ l, ((generate c r : ExceptT Failure (StateM FileTree) Report).run t).2.node? l =
          readied.node? l ∨
        (((generate c r : ExceptT Failure (StateM FileTree) Report).run t).2.FileOrFree l ∧
          readied.node? l ≠ some .directory ∧
          ∃ dir, (c.outputIn t).parent? = some dir ∧
            WritesAt c r (c.outputIn t) dir readied l) := by
  rcases hRun : (generate c r : ExceptT Failure (StateM FileTree) Report).run t with ⟨result, t'⟩
  rcases generate_cases hRun with
    ⟨-, -, rfl⟩ | ⟨stem, dir, readied, hStem, hParent, hFurnished, hEnd, -⟩
  · exact ⟨t', .refl t' _, fun l => .inl rfl⟩
  refine ⟨readied, by simpa [hParent] using hFurnished, fun l => ?_⟩
  rcases hEnd with rfl | ⟨hThere, hConfined⟩
  · exact .inl rfl
  refine (hConfined.node l).imp_right fun ⟨hAfter, hEntry, p, hWrites, hLeads⟩ =>
    ⟨hAfter, hEntry, dir, hParent, ?_⟩
  obtain ⟨name, hName, -⟩ := Option.map_eq_some_iff.1 hStem
  have hOutput := Path.endsIn_parent hName hParent
  have hAbsolute : dir.isAbsolute = true := by
    rw [← hOutput.absolute]
    exact isAbsolute_outputIn c t
  -- each path of the run ends in a name behind `dir`; that of a tag may have slashes in between
  cases hWrites with
  | output =>
    obtain ⟨-, hIn⟩ := inDirectory_of_designates hOutput (Path.plain_of_fileName? hName).1
      hAbsolute hThere hLeads hEntry
    exact .output hName hIn
  | dump wanted =>
    obtain ⟨dumpName, hEnds, hNamed⟩ := Path.endsIn_withExtension hName hParent
      (show '/' ∉ c.output.dumpFormat.extension.toList by cases c.output.dumpFormat <;> decide)
    obtain ⟨hUp, hIn⟩ :=
      inDirectory_of_designates hEnds hNamed hAbsolute hThere hLeads hEntry
    exact .dump wanted (hEnds.fileName? hNamed hUp) hIn
  | @sheet r₀ tag beside filed =>
    have hSheet : ∀ hTag : '/' ∉ tag.toList, _ := fun hTag => endsIn_pathFor beside hTag
    obtain ⟨stem', dir', hStem', hParent', rfl⟩ := exists_of_beside beside
    obtain rfl : stem = stem' := Option.some.inj (hStem.symm.trans hStem')
    obtain rfl : dir = dir' := Option.some.inj (hParent.symm.trans hParent')
    refine .sheet hStem filed hLeads fun hTag => ?_
    obtain ⟨hEnds, hNamed⟩ := hSheet hTag
    exact (inDirectory_of_designates hEnds hNamed hAbsolute hThere hLeads hEntry).2

/-! ## Out of the directory -/

/-- A file that the emission made stays, if the output does not lead to it. -/
theorem hasFile_of_completeRun {r₀ : Reconciler Handle} {s : Emitted Handle} {l : Location}
    (hBeside : Reconciler.beside output = .ok r₀)
    (hEmit : (emit (.start r₀) (emission c r) : StateM FileTree _) t = ((s, none), t'))
    (hFile : t'.HasFile l) (hApart : ¬ t'.Designates output l) (dump? : Option Path) :
    ((completeRun c r output dump?).run t).2.HasFile l := by
  rcases hReplace : (Disk.replace output (Module.ofRegistry c r).render.toUTF8 :
    StateM FileTree _) t' with ⟨replaced, written⟩
  -- writing the module changes only what the output leads to
  have hWritten : written.HasFile l := by
    have hConfined := (Confined.refl t' (· = output)).replace rfl hReplace
    rcases hConfined.node l with hSame | ⟨-, -, p, rfl, hLeads⟩
    · rwa [HasFile, hSame]
    · exact absurd hLeads hApart
  -- text is appended to files, which stay files
  have hAppends : ∀ (content : Sheet Handle → ByteArray) {t : FileTree}, t.HasFile l →
      ((s.reconciler.sheets.forM fun s => Disk.append s.handle (content s) :
        StateM FileTree Unit) t).2.HasFile l :=
    fun content _ hHere => appends_keep content
      (fun s _ t hThere => (append_keepsFiles t s.handle (content s)).files l hThere) hHere
  -- the sheets are completed even if the module could not be written
  cases replaced with
  | error e =>
    rw [completeRun, run_bind_error (writeModule_of_unwritten hBeside hEmit hReplace), stopped]
    split
    · exact hWritten
    · exact hAppends _ hWritten
  | ok =>
    rw [completeRun, run_bind_ok (writeModule_of_emitted hBeside hEmit hReplace)]
    have hFinish : ∀ t, t.HasFile l →
        ((s.reconciler.finish : StateM FileTree (List Path)) t).2.HasFile l :=
      fun t hHere => hAppends _ hHere
    exact (keeps_completion dump? hFinish written _ _ hWritten rfl).1

/-- A project with a directory that has the stem of the output at the start of its name. -/
def branchedProject : FileTree :=
  ⟨[(["project"], .directory), (["project", "ExporterInitializer_PsetDefa"], .directory)], 0,
    ["project"]⟩

/-- The file of the tag `a/b` is in that directory. -/
theorem names_branchedProject :
    branchedProject.Names (besideExporter.pathFor "a/b") ["project", "ExporterInitializer_PsetDefa"]
      "bEnum.rs" := by
  have hPath : besideExporter.pathFor "a/b" =
      ⟨"/project/ExporterInitializer_PsetDefa/bEnum.rs"⟩ := by decide
  refine names_of_vacant ?_ (by rw [hPath]; decide)
  rw [hPath, resolve_of_text (by decide) (by decide) (by decide),
    show endsInSlash ⟨"/project/ExporterInitializer_PsetDefa/bEnum.rs"⟩ = false by decide,
    show branchedProject.startOf ⟨"/project/ExporterInitializer_PsetDefa/bEnum.rs"⟩ = [] by decide,
    show route ⟨"/project/ExporterInitializer_PsetDefa/bEnum.rs"⟩ =
      ["project", "ExporterInitializer_PsetDefa", "bEnum.rs"] by decide,
    walk_directory ⟨by decide, by decide, by decide⟩ rfl fun _ => .inl rfl,
    walk_directory ⟨by decide, by decide, by decide⟩ rfl fun _ => .inl rfl,
    walk_entry ⟨by decide, by decide, by decide⟩ fun _ => .inl rfl]
  rfl

/-- A document whose version holds a slash makes a file that is neither the output nor anything
else in the directory of the output. -/
theorem slash_in_version_leaves_directory :
    ({} : Configuration).problems = [] ∧
      (Configuration.outputIn {} branchedProject).parent? = some ⟨"/project"⟩ ∧
      branchedProject.resolve .followed ⟨"/project"⟩ = .ok (.occupied ["project"]) ∧
      ∃ l, (∀ name, l ≠ ["project"] ++ [name]) ∧ branchedProject.node? l = none ∧
        ((generate {} slashRegistry : ExceptT Failure (StateM FileTree) Report).run
          branchedProject).2.HasFile l := by
  have hOutput : Configuration.outputIn {} branchedProject =
      ⟨"/project/ExporterInitializer_PsetDef.rs"⟩ := by decide
  have hParent : (Configuration.outputIn {} branchedProject).parent? = some ⟨"/project"⟩ := by
    decide
  have hProject : branchedProject.resolve .followed ⟨"/project"⟩ = .ok (.occupied ["project"]) := by
    rw [resolve_of_text (by decide) (by decide) (by decide),
      show endsInSlash ⟨"/project"⟩ = false by decide,
      show branchedProject.startOf ⟨"/project"⟩ = [] by decide,
      show route ⟨"/project"⟩ = ["project"] by decide,
      walk_directory ⟨by decide, by decide, by decide⟩ rfl fun _ => .inl rfl]
    exact walk_nil
  refine ⟨Configuration.problems_default, hParent, hProject,
    ["project", "ExporterInitializer_PsetDefa", "bEnum.rs"], by simp, rfl, ?_⟩
  have hBeside : Reconciler.beside (Configuration.outputIn {} branchedProject) =
      .ok besideExporter := by
    rw [hOutput]
    rfl
  -- the only request opens the sheet of its tag
  obtain ⟨q, hRequests, hFiled, hEnds⟩ := requests_slashRegistry
  have hNew : besideExporter.ledger.find? ⟨"a/b", q.name⟩ = none := rfl
  have hFlat : branchedProject.FlatDirectory ["project", "ExporterInitializer_PsetDefa"] :=
    flatDirectory_of_nodes rfl (by decide)
  obtain ⟨r, t', hStep, -, -, -, hChange, hNode, -⟩ :=
    reconcile_of_names hFiled hNew hEnds rfl names_branchedProject hFlat
  have hAll : (besideExporter.reconcileAll [q] : StateM FileTree _) branchedProject = _ :=
    reconcileAll_cons hStep
  rw [← hRequests, ← requests_emission {} slashRegistry] at hAll
  obtain ⟨s, hEmit, -⟩ := emit_of_reconcileAll (s := .start besideExporter) _ hAll (by
    rintro outcome hMem
    obtain rfl := List.mem_singleton.1 hMem
    rfl)
  have hApart : ¬ t'.Designates ⟨"/project/ExporterInitializer_PsetDef.rs"⟩
      ["project", "ExporterInitializer_PsetDefa", "bEnum.rs"] := by
    rintro ⟨last, spot, -, hResolve, hSpot⟩
    have hUnlinked : t'.Unlinked :=
      (unlinked_of_nodes (by decide) : branchedProject.Unlinked).ofFrame hChange.sameFrame
    rw [hUnlinked.location_of_resolve hResolve, hChange.workingDirectory] at hSpot
    exact absurd hSpot (by decide)
  have hUndumped : (dumpStep {} slashRegistry ⟨"/project/ExporterInitializer_PsetDef.rs"⟩).run
      branchedProject = (.ok none, branchedProject) := rfl
  rw [generate_run_eq hOutput (by decide) (hOutput ▸ hParent)
    (makeDirectories_of_directory hProject rfl) hUndumped]
  exact hasFile_of_completeRun (hOutput ▸ hBeside) hEmit ⟨_, _, hNode⟩ hApart none

end PropertySets
