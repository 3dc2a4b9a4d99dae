import PropertySets.Proofs.Disk.Extensions
import PropertySets.Proofs.Generation.Footprint
import PropertySets.Proofs.Generation.Mounting

/-!
# Artifacts that keep apart

The files of a run get their names in three ways: the output has the name that is configured, the
dump has it with another extension, and the file of a tag is named after the stem and the tag. The
file of a tag has a name of its own, but the output can have the extension of the dump. Both are
written to one path then, and the module takes the place of the dump.

* `Reconciler.steps_pathFor_ne_output`, `Reconciler.steps_pathFor_ne` — the path of a tag's file is
  not that of the output or the dump.
* `DumpName`, `Course.exists_dumpName` — the name of the dump.
* `Course.nodup_steps_iff` — when two artifacts have one path.
* `fileStays_of_emit`, `Course.read_dump` — what is written after the dump lets it be.
* `artifacts_apart` — when the artifacts of a run have different paths, and what is at those paths.
* `text_output_loses_dump` — an output that has the extension of its dump.
-/

namespace PropertySets

open Enumeration FileTree Registration

variable {c : Configuration} {r : Registry} {t t' : FileTree} {report : Report}

/-! ## The names of the artifacts -/

/-- The name of a tag's file has an extension of its own. -/
theorem splitName_sheet (piece : String) :
    Path.splitName (piece ++ "Enum.rs") = (piece ++ "Enum", some "rs") := by
  have hSpelled : piece ++ "Enum" ++ "." ++ "rs" = piece ++ "Enum.rs" := by
    rw [String.append_assoc, String.append_assoc]
    rfl
  rw [← hSpelled]
  exact Path.splitName_of_dot (by simp) (by decide)

theorem isFiller_sheet (piece : String) : Path.isFiller (piece ++ "Enum.rs") = false := by
  rw [← String.ofList_toList (s := piece ++ "Enum.rs")]
  refine Path.isFiller_of_length ?_
  rw [String.toList_append, List.length_append, show "Enum.rs".toList.length = 7 by decide]
  omega

/-- No dump has that extension. -/
theorem sheet_ne_dump {stem : String} (hStem : stem ≠ "") (piece : String) (format : DumpFormat) :
    piece ++ "Enum.rs" ≠ stem ++ "." ++ format.extension := by
  intro hSame
  have hDump : Path.splitName (stem ++ "." ++ format.extension) = (stem, some format.extension) :=
    Path.splitName_of_dot hStem (by cases format <;> decide)
  rw [← hSame, splitName_sheet, Prod.mk.injEq, Option.some.injEq] at hDump
  cases format with
  | text => exact absurd hDump.2 (by decide)
  | json => exact absurd hDump.2 (by decide)

namespace Enumeration.Reconciler

variable {H : Type} {r₀ : Reconciler H} {output : Path} {name : String}

theorem isAbsolute_fileName (hStem : PlainStem r₀) (tag : String) :
    (Path.mk (r₀.fileName tag)).isAbsolute = false := by
  obtain ⟨first, others, hChars⟩ := List.exists_cons_of_ne_nil
    fun hNil => hStem.ne_empty (String.toList_eq_nil_iff.1 hNil)
  have hFirst : first ≠ '/' := by
    rintro rfl
    exact hStem.unslashed (hChars ▸ List.mem_cons_self)
  rw [Path.isAbsolute, toList_fileName, hChars]
  simpa using hFirst

/-- The name of a tag's file can come to more than one step, but never to the name of the output. -/
theorem steps_fileName_ne (hBeside : beside output = .ok r₀) (hName : output.fileName? = some name)
    (tag : String) : (Path.mk (r₀.fileName tag)).steps ≠ [name] := by
  intro hSteps
  have hStem : r₀.stem = (Path.splitName name).1 := by
    rw [beside, Path.stem?, hName] at hBeside
    obtain rfl := Except.ok.inj hBeside
    rfl
  obtain ⟨front, piece, hSegments⟩ := Path.exists_segments_of_text
    (p := Path.mk (r₀.fileName tag)) rfl (show '/' ∉ "Enum.rs".toList by decide)
  rw [Path.steps_eq, hSegments, List.filter_append,
    List.filter_cons_of_pos (by rw [isFiller_sheet]; rfl), List.filter_nil] at hSteps
  obtain ⟨hFront, hSame⟩ : front.filter (fun s => !Path.isFiller s) = [] ∧
      piece ++ "Enum.rs" = name := by
    rcases List.append_eq_singleton_iff.1 hSteps with ⟨hNil, hLast⟩ | ⟨-, hNil⟩
    · exact ⟨hNil, (List.cons.inj hLast).1⟩
    · cases hNil
  cases front with
  | nil =>
    -- then the name is all there is
    have hText := Path.toList_text (p := Path.mk (r₀.fileName tag))
      (show _ = [].reverse ++ (piece ++ "Enum.rs") :: [] from hSegments)
    refine fileName_ne_of_beside hBeside hName tag ?_
    rw [← String.toList_inj, ← hSame, hText]
    simp [Path.spellBehind]
  | cons first others =>
    -- the first segment starts with the stem, which is too long for dots
    obtain ⟨head, pieces, -, hHead⟩ := exists_segments_fileName (.ofBeside hBeside) tag
    have hFirst : String.ofList (r₀.stem.toList ++ head) = first :=
      (List.cons.inj (hHead.symm.trans hSegments)).1
    have hFiller : Path.isFiller first = true := by
      simpa using List.filter_eq_nil_iff.1 hFront first List.mem_cons_self
    have hLong : 2 ≤ (r₀.stem.toList ++ head).length := by
      rw [hStem, ← hSame, splitName_sheet, String.toList_append, List.length_append,
        List.length_append, show "Enum".toList.length = 4 by decide]
      omega
    rw [← hFirst, Path.isFiller_of_length hLong] at hFiller
    cases hFiller

/-- The path of a tag's file goes on from the directory as the name of the file does. -/
theorem steps_pathFor (hStem : PlainStem r₀) (tag : String) :
    (r₀.pathFor tag).steps = r₀.directory.steps ++ (Path.mk (r₀.fileName tag)).steps :=
  Path.steps_join (isAbsolute_fileName hStem tag)

theorem steps_pathFor_ne_output (hBeside : beside output = .ok r₀)
    (hName : output.fileName? = some name) (hEnds : output.EndsIn r₀.directory name)
    (tag : String) : (r₀.pathFor tag).steps ≠ output.steps := by
  rw [steps_pathFor (.ofBeside hBeside),
    hEnds.steps (Path.ne_of_not_filler (Path.plain_of_fileName? hName).1).2, ne_eq,
    List.append_cancel_left_eq]
  exact steps_fileName_ne hBeside hName tag

/-- The last step to a tag's file ends as the names of such files do. -/
theorem exists_route_pathFor (r₀ : Reconciler H) (tag : String) :
    ∃ front piece, route (r₀.pathFor tag) = front ++ [piece ++ "Enum.rs"] := by
  obtain ⟨front, piece, hSegments⟩ := exists_segments_pathFor r₀ tag
  refine ⟨front.filter (· ≠ ""), piece, ?_⟩
  rw [route, hSegments, List.filter_append, List.filter_cons_of_pos (by simp), List.filter_nil]

/-- A path that ends in another name is not that of a tag's file. -/
theorem steps_pathFor_ne {p dir : Path} (hEnds : p.EndsIn dir name) (hDot : name ≠ ".")
    (hName : ∀ piece, name ≠ piece ++ "Enum.rs") (r₀ : Reconciler H) (tag : String) :
    (r₀.pathFor tag).steps ≠ p.steps := by
  obtain ⟨front, piece, hRoute⟩ := exists_route_pathFor r₀ tag
  have hSheet := (Path.ne_of_not_filler (isFiller_sheet piece)).2
  rw [hEnds.steps hDot, Path.steps, hRoute, List.filter_append,
    List.filter_cons_of_pos (by simpa using hSheet), List.filter_nil]
  intro hSame
  exact hName piece (List.cons.inj (List.append_inj_right' hSame rfl)).1.symm

end Enumeration.Reconciler

/-- Tags without a slash have files of their own. -/
theorem tag_eq_of_steps {r₀ : Reconciler Handle} {output : Path}
    (hBeside : Reconciler.beside output = .ok r₀) {tag tag' : String} (hTag : '/' ∉ tag.toList)
    (hTag' : '/' ∉ tag'.toList) (hSame : (r₀.pathFor tag).steps = (r₀.pathFor tag').steps) :
    tag = tag' := by
  obtain ⟨hEnds, hNamed⟩ := endsIn_pathFor hBeside hTag
  obtain ⟨hEnds', hNamed'⟩ := endsIn_pathFor hBeside hTag'
  rw [hEnds.steps (Path.ne_of_not_filler hNamed).2, hEnds'.steps (Path.ne_of_not_filler hNamed').2,
    List.append_cancel_left_eq] at hSame
  exact Reconciler.fileName_injective (List.cons.inj hSame).1

/-- The name of the dump of an output, behind the directory. -/
structure DumpName (output dir : Path) (format : DumpFormat) (name : String) : Prop where
  endsIn : (Dump.path output format).EndsIn dir name
  last : (route (Dump.path output format)).getLast? = some name
  notDot : name ≠ "."
  notSheet : ∀ piece, name ≠ piece ++ "Enum.rs"
  isOutput : output.fileName? = some name ↔ output.extension? = some format.extension

namespace Course

/-- The output ends in a name behind its directory, with nothing else behind it. -/
theorem exists_name (course : Course c r t report t') :
    ∃ name before, (c.outputIn t).fileName? = some name ∧
      (route (c.outputIn t)).getLast? = some name ∧
      (c.outputIn t).significant = name :: before ∧
      (c.outputIn t).segments = before.reverse ++ [name] ∧
      (c.outputIn t).EndsIn course.reconciler.directory name := by
  obtain ⟨cleared, handle, created, hClear, hCreate, -⟩ := exists_of_replace course.replaces
  obtain ⟨hSlash, name, hLast, hDot, hUp⟩ := plain_of_create hClear hCreate
  obtain ⟨hName, before, hSignificant, hSegments⟩ :=
    Path.segments_of_plain hSlash hLast hDot hUp
  obtain ⟨stem, dir, -, hParent, hStart⟩ := exists_of_beside course.beside
  refine ⟨name, before, hName, hLast, hSignificant, hSegments, ?_⟩
  rw [hStart]
  exact Path.endsIn_parent hName hParent

/-- The dump has a name of its own behind the directory of the output, unless the output has its
extension. -/
theorem exists_dumpName (course : Course c r t report t') (hWanted : c.output.dump = true) :
    ∃ name, DumpName (c.outputIn t) course.reconciler.directory c.output.dumpFormat name := by
  obtain ⟨name, before, hName, -, hSignificant, hSegments, -⟩ := course.exists_name
  obtain ⟨stem, dir, hStem, hParent, hStart⟩ := exists_of_beside course.beside
  have hSplit : (Path.splitName name).1 = stem := by
    rw [Path.stem?, hName] at hStem
    exact Option.some.inj hStem
  -- a file was made at the path of the dump, so that is not the directory above
  have hReplace := replace_of_run_dumpStep hWanted course.dumpStep
  obtain ⟨cleared, handle, created, hClear, hCreate, -⟩ := exists_of_replace hReplace
  obtain ⟨-, last, hLast, hDot, hUp⟩ := plain_of_create hClear hCreate
  have hEnds := Path.endsIn_withExtension_of_plain hName hParent hSignificant hSegments
    (show '/' ∉ c.output.dumpFormat.extension.toList by cases c.output.dumpFormat <;> decide)
  rw [hStart]
  rcases hEnds with hEnds | hEnds
  · exact absurd (hEnds.eq_of_getLast? hLast hDot) hUp
  obtain rfl := hEnds.eq_of_getLast? hLast hDot
  refine ⟨_, hEnds, hLast, hDot, fun piece => ?_, ?_⟩
  · rw [hSplit]
    exact Ne.symm (sheet_ne_dump (Path.stem?_spec hStem).1 piece _)
  · rw [hName, Option.some.injEq, eq_comm, Path.dotted_splitName_iff, Path.extension?, hName]
    rfl

/-- The output, the files of the tags, and the dump: these are the artifacts, in this order. -/
theorem paths_eq (course : Course c r t report t') :
    ∃ tags : List String, tags.Nodup ∧ (∀ tag, tag ∈ tags ↔ tag ∈ r.filedTags) ∧
      report.artifacts.map (·.path) =
        c.outputIn t :: tags.map course.reconciler.pathFor ++ course.dump?.toList := by
  obtain ⟨tags, hAscending, hTags, hPaths⟩ := course.exists_tags
  refine ⟨tags, hAscending.imp fun hLess => ?_, hTags, ?_⟩
  · rintro rfl
    exact String.lt_irrefl _ hLess
  · rw [← hPaths, course.enumPaths_eq, ← course.readEnums.listed, ← course.readDumps.listed]
    have hArtifacts := congrArg (fun report => report.artifacts.map (·.path)) course.report_eq
    simpa only [List.map_append, List.map_cons] using hArtifacts

/-- Two artifacts have one path only if the output has the extension of the dump, or two tags have
one file. -/
theorem nodup_steps_iff (course : Course c r t report t') :
    (report.artifacts.map (·.path.steps)).Nodup ↔
      (c.output.dump = true →
        (c.outputIn t).extension? ≠ some c.output.dumpFormat.extension) ∧
      ∀ tag ∈ r.filedTags, ∀ tag' ∈ r.filedTags,
        (course.reconciler.pathFor tag).steps = (course.reconciler.pathFor tag').steps →
          tag = tag' := by
  obtain ⟨name, before, hName, -, -, -, hEnds⟩ := course.exists_name
  have hDot := (Path.ne_of_not_filler (Path.plain_of_fileName? hName).1).2
  obtain ⟨tags, hDistinct, hTags, hPaths⟩ := course.paths_eq
  have hSteps : report.artifacts.map (·.path.steps) =
      (c.outputIn t).steps :: (tags.map fun tag => (course.reconciler.pathFor tag).steps) ++
        course.dump?.toList.map Path.steps := by
    have hMapped := congrArg (List.map Path.steps) hPaths
    rw [List.map_map, List.map_append, List.map_cons, List.map_map] at hMapped
    exact hMapped
  -- the artifacts are the output, the files of the tags and the dump; first the files among
  -- themselves
  have hFiles : (tags.map fun tag => (course.reconciler.pathFor tag).steps).Nodup ↔
      ∀ tag ∈ r.filedTags, ∀ tag' ∈ r.filedTags,
        (course.reconciler.pathFor tag).steps = (course.reconciler.pathFor tag').steps →
          tag = tag' := by
    simp only [List.nodup_map_iff_inj_on hDistinct, hTags]
  -- no file of a tag is the output, which would have another stem then
  have hOutput : (c.outputIn t).steps ∉
      tags.map fun tag => (course.reconciler.pathFor tag).steps := by
    intro hMem
    obtain ⟨tag, -, hSame⟩ := List.mem_map.1 hMem
    exact Reconciler.steps_pathFor_ne_output course.beside hName hEnds tag hSame
  rw [hSteps, ← hFiles]
  rcases dumpStep_cases course.dumpStep with ⟨hWanted, hSome, -⟩ | ⟨hUnwanted, hNone, -⟩
  · obtain ⟨dumpName, hDump⟩ := course.exists_dumpName hWanted
    -- nor the dump, whose name does not end as those of the sheets
    have hApart : (Dump.path (c.outputIn t) c.output.dumpFormat).steps ∉
        tags.map fun tag => (course.reconciler.pathFor tag).steps := by
      intro hMem
      obtain ⟨tag, -, hSame⟩ := List.mem_map.1 hMem
      exact Reconciler.steps_pathFor_ne hDump.endsIn hDump.notDot hDump.notSheet _ tag hSame
    -- so only the dump and the output can have one path, if they have one extension
    have hOne : (Dump.path (c.outputIn t) c.output.dumpFormat).steps = (c.outputIn t).steps ↔
        (c.outputIn t).extension? = some c.output.dumpFormat.extension := by
      rw [← hDump.isOutput, hDump.endsIn.steps hDump.notDot, hEnds.steps hDot,
        List.append_cancel_left_eq, List.cons_eq_cons, and_iff_left rfl, hName, Option.some.injEq,
        eq_comm]
    rw [hSome, ne_eq, ← hOne, Option.toList_some, List.map_singleton, List.nodup_append',
      List.nodup_cons, List.disjoint_singleton, List.mem_cons]
    simp [hOutput, hApart, hWanted, and_comm]
  · rw [hNone, Option.toList_none, List.map_nil, List.append_nil, List.nodup_cons]
    simp [hOutput, hUnwanted]

end Course

/-! ## What the dump outlasts -/

section

variable {base : FileTree} {l : Location} {serial : Nat} {content : ByteArray}

/-- A file that has no such name as the files of tags have stays when a sheet is opened, and the
sheet writes to another file. -/
theorem fileStays_of_sheetOpened (hStays : FileStays base l serial content t)
    (hName : ∀ piece, l.getLast? ≠ some (piece ++ "Enum.rs")) {s opened : Reconciler Handle}
    (hSheets : ∀ sheet ∈ s.sheets, sheet.handle.serial ≠ serial) {tag : String}
    (hOpened : SheetOpened s tag t opened t') :
    FileStays base l serial content t' ∧
      ∀ sheet ∈ opened.sheets, sheet.handle.serial ≠ serial := by
  cases hOpened with
  | there hThere => exact ⟨hStays, hSheets⟩
  | created hNew hClear hCreate =>
    obtain ⟨front, piece, hRoute⟩ := Reconciler.exists_route_pathFor s tag
    -- the path of the sheet ends in another name
    have hOther : (route (s.pathFor tag)).getLast? ≠ l.getLast? := by
      rw [hRoute, List.getLast?_concat]
      exact Ne.symm (hName piece)
    obtain ⟨hStill, hSerial⟩ := hStays.create hClear hCreate hOther
    refine ⟨hStill, fun sheet hMem => ?_⟩
    rcases Reconciler.mem_insertSheet.1 hMem with rfl | hListed
    · exact hSerial
    · exact hSheets sheet hListed

/-- So it stays through an emission. -/
theorem fileStays_of_emit (hStays : FileStays base l serial content t)
    (hName : ∀ piece, l.getLast? ≠ some (piece ++ "Enum.rs")) {events : List Event}
    {s s' : Emitted Handle} (hSheets : ∀ sheet ∈ s.reconciler.sheets, sheet.handle.serial ≠ serial)
    (hEmit : (emit s events : StateM FileTree _) t = ((s', none), t')) :
    FileStays base l serial content t' ∧
      ∀ sheet ∈ s'.reconciler.sheets, sheet.handle.serial ≠ serial := by
  refine emit_preserves (fun _ s t => FileStays base l serial content t ∧
    ∀ sheet ∈ s.reconciler.sheets, sheet.handle.serial ≠ serial) ⟨hStays, hSheets⟩ ?_ hEmit
  rintro done event s t s₁ t₁ hCarried ⟨hStays, hSheets⟩
  -- only a new enumeration opens a sheet
  cases hCarried with
  | report | entry | block | routine => exact ⟨hStays, hSheets⟩
  | enumeration hAnswers hOk =>
    cases reconciled_of_run hAnswers with
    | unfiled hUnfiled => exact ⟨hStays, hSheets⟩
    | known hFiled hKnown => exact ⟨hStays, hSheets⟩
    | endless | failed => cases hOk
    | opened hFiled hNew _ hOpened =>
      obtain ⟨hStill, hOthers⟩ := fileStays_of_sheetOpened hStays hName (by exact hSheets) hOpened
      refine ⟨hStill, fun sheet hMem => ?_⟩
      rw [Reconciler.sheets_addBody] at hMem
      obtain ⟨sheet', hListed, rfl⟩ := List.mem_map.1 hMem
      exact hOthers sheet' hListed

theorem fileStays_of_finish (hStays : FileStays base l serial content t) {s : Reconciler Handle}
    (hSheets : ∀ sheet ∈ s.sheets, sheet.handle.serial ≠ serial) {paths : List Path}
    (hFinish : (s.finish : StateM FileTree _) t = (paths, t')) :
    FileStays base l serial content t' := by
  obtain rfl : _ = t' := congrArg Prod.snd hFinish
  exact appends_keep (fun sheet => (sheet.text ++ sheetFoot).toUTF8)
    (fun sheet hMem t hHere => hHere.append (hSheets sheet hMem) _) hStays

end

/-- The dump is read as it was written, if the output does not have its extension and its path was
no link that leads nowhere. -/
theorem Course.read_dump (course : Course c r t report t') (hWanted : c.output.dump = true)
    (hApart : (c.outputIn t).extension? ≠ some c.output.dumpFormat.extension)
    (hDangles : ¬ course.readied.Dangles (Dump.path (c.outputIn t) c.output.dumpFormat)) :
    t'.read (Dump.path (c.outputIn t) c.output.dumpFormat) =
      .ok (Dump.render r c.output.dumpFormat).toUTF8 := by
  obtain ⟨name, before, hName, hOutput, -, -, -⟩ := course.exists_name
  obtain ⟨dumpName, hDump⟩ := course.exists_dumpName hWanted
  obtain ⟨base, d, last, hVacant, hLast, hStays⟩ :=
    fileStays_of_replace (replace_of_run_dumpStep hWanted course.dumpStep) hDangles
  obtain rfl := Option.some.inj (hDump.last.symm.trans hLast)
  -- neither a sheet nor the module has the name of the dump
  have hSheet : ∀ piece, (d ++ [dumpName]).getLast? ≠ some (piece ++ "Enum.rs") := by
    intro piece hSame
    rw [List.getLast?_concat] at hSame
    exact hDump.notSheet piece (Option.some.inj hSame)
  have hModule : (route (c.outputIn t)).getLast? ≠ (d ++ [dumpName]).getLast? := by
    rw [hOutput, List.getLast?_concat, ← hName, ne_eq, hDump.isOutput]
    exact hApart
  have hUnopened : ∀ sheet ∈ (Emitted.start course.reconciler).reconciler.sheets,
      sheet.handle.serial ≠ course.readied.nextSerial := by
    obtain ⟨stem, dir, -, -, hStart⟩ := exists_of_beside course.beside
    rw [hStart]
    nofun
  obtain ⟨hFiled, hSheets⟩ := fileStays_of_emit hStays hSheet hUnopened course.emits
  have hWritten := hFiled.replace course.replaces hModule
  have hEnd := fileStays_of_finish hWritten hSheets course.finishes
  obtain ⟨found, hRead⟩ : ∃ found,
      t'.read (Dump.path (c.outputIn t) c.output.dumpFormat) = .ok found := by
    rcases dumpStep_cases course.dumpStep with ⟨-, hSome, -⟩ | ⟨hUnwanted, -, -⟩
    · have hBack := course.readDumps
      rw [hSome] at hBack
      obtain ⟨found, hRead, -⟩ := hBack.ofPath _ (List.mem_singleton_self _)
      exact ⟨found, hRead⟩
    · cases hWanted.symm.trans hUnwanted
  rw [hRead, hEnd.read_eq hVacant hRead]

/-! ## A run -/

/-- When the directory of the output is made, the path of the dump ends in a link that leads
nowhere: the dump is made where the link points, under whatever name that is. -/
def DumpDangles (c : Configuration) (t : FileTree) : Prop :=
  ∃ dir readied, (c.outputIn t).parent? = some dir ∧
    (Disk.makeDirectories dir : StateM FileTree _) t = (.ok (), readied) ∧
    readied.Dangles (Dump.path (c.outputIn t) c.output.dumpFormat)

/-- **Artifacts.** Let a run succeed, on any tree. Then

1. its artifacts have different paths exactly if the output does not have the extension of a dump
   that is wanted and no two tags have one file;
2. tags without a slash have files of their own;
3. at the end the output holds the module;
4. if a dump is wanted and the output does not have its extension, the path of the dump holds the
   dump, unless it was a link that led nowhere. -/
theorem artifacts_apart
    (hRun : (generate c r : ExceptT Failure (StateM FileTree) Report).run t = (.ok report, t')) :
    ∃ r₀ : Reconciler Handle, Reconciler.beside (c.outputIn t) = .ok r₀ ∧
      ((report.artifacts.map (·.path.steps)).Nodup ↔
        (c.output.dump = true →
          (c.outputIn t).extension? ≠ some c.output.dumpFormat.extension) ∧
        ∀ tag ∈ r.filedTags, ∀ tag' ∈ r.filedTags,
          (r₀.pathFor tag).steps = (r₀.pathFor tag').steps → tag = tag') ∧
      (∀ tag tag' : String, '/' ∉ tag.toList → '/' ∉ tag'.toList →
        (r₀.pathFor tag).steps = (r₀.pathFor tag').steps → tag = tag') ∧
      t'.read (c.outputIn t) = .ok (Module.ofRegistry c r).render.toUTF8 ∧
      (c.output.dump = true → (c.outputIn t).extension? ≠ some c.output.dumpFormat.extension →
        ¬ DumpDangles c t →
        t'.read (Dump.path (c.outputIn t) c.output.dumpFormat) =
          .ok (Dump.render r c.output.dumpFormat).toUTF8) := by
  obtain ⟨course⟩ := exists_course hRun
  refine ⟨course.reconciler, course.beside, course.nodup_steps_iff,
    fun tag tag' hTag hTag' => tag_eq_of_steps course.beside hTag hTag', ?_,
    fun hWanted hApart hLinked => course.read_dump hWanted hApart fun hDangles => ?_⟩
  · -- the module that was written is that of the registry
    rw [← course.registered_eq]
    exact course.read_output
  · exact hLinked ⟨course.directory, course.readied, course.parent, course.makes, hDangles⟩

/-- The standard configuration with a dump. -/
def dumpedConfiguration : Configuration := { output := { dump := true } }

/-- A run with a dump, in an empty directory. -/
theorem sideRegistry_dumped :
    ∃ report t', (generate dumpedConfiguration sideRegistry :
        ExceptT Failure (StateM FileTree) Report).run emptyProject = (.ok report, t') ∧
      (report.artifacts.map (·.path.steps)).Nodup ∧
      t'.read ⟨"/project/ExporterInitializer_PsetDef.txt"⟩ =
        .ok (Dump.render sideRegistry .text).toUTF8 := by
  have hOutput : dumpedConfiguration.outputIn emptyProject =
      ⟨"/project/ExporterInitializer_PsetDef.rs"⟩ := by decide
  have hDump : Dump.path (dumpedConfiguration.outputIn emptyProject)
      dumpedConfiguration.output.dumpFormat = ⟨"/project/ExporterInitializer_PsetDef.txt"⟩ := by
    decide
  have hBeside : Reconciler.beside (dumpedConfiguration.outputIn emptyProject) =
      .ok besideExporter := by
    rw [hOutput]
    rfl
  have hFresh : FreshOutput dumpedConfiguration emptyProject ["project"] := by
    refine freshOutput_of_free (by decide) ?_ fun _ => ?_
    · rw [hOutput]
      exact freeIn_emptyProject "ExporterInitializer_PsetDef.rs" (by decide) (by decide) (by decide)
        (by decide) (by decide) (by decide) ⟨by decide, by decide, by decide⟩
    · rw [hDump]
      exact freeIn_emptyProject "ExporterInitializer_PsetDef.txt" (by decide) (by decide)
        (by decide) (by decide) (by decide) (by decide) ⟨by decide, by decide, by decide⟩
  have hTags : sideRegistry.filedTags = ["IFC2X2"] := by decide
  have hFits : ∀ tag ∈ sideRegistry.filedTags,
      FitsName besideExporter.directory (besideExporter.fileName tag) := by decide
  obtain ⟨report, t', hRun⟩ := exists_report hFresh hBeside
    (fun tag _ => tagSafe_besideExporter tag) hFits (numberable_of_requests (by decide))
  obtain ⟨r₀, hReconciler, hApart, -, -, hRead⟩ := artifacts_apart hRun
  have hExtension : (dumpedConfiguration.outputIn emptyProject).extension? ≠
      some dumpedConfiguration.output.dumpFormat.extension := by decide
  refine ⟨report, t', hRun, hApart.2 ⟨fun _ => hExtension, ?_⟩, ?_⟩
  · intro tag hTag tag' hTag' _
    rw [hTags, List.mem_singleton] at hTag hTag'
    rw [hTag, hTag']
  · rw [← hDump]
    refine hRead rfl hExtension ?_
    -- no link is in the project, nor is one made
    rintro ⟨dir, readied, -, hMake, hDangles⟩
    have hReadied : readied.Unlinked :=
      (furnished_of_makeDirectories hMake).unlinked unlinked_emptyProject
    exact hReadied.not_dangles _ hDangles

/-! ## One path for two artifacts -/

/-- An output with the extension of its dump. -/
def textConfiguration : Configuration := { output := { path := ⟨"Gen.txt"⟩, dump := true } }

/-- Nothing is wrong with this configuration, and a run with it succeeds; but it reports two
artifacts at one path, and the dump is lost. -/
theorem text_output_loses_dump :
    textConfiguration.problems = [] ∧
      ∃ report t', (generate textConfiguration (.ofList []) :
          ExceptT Failure (StateM FileTree) Report).run emptyProject = (.ok report, t') ∧
        report.artifacts.map (·.path) = [⟨"/project/Gen.txt"⟩, ⟨"/project/Gen.txt"⟩] ∧
        t'.read ⟨"/project/Gen.txt"⟩ =
          .ok (Module.ofRegistry textConfiguration (.ofList [])).render.toUTF8 := by
  have hOutput : textConfiguration.outputIn emptyProject = ⟨"/project/Gen.txt"⟩ := by decide
  have hDump : Dump.path (textConfiguration.outputIn emptyProject)
      textConfiguration.output.dumpFormat = ⟨"/project/Gen.txt"⟩ := by decide
  have hFree : FreeIn emptyProject ["project"] ⟨"/project/Gen.txt"⟩ :=
    freeIn_emptyProject "Gen.txt" (by decide) (by decide) (by decide) (by decide) (by decide)
      (by decide) ⟨by decide, by decide, by decide⟩
  have hFresh : FreshOutput textConfiguration emptyProject ["project"] :=
    freshOutput_of_free (by decide) (hOutput ▸ hFree) fun _ => hDump ▸ hFree
  have hBeside : Reconciler.beside (textConfiguration.outputIn emptyProject) =
      .ok (⟨.empty, ⟨"/project"⟩, "Gen", []⟩ : Reconciler Handle) := by
    rw [hOutput]
    rfl
  have hTags : (Registry.ofList []).filedTags = [] := by decide
  have hNone : ∀ tag ∈ (Registry.ofList []).filedTags, False := by
    rw [hTags]
    nofun
  obtain ⟨report, t', hRun⟩ := exists_report (r := .ofList []) hFresh hBeside
    (fun tag hMem => (hNone tag hMem).elim) (fun tag hMem => (hNone tag hMem).elim)
    (numberable_of_requests (by decide))
  obtain ⟨course⟩ := exists_course hRun
  refine ⟨by decide, report, t', hRun, ?_, ?_⟩
  · obtain ⟨tags, -, hFiled, hPaths⟩ := course.paths_eq
    -- nothing is filed, so the report is the output and the dump
    obtain rfl : tags = [] := by
      rw [List.eq_nil_iff_forall_not_mem]
      intro tag hMem
      rw [hFiled] at hMem
      exact hNone tag hMem
    rcases dumpStep_cases course.dumpStep with ⟨-, hSome, -⟩ | ⟨hUnwanted, -, -⟩
    · rw [hPaths, hSome, hDump, hOutput]
      rfl
    · cases hUnwanted
  · rw [← hOutput, ← course.registered_eq]
    exact course.read_output

end PropertySets
