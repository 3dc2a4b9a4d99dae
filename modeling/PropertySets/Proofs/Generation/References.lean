import PropertySets.Proofs.Disk.Siblings
import PropertySets.Proofs.Generation.FirstEnumerations

/-!
# Enumerations that a module refers to

The registration module refers to enumerations in the modules of their tags. Module and enumeration
files are written apart from each other; an entry only repeats the rules for tags and names, and the
enumeration that it refers to may come from another set. In a fresh directory the two agree: behind
every reference there is a file, unless the paths of two tags lead to one file.

* `Declares` — a file that a reference leads to.
* `FreshWhenMade` — the directory of the output is empty once it is there.
* `exists_key_of_reference` — references are made for the keys that are filed.
* `Course.read_of_key` — the file of a key at the end of a run.
* `references_declared` — every reference of a module leads to a file.
* `shared_path_undeclared` — two tags with one file, and a reference that leads nowhere.
-/

namespace PropertySets

open Enumeration FileTree Registration

/-- The file at a path is the module that a reference names, and the enumeration that it names is
one of those in the module. -/
def Declares (t : FileTree) (p : Path) (reference : EnumReference) : Prop :=
  ∃ tag, ∃ bodies : List (String × List EnumItem),
    t.read p = .ok (sheetHead tag ++ String.join (bodies.map bodyText) ++ "\x7d\n").toUTF8 ∧
    Naming.versionModule tag = reference.tagModule ∧ reference.name ∈ bodies.map (·.1)

/-! ## The key of a reference -/

namespace Registration

/-- An entry refers to the enumeration that is requested with its property, if that one is filed. -/
theorem exists_key_of_reference {c : Configuration} {r : Registry} {entry : PropertyEntry}
    (hEntry : entry ∈ (Module.ofRegistry c r).entries) {reference : EnumReference}
    (hReference : entry.enumeration = some reference) :
    ∃ k ∈ keysOf r.requests,
      reference = ⟨c.output.enumModule, Naming.versionModule k.tag, k.name⟩ := by
  obtain ⟨o, hMem, hOf⟩ := mem_entries_ofRegistry.1 hEntry
  -- only a property with a value has an entry
  obtain ⟨label, shape, hProperty, hShape⟩ : ∃ label shape, o.property = .valued label shape ∧
      enumReference? c o.edition shape = some reference := by
    rw [PropertyEntry.ofOccurrence?] at hOf
    cases hProperty : o.property with
    | typeless label => rw [hProperty] at hOf; cases hOf
    | complex label name properties => rw [hProperty] at hOf; cases hOf
    | valued label shape =>
      rw [hProperty] at hOf
      cases hOf
      exact ⟨label, shape, rfl, hReference⟩
  obtain ⟨q, hRequest, hShape⟩ := Option.bind_eq_some_iff.1 hShape
  obtain ⟨tag, hFiled, hShape⟩ := Option.bind_eq_some_iff.1 hShape
  -- the request that the entry asks for is one of those of the registry
  have hRequested : o.request? = some q := by
    rw [Occurrence.request?, hProperty]
    exact hRequest
  have hListed : q ∈ r.requests := by
    rw [requests_eq_filterMap_occurrences]
    exact List.mem_filterMap.2 ⟨o, hMem, hRequested⟩
  exact ⟨⟨tag, q.name⟩, key_mem_keysOf hListed hFiled,
    (Option.some.inj hShape).symm⟩

end Registration

/-! ## The files of a run in a fresh directory -/

/-- A change that is not at the file of a sheet keeps the invariant of a run. -/
theorem Enumeration.Filled.ofFileChange {σ : Site} {done : List Request}
    {reconciler : Reconciler Handle} {t t' : FileTree} {l : Location}
    (h : Filled σ done reconciler t) (hChange : FileChange t t' l)
    (hApart : ∀ tag, σ.fileLocation tag ≠ l) : Filled σ done reconciler t' := by
  refine { h with frame := h.frame.trans hChange.sameFrame, flat := hChange.flat h.flat,
                  kept := fun s hMem => ?_ }
  have hSheet := h.kept s hMem
  refine { hSheet with node := ?_ }
  rw [hChange.elsewhere, hSheet.node]
  rw [hSheet.location]
  exact hApart s.tag

/-- The path `dir` leads to the directory `d`, which lies in a directory and holds nothing. -/
structure FreshDirectory (t : FileTree) (dir : Path) (d : Location) : Prop where
  leads : t.resolve .followed dir = .ok (.occupied d)
  directory : t.node? d = some .directory
  above : t.node? d.dropLast = some .directory
  empty : ∀ name, t.node? (d ++ [name]) = none

theorem FreshDirectory.flat {t : FileTree} {dir : Path} {d : Location}
    (h : FreshDirectory t dir d) : t.FlatDirectory d :=
  ⟨h.directory, fun name node hNode => by rw [h.empty name] at hNode; cases hNode⟩

/-- The output lies in the fresh directory `d` as soon as its directory is made: it was there and
held nothing, or it comes into being with the run. -/
def FreshWhenMade (c : Configuration) (t : FileTree) (d : Location) : Prop :=
  ∀ dir made, (c.outputIn t).parent? = some dir →
    (Disk.makeDirectories dir : StateM FileTree _) t = (.ok (), made) → FreshDirectory made dir d

variable {c : Configuration} {r : Registry} {t t' : FileTree} {report : Report} {d : Location}

/-- A directory that is there is not made again. -/
theorem FreshOutput.made_eq (hFresh : FreshOutput c t d) {dir : Path} {made : FileTree}
    (hParent : (c.outputIn t).parent? = some dir)
    (hMakes : (Disk.makeDirectories dir : StateM FileTree _) t = (.ok (), made)) : made = t := by
  have hThere := makeDirectories_of_directory (hFresh.leads dir hParent) hFresh.directory
  exact congrArg Prod.snd (hMakes.symm.trans hThere)

theorem FreshOutput.whenMade (hFresh : FreshOutput c t d)
    (hAbove : t.node? d.dropLast = some .directory) : FreshWhenMade c t d := by
  intro dir made hParent hMakes
  rw [hFresh.made_eq hParent hMakes]
  exact ⟨hFresh.leads dir hParent, hFresh.directory, hAbove, hFresh.empty⟩

namespace Course

theorem exists_fileName (course : Course c r t report t') :
    ∃ name, (c.outputIn t).fileName? = some name := by
  obtain ⟨stem, dir, hStem, -, -⟩ := exists_of_beside course.beside
  obtain ⟨name, hName, -⟩ := Option.map_eq_some_iff.1 hStem
  exact ⟨name, hName⟩

/-- A dump that is wanted is written into the directory of the output. -/
theorem exists_names_dump (course : Course c r t report t')
    (hFresh : FreshDirectory course.readied course.directory d)
    (hWanted : c.output.dump = true) :
    ∃ name, course.readied.Names (Dump.path (c.outputIn t) c.output.dumpFormat) d name := by
  obtain ⟨output, hOutput⟩ := course.exists_fileName
  have hLeads := leadsTo_of_resolve hFresh.leads
  have hReplace := replace_of_run_dumpStep hWanted course.dumpStep
  obtain ⟨name, hEnds, hNamed⟩ := Path.endsIn_withExtension hOutput course.parent
    (show '/' ∉ c.output.dumpFormat.extension.toList by cases c.output.dumpFormat <;> decide)
  refine ⟨name, hLeads.names_of_replace hFresh.directory hEnds hNamed ?_ (.refl _) hFresh.flat
    hReplace⟩
  rintro rfl
  exact hLeads.replace_ne_ok_of_up hFresh.directory hFresh.above hEnds _ hReplace

/-- In a fresh directory nothing is lost before the emission. -/
theorem keepsFiles_begun (course : Course c r t report t')
    (hFresh : FreshDirectory course.readied course.directory d) :
    KeepsFiles course.readied course.begun := by
  obtain ⟨dump?, begun, hDump, hKeeps, -⟩ := dumpStep_of_names (c := c) (r := r) hFresh.flat
    fun hWanted => course.exists_names_dump hFresh hWanted
  obtain rfl : begun = course.begun := congrArg Prod.snd (hDump.symm.trans course.dumpStep)
  exact hKeeps

/-- Where the emission of a run in a fresh directory starts. -/
def site (course : Course c r t report t')
    (hFresh : FreshDirectory course.readied course.directory d) : Site where
  reconciler := course.reconciler
  tree := course.readied
  location := d
  leads := by
    obtain ⟨stem, dir, -, hParent, hReconciler⟩ := exists_of_beside course.beside
    obtain rfl : course.directory = dir := Option.some.inj (course.parent.symm.trans hParent)
    rw [hReconciler]
    exact leadsTo_of_resolve hFresh.leads
  directory := hFresh.directory
  stem := .ofBeside course.beside

/-- The emission went through, so the invariant of a run holds at its end. -/
theorem filled (course : Course c r t report t')
    (hFresh : FreshDirectory course.readied course.directory d)
    (hSafe : ∀ q ∈ r.requests, ∀ tag, q.filingTag? = some tag → course.reconciler.TagSafe tag) :
    Filled (course.site hFresh) r.requests course.emitted.reconciler course.filed := by
  have hBegun := course.keepsFiles_begun hFresh
  obtain ⟨stem, dir, -, -, hReconciler⟩ := exists_of_beside course.beside
  -- the invariant holds of the reconciler that nothing was filed with
  have hStart : Filled (course.site hFresh) [] (Emitted.start course.reconciler).reconciler
      course.begun :=
    .start (course.site hFresh) (congrArg Reconciler.ledger hReconciler)
      (congrArg Reconciler.sheets hReconciler) hBegun.frame (hBegun.flat d hFresh.flat)
  have hRequests := requests_emission c r
  -- the emission is a function of the tree, so its outcome is the one of the run
  cases emit_run (emission c r) hStart (hRequests ▸ hSafe) with
  | done s filed hEmit hFilled _ =>
    rw [hRequests, List.nil_append] at hFilled
    have hSame := hEmit.symm.trans course.emits
    obtain rfl : s = course.emitted := congrArg (·.1.1) hSame
    obtain rfl : filed = course.filed := congrArg Prod.snd hSame
    exact hFilled
  | misfit _ _ _ _ hEmit _ _ _ | endless _ _ _ _ hEmit _ _ =>
    cases congrArg (·.1.2) (hEmit.symm.trans course.emits)

/-- The module is written to a file of another name, which changes no sheet. -/
theorem filled_written (course : Course c r t report t')
    (hFresh : FreshDirectory course.readied course.directory d)
    (hSafe : ∀ q ∈ r.requests, ∀ tag, q.filingTag? = some tag → course.reconciler.TagSafe tag) :
    Filled (course.site hFresh) r.requests course.emitted.reconciler course.written := by
  have hFilled := course.filled hFresh hSafe
  obtain ⟨name, hName⟩ := course.exists_fileName
  have hEnds := Path.endsIn_parent hName course.parent
  obtain ⟨hNamed, hUp⟩ := Path.plain_of_fileName? hName
  have hOutput := (leadsTo_of_resolve hFresh.leads).names_of_replace hFresh.directory hEnds hNamed
    hUp hFilled.frame hFilled.flat course.replaces
  obtain ⟨written, serial, hReplace, hChange, -⟩ := replace_of_names
    (hOutput.ofFrame hFilled.frame) hFilled.flat (Module.ofRegistry c r).render.toUTF8
  obtain rfl : written = course.written :=
    congrArg Prod.snd (hReplace.symm.trans course.replaces)
  refine hFilled.ofFileChange hChange fun tag hSame => ?_
  have hNames : course.reconciler.fileName tag = name := by
    simpa [Site.fileLocation, Site.fileName, site] using hSame
  -- the name is that of the output, which no tag can make
  exact Reconciler.fileName_ne_of_beside course.beside hName tag hNames

/-- The file of a key is among those of the run, and it holds what the requests come to. -/
theorem read_of_key (course : Course c r t report t')
    (hFresh : FreshDirectory course.readied course.directory d)
    (hSafe : ∀ tag ∈ r.filedTags, course.reconciler.TagSafe tag) {k : Key}
    (hKey : k ∈ keysOf r.requests) :
    course.reconciler.pathFor k.tag ∈ course.emitted.reconciler.sheets.map (·.path) ∧
      t'.read (course.reconciler.pathFor k.tag) = .ok (fileText r.requests k.tag).toUTF8 := by
  have hSafe' : ∀ q ∈ r.requests, ∀ tag, q.filingTag? = some tag →
      course.reconciler.TagSafe tag :=
    fun q hMem tag hFiled => hSafe tag (mem_filedTags.2 ⟨q, hMem, hFiled⟩)
  have hWritten := course.filled_written hFresh hSafe'
  -- the module is written before the sheets are completed, and changes none of them
  obtain ⟨t₁, hFinish, hReads⟩ := hWritten.finish hSafe'
  have hEnd : t₁ = t' := congrArg Prod.snd (hFinish.symm.trans course.finishes)
  rw [hEnd] at hReads
  -- a key has a sheet for its tag
  obtain ⟨s, hSheet, hTag⟩ := (hWritten.covered k.tag).2 ⟨k, hKey, rfl⟩
  rw [← hTag]
  refine ⟨?_, hReads s hSheet⟩
  have hPath : s.path = course.reconciler.pathFor s.tag := (hWritten.kept s hSheet).path
  rw [← hPath]
  exact List.mem_map_of_mem hSheet

end Course

/-- **References.** Let a run succeed in a fresh directory, there before or made by the run, and let
the stem of the output stand before the tags of the registry. Then the module that the report tells
of refers only to enumerations in the enumeration files of the report: for every reference of an
entry one of these files is the module that it names, with an enumeration of its name. It does not
matter which definition brought the enumeration. -/
theorem references_declared (hFresh : FreshWhenMade c t d)
    (hSafe : ∀ r₀ : Reconciler Handle, Reconciler.beside (c.outputIn t) = .ok r₀ →
      ∀ tag ∈ r.filedTags, r₀.TagSafe tag)
    (hRun : (generate c r : ExceptT Failure (StateM FileTree) Report).run t = (.ok report, t')) :
    ⟨.registration, c.outputIn t, .ofBytes (Module.ofRegistry c r).render.toUTF8⟩ ∈
        report.artifacts ∧
      ∀ entry ∈ (Module.ofRegistry c r).entries, ∀ reference,
        entry.enumeration = some reference →
          reference.enumModule = c.output.enumModule ∧
          ∃ a ∈ report.artifacts, a.kind = .enumeration ∧ Declares t' a.path reference := by
  obtain ⟨course⟩ := exists_course hRun
  constructor
  · rw [course.report_eq, course.registered_eq]
    exact List.mem_append_left _ List.mem_cons_self
  intro entry hEntry reference hReference
  -- entry and file meet in the key: it is what the one refers to and the other is filled from
  obtain ⟨k, hKey, rfl⟩ := exists_key_of_reference hEntry hReference
  have hReadied := hFresh course.directory course.readied course.parent course.makes
  obtain ⟨hPath, hRead⟩ := course.read_of_key hReadied (hSafe _ course.beside) hKey
  obtain ⟨a, hArtifact, hKind, hAt⟩ := course.exists_artifact hPath
  obtain ⟨bodies, hText, -, -, hNamed⟩ := exists_bodies r k.tag
  rw [hText, ← hAt] at hRead
  exact ⟨rfl, a, hArtifact, hKind, k.tag, bodies, hRead, rfl, hNamed k hKey rfl⟩

/-- All entries of `E` refer to the one enumeration that is written. -/
theorem recurringRegistry_declared :
    (Module.ofRegistry {} recurringRegistry).entries.map (·.enumeration) =
        List.replicate 3 (some ⟨"crate::exporter::property_set", "x", "E"⟩) ∧
      ∃ report t', (generate {} recurringRegistry :
          ExceptT Failure (StateM FileTree) Report).run emptyProject = (.ok report, t') ∧
        ∃ a ∈ report.artifacts, a.kind = .enumeration ∧
          Declares t' a.path ⟨"crate::exporter::property_set", "x", "E"⟩ := by
  have hEntries : (Module.ofRegistry {} recurringRegistry).entries.map (·.enumeration) =
      List.replicate 3 (some ⟨"crate::exporter::property_set", "x", "E"⟩) := by decide
  obtain ⟨report, t', hRun⟩ := exists_run_recurringRegistry
  -- the stem of the output can stand before every tag
  have hSafe : ∀ r₀ : Reconciler Handle,
      Reconciler.beside (Configuration.outputIn {} emptyProject) = .ok r₀ →
      ∀ tag ∈ recurringRegistry.filedTags, r₀.TagSafe tag := by
    intro r₀ hBeside tag _
    obtain rfl := Except.ok.inj (beside_emptyProject.symm.trans hBeside)
    exact tagSafe_besideExporter tag
  obtain ⟨-, hDeclared⟩ := references_declared (freshOutput_emptyProject.whenMade rfl) hSafe hRun
  obtain ⟨entry, hEntry, hReference⟩ : ∃ entry ∈ (Module.ofRegistry {} recurringRegistry).entries,
      entry.enumeration = some ⟨"crate::exporter::property_set", "x", "E"⟩ :=
    List.mem_map.1 (hEntries ▸ List.mem_cons_self)
  exact ⟨hEntries, report, t', hRun, (hDeclared entry hEntry _ hReference).2⟩

/-! ## Two tags with one file -/

/-- Output beside which files are named after a dot. -/
def dotConfiguration : Configuration := { output := { path := ⟨"..a"⟩ } }

/-- An edition with an enumeration `E` of one literal. -/
def twinEdition (setName version literal : String) : Edition :=
  ⟨"IFC4_ADD1", setName, version, none, [], [enumerationOf literal]⟩

/-- A registry with two tags that differ in slashes at their start. -/
def twinRegistry : Registry :=
  .ofList [twinEdition "Pset_A" "/X" "ONE", twinEdition "Pset_B" "//X" "TWO"]

/-- The enumeration of such an edition. -/
def twinRequest (setName version literal : String) : Request :=
  ⟨version, "IFC4_ADD1", "E", [⟨literal, []⟩], setName ++ "@IFC4_ADD1"⟩

theorem requests_twinRegistry :
    twinRegistry.requests =
      [twinRequest "Pset_A" "/X" "ONE", twinRequest "Pset_B" "//X" "TWO"] := by
  decide

/-- The reconciler for files beside that output. -/
def besideDot : Reconciler Handle := ⟨.empty, ⟨"/project"⟩, ".", []⟩

theorem outputIn_dotConfiguration :
    dotConfiguration.outputIn emptyProject = ⟨"/project/..a"⟩ := by decide

theorem beside_dotConfiguration :
    Reconciler.beside (dotConfiguration.outputIn emptyProject) = .ok besideDot := by
  rw [outputIn_dotConfiguration]
  rfl

theorem freshOutput_dotConfiguration : FreshOutput dotConfiguration emptyProject ["project"] := by
  refine freshOutput_of_free ?_ ?_ nofun
  · rw [outputIn_dotConfiguration]
    decide
  · rw [outputIn_dotConfiguration]
    exact freeIn_emptyProject "..a" (by decide) (by decide) (by decide) (by decide) (by decide)
      (by decide) ⟨by decide, by decide, by decide⟩

/-- With a dot on the way a path still names a file of the directory. -/
theorem names_dotted {p : Path} {name : String} (hText : p.text ≠ "")
    (hTerminator : '\x00' ∉ p.text.toList) (hLength : p.text.utf8ByteSize ≤ 4095)
    (hSlash : endsInSlash p = false) (hAbsolute : p.isAbsolute = true)
    (hRoute : route p = ["project", ".", name]) (hName : IsEntryName name) :
    emptyProject.Names p ["project"] name := by
  refine ⟨hSlash, fun t' hFrame hFlat last => ?_⟩
  have hDirectory : t'.node? ([] ++ ["project"]) = some .directory := hFlat.directory
  rw [resolve_of_text hText hTerminator hLength, hSlash, startOf, hAbsolute, if_pos rfl, hRoute,
    walk_entry ⟨by decide, by decide, by decide⟩ (fun _ => .inl rfl), hDirectory]
  exact (walk_dot [name]).trans (walk_flat hFlat hName)

theorem names_slashX :
    emptyProject.Names (besideDot.pathFor "/X") ["project"] "XEnum.rs" :=
  names_dotted (by decide) (by decide) (by decide) (by decide) (by decide) (by decide)
    ⟨by decide, by decide, by decide⟩

theorem names_doubleSlashX :
    emptyProject.Names (besideDot.pathFor "//X") ["project"] "XEnum.rs" :=
  names_dotted (by decide) (by decide) (by decide) (by decide) (by decide) (by decide)
    ⟨by decide, by decide, by decide⟩

/-- The requests of the registry all go through, and the sheet of `//X` takes the place of that of
`/X`. -/
theorem exists_emit_twinRegistry {begun : FileTree} (hKeeps : KeepsFiles emptyProject begun) :
    ∃ s t' s₁ s₂,
      (emit (.start besideDot) (emission dotConfiguration twinRegistry) : StateM FileTree _) begun =
        ((s, none), t') ∧
      FileChange begun t' ["project", "XEnum.rs"] ∧
      (s.reconciler.sheets = [s₂, s₁] ∨ s.reconciler.sheets = [s₁, s₂]) ∧
      s₁.path = besideDot.pathFor "/X" ∧ s₂.path = besideDot.pathFor "//X" ∧
      s₂.text = openText twinRegistry.requests "//X" ∧
      Ousted s₁ s₂ ["project", "XEnum.rs"] t' := by
  rw [requests_twinRegistry]
  have hFiled₁ : (twinRequest "Pset_A" "/X" "ONE").filingTag? = some "/X" := by decide
  have hFiled₂ : (twinRequest "Pset_B" "//X" "TWO").filingTag? = some "//X" := by decide
  obtain ⟨outcomes, reconciler, t', s₁, s₂, hRun, hOk, hChange, hSheets, hPath₁, hPath₂, hText,
      hOusted⟩ :=
    exists_run_of_shared_name rfl rfl hFiled₁ hFiled₂
      (by decide) (by decide) (names_slashX.ofFrame hKeeps.frame)
      (names_doubleSlashX.ofFrame hKeeps.frame)
      (hKeeps.flat ["project"] freshOutput_emptyProject.flat)
  -- what the emission requests is what the two calls are about
  have hRequests := requests_emission dotConfiguration twinRegistry
  rw [requests_twinRegistry] at hRequests
  rw [← hRequests] at hRun
  obtain ⟨s, hEmit, rfl⟩ := emit_of_reconcileAll (s := .start besideDot) _ hRun hOk
  exact ⟨s, t', s₁, s₂, hEmit, hChange, hSheets, hPath₁, hPath₂, hText, hOusted⟩

theorem mem_sheets_twinRegistry {sheets : List (Sheet Handle)} {s₁ s₂ : Sheet Handle}
    (hSheets : sheets = [s₂, s₁] ∨ sheets = [s₁, s₂]) (hPath₁ : s₁.path = besideDot.pathFor "/X")
    (hPath₂ : s₂.path = besideDot.pathFor "//X") {p : Path} (hMem : p ∈ sheets.map (·.path)) :
    p = besideDot.pathFor "/X" ∨ p = besideDot.pathFor "//X" := by
  rcases hSheets with rfl | rfl
  · simpa [hPath₁, hPath₂, or_comm] using hMem
  · simpa [hPath₁, hPath₂] using hMem

theorem exists_run_twinRegistry :
    ∃ report t', (generate dotConfiguration twinRegistry :
      ExceptT Failure (StateM FileTree) Report).run emptyProject = (.ok report, t') := by
  have hFresh := freshOutput_dotConfiguration
  obtain ⟨dump?, begun, hRun, hKeeps, hDump⟩ :=
    hFresh.exists_begun beside_dotConfiguration twinRegistry
  obtain ⟨s, t₁, s₁, s₂, hEmit, hChange, hSheets, hPath₁, hPath₂, -, hOusted⟩ :=
    exists_emit_twinRegistry hKeeps
  have hFile : t₁.HasFile (["project"] ++ ["XEnum.rs"]) := ⟨_, _, hOusted.node⟩
  have hEmitted := hKeeps.trans (.ofFileChange hChange hFile)
  obtain ⟨name, hOutput⟩ := hFresh.output.names
  rw [hRun]
  -- both paths lead to the file of the second sheet, so both can be read
  refine completeRun_of_emitted beside_dotConfiguration hEmit
    (hEmitted.flat _ freshOutput_emptyProject.flat) (hOutput.ofFrame hEmitted.frame) ?_ ?_
  · intro p hMem
    rcases mem_sheets_twinRegistry hSheets hPath₁ hPath₂ hMem with rfl | rfl
    · exact ⟨_, names_slashX.ofFrame hEmitted.frame, hFile⟩
    · exact ⟨_, names_doubleSlashX.ofFrame hEmitted.frame, hFile⟩
  · intro p hMem
    obtain ⟨name', hNames, hThere⟩ := hDump p (Option.mem_toList.1 hMem)
    refine ⟨name', hNames.ofFrame hEmitted.frame, ?_⟩
    exact (KeepsFiles.ofFileChange hChange hFile).files _ hThere

/-- All enumeration files of the run hold the enumeration of `//X`. -/
theorem read_of_mem_twinRegistry {report : Report} {t' : FileTree}
    (hRun : (generate dotConfiguration twinRegistry :
      ExceptT Failure (StateM FileTree) Report).run emptyProject = (.ok report, t')) :
    ∀ a ∈ report.artifacts, a.kind = .enumeration →
      t'.read a.path = .ok (fileText twinRegistry.requests "//X").toUTF8 := by
  intro a hArtifact hKind
  obtain ⟨course⟩ := exists_course hRun
  have hFresh := freshOutput_dotConfiguration
  have hReadied : course.readied = emptyProject := hFresh.made_eq course.parent course.makes
  have hKeeps : KeepsFiles emptyProject course.begun := by
    have hBegun := course.keepsFiles_begun
      (hFresh.whenMade rfl _ _ course.parent course.makes)
    rwa [hReadied] at hBegun
  obtain ⟨s, filed, s₁, s₂, hEmit, hChange, hSheets, hPath₁, hPath₂, hText, hOusted⟩ :=
    exists_emit_twinRegistry hKeeps
  have hReconciler : course.reconciler = besideDot :=
    Except.ok.inj (course.beside.symm.trans beside_dotConfiguration)
  have hEmits := course.emits
  rw [hReconciler] at hEmits
  have hSame := hEmit.symm.trans hEmits
  obtain rfl : s = course.emitted := congrArg (·.1.1) hSame
  obtain rfl : filed = course.filed := congrArg Prod.snd hSame
  -- the module is written beside the file that the two tags share
  have hFlat := hChange.flat (hKeeps.flat ["project"] hFresh.flat)
  have hFrame := hKeeps.frame.trans hChange.sameFrame
  obtain ⟨name, hVacant⟩ := hFresh.output.vacant
  have hName : some name = some "..a" := by
    rw [← Path.fileName?_of_vacant hVacant hFresh.output.unslashed, outputIn_dotConfiguration]
    decide
  have hOutput := names_of_vacant hVacant hFresh.output.unslashed
  obtain ⟨written, serial, hReplace, hModule, -⟩ := replace_of_names (hOutput.ofFrame hFrame) hFlat
    (Module.ofRegistry dotConfiguration twinRegistry).render.toUTF8
  obtain rfl : written = course.written :=
    congrArg Prod.snd (hReplace.symm.trans course.replaces)
  have hStill : Ousted s₁ s₂ ["project", "XEnum.rs"] course.written := by
    refine { hOusted with node := ?_ }
    rw [hModule.elsewhere, hOusted.node]
    rw [Option.some.inj hName]
    decide
  obtain ⟨t₁, hFinish, hWritten, hNode⟩ := hStill.finish (by decide) hSheets
  have hEnd : t₁ = t' := congrArg Prod.snd (hFinish.symm.trans course.finishes)
  rw [hEnd, hText] at hNode
  have hFrame' := hFrame.trans (hModule.sameFrame.trans hWritten.sameFrame)
  have hFlat' := hWritten.flat (hModule.flat hFlat)
  rw [hEnd] at hFrame' hFlat'
  obtain ⟨hListed, -⟩ := course.readEnums.ofArtifact a (course.mem_enums hArtifact hKind)
  rcases mem_sheets_twinRegistry hSheets hPath₁ hPath₂ hListed with hPath | hPath
  · rw [hPath]
    exact read_of_node (names_slashX.ofFrame hFrame') hFlat' hNode
  · rw [hPath]
    exact read_of_node (names_doubleSlashX.ofFrame hFrame') hFlat' hNode

/-- A text whose bytes do not hold those of a pattern does not hold the pattern. -/
theorem ne_append_of_bytes {text pattern : String}
    (h : ¬ pattern.toByteArray.data.toList <:+: text.toByteArray.data.toList)
    (before after : String) : text ≠ before ++ pattern ++ after := by
  rintro rfl
  refine h ⟨before.toByteArray.data.toList, after.toByteArray.data.toList, ?_⟩
  simp

/-- Beside `..a` the files of the tags `/X` and `//X` are one file. A run succeeds, and it has an
entry that refers to a module that stands in none of its files. -/
theorem shared_path_undeclared :
    dotConfiguration.problems = [] ∧ FreshOutput dotConfiguration emptyProject ["project"] ∧
    ∃ report t', (generate dotConfiguration twinRegistry :
        ExceptT Failure (StateM FileTree) Report).run emptyProject = (.ok report, t') ∧
      ∃ entry ∈ (Module.ofRegistry dotConfiguration twinRegistry).entries, ∃ reference,
        entry.enumeration = some reference ∧
        ∀ a ∈ report.artifacts, a.kind = .enumeration →
          ∃ text : String, t'.read a.path = .ok text.toUTF8 ∧
            ∀ before after,
              text ≠ before ++ ("pub mod " ++ reference.tagModule ++ " \x7b") ++ after := by
  obtain ⟨report, t', hRun⟩ := exists_run_twinRegistry
  have hEntries : (Module.ofRegistry dotConfiguration twinRegistry).entries.map (·.enumeration) =
      [some ⟨"crate::exporter::property_set", "_x", "E"⟩,
        some ⟨"crate::exporter::property_set", "__x", "E"⟩] := by decide +kernel
  obtain ⟨entry, hEntry, hReference⟩ := List.mem_map.1 (hEntries ▸ List.mem_cons_self)
  refine ⟨by decide +kernel, freshOutput_dotConfiguration, report, t', hRun, entry, hEntry, _,
    hReference, fun a hArtifact hKind => ⟨_, read_of_mem_twinRegistry hRun a hArtifact hKind, ?_⟩⟩
  -- the texts are compared as bytes, which can be searched by evaluation
  exact ne_append_of_bytes (by decide +kernel)

end PropertySets
