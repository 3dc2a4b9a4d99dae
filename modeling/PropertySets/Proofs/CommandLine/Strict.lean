import PropertySets.CommandLine.Generator
import PropertySets.Proofs.CommandLine.Loading
import PropertySets.Proofs.Disk.Unlinked
import PropertySets.Proofs.Generation.Fates

/-!
# What a strict run promises

With `--strict` the generator's command fails when an omission was reported. An exit code of zero
therefore says that every document was read without an omission, and then every `PropertyDef` that
declares a value has an entry — save for sets of unknown revision and for what lies in a complex
property inside a complex property. These are left out and reported as well, but as warnings, so
the exit code does not tell.

* `exists_of_generatorCommand`, `exists_of_generateWith` — the steps of a command that ends with
  exit code zero.
* `strict_success` — what became of every element after a strict run with exit code zero.
* `exists_outcome` — nothing that generating leaves out changes the exit code.
* `deep_property_left_out` — a strict run with exit code zero that leaves an element out.
-/

namespace PropertySets

open Diagnostics Document FileTree Registration Relation Xml

namespace CommandLine

/-! ## Commands that succeed -/

variable {environment : Configuration.Environment} {o : GeneratorOptions} {c : Configuration}
  {t t' : FileTree} {outcome : Outcome}

/-- A run under a configuration that ends with exit code zero read and generated, and a strict one
had no omission to report. -/
theorem exists_of_generateWith
    (hRun : (generateWith o c : StateM FileTree Outcome) t = (outcome, t'))
    (hCode : outcome.code = 0) :
    ∃ loaded report,
      (loadRegistry c : ExceptT Failure (StateM FileTree) Loaded).run t = (.ok loaded, t) ∧
      (generate c loaded.registry : ExceptT Failure (StateM FileTree) Report).run t =
        (.ok report, t') ∧
      (o.strict = true → omissions (loaded.flaws ++ report.flaws) = []) := by
  rcases hLoad : (loadRegistry c : ExceptT Failure (StateM FileTree) Loaded).run t with
    ⟨result, t₁⟩
  -- loading only reads, so generating starts from the same tree
  obtain rfl := (readOnly_loadRegistry c).tree_eq hLoad
  have hWorking : (Disk.workingDirectory : StateM FileTree Path) t =
      (pathOf t.workingDirectory, t) := rfl
  have hSteps : (generateWith o c : StateM FileTree Outcome) t = _ :=
    (bind_apply hWorking).trans (bind_apply hLoad)
  rw [hSteps] at hRun
  cases result with
  | error failure =>
    cases hRun
    cases hCode
  | ok loaded =>
    rcases hGenerate : (generate c loaded.registry : ExceptT Failure (StateM FileTree) Report).run t
      with ⟨result, t₂⟩
    have hMore := (bind_apply hGenerate).symm.trans hRun
    cases result with
    | error failure =>
      cases hMore
      cases hCode
    | ok report =>
      -- after a success, only omissions of a strict run make the exit code another one
      by_cases hDropped :
          (o.strict && (loaded.flaws ++ report.flaws : Diagnostics).hasOmissions) = true
      · simp only [hDropped, if_true] at hMore
        cases hMore
        cases hCode
      · simp only [hDropped] at hMore
        cases hMore
        refine ⟨loaded, report, rfl, hGenerate, fun hStrict => ?_⟩
        rw [hStrict, Bool.true_and, Bool.not_eq_true] at hDropped
        exact hasOmissions_eq_false_iff.1 hDropped

/-- A command that ends with exit code zero has loaded its configuration and run under it. -/
theorem exists_of_generatorCommand {args : List String} (hArgs : GeneratorOptions.read args = .ok o)
    (hRun : (generatorCommand environment args : StateM FileTree Outcome) t = (outcome, t'))
    (hCode : outcome.code = 0) :
    ∃ base, (Configuration.load environment o.config? :
        ExceptT Configuration.LoadFault (StateM FileTree) _).run t = (.ok base, t) ∧
      (generateWith o (o.override base) : StateM FileTree Outcome) t = (outcome, t') := by
  rw [generatorCommand, hArgs] at hRun
  rcases hLoad : (Configuration.load environment o.config? :
    ExceptT Configuration.LoadFault (StateM FileTree) _).run t with ⟨result, t₁⟩
  -- loading a configuration only reads as well
  obtain rfl := (Configuration.readOnly_load environment o.config?).tree_eq hLoad
  have hMore := (bind_apply hLoad).symm.trans hRun
  cases result with
  | error fault =>
    cases hMore
    cases hCode
  | ok base =>
    -- a configuration with problems ends the command before anything is searched
    by_cases hValid : (o.override base).problems.isEmpty = true
    · simp only [hValid, if_true] at hMore
      exact ⟨base, rfl, hMore⟩
    · simp only [hValid] at hMore
      cases hMore
      cases hCode

/-- **What strict mode promises.** Let the generator's command be run with `--strict`, on any tree
and with any configuration, and let it end with exit code zero. Then every document that was found
is a well-formed text, and the module was made of its definition among others. Either the revision
of the set is not known, and that is reported; or the definition has a block in the module that was
written, with an entry for each `PropertyDef` that has a name and declares a value and lies below
`PropertyDefs` or in a complex property there, in document order, and every other such element, at
any depth, lies in a complex property inside a complex property that is reported. -/
theorem strict_success {args : List String} (hArgs : GeneratorOptions.read args = .ok o)
    (hStrict : o.strict = true)
    (hRun : (generatorCommand environment args : StateM FileTree Outcome) t = (outcome, t'))
    (hCode : outcome.code = 0) :
    ∃ base folders loaded report,
      (Configuration.load environment o.config? :
        ExceptT Configuration.LoadFault (StateM FileTree) _).run t = (.ok base, t) ∧
      let c := o.override base
      let m := Module.ofRegistry c loaded.registry
      (discover c.source.scan (c.sourceRoot (pathOf t.workingDirectory)) :
        ExceptT Failure (StateM FileTree) _).run t = (.ok folders, t) ∧
      (loadRegistry c : ExceptT Failure (StateM FileTree) Loaded).run t = (.ok loaded, t) ∧
      (generate c loaded.registry : ExceptT Failure (StateM FileTree) Report).run t =
        (.ok report, t') ∧
      ⟨.registration, c.outputIn t, .ofBytes m.render.toUTF8⟩ ∈ report.artifacts ∧
      ∀ f ∈ folders, ∀ path ∈ f.files, ∃ content text root e,
        t.read path = .ok content ∧ Text.Utf8.decode content = .ok text ∧
        readDocument (dropMark (dropMark text.toList)) = .ok root ∧
        e ∈ loaded.registry.editions ∧ e.folder = f.folder ∧ name? root = some e.name ∧
        ((∃ flaw ∈ report.flaws, unknownFlaw? e.name e = some flaw) ∨
        (m.Shows e root ∧
          ∀ top ∈ propertyDefs root, ∀ n heading, ReflTransGen Holds top n →
            heading? n = some heading →
              n ∈ expanded root ∨ ReportedNested report.flaws e root n)) := by
  obtain ⟨base, hLoad, hWith⟩ := exists_of_generatorCommand hArgs hRun hCode
  obtain ⟨loaded, report, hLoaded, hGenerate, hOmissions⟩ := exists_of_generateWith hWith hCode
  obtain ⟨folders, readings, hDiscover, rfl, hRead⟩ := read_of_run_loadRegistry hLoaded
  obtain ⟨course⟩ := exists_course hGenerate
  refine ⟨base, folders, _, report, hLoad, hDiscover, hLoaded, hGenerate, ?_, ?_⟩
  · rw [course.report_eq, ← course.registered_eq]
    exact List.mem_append_left _ List.mem_cons_self
  intro f hFolder path hPath
  obtain ⟨content, hContent, hReading⟩ := hRead f hFolder path hPath
  -- no omission at all, so none in this document
  have hClean : omissions (Reading.ofBytes f.folder path content).flaws = [] := by
    have hLoadedClean := (omissions_eq_nil_append (hOmissions hStrict)).1
    rw [omissions, withSeverity, List.filter_eq_nil_iff] at hLoadedClean ⊢
    exact fun flaw hMem => hLoadedClean flaw (List.mem_flatMap.2 ⟨_, hReading, hMem⟩)
  obtain ⟨text, root, d, hText, hDocument, hDefinition, hName, hFrom⟩ :=
    parseBytes_of_clean hClean
  have hEdition : (⟨f.folder, d⟩ : Edition) ∈ readings.filterMap fun r =>
      r.definition?.map fun d => (⟨r.folder, d⟩ : Edition) :=
    List.mem_filterMap.2 ⟨_, hReading, congrArg (Option.map _) hDefinition⟩
  exact ⟨content, text, root, ⟨f.folder, d⟩, hContent, hText, hDocument,
    Registry.mem_editions_ofList.2 hEdition, rfl, hName, fate_of_document course hEdition hFrom⟩

/-! ## A strict run that leaves something out -/

/-- When the documents are read without an omission and generating succeeds, the exit code is zero,
whatever generating left out. -/
theorem exists_outcome {args : List String} {base : Configuration} {loaded : Loaded}
    {report : Report} (hArgs : GeneratorOptions.read args = .ok o)
    (hLoad : (Configuration.load environment o.config? :
      ExceptT Configuration.LoadFault (StateM FileTree) _).run t = (.ok base, t))
    (hValid : (o.override base).problems = [])
    (hLoaded : (loadRegistry (o.override base) : ExceptT Failure (StateM FileTree) Loaded).run t =
      (.ok loaded, t))
    (hClean : omissions loaded.flaws = [])
    (hGenerate : (generate (o.override base) loaded.registry :
      ExceptT Failure (StateM FileTree) Report).run t = (.ok report, t')) :
    ∃ outcome, (generatorCommand environment args : StateM FileTree Outcome) t = (outcome, t') ∧
      outcome.code = 0 := by
  obtain ⟨course⟩ := exists_course hGenerate
  -- what generating leaves out is reported as other things than omissions
  have hKept : (loaded.flaws ++ report.flaws : Diagnostics).hasOmissions = false := by
    rw [hasOmissions_eq_false_iff, omissions_append, hClean, course.omissions_eq_nil]
    rfl
  have hWorking : (Disk.workingDirectory : StateM FileTree Path) t =
      (pathOf t.workingDirectory, t) := rfl
  -- the three steps are taken one after the other, and the last decision is a closed one
  have hSteps : (generateWith o (o.override base) : StateM FileTree Outcome) t = _ :=
    (bind_apply hWorking).trans ((bind_apply hLoaded).trans (bind_apply hGenerate))
  simp only [hKept, Bool.and_false, Bool.false_eq_true, if_false] at hSteps
  obtain ⟨outcome, hEnd, hCode⟩ : ∃ outcome,
      (generateWith o (o.override base) : StateM FileTree Outcome) t = (outcome, t') ∧
        outcome.code = 0 := ⟨_, hSteps, rfl⟩
  refine ⟨outcome, ?_, hCode⟩
  rw [generatorCommand, hArgs]
  refine (bind_apply hLoad).trans ?_
  simp only [hValid, List.isEmpty_nil, if_true]
  exact hEnd

/-- A property, and a complex property in which there is only another one with a property in it. -/
def bundleDocument : String :=
  "<PropertySetDef><Name>Pset_A</Name><IfcVersion version=\"2x2\"/><PropertyDefs><PropertyDef>" ++
    "<Name>Plain</Name><PropertyType><TypePropertySingleValue/></PropertyType></PropertyDef>" ++
    "<PropertyDef><Name>Outer</Name><PropertyType><TypeComplexProperty name=\"C\"><PropertyDef>" ++
    "<Name>Inner</Name><PropertyType><TypeComplexProperty name=\"C\"><PropertyDef>" ++
    "<Name>Deep</Name><PropertyType><TypePropertySingleValue/></PropertyType></PropertyDef>" ++
    "</TypeComplexProperty></PropertyType></PropertyDef></TypeComplexProperty></PropertyType>" ++
    "</PropertyDef></PropertyDefs></PropertySetDef>"

/-- A project with this document. -/
def bundleProject : FileTree :=
  ⟨[(["project"], .directory), (["project", "IFC2X2"], .directory),
    (["project", "IFC2X2", "psd"], .directory),
    (["project", "IFC2X2", "psd", "Pset_A.xml"], .file 0 bundleDocument.toUTF8),
    (["project", "out"], .directory)], 1, ["project"]⟩

/-- Strict, and with the module in the directory for it. -/
def strictArguments : List String := ["--strict", "-o", "out/G.rs"]

/-- What these arguments say. -/
def strictOptions : GeneratorOptions :=
  ⟨none, some ⟨"out/G.rs"⟩, false, none, none, false, true⟩

/-- The path that the document is found under. -/
def bundlePath : Path := ⟨"/project/./IFC2X2/psd/Pset_A.xml"⟩

/-- What is read in the project. -/
def bundleLoaded : Loaded :=
  gatherReadings 1 [.ofBytes "IFC2X2" bundlePath bundleDocument.toUTF8]

theorem eq_ok_of_toOption {ε α : Type} {x : Except ε α} {a : α} (h : x.toOption = some a) :
    x = .ok a := by
  cases x with
  | error e => cases h
  | ok b =>
    cases h
    rfl

theorem read_strictArguments : GeneratorOptions.read strictArguments = .ok strictOptions :=
  eq_ok_of_toOption (by decide +kernel)

/-! ### The disk of the project -/

theorem unlinked_bundleProject : bundleProject.Unlinked :=
  unlinked_of_nodes (by simp [bundleProject, kindOf])

theorem load_bundleProject :
    (Configuration.load [] none :
      ExceptT Configuration.LoadFault (StateM FileTree) Configuration).run bundleProject =
      (.ok {}, bundleProject) := by
  refine Configuration.load_of_missing fun p hMem => ?_
  have hNone : ∀ p ∈ Configuration.usualPlaces.flatMap
      (Configuration.spellings (pathOf bundleProject.workingDirectory)),
      (bundleProject.node? (place bundleProject.workingDirectory p)).isNone = true := by
    decide
  exact unlinked_bundleProject.isFile_of_none (Option.isNone_iff_eq_none.1 (hNone p hMem))

theorem resolve_bundleProject {p : Path} (names : List String) (hText : p.text ≠ "")
    (hTerminator : '\x00' ∉ p.text.toList) (hLength : p.text.utf8ByteSize ≤ 4095)
    (hSlash : endsInSlash p = false) (hAbsolute : p.isAbsolute = true)
    (hRoute : route p = "project" :: names) (last : LastName) :
    bundleProject.resolve last p = bundleProject.walk last linkLimit false ["project"] names := by
  rw [resolve_of_text hText hTerminator hLength, hSlash, startOf, hAbsolute, if_pos rfl, hRoute,
    walk_directory ⟨by decide, by decide, by decide⟩ rfl fun _ => .inl rfl]
  rfl

theorem target_bundleRoot :
    bundleProject.target ⟨"/project/."⟩ = .ok (["project"], .directory) := by
  refine target_eq_ok_iff.2 ⟨?_, rfl⟩
  rw [resolve_bundleProject ["."] (by decide) (by decide) (by decide) (by decide) (by decide)
    (by decide), walk_dot, walk_nil]

theorem read_bundlePath : bundleProject.read bundlePath = .ok bundleDocument.toUTF8 := by
  have hTarget : bundleProject.target bundlePath =
      .ok (["project", "IFC2X2", "psd", "Pset_A.xml"], .file 0 bundleDocument.toUTF8) := by
    refine target_eq_ok_iff.2 ⟨?_, rfl⟩
    rw [resolve_bundleProject [".", "IFC2X2", "psd", "Pset_A.xml"] (by decide) (by decide)
      (by decide) (by decide) (by decide) (by decide), walk_dot,
      walk_directory ⟨by decide, by decide, by decide⟩ rfl fun _ => .inl rfl,
      walk_directory ⟨by decide, by decide, by decide⟩ rfl fun _ => .inl rfl,
      walk_entry ⟨by decide, by decide, by decide⟩ fun _ => .inl rfl]
    rfl
  rw [FileTree.read, hTarget]
  rfl

/-- What is found below the directory of the project. -/
def bundleEntries : List Entry :=
  [⟨["IFC2X2"], .directory⟩, ⟨["IFC2X2", "psd"], .directory⟩,
    ⟨["IFC2X2", "psd", "Pset_A.xml"], .file⟩, ⟨["out"], .directory⟩]

/-- The only schema folder of the project. -/
def bundleFolder : SchemaFolder := ⟨"IFC2X2", ⟨"/project/./IFC2X2/psd"⟩, [bundlePath]⟩

theorem survey_bundleProject :
    bundleProject.survey ⟨"/project/."⟩ = ⟨[], .directory⟩ :: bundleEntries := by
  have hKind : bundleProject.kindAt ⟨"/project/."⟩ = .directory := by
    rw [kindAt, resolve_bundleProject ["."] (by decide) (by decide) (by decide) (by decide)
      (by decide) (by decide), walk_dot, walk_nil]
    rfl
  -- the locations are listed in the order of the names
  have hSorted : bundleEntries.mergeSort Entry.le = bundleEntries :=
    List.mergeSort_of_pairwise (by decide)
  rw [survey, target_bundleRoot]
  exact congrArg₂ (fun kind entries => Entry.mk [] kind :: entries) hKind hSorted

theorem discover_bundleProject :
    (discover (strictOptions.override {}).source.scan ⟨"/project/."⟩ :
      ExceptT Failure (StateM FileTree) _).run bundleProject =
      (.ok [bundleFolder], bundleProject) := by
  have hDirectory : (Disk.isDirectory ⟨"/project/."⟩ : StateM FileTree Bool) bundleProject =
      (true, bundleProject) := by
    show (bundleProject.isDirectory ⟨"/project/."⟩, bundleProject) = _
    rw [isDirectory, target_bundleRoot]
  have hSurvey : (Disk.survey ⟨"/project/."⟩ : StateM FileTree (List Entry)) bundleProject =
      (⟨[], .directory⟩ :: bundleEntries, bundleProject) :=
    congrArg (Prod.mk · bundleProject) survey_bundleProject
  have hFolders : foldersAmong (strictOptions.override {}).source.scan ⟨"/project/."⟩
      (⟨[], .directory⟩ :: bundleEntries) = .ok [bundleFolder] := rfl
  refine (bind_apply hDirectory).trans ((bind_apply hSurvey).trans ?_)
  exact congrArg (Prod.mk · bundleProject) hFolders

theorem sourceRoot_bundleProject :
    (strictOptions.override {}).sourceRoot (pathOf bundleProject.workingDirectory) =
      ⟨"/project/."⟩ := by decide

theorem loadRegistry_bundleProject :
    (loadRegistry (strictOptions.override {}) : ExceptT Failure (StateM FileTree) Loaded).run
      bundleProject = (.ok bundleLoaded, bundleProject) := by
  have hWorking : (liftM (Disk.workingDirectory : StateM FileTree Path) :
      ExceptT Failure (StateM FileTree) Path).run bundleProject =
      (.ok (pathOf bundleProject.workingDirectory), bundleProject) := run_liftM rfl
  have hDocuments : [bundleFolder].flatMap (fun f => f.files.map fun path => (f.folder, path)) =
      [("IFC2X2", bundlePath)] := rfl
  rw [loadRegistry, run_bind_ok hWorking, sourceRoot_bundleProject,
    run_bind_ok discover_bundleProject, hDocuments, List.mapM_cons, List.mapM_nil,
    run_bind_ok ((run_bind_ok (run_reading read_bundlePath)).trans rfl)]
  rfl

/-- The output lies in an empty directory. -/
theorem freshOutput_bundleProject :
    FreshOutput (strictOptions.override {}) bundleProject ["project", "out"] := by
  have hOutput : (strictOptions.override {}).outputIn bundleProject = ⟨"/project/out/G.rs"⟩ := by
    decide
  refine ⟨fun dir hParent => ?_, rfl, fun name => ?_, ?_, nofun⟩
  · have hDirectory : ((strictOptions.override {}).outputIn bundleProject).parent? =
        some ⟨"/project/out"⟩ := by decide
    -- the directory of the output is there, one name below that of the project
    obtain rfl := Option.some.inj (hDirectory.symm.trans hParent)
    rw [resolve_bundleProject ["out"] (by decide) (by decide) (by decide) (by decide) (by decide)
      (by decide), walk_directory ⟨by decide, by decide, by decide⟩ rfl fun _ => .inl rfl, walk_nil]
    rfl
  · simp [node?, bundleProject]
  · rw [hOutput]
    refine ⟨by decide, "G.rs", ?_⟩
    -- and nothing has the name of the output in it
    rw [resolve_bundleProject ["out", "G.rs"] (by decide) (by decide) (by decide) (by decide)
      (by decide) (by decide),
      walk_directory ⟨by decide, by decide, by decide⟩ rfl fun _ => .inl rfl,
      walk_entry ⟨by decide, by decide, by decide⟩ fun _ => .inl rfl]
    rfl

/-! ### The document of the project -/

/-- The document is read without an omission, no enumeration comes up, and the only entry is that
of the plain property, although the revision of the set is known. The deep property lies in a
complex property inside a complex property. -/
theorem facts_bundleDocument :
    (omissions bundleLoaded.flaws = [] ∧ bundleLoaded.registry.filedTags = [] ∧
      (bundleLoaded.registry.occurrences.filterMap
        (PropertyEntry.ofOccurrence? (strictOptions.override {}))).map PropertyEntry.heading =
        [("Plain", .singleValue)] ∧
      ∀ e ∈ bundleLoaded.registry.editions, (revision? e).isSome = true) ∧
    (readDocument (dropMark (dropMark bundleDocument.toList))).toOption.map
      (fun root => ((expanded root).filterMap heading?,
        (((propertyDefs root).flatMap held).flatMap held).filterMap heading?)) =
      some ([("Plain", .singleValue)], [("Deep", .singleValue)]) := by
  -- reading a list of characters, the kernel need not decode the bytes of the string
  have hText : bundleDocument = String.ofList (_ ++ _ ++ _ ++ _ ++ _ ++ _ ++ _) :=
    Text.eq_ofList_append (Text.eq_ofList_append (Text.eq_ofList_append (Text.eq_ofList_append
      (Text.eq_ofList_append (Text.eq_ofList_append rfl _) _) _) _) _) _
  rw [bundleLoaded, Reading.ofBytes, parseBytes_toUTF8, Document.read, hText, String.toList_ofList]
  decide +kernel

/-- Where the deep property is, and what the properties declare that can have entries. -/
structure BundleElements (root outer inner deep : Node) : Prop where
  outer_mem : outer ∈ propertyDefs root
  inner_held : Holds outer inner
  deep_held : Holds inner deep
  deep_heading : heading? deep = some ("Deep", .singleValue)
  shown : (expanded root).filterMap heading? = [("Plain", .singleValue)]

theorem exists_bundleElements :
    ∃ root outer inner deep,
      readDocument (dropMark (dropMark bundleDocument.toList)) = .ok root ∧
      BundleElements root outer inner deep := by
  obtain ⟨-, hRoot⟩ := facts_bundleDocument
  -- that the document is read is part of what was computed about it
  cases hRead : readDocument (dropMark (dropMark bundleDocument.toList)) with
  | error fault =>
    rw [hRead] at hRoot
    cases hRoot
  | ok root =>
    rw [hRead] at hRoot
    obtain ⟨hShown, hBelow⟩ := Prod.mk.inj (Option.some.inj hRoot)
    -- the deep element was found two levels down, so it is held by what was passed on the way
    obtain ⟨deep, hMem, hHeading⟩ := List.mem_filterMap.1 (hBelow ▸ List.mem_singleton_self _)
    obtain ⟨inner, hMem, hDeep⟩ := List.mem_flatMap.1 hMem
    obtain ⟨outer, hOuter, hInner⟩ := List.mem_flatMap.1 hMem
    exact ⟨root, outer, inner, deep, rfl, ⟨hOuter, hInner, hDeep, hHeading, hShown⟩⟩

/-- The strict run of the project ends with exit code zero. -/
theorem exists_run_bundleProject :
    ∃ outcome report t',
      (generate (strictOptions.override {}) bundleLoaded.registry :
        ExceptT Failure (StateM FileTree) Report).run bundleProject = (.ok report, t') ∧
      (generatorCommand [] strictArguments : StateM FileTree Outcome) bundleProject =
        (outcome, t') ∧
      outcome.code = 0 := by
  obtain ⟨⟨hClean, hTags, -, -⟩, -⟩ := facts_bundleDocument
  have hOutput : (strictOptions.override {}).outputIn bundleProject = ⟨"/project/out/G.rs"⟩ := by
    decide
  have hBeside : Enumeration.Reconciler.beside
      ((strictOptions.override {}).outputIn bundleProject) =
      .ok (⟨.empty, ⟨"/project/out"⟩, "G", []⟩ : Enumeration.Reconciler Handle) := by
    rw [hOutput]
    rfl
  -- no enumeration is filed, so no file of a tag can fail and nothing is numbered
  have hNoTag : ∀ tag, tag ∉ bundleLoaded.registry.filedTags := fun tag hMem => by
    rw [hTags] at hMem
    cases hMem
  have hNumberable : Enumeration.Numberable bundleLoaded.registry.requests := by
    intro k literals hFirst
    have hKnown := Enumeration.mem_keysOf_of_firstLiterals? hFirst
    obtain ⟨q, hMem, hFiled⟩ := Enumeration.exists_filed_of_mem_keysOf hKnown
    exact absurd (mem_filedTags.2 ⟨q, hMem, hFiled⟩) (hNoTag _)
  obtain ⟨report, t', hGenerate⟩ := exists_report freshOutput_bundleProject hBeside
    (fun tag hMem => absurd hMem (hNoTag tag)) (fun tag hMem => absurd hMem (hNoTag tag))
    hNumberable
  obtain ⟨outcome, hRun, hCode⟩ := exists_outcome read_strictArguments load_bundleProject
    (by decide) loadRegistry_bundleProject hClean hGenerate
  exact ⟨outcome, report, t', hGenerate, hRun, hCode⟩

/-- In the project the plain property has its entry, and the complex property that the deep one lies
in is reported. -/
theorem bundleProject_accounted :
    ∃ outcome t' report root e,
      GeneratorOptions.read strictArguments = .ok strictOptions ∧ strictOptions.strict = true ∧
      (generatorCommand [] strictArguments : StateM FileTree Outcome) bundleProject =
        (outcome, t') ∧
      outcome.code = 0 ∧
      (generate (strictOptions.override {}) bundleLoaded.registry :
        ExceptT Failure (StateM FileTree) Report).run bundleProject = (.ok report, t') ∧
      readDocument (dropMark (dropMark bundleDocument.toList)) = .ok root ∧
      (expanded root).filterMap heading? = [("Plain", .singleValue)] ∧
      (Module.ofRegistry (strictOptions.override {}) bundleLoaded.registry).Shows e root ∧
      ∃ name, nestedFlaw e name ∈ report.flaws := by
  obtain ⟨outcome, report₀, t', -, hRun, hCode⟩ := exists_run_bundleProject
  obtain ⟨base, folders, loaded, report, hLoad, hDiscover, hLoaded, hGenerate, -, hDocuments⟩ :=
    strict_success read_strictArguments rfl hRun hCode
  -- what the theorem finds is what is in the project
  obtain rfl : {} = base :=
    Except.ok.inj (congrArg Prod.fst (load_bundleProject.symm.trans hLoad))
  obtain rfl : bundleLoaded = loaded :=
    Except.ok.inj (congrArg Prod.fst (loadRegistry_bundleProject.symm.trans hLoaded))
  rw [sourceRoot_bundleProject] at hDiscover
  obtain rfl : [bundleFolder] = folders :=
    Except.ok.inj (congrArg Prod.fst (discover_bundleProject.symm.trans hDiscover))
  obtain ⟨content, text, root, e, hContent, hText, hRoot, hEdition, -, -, hFate⟩ :=
    hDocuments bundleFolder (List.mem_singleton_self _) bundlePath (List.mem_singleton_self _)
  obtain rfl := Except.ok.inj (read_bundlePath.symm.trans hContent)
  obtain rfl := Except.ok.inj ((Text.Utf8.decode_toUTF8 bundleDocument).symm.trans hText)
  obtain ⟨root', outer, inner, deep, hRead, hElements⟩ := exists_bundleElements
  obtain rfl := Except.ok.inj (hRead.symm.trans hRoot)
  obtain ⟨⟨-, -, -, hKnown⟩, -⟩ := facts_bundleDocument
  rcases hFate with ⟨flaw, -, hUnknown⟩ | ⟨hShows, hElsewhere⟩
  · obtain ⟨revision, hRevision⟩ := Option.isSome_iff_exists.1 (hKnown e hEdition)
    rw [unknownFlaw?, hRevision] at hUnknown
    cases hUnknown
  · refine ⟨outcome, t', report, root', e, read_strictArguments, rfl, hRun, hCode, hGenerate, hRead,
      hElements.shown, hShows, ?_⟩
    rcases hElsewhere outer hElements.outer_mem deep _
      (.head hElements.inner_held (.single hElements.deep_held)) hElements.deep_heading with
      hPlace | ⟨holder, -, name, -, -, hReported⟩
    · -- only the plain property is among those with entries
      have hListed := List.mem_filterMap.2 ⟨deep, hPlace, hElements.deep_heading⟩
      rw [hElements.shown] at hListed
      simp at hListed
    · exact ⟨name, hReported⟩

/-- **A strict run with exit code zero that leaves an element out.** In the project the deep
property has a name and declares a value, and the module has no entry of its name. -/
theorem deep_property_left_out :
    ∃ outcome t' report root top n,
      GeneratorOptions.read strictArguments = .ok strictOptions ∧ strictOptions.strict = true ∧
      (generatorCommand [] strictArguments : StateM FileTree Outcome) bundleProject =
        (outcome, t') ∧
      outcome.code = 0 ∧
      (discover (strictOptions.override {}).source.scan ⟨"/project/."⟩ :
        ExceptT Failure (StateM FileTree) _).run bundleProject =
        (.ok [bundleFolder], bundleProject) ∧
      bundlePath ∈ bundleFolder.files ∧
      bundleProject.read bundlePath = .ok bundleDocument.toUTF8 ∧
      readDocument (dropMark (dropMark bundleDocument.toList)) = .ok root ∧
      top ∈ propertyDefs root ∧ ReflTransGen Holds top n ∧
      heading? n = some ("Deep", .singleValue) ∧
      (generate (strictOptions.override {}) bundleLoaded.registry :
        ExceptT Failure (StateM FileTree) Report).run bundleProject = (.ok report, t') ∧
      ∀ entry ∈ (Module.ofRegistry (strictOptions.override {}) bundleLoaded.registry).entries,
        entry.name ≠ "Deep" := by
  obtain ⟨outcome, report, t', hGenerate, hRun, hCode⟩ := exists_run_bundleProject
  obtain ⟨root, outer, inner, deep, hRead, hElements⟩ := exists_bundleElements
  obtain ⟨⟨-, -, hEntries, -⟩, -⟩ := facts_bundleDocument
  refine ⟨outcome, t', report, root, outer, deep, read_strictArguments, rfl, hRun, hCode,
    discover_bundleProject, List.mem_singleton_self _, read_bundlePath, hRead, hElements.outer_mem,
    .head hElements.inner_held (.single hElements.deep_held), hElements.deep_heading, hGenerate,
    fun entry hMem => ?_⟩
  -- the headings of all entries were computed: there is one, and it is another one
  rw [entries_ofRegistry] at hMem
  have hHeading := List.mem_map_of_mem (f := PropertyEntry.heading) hMem
  rw [hEntries, List.mem_singleton] at hHeading
  have hPlain : entry.name = "Plain" := congrArg Prod.fst hHeading
  rw [hPlain]
  decide

end CommandLine

end PropertySets
