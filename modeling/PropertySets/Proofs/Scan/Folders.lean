import PropertySets.Proofs.CommandLine.Loading
import PropertySets.Proofs.Disk.Down

/-!
# What a search finds and what is read of it

A search succeeds when every directory that goes by the right name has a name around it. What it
finds then are the documents of these directories, one directory after the other, and all of them
are read from the tree as it is. So what is loaded is a function of the listed documents.

* `schemaDirectories`, `documentsIn` — the directories that are searched, and what is in them.
* `run_discover_iff`, `Found.listing_eq` — when a search succeeds, and what it lists.
* `run_loadRegistry_iff` — when the documents can be loaded, and what is loaded.
-/

namespace PropertySets

open FileTree

/-! ## Lists of fallible results -/

theorem mapM_eq_ok {ε α β : Type} {f : α → Except ε β} {g : α → β} {l : List α}
    (h : ∀ a ∈ l, f a = .ok (g a)) : l.mapM f = .ok (l.map g) := by
  induction l with
  | nil => rfl
  | cons first rest ih =>
    rw [List.forall_mem_cons] at h
    rw [List.mapM_cons, h.1, ih h.2]
    rfl

theorem exists_of_mapM_eq_ok {ε α β : Type} {f : α → Except ε β} {l : List α} {bs : List β}
    (h : l.mapM f = .ok bs) : ∀ a ∈ l, ∃ b, f a = .ok b := by
  induction l generalizing bs with
  | nil => nofun
  | cons first rest ih =>
    rw [List.mapM_cons] at h
    -- a failure anywhere would be the result
    cases hFirst : f first with
    | error e =>
      rw [hFirst] at h
      cases h
    | ok b =>
      rw [hFirst] at h
      cases hRest : rest.mapM f with
      | error e =>
        have hFail : (rest.mapM f >>= _) = Except.ok bs := h
        rw [hRest] at hFail
        cases hFail
      | ok others =>
        intro a hMem
        rcases List.mem_cons.1 hMem with rfl | hMem
        · exact ⟨b, hFirst⟩
        · exact ih hRest a hMem

/-! ## Schema directories -/

section

variable {rules : ScanRules} {root : Path} {entries : List Entry} {folders : List SchemaFolder}

/-- The name of what a directory is in. -/
def tagOf? (directory : Path) : Option String := directory.parent?.bind Path.fileName?

/-- Is the entry a directory that goes by the name of those that hold documents? -/
def isSchemaDirectory (rules : ScanRules) (root : Path) (e : Entry) : Bool :=
  e.kind == .directory && e.nameFrom root == rules.folderName

/-- The directories that documents are searched in. -/
def schemaDirectories (rules : ScanRules) (root : Path) (entries : List Entry) : List Entry :=
  entries.filter (isSchemaDirectory rules root)

/-- The schema folder of a directory, if there are documents and a name to file them under. -/
def folderIn? (rules : ScanRules) (root : Path) (entries : List Entry) (e : Entry) :
    Option SchemaFolder :=
  (tagOf? (e.pathFrom root)).bind fun folder =>
    let files := documentsOf rules root entries e.names
    if files.isEmpty then none else some ⟨folder, e.pathFrom root, files⟩

theorem schemaFolder?_eq_ok (rules : ScanRules) (entries : List Entry) (e : Entry)
    (hTag : (tagOf? (e.pathFrom root)).isSome) :
    schemaFolder? rules root entries e = .ok (folderIn? rules root entries e) := by
  obtain ⟨folder, hFolder⟩ := Option.isSome_iff_exists.1 hTag
  have hName : (e.pathFrom root).parent?.bind Path.fileName? = some folder := hFolder
  rw [schemaFolder?, folderIn?, hFolder]
  simp only [hName, Option.bind_some]

/-- A search succeeds when every directory that is searched has a name around it. -/
theorem foldersAmong_iff :
    foldersAmong rules root entries = .ok folders ↔
      (∀ e ∈ schemaDirectories rules root entries, (tagOf? (e.pathFrom root)).isSome) ∧
        folders = (schemaDirectories rules root entries).filterMap
          (folderIn? rules root entries) := by
  have hTagged : (∀ e ∈ schemaDirectories rules root entries, (tagOf? (e.pathFrom root)).isSome) →
      foldersAmong rules root entries =
        .ok ((schemaDirectories rules root entries).filterMap (folderIn? rules root entries)) := by
    intro hTags
    have hAll := mapM_eq_ok fun e hMem =>
      schemaFolder?_eq_ok rules entries e (hTags e hMem)
    show ((schemaDirectories rules root entries).mapM _ >>= _) = _
    rw [hAll]
    show Except.ok (List.filterMap id _) = _
    rw [List.filterMap_map]
    rfl
  constructor
  · intro h
    -- a directory without a name around it would have ended the search
    have hTags : ∀ e ∈ schemaDirectories rules root entries,
        (tagOf? (e.pathFrom root)).isSome := by
      intro e hMem
      cases hFound : (schemaDirectories rules root entries).mapM
          (schemaFolder? rules root entries) with
      | error failure =>
        have hFail : ((schemaDirectories rules root entries).mapM _ >>= _) = Except.ok folders := h
        rw [hFound] at hFail
        cases hFail
      | ok found =>
        obtain ⟨folder?, hFolder⟩ := exists_of_mapM_eq_ok hFound e hMem
        rw [schemaFolder?] at hFolder
        rw [tagOf?]
        cases hName : (e.pathFrom root).parent?.bind Path.fileName? with
        | none =>
          simp only [hName] at hFolder
          cases hFolder
        | some name => rfl
    exact ⟨hTags, Except.ok.inj (h.symm.trans (hTagged hTags))⟩
  · rintro ⟨hTags, rfl⟩
    exact hTagged hTags

/-! ## Documents -/

/-- The documents of schema folders in the order they are read, each with the name of its folder. -/
def listing (folders : List SchemaFolder) : List (String × Path) :=
  folders.flatMap fun f => f.files.map fun path => (f.folder, path)

theorem map_snd_listing (folders : List SchemaFolder) :
    (listing folders).map (·.2) = folders.flatMap (·.files) := by
  rw [listing, List.map_flatMap]
  simp [Function.comp_def]

/-- The documents of a directory, with the name of what the directory is in. -/
def documentsIn (rules : ScanRules) (root : Path) (entries : List Entry) (e : Entry) :
    List (String × Path) :=
  (documentsOf rules root entries e.names).map fun path =>
    ((tagOf? (e.pathFrom root)).getD "", path)

/-- Directories without documents do not matter for what is listed. -/
theorem listing_filterMap {directories : List Entry}
    (hTags : ∀ e ∈ directories, (tagOf? (e.pathFrom root)).isSome) :
    listing (directories.filterMap (folderIn? rules root entries)) =
      directories.flatMap (documentsIn rules root entries) := by
  induction directories with
  | nil => rfl
  | cons e rest ih =>
    rw [List.forall_mem_cons] at hTags
    obtain ⟨folder, hFolder⟩ := Option.isSome_iff_exists.1 hTags.1
    rw [List.flatMap_cons, ← ih hTags.2, documentsIn, hFolder, Option.getD_some]
    cases hFiles : documentsOf rules root entries e.names with
    | nil =>
      -- no folder, and nothing to be listed
      rw [List.filterMap_cons_none (by simp [folderIn?, hFolder, hFiles])]
      rfl
    | cons first others =>
      rw [List.filterMap_cons_some (b := ⟨folder, e.pathFrom root, first :: others⟩)
        (by simp [folderIn?, hFolder, hFiles])]
      rfl

/-- The fitting files that lie a number of levels below a directory. -/
def fileNames (rules : ScanRules) (root : Path) (entries : List Entry) (directory : List String)
    (depth : Nat) : List (List String) :=
  (entries.filter fun x =>
    x.isFileBelow directory depth && rules.accepts (root.down x.names)).map (·.names)

theorem mem_fileNames {directory names : List String} {depth : Nat} :
    names ∈ fileNames rules root entries directory depth ↔
      (∃ x ∈ entries, x.names = names ∧ x.kind = .file) ∧ rules.accepts (root.down names) = true ∧
        ∃ more, names = directory ++ more ∧ more.length = depth := by
  simp only [fileNames, List.mem_map, List.mem_filter, Entry.isFileBelow, Bool.and_eq_true,
    beq_iff_eq, List.isPrefixOf_iff_prefix]
  constructor
  · rintro ⟨x, ⟨hMem, ⟨⟨hKind, more, hMore⟩, hLength⟩, hAccepts⟩, rfl⟩
    refine ⟨⟨x, hMem, rfl, hKind⟩, hAccepts, more, hMore.symm, ?_⟩
    rw [← hMore, List.length_append] at hLength
    omega
  · rintro ⟨⟨x, hMem, rfl, hKind⟩, hAccepts, more, hMore, rfl⟩
    refine ⟨x, ⟨hMem, ⟨⟨hKind, more, hMore.symm⟩, ?_⟩, hAccepts⟩, rfl⟩
    rw [hMore, List.length_append]

theorem documentsOf_eq (rules : ScanRules) (root : Path) (entries : List Entry)
    (directory : List String) :
    documentsOf rules root entries directory =
      (fileNames rules root entries directory 2 ++
        fileNames rules root entries directory 1).map root.down := by
  -- it does not matter whether files are chosen before or after their paths are made
  have hFiles : ∀ depth, ((entries.filter (Entry.isFileBelow directory depth)).map
      (Entry.pathFrom root)).filter rules.accepts =
      (fileNames rules root entries directory depth).map root.down := by
    intro depth
    rw [List.filter_map, List.filter_filter, fileNames, List.map_map]
    simp only [Bool.and_comm]
    rfl
  rw [List.map_append, ← hFiles, ← hFiles]
  rfl

/-- The documents of a directory are the fitting files in it and in the directories in it. -/
theorem mem_documentsOf {directory : List String} {p : Path} :
    p ∈ documentsOf rules root entries directory ↔
      ∃ names, p = root.down names ∧ (∃ x ∈ entries, x.names = names ∧ x.kind = .file) ∧
        rules.accepts p = true ∧
        ((∃ sub name, names = directory ++ [sub, name]) ∨ ∃ name, names = directory ++ [name]) := by
  rw [documentsOf_eq, List.mem_map]
  simp only [List.mem_append, mem_fileNames, List.length_eq_two, List.length_eq_one_iff]
  constructor
  · rintro ⟨names, ⟨hFile, hAccepts, _, hNames, sub, name, rfl⟩ |
      ⟨hFile, hAccepts, _, hNames, name, rfl⟩, rfl⟩
    · exact ⟨names, rfl, hFile, hAccepts, .inl ⟨sub, name, hNames⟩⟩
    · exact ⟨names, rfl, hFile, hAccepts, .inr ⟨name, hNames⟩⟩
  · rintro ⟨names, rfl, hFile, hAccepts, ⟨sub, name, hNames⟩ | ⟨name, hNames⟩⟩
    · exact ⟨names, .inl ⟨hFile, hAccepts, _, hNames, sub, name, rfl⟩, rfl⟩
    · exact ⟨names, .inr ⟨hFile, hAccepts, _, hNames, name, rfl⟩, rfl⟩

end

/-! ## Searches in trees -/

section

variable {t t' : FileTree} {rules : ScanRules} {root : Path} {folders : List SchemaFolder}

theorem isDirectory_iff : t.isDirectory root = true ↔ ∃ d, t.target root = .ok (d, .directory) := by
  rw [isDirectory]
  constructor
  · intro h
    split at h
    · rename_i d hTarget
      exact ⟨d, hTarget⟩
    · cases h
  · rintro ⟨d, hTarget⟩
    rw [hTarget]

theorem run_discover (rules : ScanRules) (root : Path) :
    (discover rules root : ExceptT Failure (StateM FileTree) _).run t =
      (if t.isDirectory root then foldersAmong rules root (t.survey root)
        else .error (.missingSourceRoot root), t) := by
  show (if t.isDirectory root then _ else _ : StateM FileTree _) t = _
  split
  · rfl
  · rfl

/-- A search leaves the tree as it is, and succeeds in a directory where every directory that is
searched has a name around it. -/
theorem run_discover_iff :
    (discover rules root : ExceptT Failure (StateM FileTree) _).run t = (.ok folders, t') ↔
      t' = t ∧ (∃ d, t.target root = .ok (d, .directory)) ∧
        foldersAmong rules root (t.survey root) = .ok folders := by
  have hRun := run_discover (t := t) rules root
  rw [← isDirectory_iff]
  -- without a directory at the root the search fails at once
  by_cases hDirectory : t.isDirectory root = true
  · rw [if_pos hDirectory] at hRun
    constructor
    · intro h
      obtain ⟨hFolders, hSame⟩ := Prod.mk.inj (hRun.symm.trans h)
      exact ⟨hSame.symm, hDirectory, hFolders⟩
    · rintro ⟨rfl, -, hFolders⟩
      rw [hRun, hFolders]
  · rw [if_neg hDirectory] at hRun
    constructor
    · intro h
      cases hRun.symm.trans h
    · rintro ⟨-, hYes, -⟩
      exact absurd hYes hDirectory

/-- A root that leads to a directory of a well-formed tree, and what is surveyed from it. -/
structure Surveyed (root : Path) (t : FileTree) (d : Location) (entries : List Entry) : Prop where
  target : t.target root = .ok (d, .directory)
  survey : t.survey root = ⟨[], t.kindAt root⟩ :: entries
  lists : t.Lists d entries

theorem exists_surveyed {d : Location} (hTree : t.WellFormed)
    (hTarget : t.target root = .ok (d, .directory)) : ∃ entries, Surveyed root t d entries := by
  obtain ⟨entries, hSurvey, hLists⟩ := hTree.exists_survey hTarget
  exact ⟨entries, hTarget, hSurvey, hLists⟩

namespace Surveyed

variable {d : Location} {entries : List Entry}

/-- Entries, the directory itself among them, are listed in order and once each. -/
theorem ascending (h : Surveyed root t d entries) : (t.survey root).Pairwise EntryBefore := by
  rw [h.survey, List.pairwise_cons]
  refine ⟨?_, h.lists.ascending⟩
  intro e hMem
  obtain ⟨name, names, hNames⟩ := List.exists_cons_of_ne_nil (h.lists.ne_nil hMem)
  rw [EntryBefore, hNames]
  exact before_nil_cons name names

/-- What is listed is in the tree. -/
theorem exists_node (h : Surveyed root t d entries) {e : Entry} (hMem : e ∈ t.survey root)
    (hBelow : e.names ≠ []) :
    ∃ node, t.node? (d ++ e.names) = some node ∧ e.kind = kindOf node := by
  rw [h.survey] at hMem
  rcases List.mem_cons.1 hMem with rfl | hMem
  · exact absurd rfl hBelow
  · exact ((h.lists.mem_iff e).1 hMem).2

/-- The names of listed entries tell what is at their locations. -/
theorem exists_entry_iff (h : Surveyed root t d entries) {names : List String}
    (hBelow : names ≠ []) {kind : EntryKind} :
    (∃ x ∈ t.survey root, x.names = names ∧ x.kind = kind) ↔
      ∃ node, t.node? (d ++ names) = some node ∧ kindOf node = kind := by
  constructor
  · rintro ⟨x, hMem, rfl, rfl⟩
    obtain ⟨node, hNode, hKind⟩ := h.exists_node hMem hBelow
    exact ⟨node, hNode, hKind.symm⟩
  · rintro ⟨node, hNode, rfl⟩
    refine ⟨⟨names, kindOf node⟩, ?_, rfl, rfl⟩
    rw [h.survey]
    exact List.mem_cons_of_mem _ ((h.lists.mem_iff _).2 ⟨hBelow, node, hNode, rfl⟩)

theorem isFileName (h : Surveyed root t d entries) (hTree : t.WellFormed) {e : Entry}
    (hMem : e ∈ t.survey root) : ∀ name ∈ e.names, IsFileName name := by
  by_cases hBelow : e.names = []
  · simp [hBelow]
  · obtain ⟨node, hNode, -⟩ := h.exists_node hMem hBelow
    exact hTree.isFileName hNode

/-- Entries with the same path are one entry. -/
theorem eq_of_path (h : Surveyed root t d entries) (hTree : t.WellFormed) {e f : Entry}
    (he : e ∈ t.survey root) (hf : f ∈ t.survey root)
    (hPath : e.pathFrom root = f.pathFrom root) : e = f := by
  have hDistinct : ((t.survey root).map (·.names)).Nodup :=
    List.pairwise_map.2 (h.ascending.imp fun hBefore => hBefore.2)
  refine List.inj_on_of_nodup_map hDistinct he hf ?_
  exact Path.down_injective root (h.isFileName hTree he) (h.isFileName hTree hf) hPath

end Surveyed

/-- What a search in a well-formed tree has found. -/
structure Found (rules : ScanRules) (root : Path) (t : FileTree) (folders : List SchemaFolder)
    (d : Location) (entries : List Entry) : Prop extends Surveyed root t d entries where
  tagged : ∀ e ∈ schemaDirectories rules root (t.survey root), (tagOf? (e.pathFrom root)).isSome
  folders_eq : folders = (schemaDirectories rules root (t.survey root)).filterMap
    (folderIn? rules root (t.survey root))

theorem exists_found (hTree : t.WellFormed)
    (hRun : (discover rules root : ExceptT Failure (StateM FileTree) _).run t = (.ok folders, t')) :
    ∃ d entries, Found rules root t folders d entries := by
  obtain ⟨-, ⟨d, hTarget⟩, hFolders⟩ := run_discover_iff.1 hRun
  obtain ⟨entries, hSurveyed⟩ := exists_surveyed hTree hTarget
  obtain ⟨hTags, hFolders⟩ := foldersAmong_iff.1 hFolders
  exact ⟨d, entries, hSurveyed, hTags, hFolders⟩

namespace Found

variable {d : Location} {entries : List Entry}

theorem listing_eq (h : Found rules root t folders d entries) :
    listing folders = (schemaDirectories rules root (t.survey root)).flatMap
      (documentsIn rules root (t.survey root)) := by
  rw [h.folders_eq, listing_filterMap h.tagged]

/-- A listed document is a file below the root. -/
theorem exists_file (h : Found rules root t folders d entries) {p : Path}
    (hMem : p ∈ (listing folders).map (·.2)) :
    ∃ x ∈ t.survey root, p = root.down x.names ∧
      ∃ serial content, t.node? (d ++ x.names) = some (.file serial content) := by
  rw [h.listing_eq, List.map_flatMap] at hMem
  obtain ⟨e, -, hMem⟩ := List.mem_flatMap.1 hMem
  obtain ⟨document, hDocument, rfl⟩ := List.mem_map.1 hMem
  obtain ⟨path, hPath, rfl⟩ := List.mem_map.1 hDocument
  -- a document has one name or two below its folder, and is an entry of the survey
  obtain ⟨names, hPath, ⟨x, hListed, rfl, hKind⟩, -, hNames⟩ := mem_documentsOf.1 hPath
  have hBelow : x.names ≠ [] := by
    rcases hNames with ⟨sub, name, hNames⟩ | ⟨name, hNames⟩
    · simp [hNames]
    · simp [hNames]
  obtain ⟨node, hNode, hNodeKind⟩ := h.exists_node hListed hBelow
  rw [hKind] at hNodeKind
  cases node with
  | file serial content => exact ⟨x, hListed, hPath, serial, content, hNode⟩
  | directory | link => cases hNodeKind

end Found

/-! ## Loading -/

/-- The bytes of a file that can be read. -/
def FileTree.contentAt (t : FileTree) (p : Path) : ByteArray :=
  match t.read p with
  | .ok content => content
  | .error _ => .empty

theorem contentAt_of_read {p : Path} {content : ByteArray} (h : t.read p = .ok content) :
    t.contentAt p = content := by
  rw [contentAt, h]

/-- The edition that was read of a document, if any. -/
def Reading.edition? (r : Reading) : Option Edition :=
  r.definition?.map fun definition => ⟨r.folder, definition⟩

theorem registry_gatherReadings (n : Nat) (readings : List Reading) :
    (gatherReadings n readings).registry = .ofList (readings.filterMap Reading.edition?) := rfl

/-- What is read of a document of a folder. -/
def readingOf (t : FileTree) (document : String × Path) : Reading :=
  .ofBytes document.1 document.2 (t.contentAt document.2)

theorem run_mapM_eq_ok {α β : Type} {f : α → ExceptT Failure (StateM FileTree) β} {g : α → β}
    {l : List α} (h : ∀ a ∈ l, (f a).run t = (.ok (g a), t)) :
    (l.mapM f).run t = (.ok (l.map g), t) := by
  induction l with
  | nil => rfl
  | cons first rest ih =>
    rw [List.forall_mem_cons] at h
    rw [List.mapM_cons, run_bind_ok h.1, run_bind_ok (ih h.2)]
    rfl

/-- Loading leaves the tree as it is. It succeeds when the search does and everything that it lists
can be read, and then gathers what was read of each document. -/
theorem run_loadRegistry_iff {c : Configuration} {loaded : Loaded} :
    (loadRegistry c : ExceptT Failure (StateM FileTree) Loaded).run t = (.ok loaded, t') ↔
      t' = t ∧ ∃ folders,
        (discover c.source.scan (c.sourceRoot (pathOf t.workingDirectory)) :
          ExceptT Failure (StateM FileTree) _).run t = (.ok folders, t) ∧
        (∀ document ∈ listing folders, ∃ content, t.read document.2 = .ok content) ∧
        loaded = gatherReadings folders.length ((listing folders).map (readingOf t)) := by
  have hWorking : (liftM (Disk.workingDirectory : StateM FileTree Path) :
      ExceptT Failure (StateM FileTree) Path).run t = (.ok (pathOf t.workingDirectory), t) :=
    run_liftM rfl
  -- the documents are read one by one, and this is what comes out
  have hAll : ∀ folders, (discover c.source.scan (c.sourceRoot (pathOf t.workingDirectory)) :
        ExceptT Failure (StateM FileTree) _).run t = (.ok folders, t) →
      (∀ document ∈ listing folders, ∃ content, t.read document.2 = .ok content) →
      (loadRegistry c : ExceptT Failure (StateM FileTree) Loaded).run t =
        (.ok (gatherReadings folders.length ((listing folders).map (readingOf t))), t) := by
    intro folders hDiscover hReadable
    rw [loadRegistry, run_bind_ok hWorking, run_bind_ok hDiscover,
      run_bind_ok (run_mapM_eq_ok (g := readingOf t) fun document hMem => ?_)]
    · rfl
    · obtain ⟨content, hRead⟩ := hReadable document hMem
      rw [readingOf, contentAt_of_read hRead]
      exact run_reading hRead
  constructor
  · intro h
    obtain ⟨folders, readings, hDiscover, -, hRead⟩ := read_of_run_loadRegistry h
    have hReadable : ∀ document ∈ listing folders, ∃ content, t.read document.2 = .ok content := by
      intro document hMem
      obtain ⟨f, hFolder, hMem⟩ := List.mem_flatMap.1 hMem
      obtain ⟨path, hPath, rfl⟩ := List.mem_map.1 hMem
      obtain ⟨content, hContent, -⟩ := hRead f hFolder path hPath
      exact ⟨content, hContent⟩
    obtain ⟨hLoaded, hSame⟩ := Prod.mk.inj (h.symm.trans (hAll folders hDiscover hReadable))
    exact ⟨hSame, folders, hDiscover, hReadable, Except.ok.inj hLoaded⟩
  · rintro ⟨rfl, folders, hDiscover, hReadable, rfl⟩
    exact hAll folders hDiscover hReadable

end

/-! ## An archive -/

/-- A document of one property set. -/
def archiveDocument : String :=
  "<PropertySetDef><Name>Pset_A</Name><IfcVersion version=\"4\"/></PropertySetDef>"

/-- A directory of documents, and in it another one of the same name with a file that is no text. -/
def archive : FileTree :=
  ⟨[(["home"], .directory), (["home", "archive"], .directory),
    (["home", "archive", "IFC4"], .directory), (["home", "archive", "IFC4", "psd"], .directory),
    (["home", "archive", "IFC4", "psd", "Pset_A.xml"], .file 0 archiveDocument.toUTF8),
    (["home", "archive", "IFC4", "psd", "psd"], .directory),
    (["home", "archive", "IFC4", "psd", "psd", "Pset_B.xml"], .file 1 ⟨#[0xff]⟩)], 2, ["home"]⟩

/-- The path of the document. -/
def archivedPath : Path := ⟨"/home/archive/IFC4/psd/Pset_A.xml"⟩

/-- The path of the file that is no text. -/
def damagedPath : Path := ⟨"/home/archive/IFC4/psd/psd/Pset_B.xml"⟩

/-- The schema folders of the archive. -/
def archiveFolders : List SchemaFolder :=
  [⟨"IFC4", ⟨"/home/archive/IFC4/psd"⟩, [damagedPath, archivedPath]⟩,
    ⟨"psd", ⟨"/home/archive/IFC4/psd/psd"⟩, [damagedPath]⟩]

theorem wellFormed_archive : archive.WellFormed := wellFormed_of_nodes (by decide) (by decide)

theorem unlinked_archive : archive.Unlinked :=
  unlinked_of_nodes (by simp [archive, kindOf])

/-- A path that spells a location of the archive leads there. -/
theorem target_archive {p : Path} {node : TreeNode} (names : List String)
    (hPath : Path.down ⟨"/"⟩ names = p) (hNode : archive.node? names = some node)
    (hTerminator : '\x00' ∉ p.text.toList) (hLength : p.text.utf8ByteSize ≤ 4095) :
    archive.target p = .ok (names, node) := by
  subst hPath
  refine target_down wellFormed_archive (target_slash archive) hNode (fun target hLink => ?_)
    hTerminator hLength
  exact unlinked_archive names target (hNode.trans (congrArg some hLink))

theorem target_archiveRoot :
    archive.target ⟨"/home/archive"⟩ = .ok (["home", "archive"], .directory) :=
  target_archive ["home", "archive"] (by decide) rfl (by decide) (by decide)

theorem survey_archive :
    archive.survey ⟨"/home/archive"⟩ =
      [⟨[], .directory⟩, ⟨["IFC4"], .directory⟩, ⟨["IFC4", "psd"], .directory⟩,
        ⟨["IFC4", "psd", "Pset_A.xml"], .file⟩, ⟨["IFC4", "psd", "psd"], .directory⟩,
        ⟨["IFC4", "psd", "psd", "Pset_B.xml"], .file⟩] := by
  rw [survey_of_target target_archiveRoot, unlinked_archive.kindAt_directory target_archiveRoot,
    List.mergeSort_of_pairwise (by decide)]
  rfl

theorem discover_archive :
    (discover {} ⟨"/home/archive"⟩ : ExceptT Failure (StateM FileTree) _).run archive =
      (.ok archiveFolders, archive) := by
  refine run_discover_iff.2 ⟨rfl, ⟨_, target_archiveRoot⟩, ?_⟩
  rw [survey_archive]
  rfl

/-- The configuration that leads to the archive. -/
def archiveConfiguration : Configuration := { source := { root := ⟨"archive"⟩ } }

theorem sourceRoot_archive :
    archiveConfiguration.sourceRoot (pathOf archive.workingDirectory) = ⟨"/home/archive"⟩ := by
  decide

/-- What is read in the archive. -/
def archiveLoaded : Loaded :=
  gatherReadings 2 ((listing archiveFolders).map (readingOf archive))

theorem read_damagedPath : archive.read damagedPath = .ok ⟨#[0xff]⟩ := by
  rw [FileTree.read, target_archive ["home", "archive", "IFC4", "psd", "psd", "Pset_B.xml"]
    (by decide) rfl (by decide) (by decide)]
  rfl

theorem read_archivedPath : archive.read archivedPath = .ok archiveDocument.toUTF8 := by
  rw [FileTree.read, target_archive ["home", "archive", "IFC4", "psd", "Pset_A.xml"]
    (by decide) rfl (by decide) (by decide)]
  rfl

theorem loadRegistry_archive :
    (loadRegistry archiveConfiguration : ExceptT Failure (StateM FileTree) Loaded).run archive =
      (.ok archiveLoaded, archive) := by
  have hListing : listing archiveFolders =
      [("IFC4", damagedPath), ("IFC4", archivedPath), ("psd", damagedPath)] := rfl
  refine run_loadRegistry_iff.2 ⟨rfl, archiveFolders, ?_, ?_, rfl⟩
  · rw [sourceRoot_archive]
    exact discover_archive
  · rw [hListing]
    simp [read_damagedPath, read_archivedPath]

end PropertySets
