import PropertySets.Proofs.Document.Flaws
import PropertySets.Proofs.Registry.Insertions
import PropertySets.Proofs.Scan.Folders

/-!
# Files without a definition

A file that yields no definition is skipped, and nothing else comes of it: without the file the same
folders are searched and the same other documents are read, in the same order. Only the report is
shorter, by one omission for each time that the file was listed.

* `gatherReadings_counts` — the counts of a summary.
* `Surveyed.erase`, `Found.discover_erase` — surveys and searches without a file.
* `registry_without_refused`, `flaws_without_refused` — what is gathered without its readings.
* `loadRegistry_without_refused` — what is loaded without the file.
-/

namespace PropertySets

open FileTree

/-! ## Counts -/

theorem length_filterMap_edition? (readings : List Reading) :
    (readings.filterMap Reading.edition?).length +
      (readings.filter fun r => r.definition?.isNone).length = readings.length := by
  induction readings with
  | nil => rfl
  | cons r rest ih =>
    -- a reading is counted on one side of the sum or on the other
    cases hDefinition : r.definition? with
    | none =>
      rw [List.filterMap_cons_none (by rw [Reading.edition?, hDefinition]; rfl),
        List.filter_cons_of_pos (by rw [hDefinition]; rfl), List.length_cons, List.length_cons]
      omega
    | some definition =>
      rw [List.filterMap_cons_some (b := ⟨r.folder, definition⟩)
          (by rw [Reading.edition?, hDefinition]; rfl),
        List.filter_cons_of_neg (by rw [hDefinition]; simp), List.length_cons, List.length_cons]
      omega

/-- Every document is parsed or skipped: the parsed ones are those in the registry, the skipped ones
those without a definition. -/
theorem gatherReadings_counts (n : Nat) (readings : List Reading) :
    (gatherReadings n readings).summary.files = readings.length ∧
      (gatherReadings n readings).summary.parsed =
        (gatherReadings n readings).registry.definitionCount ∧
      (gatherReadings n readings).summary.skipped =
        (readings.filter fun r => r.definition?.isNone).length ∧
      (gatherReadings n readings).summary.files =
        (gatherReadings n readings).summary.parsed +
          (gatherReadings n readings).summary.skipped := by
  -- the summary counts documents, and the registry holds an edition for each that was parsed
  have hParsed : (gatherReadings n readings).summary.parsed =
      (readings.filterMap Reading.edition?).length := rfl
  have hSkipped : (gatherReadings n readings).summary.skipped =
      readings.length - (readings.filterMap Reading.edition?).length := rfl
  have hFiles : (gatherReadings n readings).summary.files = readings.length := rfl
  have hAll := length_filterMap_edition? readings
  rw [registry_gatherReadings, Registry.definitionCount_ofList]
  omega

/-! ## Readings without those of one document -/

section

variable {documents : List (String × Path)} {t : FileTree} {p : Path}

theorem readingOf_of_read {document : String × Path} {content : ByteArray}
    (h : t.read document.2 = .ok content) :
    readingOf t document = .ofBytes document.1 document.2 content := by
  rw [readingOf, contentAt_of_read h]

/-- What is reported of a document names its path. -/
theorem allFrom_readingOf (t : FileTree) (document : String × Path) :
    AllFrom document.2.text (readingOf t document).flaws :=
  allFrom_parseBytes _ document.1 document.2.text

theorem text_inj {p q : Path} : p.text = q.text ↔ p = q := by
  cases p
  cases q
  simp

theorem flaws_gatherReadings (n : Nat) (t : FileTree) (documents : List (String × Path)) :
    (gatherReadings n (documents.map (readingOf t))).flaws =
      documents.flatMap fun document => (readingOf t document).flaws :=
  List.flatMap_map _ _ _

/-- The flaws that name a path are those of the documents with this path. -/
theorem filter_flaws (keep : String → Bool) (t : FileTree) (documents : List (String × Path)) :
    (documents.flatMap fun document => (readingOf t document).flaws).filter
        (fun flaw => keep flaw.source) =
      (documents.filter fun document => keep document.2.text).flatMap
        fun document => (readingOf t document).flaws := by
  induction documents with
  | nil => rfl
  | cons first rest ih =>
    rw [List.flatMap_cons, List.filter_append, ih]
    -- all flaws of one document name it, so all of them are kept or none
    cases hKeep : keep first.2.text with
    | true =>
      rw [List.filter_cons_of_pos (by exact hKeep), List.flatMap_cons, List.filter_eq_self.2]
      intro flaw hMem
      rwa [allFrom_readingOf t first flaw hMem]
    | false =>
      rw [List.filter_cons_of_neg (by simp [hKeep]), List.filter_eq_nil_iff.2, List.nil_append]
      intro flaw hMem
      rw [allFrom_readingOf t first flaw hMem, hKeep]
      nofun

/-- Documents without a definition leave nothing in the registry. -/
theorem registry_without_refused (n n' : Nat)
    (hRefused : ∀ document ∈ documents, document.2 = p →
      (readingOf t document).definition? = none) :
    (gatherReadings n' ((documents.filter (·.2 ≠ p)).map (readingOf t))).registry =
      (gatherReadings n (documents.map (readingOf t))).registry := by
  rw [registry_gatherReadings, registry_gatherReadings, List.filterMap_map, List.filterMap_map,
    List.filterMap_filter]
  refine congrArg Registry.ofList (List.filterMap_congr ?_)
  intro document hMem
  by_cases hPath : document.2 = p
  · rw [if_neg (by simpa using hPath), Function.comp_apply, Reading.edition?,
      hRefused document hMem hPath]
    rfl
  · rw [if_pos (by simpa using hPath)]

/-- Without the documents of a path the flaws that name the path are missing. -/
theorem flaws_without_refused (n n' : Nat) :
    (gatherReadings n' ((documents.filter (·.2 ≠ p)).map (readingOf t))).flaws =
      (gatherReadings n (documents.map (readingOf t))).flaws.filter (·.source ≠ p.text) := by
  rw [flaws_gatherReadings, flaws_gatherReadings,
    filter_flaws (fun source => decide (source ≠ p.text))]
  simp only [ne_eq, text_inj]

/-- Documents that are reported by one flaw each. -/
theorem flaws_of_refused (n : Nat) {flaw : Diagnostic}
    (hRefused : ∀ document ∈ documents, document.2 = p → (readingOf t document).flaws = [flaw]) :
    (gatherReadings n (documents.map (readingOf t))).flaws.filter (·.source = p.text) =
      List.replicate ((documents.map (·.2)).count p) flaw := by
  rw [flaws_gatherReadings, filter_flaws (fun source => decide (source = p.text))]
  simp only [text_inj]
  induction documents with
  | nil => rfl
  | cons first rest ih =>
    rw [List.forall_mem_cons] at hRefused
    -- each place in the list adds one flaw of its own
    by_cases hPath : first.2 = p
    · rw [List.filter_cons_of_pos (by simpa using hPath), List.flatMap_cons, hRefused.1 hPath,
        ih hRefused.2, List.map_cons, hPath, List.count_cons_self]
      rfl
    · rw [List.filter_cons_of_neg (by simpa using hPath), ih hRefused.2, List.map_cons,
        List.count_cons_of_ne hPath]

end

/-! ## Searches without a file -/

namespace Surveyed

variable {rules : ScanRules} {root : Path} {t : FileTree} {d : Location} {entries : List Entry}
  {x : Entry} {serial : Nat} {content : ByteArray}

/-- Without a file the survey is the same but for the file. -/
theorem erase (h : Surveyed root t d entries) (hTree : t.WellFormed)
    (hFile : t.node? (d ++ x.names) = some (.file serial content)) :
    Surveyed root (t.erase (d ++ x.names)) d (entries.filter (·.names ≠ x.names)) ∧
      (t.erase (d ++ x.names)).survey root = (t.survey root).filter (·.names ≠ x.names) := by
  have hOther : d ≠ d ++ x.names := by
    intro hSame
    rw [← hSame, (target_eq_ok_iff.1 h.target).2] at hFile
    cases hFile
  have hTarget := target_erase hFile h.target hOther
  obtain ⟨entries', h'⟩ := exists_surveyed (hTree.erase hFile) hTarget
  obtain rfl := h'.lists.unique (h.lists.erase hFile)
  refine ⟨h', ?_⟩
  rw [h'.survey, h.survey, kindAt_erase hFile h.target, List.filter_cons_of_pos]
  -- the directory itself is no file
  simp only [decide_eq_true_eq]
  intro hNil
  rw [← hNil, List.append_nil] at hOther
  exact hOther rfl

/-- The same directories are searched without a file. -/
theorem schemaDirectories_erase (rules : ScanRules) (h : Surveyed root t d entries)
    (hTree : t.WellFormed) (hMem : x ∈ t.survey root) (hKind : x.kind = .file) :
    schemaDirectories rules root ((t.survey root).filter (·.names ≠ x.names)) =
      schemaDirectories rules root (t.survey root) := by
  rw [schemaDirectories, List.filter_filter]
  apply List.filter_congr
  intro e he
  by_cases hSame : e.names = x.names
  · obtain rfl := h.eq_of_path hTree he hMem (congrArg root.down hSame)
    simp [isSchemaDirectory, hKind]
  · simp [hSame]

/-- A directory has the same documents without a file, but for the file. -/
theorem documentsOf_erase (h : Surveyed root t d entries) (hTree : t.WellFormed)
    (hMem : x ∈ t.survey root) (directory : List String) :
    documentsOf rules root ((t.survey root).filter (·.names ≠ x.names)) directory =
      (documentsOf rules root (t.survey root) directory).filter (· ≠ root.down x.names) := by
  have hNames : ∀ depth,
      fileNames rules root ((t.survey root).filter (·.names ≠ x.names)) directory depth =
        (fileNames rules root (t.survey root) directory depth).filter
          (root.down · ≠ root.down x.names) := by
    intro depth
    rw [fileNames, fileNames, List.filter_filter, List.filter_map, List.filter_filter]
    refine congrArg (List.map _) (List.filter_congr ?_)
    intro e he
    -- different entries have different paths
    have hPath : e.names = x.names ↔ root.down e.names = root.down x.names :=
      ⟨congrArg root.down, fun hSame => congrArg Entry.names (h.eq_of_path hTree he hMem hSame)⟩
    simp [hPath, Bool.and_comm]
  rw [documentsOf_eq, documentsOf_eq, hNames, hNames, ← List.filter_append, List.filter_map]
  rfl

end Surveyed

namespace Found

variable {rules : ScanRules} {root : Path} {t : FileTree} {folders : List SchemaFolder}
  {d : Location} {entries : List Entry} {x : Entry} {serial : Nat} {content : ByteArray}

/-- Without a file the search succeeds as well, and lists everything but the file. -/
theorem discover_erase (h : Found rules root t folders d entries) (hTree : t.WellFormed)
    (hMem : x ∈ t.survey root) (hFile : t.node? (d ++ x.names) = some (.file serial content)) :
    ∃ folders', (discover rules root : ExceptT Failure (StateM FileTree) _).run
        (t.erase (d ++ x.names)) = (.ok folders', t.erase (d ++ x.names)) ∧
      listing folders' = (listing folders).filter (·.2 ≠ root.down x.names) := by
  obtain ⟨h', hSurvey⟩ := h.erase hTree hFile
  have hKind : x.kind = .file := by
    have hBelow : x.names ≠ [] := by
      intro hNil
      rw [hNil, List.append_nil, (target_eq_ok_iff.1 h.target).2] at hFile
      cases hFile
    obtain ⟨node, hNode, hKind⟩ := h.exists_node hMem hBelow
    rw [hFile] at hNode
    cases hNode
    exact hKind
  have hDirectories := h.schemaDirectories_erase rules hTree hMem hKind
  rw [← hSurvey] at hDirectories
  -- the directories are the same, so there is still a name around each of them
  have hTags := h.tagged
  rw [← hDirectories] at hTags
  refine ⟨_, run_discover_iff.2 ⟨rfl, ⟨d, h'.target⟩, foldersAmong_iff.2 ⟨hTags, rfl⟩⟩, ?_⟩
  rw [listing_filterMap hTags, h.listing_eq, hDirectories, List.filter_flatMap]
  apply List.flatMap_congr
  intro e _
  rw [documentsIn, documentsIn, List.filter_map, hSurvey, h.documentsOf_erase hTree hMem]
  rfl

/-- Other documents are read as before. -/
theorem read_erase (h : Found rules root t folders d entries) (hTree : t.WellFormed)
    (hFile : t.node? (d ++ x.names) = some (.file serial content)) {document : String × Path}
    (hListed : document ∈ listing folders) (hOther : document.2 ≠ root.down x.names)
    {read : ByteArray} (hRead : t.read document.2 = .ok read) :
    (t.erase (d ++ x.names)).read document.2 = .ok read := by
  obtain ⟨y, -, hPath, serial', content', hNode⟩ := h.exists_file (List.mem_map_of_mem hListed)
  rw [hPath] at hRead hOther ⊢
  have hTarget := target_of_read hTree h.target hNode hRead
  have hAfter := target_erase hFile hTarget fun hSame =>
    hOther (congrArg root.down (List.append_cancel_left hSame))
  rw [FileTree.read, hTarget] at hRead
  rw [FileTree.read, hAfter]
  exact hRead

/-- Without a file everything else is loaded as before. -/
theorem loadRegistry_erase {c : Configuration}
    (h : Found c.source.scan (c.sourceRoot (pathOf t.workingDirectory)) t folders d entries)
    (hTree : t.WellFormed)
    (hMem : x ∈ t.survey (c.sourceRoot (pathOf t.workingDirectory)))
    (hFile : t.node? (d ++ x.names) = some (.file serial content))
    (hReadable : ∀ document ∈ listing folders, ∃ content, t.read document.2 = .ok content) :
    ∃ n, (loadRegistry c : ExceptT Failure (StateM FileTree) Loaded).run (t.erase (d ++ x.names)) =
      (.ok (gatherReadings n (((listing folders).filter
        (·.2 ≠ (c.sourceRoot (pathOf t.workingDirectory)).down x.names)).map (readingOf t))),
        t.erase (d ++ x.names)) := by
  obtain ⟨folders', hDiscover, hListing⟩ := h.discover_erase hTree hMem hFile
  -- what is still listed was listed before, under another path than that of the file
  have hReads : ∀ document ∈ listing folders', ∃ content, t.read document.2 = .ok content ∧
      (t.erase (d ++ x.names)).read document.2 = .ok content := by
    intro document hListed
    rw [hListing, List.mem_filter, decide_eq_true_iff] at hListed
    obtain ⟨content, hRead⟩ := hReadable document hListed.1
    exact ⟨content, hRead, h.read_erase hTree hFile hListed.1 hListed.2 hRead⟩
  refine ⟨folders'.length, run_loadRegistry_iff.2 ⟨rfl, folders', hDiscover, ?_, ?_⟩⟩
  · intro document hListed
    obtain ⟨content, -, hRead⟩ := hReads document hListed
    exact ⟨content, hRead⟩
  · rw [← hListing]
    refine congrArg (gatherReadings _) (List.map_congr_left ?_)
    intro document hListed
    obtain ⟨content, hRead, hAfter⟩ := hReads document hListed
    rw [readingOf_of_read hRead, readingOf_of_read hAfter]

end Found

/-! ## Loading without a file -/

/--
**A file without a definition affects nothing else.** All listed documents were read, and each of
them is parsed or skipped: the parsed ones are those in the registry, the skipped ones those without
a definition.
If a listed file has no definition, the same registry is loaded from the tree without the file; and
what is reported less is one omission that names the file, for each time that it was listed.
-/
theorem loadRegistry_without_refused {t t' : FileTree} {c : Configuration} {loaded : Loaded}
    (hTree : t.WellFormed)
    (hLoad : (loadRegistry c : ExceptT Failure (StateM FileTree) Loaded).run t =
      (.ok loaded, t')) :
    ∃ folders,
      (discover c.source.scan (c.sourceRoot (pathOf t.workingDirectory)) :
        ExceptT Failure (StateM FileTree) _).run t = (.ok folders, t) ∧
      (∀ document ∈ listing folders, ∃ content, t.read document.2 = .ok content) ∧
      loaded.summary.files = (listing folders).length ∧
      loaded.summary.files = loaded.summary.parsed + loaded.summary.skipped ∧
      loaded.summary.parsed = loaded.registry.definitionCount ∧
      loaded.summary.skipped = ((listing folders).filter fun document =>
        (parseBytes (t.contentAt document.2) document.1 document.2.text).1.isNone).length ∧
      ∀ p ∈ folders.flatMap (·.files), ∀ l serial content folder,
        t.target p = .ok (l, .file serial content) →
        (parseBytes content folder p.text).1 = none →
        ∃ (loaded' : Loaded) (flaw : Diagnostic),
          (loadRegistry c : ExceptT Failure (StateM FileTree) Loaded).run (t.erase l) =
            (.ok loaded', t.erase l) ∧
          loaded'.registry = loaded.registry ∧
          flaw.source = p.text ∧ flaw.severity = .omission ∧
          loaded'.flaws = loaded.flaws.filter (·.source ≠ p.text) ∧
          loaded.flaws.filter (·.source = p.text) =
            List.replicate ((folders.flatMap (·.files)).count p) flaw := by
  obtain ⟨-, folders, hDiscover, hReadable, rfl⟩ := run_loadRegistry_iff.1 hLoad
  obtain ⟨hFiles, hParsed, hSkipped, hSum⟩ :=
    gatherReadings_counts folders.length ((listing folders).map (readingOf t))
  refine ⟨folders, hDiscover, hReadable, ?_, hSum, hParsed, ?_, ?_⟩
  · rw [hFiles, List.length_map]
  · rw [hSkipped, List.filter_map, List.length_map]
    rfl
  intro p hListed l serial content folder hTarget hNone
  obtain ⟨d, entries, h⟩ := exists_found hTree hDiscover
  rw [← map_snd_listing] at hListed ⊢
  obtain ⟨x, hMem, rfl, serial', content', hFile⟩ := h.exists_file hListed
  obtain ⟨-, hTerminator, hLength⟩ := text_of_resolve (target_eq_ok_iff.1 hTarget).1
  -- the path leads to the entry, so it is the entry that is taken away
  have hDown := target_down hTree h.target hFile nofun hTerminator hLength
  obtain ⟨rfl, hNode⟩ := Prod.mk.inj (Except.ok.inj (hTarget.symm.trans hDown))
  cases hNode
  obtain ⟨flaw, hSource, hSeverity, hFlaw⟩ := parseBytes_of_none hNone
  have hRead : t.read ((c.sourceRoot (pathOf t.workingDirectory)).down x.names) = .ok content := by
    rw [FileTree.read, hTarget]
    rfl
  -- whichever folder the file is listed in, this is what is read of it
  have hRefused : ∀ document ∈ listing folders,
      document.2 = (c.sourceRoot (pathOf t.workingDirectory)).down x.names →
        (readingOf t document).definition? = none ∧ (readingOf t document).flaws = [flaw] := by
    intro document _ hPath
    rw [← hPath] at hRead hFlaw
    rw [readingOf_of_read hRead]
    exact hFlaw document.1
  obtain ⟨n, hLoad'⟩ := h.loadRegistry_erase hTree hMem hFile hReadable
  refine ⟨_, flaw, hLoad', ?_, hSource, hSeverity, flaws_without_refused _ _, ?_⟩
  · exact registry_without_refused _ _ fun document hMem hPath => (hRefused document hMem hPath).1
  · exact flaws_of_refused _ fun document hMem hPath => (hRefused document hMem hPath).2

/-- In the archive the file that is no text is listed twice and reported twice; without it the same
registry is loaded, and nothing is reported of it. -/
theorem archive_without_damaged :
    archive.WellFormed ∧
      (loadRegistry archiveConfiguration : ExceptT Failure (StateM FileTree) Loaded).run archive =
        (.ok archiveLoaded, archive) ∧
      archive.target damagedPath = .ok
        (["home", "archive", "IFC4", "psd", "psd", "Pset_B.xml"], .file 1 ⟨#[0xff]⟩) ∧
      (parseBytes ⟨#[0xff]⟩ "psd" damagedPath.text).1 = none ∧
      ∃ (loaded' : Loaded) (flaw : Diagnostic),
        (loadRegistry archiveConfiguration : ExceptT Failure (StateM FileTree) Loaded).run
          (archive.erase ["home", "archive", "IFC4", "psd", "psd", "Pset_B.xml"]) =
          (.ok loaded', archive.erase ["home", "archive", "IFC4", "psd", "psd", "Pset_B.xml"]) ∧
        loaded'.registry = archiveLoaded.registry ∧ flaw.source = damagedPath.text ∧
        flaw.severity = .omission ∧
        loaded'.flaws = archiveLoaded.flaws.filter (·.source ≠ damagedPath.text) ∧
        archiveLoaded.flaws.filter (·.source = damagedPath.text) = [flaw, flaw] := by
  have hTarget : archive.target damagedPath = .ok
      (["home", "archive", "IFC4", "psd", "psd", "Pset_B.xml"], .file 1 ⟨#[0xff]⟩) :=
    target_archive _ (by decide) rfl (by decide) (by decide)
  have hNone : (parseBytes ⟨#[0xff]⟩ "psd" damagedPath.text).1 = none := by decide
  -- the general statement, at what the search of the archive was computed to find
  obtain ⟨folders, hDiscover, -, -, -, -, -, hWithout⟩ :=
    loadRegistry_without_refused wellFormed_archive loadRegistry_archive
  rw [sourceRoot_archive] at hDiscover
  obtain rfl : archiveFolders = folders :=
    Except.ok.inj (Prod.mk.inj (discover_archive.symm.trans hDiscover)).1
  exact ⟨wellFormed_archive, loadRegistry_archive, hTarget, hNone,
    hWithout damagedPath (by decide) _ _ _ "psd" hTarget hNone⟩

end PropertySets
