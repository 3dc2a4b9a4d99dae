import PropertySets.Proofs.Scan.Folders

/-!
# Documents that are listed twice

A schema directory takes the documents in it and those in the directories in it, and the search goes
on below it. Where one schema directory is directly in another, both take the documents of the inner
one: these are listed under two schema folders. No other document is listed more than once, so at
most two definitions come from one file.

* `Found.nodup_documentsOf` — no directory takes a document twice.
* `Found.count_files` — a document is listed once for each schema directory that takes it.
* `listed_twice_iff_nested` — how often documents are listed, and what that means for the registry.
-/

namespace PropertySets

open FileTree

/-! ## Counting in lists -/

section

variable {α β : Type}

/-- What every list has once at most comes once for each list that has it. -/
theorem count_flatMap_of_nodup [DecidableEq β] {f : α → List β} {l : List α}
    (h : ∀ a ∈ l, (f a).Nodup) (b : β) :
    (l.flatMap f).count b = (l.filter fun a => decide (b ∈ f a)).length := by
  induction l with
  | nil => rfl
  | cons a rest ih =>
    rw [List.forall_mem_cons] at h
    rw [List.flatMap_cons, List.count_append, ih h.2, h.1.count]
    by_cases hMem : b ∈ f a
    · rw [if_pos hMem, List.filter_cons_of_pos (by simpa using hMem), List.length_cons,
        Nat.add_comm]
    · rw [if_neg hMem, List.filter_cons_of_neg (by simpa using hMem), Nat.zero_add]

/-- A list without repetitions of two things has two members only if it has both. -/
theorem length_of_two {l : List α} {a b : α} (hNodup : l.Nodup) (hTwo : ∀ x ∈ l, x = a ∨ x = b) :
    l.length ≤ 2 ∧ (l.length = 2 → a ≠ b ∧ a ∈ l ∧ b ∈ l) := by
  have hSub : l.Subperm [a, b] :=
    List.subperm_of_subset hNodup fun x hMem => by simpa using hTwo x hMem
  refine ⟨hSub.length_le, ?_⟩
  intro hLength
  have hPerm := hSub.perm_of_length_le (by rw [hLength]; rfl)
  refine ⟨?_, hPerm.mem_iff.2 (by simp), hPerm.mem_iff.2 (by simp)⟩
  intro hSame
  have hBoth := hPerm.nodup_iff.1 hNodup
  simp [hSame] at hBoth

theorem two_le_length {l : List α} {a b : α} (hOther : a ≠ b) (ha : a ∈ l) (hb : b ∈ l) :
    2 ≤ l.length := by
  have hPair : [a, b].Nodup := by simpa using hOther
  have hSub : [a, b].Subperm l := List.subperm_of_subset hPair fun x hMem => by
    rcases List.mem_pair.1 hMem with rfl | rfl
    · exact ha
    · exact hb
  exact hSub.length_le

end

/-! ## Documents of one directory -/

namespace Found

variable {rules : ScanRules} {root : Path} {t : FileTree} {folders : List SchemaFolder}
  {d : Location} {entries : List Entry}

/-- No directory takes a document twice. -/
theorem nodup_documentsOf (h : Found rules root t folders d entries) (hTree : t.WellFormed)
    (directory : List String) : (documentsOf rules root (t.survey root) directory).Nodup := by
  have hFiles : ∀ depth, (fileNames rules root (t.survey root) directory depth).Nodup :=
    fun depth => List.pairwise_map.2 ((h.ascending.filter _).imp fun hBefore => hBefore.2)
  have hIsName : ∀ {depth names}, names ∈ fileNames rules root (t.survey root) directory depth →
      ∀ name ∈ names, IsFileName name := by
    intro depth names hMem
    obtain ⟨⟨x, hx, rfl, -⟩, -⟩ := mem_fileNames.1 hMem
    exact h.isFileName hTree hx
  rw [documentsOf_eq]
  refine List.Nodup.map_on ?_ ?_
  · intro names hMem names' hMem'
    have hNames : ∀ name ∈ names, IsFileName name := (List.mem_append.1 hMem).elim hIsName hIsName
    have hNames' : ∀ name ∈ names', IsFileName name :=
      (List.mem_append.1 hMem').elim hIsName hIsName
    exact Path.down_injective root hNames hNames'
  · refine List.nodup_append.2 ⟨hFiles 2, hFiles 1, ?_⟩
    rintro names hDeep _ hOwn rfl
    obtain ⟨-, -, more, rfl, hMore⟩ := mem_fileNames.1 hDeep
    obtain ⟨-, -, more', hSame, hMore'⟩ := mem_fileNames.1 hOwn
    -- it cannot be at both depths
    rw [List.append_cancel_left_eq] at hSame
    rw [hSame] at hMore
    omega

/-- The schema directories that take a document. -/
def takers (rules : ScanRules) (root : Path) (t : FileTree) (p : Path) : List (List String) :=
  ((schemaDirectories rules root (t.survey root)).filter fun e =>
    decide (p ∈ documentsOf rules root (t.survey root) e.names)).map (·.names)

theorem mem_takers {p : Path} {names : List String} :
    names ∈ takers rules root t p ↔
      ∃ e ∈ schemaDirectories rules root (t.survey root), e.names = names ∧
        p ∈ documentsOf rules root (t.survey root) names := by
  simp only [takers, List.mem_map, List.mem_filter, decide_eq_true_eq]
  constructor
  · rintro ⟨e, ⟨hMem, hTaken⟩, rfl⟩
    exact ⟨e, hMem, rfl, hTaken⟩
  · rintro ⟨e, hMem, rfl, hTaken⟩
    exact ⟨e, ⟨hMem, hTaken⟩, rfl⟩

theorem nodup_takers (h : Found rules root t folders d entries) (p : Path) :
    (takers rules root t p).Nodup := by
  exact List.pairwise_map.2 (((h.ascending.filter _).filter _).imp fun hBefore => hBefore.2)

/-- A document is listed once for each schema directory that takes it. -/
theorem count_files (h : Found rules root t folders d entries) (hTree : t.WellFormed) (p : Path) :
    (folders.flatMap (·.files)).count p = (takers rules root t p).length := by
  have hFiles : folders.flatMap (·.files) = (schemaDirectories rules root (t.survey root)).flatMap
      fun e => documentsOf rules root (t.survey root) e.names := by
    rw [← map_snd_listing, h.listing_eq, List.map_flatMap]
    simp [documentsIn, Function.comp_def]
  -- each directory that takes the document has it once
  rw [hFiles, count_flatMap_of_nodup fun e _ => h.nodup_documentsOf hTree e.names, takers,
    List.length_map]

/-- A document below a root is taken by the directory that it is in and by the one around that, if
by any. -/
theorem eq_of_mem_takers (h : Found rules root t folders d entries) (hTree : t.WellFormed)
    {x : Entry} (hx : x ∈ t.survey root) {names : List String}
    (hMem : names ∈ takers rules root t (root.down x.names)) :
    names = x.names.dropLast ∨ names = x.names.dropLast.dropLast := by
  obtain ⟨-, -, -, hTaken⟩ := mem_takers.1 hMem
  obtain ⟨_, hPath, ⟨y, hy, rfl, -⟩, -, hNames⟩ := mem_documentsOf.1 hTaken
  obtain rfl := h.eq_of_path hTree hx hy hPath
  -- the taker is one or two names up from the document
  rcases hNames with ⟨sub, name, hNames⟩ | ⟨name, hNames⟩
  · right
    rw [hNames, List.append_cons, List.dropLast_concat, List.dropLast_concat]
  · left
    rw [hNames, List.dropLast_concat]

/-- A document with two takers is directly in a schema directory that is directly in another. -/
theorem nested_of_length_takers (h : Found rules root t folders d entries) (hTree : t.WellFormed)
    {x : Entry} (hx : x ∈ t.survey root)
    (hTwo : (takers rules root t (root.down x.names)).length = 2) :
    ∃ outer inner name, x.names = outer ++ [inner, name] ∧
      outer ∈ takers rules root t (root.down x.names) ∧
      outer ++ [inner] ∈ takers rules root t (root.down x.names) := by
  obtain ⟨-, hBoth⟩ := length_of_two (h.nodup_takers (root.down x.names))
    fun names hMem => h.eq_of_mem_takers hTree hx hMem
  obtain ⟨hOther, hInner, hOuter⟩ := hBoth hTwo
  -- two different directories on the way to the document: there are two names at its end
  rcases List.eq_nil_or_concat' x.names with hNil | ⟨around, name, hNames⟩
  · rw [hNil] at hOther
    exact absurd rfl hOther
  rw [hNames, List.dropLast_concat] at hOther hInner hOuter
  rcases List.eq_nil_or_concat' around with rfl | ⟨outer, inner, rfl⟩
  · exact absurd rfl hOther
  rw [List.dropLast_concat] at hOuter
  refine ⟨outer, inner, name, by rw [hNames, List.append_assoc]; rfl, ?_, ?_⟩
  · rw [hNames]
    exact hOuter
  · rw [hNames]
    exact hInner

/-- A taker has a schema folder, and the folder lists the document. -/
theorem exists_folder (h : Found rules root t folders d entries) {p : Path} {names : List String}
    (hMem : names ∈ takers rules root t p) :
    ∃ f ∈ folders, f.directory = root.down names ∧ p ∈ f.files := by
  obtain ⟨e, hSchema, rfl, hTaken⟩ := mem_takers.1 hMem
  obtain ⟨folder, hFolder⟩ := Option.isSome_iff_exists.1 (h.tagged e hSchema)
  refine ⟨⟨folder, e.pathFrom root, documentsOf rules root (t.survey root) e.names⟩, ?_, rfl,
    hTaken⟩
  rw [h.folders_eq]
  refine List.mem_filterMap.2 ⟨e, hSchema, ?_⟩
  rw [folderIn?, hFolder, Option.bind_some]
  exact if_neg fun hEmpty => List.ne_nil_of_mem hTaken (List.isEmpty_iff.1 hEmpty)

/-- A schema folder is that of a directory, and lists what the directory takes. -/
theorem exists_directory (h : Found rules root t folders d entries) {f : SchemaFolder}
    (hMem : f ∈ folders) :
    ∃ e ∈ schemaDirectories rules root (t.survey root), f.directory = root.down e.names ∧
      f.files = documentsOf rules root (t.survey root) e.names := by
  rw [h.folders_eq] at hMem
  obtain ⟨e, hSchema, hFolder⟩ := List.mem_filterMap.1 hMem
  obtain ⟨folder, -, hSome⟩ := Option.bind_eq_some_iff.1 hFolder
  dsimp only at hSome
  split at hSome
  · cases hSome
  · cases hSome
    exact ⟨e, hSchema, rfl, rfl⟩

/-- Where a schema folder is directly in another one, both list the documents directly in it. -/
theorem length_takers_of_nested (h : Found rules root t folders d entries) (hTree : t.WellFormed)
    {f g : SchemaFolder} (hf : f ∈ folders) (hg : g ∈ folders) {inner name : String}
    (hInner : IsFileName inner) (hName : IsFileName name)
    (hNested : g.directory = f.directory.join ⟨inner⟩) {p : Path}
    (hPath : p = g.directory.join ⟨name⟩) (hTaken : p ∈ g.files) :
    2 ≤ (takers rules root t p).length := by
  obtain ⟨outer, hOuter, hOuterPath, hOuterFiles⟩ := h.exists_directory hf
  obtain ⟨around, hAround, hAroundPath, hAroundFiles⟩ := h.exists_directory hg
  rw [hAroundFiles] at hTaken
  obtain ⟨_, hxPath, ⟨x, hx, rfl, hKind⟩, hAccepts, -⟩ := mem_documentsOf.1 hTaken
  have hOuterNames := h.isFileName hTree (List.mem_of_mem_filter hOuter)
  have hAroundNames := h.isFileName hTree (List.mem_of_mem_filter hAround)
  -- the paths tell how the directories lie to each other
  have hAroundEq : around.names = outer.names ++ [inner] := by
    refine Path.down_injective root hAroundNames ?_ ?_
    · simpa [or_imp, forall_and] using ⟨hOuterNames, hInner⟩
    · rw [← hAroundPath, hNested, hOuterPath, Path.down_concat]
  have hxNames : x.names = around.names ++ [name] := by
    refine Path.down_injective root (h.isFileName hTree hx) ?_ ?_
    · simpa [or_imp, forall_and] using ⟨hAroundNames, hName⟩
    · rw [← hxPath, hPath, hAroundPath, Path.down_concat]
  have hOther : outer.names ≠ around.names := by
    rw [hAroundEq]
    simp
  refine two_le_length hOther (mem_takers.2 ⟨outer, hOuter, rfl, ?_⟩)
    (mem_takers.2 ⟨around, hAround, rfl, hTaken⟩)
  refine mem_documentsOf.2
    ⟨x.names, hxPath, ⟨x, hx, rfl, hKind⟩, hAccepts, .inl ⟨inner, name, ?_⟩⟩
  rw [hxNames, hAroundEq, List.append_assoc]
  rfl

theorem count_le_two (h : Found rules root t folders d entries) (hTree : t.WellFormed) (p : Path) :
    (folders.flatMap (·.files)).count p ≤ 2 := by
  by_cases hListed : p ∈ folders.flatMap (·.files)
  · rw [← map_snd_listing] at hListed
    obtain ⟨x, hx, rfl, -⟩ := h.exists_file hListed
    rw [h.count_files hTree]
    exact (length_of_two (h.nodup_takers _) fun names hMem => h.eq_of_mem_takers hTree hx hMem).1
  · rw [List.count_eq_zero_of_not_mem hListed]
    exact Nat.zero_le 2

theorem count_eq_two_iff (h : Found rules root t folders d entries) (hTree : t.WellFormed)
    (p : Path) :
    (folders.flatMap (·.files)).count p = 2 ↔
      ∃ f ∈ folders, ∃ g ∈ folders, ∃ inner name, IsFileName inner ∧ IsFileName name ∧
        g.directory = f.directory.join ⟨inner⟩ ∧ p = g.directory.join ⟨name⟩ ∧ p ∈ g.files := by
  constructor
  · intro hTwo
    have hListed : p ∈ folders.flatMap (·.files) := List.count_pos_iff.1 (by omega)
    rw [← map_snd_listing] at hListed
    obtain ⟨x, hx, rfl, -⟩ := h.exists_file hListed
    rw [h.count_files hTree] at hTwo
    -- it is taken from the directory that it lies in and from the one around that
    obtain ⟨outer, inner, name, hNames, hOuter, hInner⟩ := h.nested_of_length_takers hTree hx hTwo
    obtain ⟨f, hf, hfPath, -⟩ := h.exists_folder hOuter
    obtain ⟨g, hg, hgPath, hTaken⟩ := h.exists_folder hInner
    have hFileNames := h.isFileName hTree hx
    rw [hNames] at hFileNames
    refine ⟨f, hf, g, hg, inner, name, hFileNames inner (by simp), hFileNames name (by simp), ?_,
      ?_, hTaken⟩
    · rw [hgPath, hfPath, Path.down_concat]
    · rw [hgPath, ← Path.down_concat, hNames, List.append_assoc]
      rfl
  · -- both directories take it, and there is no third one
    rintro ⟨f, hf, g, hg, inner, name, hInner, hName, hNested, hPath, hTaken⟩
    refine Nat.le_antisymm (h.count_le_two hTree p) ?_
    rw [h.count_files hTree]
    exact h.length_takers_of_nested hTree hf hg hInner hName hNested hPath hTaken

theorem nodup_files (h : Found rules root t folders d entries) (hTree : t.WellFormed) :
    ∀ f ∈ folders, f.files.Nodup := by
  intro f hf
  obtain ⟨e, -, -, hFiles⟩ := h.exists_directory hf
  rw [hFiles]
  exact h.nodup_documentsOf hTree e.names

/-- Listed paths that lead to one file are one path. -/
theorem eq_of_target (h : Found rules root t folders d entries) (hTree : t.WellFormed)
    {p q : Path} (hp : p ∈ folders.flatMap (·.files)) (hq : q ∈ folders.flatMap (·.files))
    {l : Location} {node node' : TreeNode} (hTarget : t.target p = .ok (l, node))
    (hTarget' : t.target q = .ok (l, node')) : p = q := by
  rw [← map_snd_listing] at hp hq
  -- a listed path leads down from the root, so its location tells the names
  have hLeads : ∀ {r : Path} {n : TreeNode}, r ∈ (listing folders).map (·.2) →
      t.target r = .ok (l, n) → ∃ names, r = root.down names ∧ l = d ++ names := by
    intro r n hMem hTarget
    obtain ⟨x, -, rfl, serial, content, hNode⟩ := h.exists_file hMem
    obtain ⟨-, hTerminator, hLength⟩ := text_of_resolve (target_eq_ok_iff.1 hTarget).1
    have hDown := target_down hTree h.target hNode nofun hTerminator hLength
    exact ⟨x.names, rfl, (Prod.mk.inj (Except.ok.inj (hTarget.symm.trans hDown))).1⟩
  obtain ⟨names, rfl, rfl⟩ := hLeads hp hTarget
  obtain ⟨names', rfl, hSame⟩ := hLeads hq hTarget'
  rw [List.append_cancel_left_eq] at hSame
  rw [hSame]

end Found

/-! ## How often a document is listed -/

/-- A definition from a document, filed under the folder that the document is listed in. -/
def filed? (t : FileTree) (document : String × Path) : Option (Path × Edition) :=
  (readingOf t document).definition?.map fun definition => (document.2, ⟨document.1, definition⟩)

theorem registry_eq_filed (n : Nat) (t : FileTree) (documents : List (String × Path)) :
    (gatherReadings n (documents.map (readingOf t))).registry =
      .ofList ((documents.filterMap (filed? t)).map (·.2)) := by
  rw [registry_gatherReadings, List.filterMap_map, List.map_filterMap]
  refine congrArg Registry.ofList (List.filterMap_congr ?_)
  intro document _
  rw [filed?, Option.map_map]
  rfl

/-- What is filed comes from the documents one after the other, and from each of them once. -/
theorem sublist_filed (t : FileTree) (documents : List (String × Path)) :
    ((documents.filterMap (filed? t)).map (·.1)).Sublist (documents.map (·.2)) := by
  induction documents with
  | nil => exact .slnil
  | cons first rest ih =>
    cases hFiled : filed? t first with
    | none =>
      rw [List.filterMap_cons_none hFiled]
      exact ih.cons _
    | some s =>
      obtain ⟨definition, -, rfl⟩ := Option.map_eq_some_iff.1 hFiled
      rw [List.filterMap_cons_some hFiled]
      exact ih.cons_cons _

theorem exists_folder_of_filed {t : FileTree} {folders : List SchemaFolder} {s : Path × Edition}
    (hMem : s ∈ (listing folders).filterMap (filed? t)) :
    ∃ f ∈ folders, s.1 ∈ f.files ∧ s.2.folder = f.folder := by
  obtain ⟨document, hListed, hFiled⟩ := List.mem_filterMap.1 hMem
  obtain ⟨definition, -, rfl⟩ := Option.map_eq_some_iff.1 hFiled
  obtain ⟨f, hf, hPaths⟩ := List.mem_flatMap.1 hListed
  obtain ⟨path, hPath, rfl⟩ := List.mem_map.1 hPaths
  exact ⟨f, hf, hPath, rfl⟩

/--
**Nested schema directories.** No document is listed more than twice, and no folder lists one
twice. Exactly the documents directly in a schema folder that lies directly in another one are
listed twice. Different paths never mean one file; and each time that a document is listed, it
brings one definition to the registry at most, under the folder that lists it.
-/
theorem listed_twice_iff_nested {t t' : FileTree} {rules : ScanRules} {root : Path}
    {folders : List SchemaFolder} (hTree : t.WellFormed)
    (hRun : (discover rules root : ExceptT Failure (StateM FileTree) _).run t =
      (.ok folders, t')) :
    (∀ p, (folders.flatMap (·.files)).count p ≤ 2) ∧
    (∀ f ∈ folders, f.files.Nodup) ∧
    (∀ p, (folders.flatMap (·.files)).count p = 2 ↔
      ∃ f ∈ folders, ∃ g ∈ folders, ∃ inner name, IsFileName inner ∧ IsFileName name ∧
        g.directory = f.directory.join ⟨inner⟩ ∧ p = g.directory.join ⟨name⟩ ∧ p ∈ g.files) ∧
    (∀ p ∈ folders.flatMap (·.files), ∀ q ∈ folders.flatMap (·.files), ∀ l node node',
      t.target p = .ok (l, node) → t.target q = .ok (l, node') → p = q) ∧
    ∀ (c : Configuration) (loaded : Loaded), c.source.scan = rules →
      c.sourceRoot (pathOf t.workingDirectory) = root →
      (loadRegistry c : ExceptT Failure (StateM FileTree) Loaded).run t = (.ok loaded, t) →
      ∃ filed : List (Path × Edition), loaded.registry = .ofList (filed.map (·.2)) ∧
        (∀ s ∈ filed, ∃ f ∈ folders, s.1 ∈ f.files ∧ s.2.folder = f.folder) ∧
        ∀ p, (filed.map (·.1)).count p ≤ (folders.flatMap (·.files)).count p := by
  obtain ⟨d, entries, h⟩ := exists_found hTree hRun
  refine ⟨h.count_le_two hTree, h.nodup_files hTree, h.count_eq_two_iff hTree,
    fun p hp q hq l node node' => h.eq_of_target hTree hp hq, ?_⟩
  rintro c loaded rfl rfl hLoad
  obtain ⟨-, folders', hDiscover, -, rfl⟩ := run_loadRegistry_iff.1 hLoad
  -- the loading searched in the same way, so it read what was found here
  obtain rfl : folders' = folders := Except.ok.inj (Prod.mk.inj (hDiscover.symm.trans hRun)).1
  refine ⟨_, registry_eq_filed _ t _, fun s => exists_folder_of_filed, ?_⟩
  intro p
  rw [← map_snd_listing]
  exact (sublist_filed t _).count_le p

/-- In the archive a schema folder lies in another one, so its document is listed twice; all that is
filed comes from the listed documents. -/
theorem archive_nested :
    archive.WellFormed ∧
      (discover {} ⟨"/home/archive"⟩ : ExceptT Failure (StateM FileTree) _).run archive =
        (.ok archiveFolders, archive) ∧
      (archiveFolders.flatMap (·.files)).count damagedPath = 2 ∧
      (∃ f ∈ archiveFolders, ∃ g ∈ archiveFolders, ∃ inner name, IsFileName inner ∧
        IsFileName name ∧ g.directory = f.directory.join ⟨inner⟩ ∧
        damagedPath = g.directory.join ⟨name⟩ ∧ damagedPath ∈ g.files) ∧
      ∃ filed : List (Path × Edition), archiveLoaded.registry = .ofList (filed.map (·.2)) ∧
        (∀ s ∈ filed, ∃ f ∈ archiveFolders, s.1 ∈ f.files ∧ s.2.folder = f.folder) ∧
        ∀ p, (filed.map (·.1)).count p ≤ (archiveFolders.flatMap (·.files)).count p := by
  have hTwo : (archiveFolders.flatMap (·.files)).count damagedPath = 2 := by decide
  obtain ⟨-, -, hNested, -, hFiled⟩ := listed_twice_iff_nested wellFormed_archive discover_archive
  exact ⟨wellFormed_archive, discover_archive, hTwo, (hNested damagedPath).1 hTwo,
    hFiled archiveConfiguration archiveLoaded rfl sourceRoot_archive loadRegistry_archive⟩

/-- A search can list a document more than once. -/
theorem not_listed_once :
    ¬ ∀ (t t' : FileTree) (rules : ScanRules) (root : Path) (folders : List SchemaFolder),
      t.WellFormed →
      (discover rules root : ExceptT Failure (StateM FileTree) _).run t = (.ok folders, t') →
      ∀ p, (folders.flatMap (·.files)).count p ≤ 1 := by
  intro h
  have hOnce := h archive archive {} ⟨"/home/archive"⟩ archiveFolders wellFormed_archive
    discover_archive damagedPath
  exact absurd hOnce (by decide)

end PropertySets
