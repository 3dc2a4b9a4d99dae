import PropertySets.Proofs.Disk.ReadOnly
import PropertySets.Proofs.Generation.Success

/-!
# What a command loads

Before it generates anything, the generator's command loads its configuration and reads the
documents. Every document that is found is read, from the tree that the command was started on; and
without files and variables for it the configuration is the standard one.

* `Reading.ofBytes`, `read_of_run_loadRegistry` — every document that is found is read.
* `Configuration.load_of_missing` — the standard configuration.
-/

namespace PropertySets

open FileTree

/-! ## Reading the documents -/

section

variable {α β : Type} {t t' : FileTree}

/-- Reading one thing after the other, each of them was read from the same tree. -/
theorem exists_of_run_mapM {f : α → ExceptT Failure (StateM FileTree) β}
    (hReads : ∀ a, ReadOnly (f a).run) {l : List α} {bs : List β}
    (h : (l.mapM f).run t = (.ok bs, t')) : ∀ a ∈ l, ∃ b ∈ bs, (f a).run t = (.ok b, t) := by
  induction l generalizing bs with
  | nil => nofun
  | cons first rest ih =>
    rw [List.mapM_cons] at h
    obtain ⟨b, t₁, hFirst, hRest⟩ := exists_of_run_bind h
    -- the first one leaves the tree to the others as it was
    obtain rfl := (hReads first).tree_eq hFirst
    obtain ⟨others, t₂, hOthers, hReturn⟩ := exists_of_run_bind hRest
    cases hReturn
    intro a hMem
    rcases List.mem_cons.1 hMem with rfl | hMem
    · exact ⟨b, List.mem_cons_self, hFirst⟩
    · obtain ⟨b', hListed, hRead⟩ := ih hOthers a hMem
      exact ⟨b', List.mem_cons_of_mem _ hListed, hRead⟩

/-- A document as it is read from its bytes. -/
def Reading.ofBytes (folder : String) (path : Path) (content : ByteArray) : Reading :=
  ⟨folder, (parseBytes content folder path.text).1, (parseBytes content folder path.text).2⟩

theorem parseBytes_toUTF8 (text folder source : String) :
    parseBytes text.toUTF8 folder source = Document.read text folder source := by
  rw [parseBytes, Text.Utf8.decode_toUTF8]

theorem run_reading {path : Path} {folder : String} {content : ByteArray}
    (hRead : t.read path = .ok content) :
    (do let (definition?, flaws) ← parseFile path folder
        return (⟨folder, definition?, flaws⟩ : Reading) :
      ExceptT Failure (StateM FileTree) Reading).run t =
      (.ok (.ofBytes folder path content), t) := by
  have hAttempt : (Disk.attempt path (Disk.read path) :
      ExceptT Failure (StateM FileTree) ByteArray).run t = (.ok content, t) :=
    run_attempt_ok (congrArg (Prod.mk · t) hRead)
  have hParse : (parseFile path folder : ExceptT Failure (StateM FileTree) _).run t =
      (.ok (parseBytes content folder path.text), t) := by
    rw [parseFile, run_bind_ok hAttempt]
    rfl
  rw [run_bind_ok hParse]
  rfl

/-- Every document that is found is read. -/
theorem read_of_run_loadRegistry {c : Configuration} {loaded : Loaded}
    (h : (loadRegistry c : ExceptT Failure (StateM FileTree) Loaded).run t = (.ok loaded, t')) :
    ∃ folders readings,
      (discover c.source.scan (c.sourceRoot (pathOf t.workingDirectory)) :
        ExceptT Failure (StateM FileTree) _).run t = (.ok folders, t) ∧
      loaded = gatherReadings folders.length readings ∧
      ∀ f ∈ folders, ∀ path ∈ f.files, ∃ content, t.read path = .ok content ∧
        Reading.ofBytes f.folder path content ∈ readings := by
  rw [loadRegistry] at h
  obtain ⟨w, t₀, hWorking, h⟩ := exists_of_run_bind h
  cases apply_of_run_liftM hWorking
  obtain ⟨folders, t₁, hDiscover, h⟩ := exists_of_run_bind h
  obtain rfl := (readOnly_discover _ _).tree_eq hDiscover
  obtain ⟨readings, t₂, hReadings, h⟩ := exists_of_run_bind h
  cases h
  refine ⟨folders, readings, hDiscover, rfl, fun f hFolder path hPath => ?_⟩
  -- each file of each folder was read, from the same tree
  obtain ⟨reading, hListed, hReading⟩ := exists_of_run_mapM
    (fun _ => .andThen (readOnly_parseFile _ _) fun _ => .pure _) hReadings (f.folder, path)
    (List.mem_flatMap.2 ⟨f, hFolder, List.mem_map_of_mem hPath⟩)
  obtain ⟨parsed, t₃, hParse, hReturn⟩ := exists_of_run_bind hReading
  obtain ⟨content, t₄, hAttempt, hParsed⟩ := exists_of_run_bind hParse
  cases hParsed
  cases hReturn
  have hRead := apply_of_run_attempt hAttempt
  exact ⟨content, congrArg Prod.fst hRead, hListed⟩

end

/-! ## Configurations without files -/

namespace Configuration

variable {t : FileTree}

/-- The paths of the files that can go by a name. -/
def spellings (workingDirectory name : Path) : List Path :=
  workingDirectory.join name ::
    FileFormat.all.filterMap fun format => withAdded (workingDirectory.join name) format.extension

theorem firstPresent_of_missing {path : Path} {formats : List FileFormat}
    (h : ∀ p ∈ formats.filterMap fun format => withAdded path format.extension,
      t.isFile p = false) : (firstPresent path formats : StateM FileTree _) t = (none, t) := by
  induction formats with
  | nil => rfl
  | cons format rest ih =>
    rw [firstPresent]
    -- an extension that cannot be put behind the path is passed over
    cases hAdded : withAdded path format.extension with
    | none =>
      have hRest := List.filterMap_cons_none (l := rest)
        (f := fun format : FileFormat => withAdded path format.extension) hAdded
      exact ih (hRest ▸ h)
    | some candidate =>
      have hBoth := List.filterMap_cons_some (l := rest)
        (f := fun format : FileFormat => withAdded path format.extension) hAdded
      obtain ⟨hFirst, hRest⟩ := List.forall_mem_cons.1 (hBoth ▸ h)
      have hLook : (Disk.isFile candidate : StateM FileTree Bool) t = (false, t) :=
        congrArg (Prod.mk · t) hFirst
      exact (bind_apply hLook).trans (ih hRest)

/-- A file that is missing, and may be, is an empty layer. -/
theorem fileLayer_of_missing {name : Path}
    (h : ∀ p ∈ spellings (pathOf t.workingDirectory) name, t.isFile p = false) :
    (fileLayer false name : ExceptT LoadFault (StateM FileTree) Layer).run t = (.ok [], t) := by
  obtain ⟨hPlain, hAdded⟩ := List.forall_mem_cons.1 h
  have hLook : (Disk.isFile ((pathOf t.workingDirectory).join name) : StateM FileTree Bool) t =
      (false, t) := congrArg (Prod.mk · t) hPlain
  have hWorking : (Disk.workingDirectory : StateM FileTree Path) t =
      (pathOf t.workingDirectory, t) := rfl
  have hLocate : (locate name : StateM FileTree _) t = (.error (.missing name), t) :=
    (bind_apply hWorking).trans ((bind_apply hLook).trans
      (bind_apply (firstPresent_of_missing hAdded)))
  exact bind_apply hLocate

theorem fileLayers_of_missing {names : List Path}
    (h : ∀ p ∈ names.flatMap (spellings (pathOf t.workingDirectory)), t.isFile p = false) :
    (names.mapM (fileLayer false) : ExceptT LoadFault (StateM FileTree) _).run t =
      (.ok (names.map fun _ => []), t) := by
  induction names with
  | nil => rfl
  | cons name rest ih =>
    rw [List.flatMap_cons, List.forall_mem_append] at h
    rw [List.mapM_cons, run_bind_ok (fileLayer_of_missing h.1), run_bind_ok (ih h.2)]
    rfl

/-- Without files at the usual places and without variables the standard configuration is
loaded. -/
theorem load_of_missing
    (h : ∀ p ∈ usualPlaces.flatMap (spellings (pathOf t.workingDirectory)), t.isFile p = false) :
    (load [] none : ExceptT LoadFault (StateM FileTree) Configuration).run t = (.ok {}, t) := by
  have hLayers : (layers [] none : ExceptT LoadFault (StateM FileTree) _).run t =
      (.ok [[], [], [], [], []], t) := by
    rw [layers, run_bind_ok (fileLayers_of_missing h)]
    rfl
  have hStandard : ofFields (combine [[], [], [], [], []]).fields = .ok {} := rfl
  rw [load, run_bind_ok hLayers]
  simp only [hStandard]
  rfl

end Configuration

end PropertySets
