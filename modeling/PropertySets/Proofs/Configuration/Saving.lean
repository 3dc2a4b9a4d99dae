import PropertySets.Proofs.Configuration.Layering
import PropertySets.Proofs.Data.Toml.Tables
import PropertySets.Proofs.Disk.Written

/-!
# A configuration that is saved

What is saved is a table for each group, in which every setting of the group stands under its key
as a value of its own kind. The text of these tables is read as these tables again, and from the
values in them every setting is read as what it was, whatever characters are in it. So nothing is
lost on the way through a file, and nothing is left to a standard value.

* `Setting.toValue`, `Setting.toText` — what a setting is saved as, as a value and as a text.
* `savedFields`, `read?_render` — the tables that are saved, and that the text is read as them.
* `save_loses_nothing` — a configuration is read back from what was saved.
* `load_of_saved` — a saved configuration that is asked for is the one that is loaded.
-/

namespace PropertySets.Configuration

open Data

namespace Setting

/-- All settings, in the order in which they are saved. -/
def all : List Setting :=
  [.root, .folderName, .nameStart, .extension, .path, .runtimeModule, .enumModule, .dump,
    .dumpFormat, .defaultEntityType, .knownSubIndices]

theorem mem_all (s : Setting) : s ∈ all := by
  cases s <;> decide

/-- The value that a setting is saved as. -/
def toValue : (s : Setting) → s.Carrier → Value
  | dump, b => .boolean b
  | dumpFormat, f => .text f.name
  | knownSubIndices, names => .list (names.map .text)
  | root, s | folderName, s | nameStart, s | extension, s | path, s | runtimeModule, s
  | enumModule, s | defaultEntityType, s => .text s

/-- The text that a setting is saved as. -/
def toText : (s : Setting) → s.Carrier → List Char
  | dump, b => Toml.writeFlag b
  | dumpFormat, f => Toml.writeText f.name.toList
  | knownSubIndices, names => Toml.writeList (names.map fun name => Toml.writeText name.toList)
  | root, s | folderName, s | nameStart, s | extension, s | path, s | runtimeModule, s
  | enumModule, s | defaultEntityType, s => Toml.writeText s.toList

theorem formatOfName?_name (f : DumpFormat) : formatOfName? f.name = some f := by
  cases f <;> decide

theorem mapM_asText? (texts : List String) : (texts.map Value.text).mapM asText? = some texts := by
  induction texts with
  | nil => rfl
  | cons s texts ih =>
    rw [List.map_cons, List.mapM_cons, ih]
    rfl

/-- A setting is read from the value that it is saved as. -/
theorem read_toValue : ∀ (s : Setting) (x : s.Carrier), s.read (s.toValue x) = some x
  | dump, _ => rfl
  | dumpFormat, f => formatOfName?_name f
  | knownSubIndices, names => mapM_asText? names
  | root, _ | folderName, _ | nameStart, _ | extension, _ | path, _ | runtimeModule, _
  | enumModule, _ | defaultEntityType, _ => rfl

theorem writes_string (s : String) : Toml.Writes (Toml.writeText s.toList) (.text s) := by
  have hText := Toml.writes_text s.toList
  rwa [String.ofList_toList] at hText

theorem writes_strings (names : List String) :
    Toml.Writes (Toml.writeList (names.map fun name => Toml.writeText name.toList))
      (.list (names.map .text)) := by
  have hTexts := Toml.writes_texts (names.map String.toList)
  have hValues : (fun s => Value.text (String.ofList s)) ∘ String.toList = .text :=
    funext fun s => congrArg Value.text String.ofList_toList
  rwa [List.map_map, List.map_map, hValues] at hTexts

/-- The value that a setting is saved as is written as its text. -/
theorem writes_toText : ∀ (s : Setting) (x : s.Carrier), Toml.Writes (s.toText x) (s.toValue x)
  | dump, b => Toml.writes_flag b
  | dumpFormat, f => writes_string f.name
  | knownSubIndices, names => writes_strings names
  | root, s | folderName, s | nameStart, s | extension, s | path, s | runtimeModule, s
  | enumModule, s | defaultEntityType, s => writes_string s

theorem bare_key (s : Setting) : Toml.Bare s.key := by
  cases s <;> decide

end Setting

/-! ## What is saved -/

/-- The settings of a group. -/
def settingsOf (g : String) : List Setting := Setting.all.filter fun s => s.group = g

/-- The tables that are saved, with the values of the settings. -/
def savedTables (c : Configuration) : List (String × List (Setting × Value)) :=
  groups.map fun g => (g, (settingsOf g).map fun s => (s, s.toValue (s.get c)))

/-- The fields that are saved: for each group, the table of its settings. -/
def savedFields (c : Configuration) : List (String × Value) :=
  (savedTables c).map fun g => (g.1, .table (g.2.map fun e => (e.1.key, e.2)))

theorem nodup_keys (g : String) : ((settingsOf g).map Setting.key).Nodup := by
  have hAll : (Setting.all.map Setting.key).Nodup := by decide
  exact (List.filter_sublist.map Setting.key).nodup hAll

/-- A setting among the entries of a written table. -/
def entryOf (c : Configuration) (s : Setting) : Toml.Entry :=
  ⟨s.key, s.toText (s.get c), s.toValue (s.get c), s.bare_key, s.writes_toText _⟩

/-- The written table of a group. -/
def tableFor (c : Configuration) (g : String) (hBare : Toml.Bare g) : Toml.Table :=
  ⟨g, (settingsOf g).map (entryOf c), hBare, by
    rw [List.map_map]
    exact nodup_keys g⟩

/-- The written tables. -/
def writtenTables (c : Configuration) : List Toml.Table :=
  [tableFor c "source" (by decide), tableFor c "output" (by decide),
    tableFor c "naming" (by decide)]

theorem write_tableFor (c : Configuration) {g : String} (hBare : Toml.Bare g)
    {settings : List Setting} (hSettings : settingsOf g = settings) :
    (tableFor c g hBare).write = Toml.writeHeading g ++
      settings.flatMap fun s => Toml.writeEntry s.key (s.toText (s.get c)) := by
  subst hSettings
  rw [Toml.Table.write, tableFor, List.flatMap_map]
  rfl

/-- A configuration is saved as the text of its tables. -/
theorem render_eq (c : Configuration) : c.render.toList = Toml.writeTables (writtenTables c) := by
  -- group by group, the lines are those of its settings in the order of the groups' writers
  have hSource : (tableFor c "source" (by decide)).write = writeSource c.source := by
    rw [write_tableFor c _ (show _ = [.root, .folderName, .nameStart, .extension] by decide)]
    simp only [writeSource, List.flatMap_cons, List.flatMap_nil, List.append_nil,
      List.append_assoc]
    rfl
  have hOutput : (tableFor c "output" (by decide)).write = writeOutput c.output := by
    rw [write_tableFor c _
      (show _ = [.path, .runtimeModule, .enumModule, .dump, .dumpFormat] by decide)]
    simp only [writeOutput, List.flatMap_cons, List.flatMap_nil, List.append_nil,
      List.append_assoc]
    rfl
  have hNaming : (tableFor c "naming" (by decide)).write = writeNaming c.naming := by
    rw [write_tableFor c _ (show _ = [.defaultEntityType, .knownSubIndices] by decide)]
    simp only [writeNaming, List.flatMap_cons, List.flatMap_nil, List.append_nil,
      List.append_assoc]
    rfl
  rw [render, String.toList_ofList, writtenTables, Toml.writeTables_cons, Toml.writeTables_cons,
    Toml.writeTables, hSource, hOutput, hNaming]
  simp only [List.append_assoc, List.cons_append, List.nil_append]

/-- The text of a configuration is read as the fields that are saved. -/
theorem read?_render (c : Configuration) :
    Toml.read? c.render.toList = some (.table (savedFields c)) := by
  have hNodup : ((writtenTables c).map Toml.Table.key).Nodup :=
    show groups.Nodup by decide
  rw [render_eq, Toml.read?_writeTables hNodup]
  rfl

/-- Every setting is in the table of its group, under its key. -/
theorem valueAt_savedFields (c : Configuration) (s : Setting) :
    valueAt (.table (savedFields c)) s = some (s.toValue (s.get c)) := by
  cases s <;> rfl

theorem shows_savedFields (c : Configuration) :
    Shows (.table (savedFields c)) fun s => some (s.get c) := by
  refine ⟨fun g hGroup v hField => ?_, fun s => ?_⟩
  · simp only [groups, List.mem_cons, List.not_mem_nil, or_false] at hGroup
    rcases hGroup with rfl | rfl | rfl <;> exact ⟨_, (Option.some.inj hField).symm⟩
  · rw [valueAt_savedFields, Option.map_some, Setting.read_toValue]
    rfl

/-- What is saved is decoded as the configuration. -/
theorem ofFields_savedFields (c : Configuration) : ofFields (savedFields c) = .ok c := by
  have hDecoded := ofFields_of_shows (shows_savedFields c)
  have hSame : Partial.complete (fun s => some (s.get c)) = c :=
    eq_of_get fun s => Partial.get_complete _ s
  rwa [hSame] at hDecoded

/-! ## Saving and reading back -/

/-- What is saved at a path is read there. -/
theorem read_of_save {t t' : FileTree} {c : Configuration} {path : Path}
    (hSave : (save c path : StateM FileTree _) t = (.ok (), t')) :
    t'.read path = .ok c.render.toUTF8 := by
  obtain ⟨t₁, hWrite⟩ : ∃ t₁,
      (Disk.write path c.render.toUTF8 : StateM FileTree _) t₁ = (.ok (), t') := by
    unfold save at hSave
    split at hSave
    · exact ⟨t, hSave⟩
    · -- the directory around the file is made first
      rcases hMade : (Disk.makeDirectories (path.parent?.getD ⟨""⟩) : StateM FileTree _) t with
        ⟨made, t₁⟩
      rw [FileTree.bind_apply hMade] at hSave
      cases made with
      | error e => cases hSave
      | ok => exact ⟨t₁, hSave⟩
  exact FileTree.read_of_write hWrite

/-- **Saving.** The text of a configuration follows its format, and from the table that it is read
as every setting is read as it is in the configuration, from a value of its own kind; so the table
is decoded as the configuration. That text is what is in the file after the configuration was
saved. -/
theorem save_loses_nothing (c : Configuration) :
    (∃ fields, Toml.read? c.render.toList = some (.table fields) ∧
      (∀ s : Setting, valueAt (.table fields) s = some (s.toValue (s.get c)) ∧
        s.read (s.toValue (s.get c)) = some (s.get c)) ∧
      ofFields fields = .ok c) ∧
    ∀ (t t' : FileTree) (path : Path), (save c path : StateM FileTree _) t = (.ok (), t') →
      ∃ content, t'.read path = .ok content ∧ Text.Utf8.decode content = .ok c.render :=
  ⟨⟨savedFields c, read?_render c,
      fun s => ⟨valueAt_savedFields c s, s.read_toValue _⟩, ofFields_savedFields c⟩,
    fun _ _ _ hSave => ⟨_, read_of_save hSave, Text.Utf8.decode_toUTF8 _⟩⟩

/-! ### A configuration with any characters -/

/-- Texts with quotes of both kinds, backslashes, line breaks and controls, and an empty list. -/
def motleyConfiguration : Configuration where
  source := {
    root := ⟨"C:\\schemas\\\"IFC\" 4\n"⟩
    scan := { folderName := "", nameStart := "\"\"\"'''\\", extension := "'x'\x00" } }
  output := { path := ⟨"gen\tout.rs"⟩, enumModule := "été\r\n", dump := true, dumpFormat := .json }
  naming := { defaultEntityType := "\"\"\"\n\x7f'''", knownSubIndices := [] }

/-- A disk with nothing on it. -/
def bareDisk : FileTree := ⟨[], 0, []⟩

theorem exists_save_bareDisk (c : Configuration) :
    ∃ t', (save c ⟨"psdgen.toml"⟩ : StateM FileTree _) bareDisk = (.ok (), t') := by
  have hResolve : bareDisk.resolve .created ⟨"psdgen.toml"⟩ = .ok (.vacant [] "psdgen.toml") := by
    rw [FileTree.resolve_of_text (by decide) (by decide) (by decide)]
    show bareDisk.walk .created _ false [] ["psdgen.toml"] = _
    rw [FileTree.walk_entry ⟨by decide, by decide, by decide⟩ fun _ => .inl rfl]
    rfl
  have hCreate : (Disk.create ⟨"psdgen.toml"⟩ : StateM FileTree _) bareDisk =
      (.ok ⟨["psdgen.toml"], 0⟩, bareDisk.putFile ["psdgen.toml"] ByteArray.empty) := by
    simp only [Disk.create, FileTree.create, hResolve]
    rfl
  -- the path has no parent, so no directory is made
  have hAround : ((Path.parent? ⟨"psdgen.toml"⟩).getD ⟨""⟩).text.isEmpty = true := by decide
  refine ⟨(bareDisk.putFile ["psdgen.toml"] ByteArray.empty).append ⟨["psdgen.toml"], 0⟩
    c.render.toUTF8, ?_⟩
  unfold save
  rw [if_pos hAround]
  show (Disk.write ⟨"psdgen.toml"⟩ c.render.toUTF8 : StateM FileTree _) bareDisk = _
  rw [Disk.write, FileTree.bind_apply hCreate]
  rfl

/-- It is read back with every one of them. -/
theorem motleyConfiguration_read_back :
    ∃ t' content fields, (save motleyConfiguration ⟨"psdgen.toml"⟩ : StateM FileTree _) bareDisk =
        (.ok (), t') ∧
      t'.read ⟨"psdgen.toml"⟩ = .ok content ∧
      Text.Utf8.decode content = .ok motleyConfiguration.render ∧
      Toml.read? motleyConfiguration.render.toList = some (.table fields) ∧
      ofFields fields = .ok motleyConfiguration := by
  obtain ⟨⟨fields, hRead, -, hDecoded⟩, hSaved⟩ := save_loses_nothing motleyConfiguration
  obtain ⟨t', hSave⟩ := exists_save_bareDisk motleyConfiguration
  obtain ⟨content, hContent, hText⟩ := hSaved _ _ _ hSave
  exact ⟨t', content, fields, hSave, hContent, hText, hRead, hDecoded⟩

/-! ## Loading what was saved -/

/-- The tables that are saved describe every setting. -/
theorem describes_savedFields (c : Configuration) :
    Describes (savedFields c) fun s => some (s.get c) := by
  refine describes_tables (savedTables c) (fun g hMem => ?_) (fun g hMem e hEntry => ?_)
    (fun g hMem e hEntry => ?_) fun s x _ => ?_
  · obtain ⟨g, hGroup, rfl⟩ := List.mem_map.1 hMem
    exact hGroup
  · obtain ⟨g, -, rfl⟩ := List.mem_map.1 hMem
    obtain ⟨s, hSetting, rfl⟩ := List.mem_map.1 hEntry
    exact of_decide_eq_true (List.mem_filter.1 hSetting).2
  · obtain ⟨g, -, rfl⟩ := List.mem_map.1 hMem
    obtain ⟨s, -, rfl⟩ := List.mem_map.1 hEntry
    exact ⟨s.get c, s.read_toValue _, rfl⟩
  · refine ⟨_, List.mem_map_of_mem (group_mem_groups s), ?_⟩
    rw [List.map_map]
    exact List.mem_map.2 ⟨s, List.mem_filter.2 ⟨s.mem_all, decide_eq_true rfl⟩, rfl⟩

/-- A configuration that was saved where a name spells, and is asked for by that name, is the one
that is loaded, whatever the other files say, as long as no variable is for a setting. -/
theorem load_of_saved {t t' : FileTree} {c : Configuration} {path name : Path}
    {environment : Environment} {first second third user : Partial}
    (hSave : (save c path : StateM FileTree _) t = (.ok (), t'))
    (hName : (FileTree.pathOf t'.workingDirectory).join name = path)
    (hToml : path.extension? = some "toml")
    (hUsual : List.Forall₂ (AtPlace t') usualPlaces [first, second, third])
    (hUser : OfUser t' environment user) (hVariables : OfVariables environment .nothing) :
    (load environment (some name) : ExceptT LoadFault (StateM FileTree) Configuration).run t' =
      (.ok c, t') := by
  obtain ⟨l, serial, hTarget⟩ := FileTree.read_eq_ok_iff.1 (read_of_save hSave)
  have hFormat : (FileFormat.all.find? fun f => path.extension? == some f.extension) =
      some .toml := by
    rw [hToml]
    decide
  -- the file is read back as the settings that were saved
  have hLayer : FileFormat.toml.read? c.render.toList = some (savedFields c) := by
    simp only [FileFormat.read?, read?_render]
  have hFile := inFile_of_target path .toml hName hFormat hTarget hLayer (describes_savedFields c)
  obtain ⟨read, ps, hLayers, hDescribes, hLatest⟩ :=
    run_layers hUsual hUser (.file hFile) hVariables
  obtain ⟨c', hRun, hValues⟩ := load_of_described hLayers hDescribes
  -- what is asked for stands over all other files, and sets every setting
  have hSame : c' = c := eq_of_get fun s => by
    rw [hValues, hLatest]
    rfl
  rwa [hSame] at hRun

end PropertySets.Configuration
