import PropertySets.Proofs.CommandLine.Loading
import PropertySets.Proofs.Configuration.Overlay
import PropertySets.Proofs.Disk.Unlinked

/-!
# What a configuration is loaded from

A configuration is loaded from files at three usual places, the file of the user, a file that is
asked for, and environment variables, in this order. Where each of these is missing or describes a
partial configuration, loading succeeds, and every setting has the value of the last layer that
sets it, or its standard value. A variable describes a setting if its name spells the group and the
key, and if its value is a text: what reads as a truth value or a number is none.

* `OfVariables`, `describes_ofEnvironment` — variables as a layer.
* `InFile`, `AtPlace`, `OfUser`, `Asked` — where the other layers come from.
* `run_layers`, `load_of_described` — reading the layers, and what is made of them.
* `load_of_layers` — the configuration that is loaded.
-/

namespace PropertySets.Configuration

open Data

/-! ## Environment variables -/

/-- The name of the variable for a setting, in small letters. -/
def variableName (s : Setting) : String := "psdgen__" ++ s.group ++ "__" ++ s.key

/-- Environment variables describe a partial configuration: those with the prefix are for
settings, whatever the case of their names, and hold texts — no truth values and no numbers — that
are read as the values there. -/
structure OfVariables (environment : Environment) (p : Partial) : Prop where
  named : ∀ v ∈ environment, variableStart <+: (Text.lowercase v.1).toList →
    ∃ s, Text.lowercase v.1 = variableName s
  typed : ∀ v ∈ environment, ∀ s, Text.lowercase v.1 = variableName s →
    valueOfText v.2 = .text v.2 ∧ ∃ x, s.read (.text v.2) = some x ∧ p s = some x
  assigned : ∀ s x, p s = some x → ∃ v ∈ environment, Text.lowercase v.1 = variableName s

/-- A variable for a setting is an entry with the path of the setting. -/
theorem ofVariable?_of_name {v : String × String} {s : Setting}
    (hName : Text.lowercase v.1 = variableName s) :
    ofVariable? v = some (s.group ++ "." ++ s.key, valueOfText v.2) := by
  rw [ofVariable?, hName]
  cases s <;> rfl

theorem stepsOf_path (s : Setting) :
    stepsOf (s.group ++ "." ++ s.key) = [.field s.group, .field s.key] := by
  cases s <;> decide

theorem lowercase_group (s : Setting) : Text.lowercase s.group = s.group := by
  cases s <;> decide

theorem lowercase_key (s : Setting) : Text.lowercase s.key = s.key := by
  cases s <;> decide

/-- The path of a setting assigns to that setting only. -/
theorem of_assigns_path {s s' : Setting} {v v' : Value}
    (h : Assigns (s.group ++ "." ++ s.key, v) s' v') : s' = s ∧ v' = v := by
  cases h with
  | inTable _ _ hSteps =>
    rw [stepsOf_path] at hSteps
    exact absurd (congrArg List.length hSteps) (by simp)
  | byPath group key hSteps _ hKey hValue =>
    simp only [stepsOf_path, List.cons.injEq, Step.field.injEq, and_true] at hSteps
    obtain ⟨rfl, rfl⟩ := hSteps
    exact ⟨Setting.eq_of_key (hKey.symm.trans (lowercase_key s)), hValue.symm⟩

/-- Variables that describe a partial configuration are a layer that describes it. -/
theorem describes_ofEnvironment {environment : Environment} {p : Partial}
    (h : OfVariables environment p) : Describes (ofEnvironment environment) p := by
  -- every variable that counts is the variable of a setting, so it gives the path of one
  have hEntry : ∀ e ∈ ofEnvironment environment, ∃ v ∈ environment, ∃ s,
      Text.lowercase v.1 = variableName s ∧ e = (s.group ++ "." ++ s.key, valueOfText v.2) := by
    intro e hMem
    obtain ⟨v, hVariable, hRead⟩ := List.mem_filterMap.1 hMem
    obtain ⟨rest, hStart, -⟩ := Option.map_eq_some_iff.1 hRead
    obtain ⟨s, hName⟩ := h.named v hVariable ⟨rest, (Text.stripStart?_eq_some_iff.1 hStart).symm⟩
    rw [ofVariable?_of_name hName] at hRead
    exact ⟨v, hVariable, s, hName, (Option.some.inj hRead).symm⟩
  refine ⟨fun e hMem => ?_, fun e hMem s v hAssigns => ?_, fun s x hSet => ?_⟩
  · obtain ⟨v, -, s, -, rfl⟩ := hEntry e hMem
    refine .byPath s.group s.key (stepsOf_path s) ?_
    rw [lowercase_group]
    exact group_mem_groups s
  · obtain ⟨variable', hVariable, s', hName, rfl⟩ := hEntry e hMem
    obtain ⟨rfl, rfl⟩ := of_assigns_path hAssigns
    obtain ⟨hText, hRead⟩ := h.typed variable' hVariable s hName
    rwa [hText]
  · obtain ⟨v, hVariable, hName⟩ := h.assigned s x hSet
    exact ⟨_, List.mem_filterMap.2 ⟨v, hVariable, ofVariable?_of_name hName⟩, valueOfText v.2,
      .byPath s.group s.key (stepsOf_path s) (lowercase_group s) (lowercase_key s) rfl⟩

/-! ## Where layers come from -/

/-- A file goes by a name, its text follows its format, and its settings describe a partial
configuration. -/
structure InFile (t : FileTree) (name : Path) (p : Partial) : Prop where
  described : ∃ path format content text layer,
    (locate name : StateM FileTree (Except LoadFault (Path × FileFormat))) t =
      (.ok (path, format), t) ∧
    t.read path = .ok content ∧ Text.Utf8.decode content = .ok text ∧
    format.read? text.toList = some layer ∧ Describes layer p

/-- At a place that a file may be missing from, there is none, or it describes a partial
configuration. -/
inductive AtPlace (t : FileTree) (name : Path) : Partial → Prop
  | missing (hMissing : ∀ path ∈ spellings (FileTree.pathOf t.workingDirectory) name,
      t.isFile path = false) : AtPlace t name .nothing
  | file {p : Partial} (hFile : InFile t name p) : AtPlace t name p

/-- The user has no file, or it describes a partial configuration. -/
inductive OfUser (t : FileTree) (environment : Environment) : Partial → Prop
  | homeless (hPath : userPath? environment = none) : OfUser t environment .nothing
  | missing {path : Path} (hPath : userPath? environment = some path)
      (hMissing : t.present path = false) : OfUser t environment .nothing
  | file {path : Path} {p : Partial} (hPath : userPath? environment = some path)
      (hPresent : t.present path = true) (hPlace : AtPlace t path p) : OfUser t environment p

/-- No file is asked for, or it describes a partial configuration. -/
inductive Asked (t : FileTree) : Option Path → Partial → Prop
  | nothing : Asked t none .nothing
  | file {name : Path} {p : Partial} (hFile : InFile t name p) : Asked t (some name) p

section

variable {t : FileTree} {environment : Environment} {p : Partial}

theorem run_fileLayer {name : Path} (h : InFile t name p) (required : Bool) :
    ∃ layer, (fileLayer required name : ExceptT LoadFault (StateM FileTree) Layer).run t =
      (.ok layer, t) ∧ Describes layer p := by
  obtain ⟨path, format, content, text, layer, hLocate, hRead, hText, hLayer, hDescribes⟩ :=
    h.described
  have hDisk : (Disk.read path : StateM FileTree (Except DiskError ByteArray)) t =
      (.ok content, t) := congrArg (Prod.mk · t) hRead
  refine ⟨layer, (FileTree.bind_apply hLocate).trans ((FileTree.bind_apply hDisk).trans ?_),
    hDescribes⟩
  simp only [hText, hLayer]
  rfl

theorem run_fileLayer_of_place {name : Path} (h : AtPlace t name p) :
    ∃ layer, (fileLayer false name : ExceptT LoadFault (StateM FileTree) Layer).run t =
      (.ok layer, t) ∧ Describes layer p := by
  cases h with
  | missing hMissing => exact ⟨[], fileLayer_of_missing hMissing, describes_nil⟩
  | file hFile => exact run_fileLayer hFile false

theorem run_present (path : Path) (t : FileTree) :
    (liftM (Disk.present path : StateM FileTree Bool) :
      ExceptT LoadFault (StateM FileTree) Bool).run t = (.ok (t.present path), t) := rfl

theorem run_userLayer (h : OfUser t environment p) :
    ∃ layer, (userLayer environment : ExceptT LoadFault (StateM FileTree) Layer).run t =
      (.ok layer, t) ∧ Describes layer p := by
  unfold userLayer
  -- without a home directory nothing is looked for; without a file there nothing is read
  cases h with
  | homeless hPath =>
    rw [hPath]
    exact ⟨[], rfl, describes_nil⟩
  | @missing path hPath hMissing =>
    rw [hPath]
    exact ⟨[], (run_bind_ok (run_present path t)).trans (by rw [hMissing]; rfl), describes_nil⟩
  | @file path p hPath hPresent hPlace =>
    obtain ⟨layer, hRun, hDescribes⟩ := run_fileLayer_of_place hPlace
    rw [hPath]
    exact ⟨layer, (run_bind_ok (run_present path t)).trans (by rw [hPresent]; exact hRun),
      hDescribes⟩

theorem run_asked {asked? : Option Path} (h : Asked t asked? p) :
    ∃ layers ps, (asked?.toList.mapM (fileLayer true) :
        ExceptT LoadFault (StateM FileTree) (List Layer)).run t = (.ok layers, t) ∧
      List.Forall₂ Describes layers ps ∧ ∀ s, (ps.reverse.findSome? (· s)) = p s := by
  cases h with
  | nothing => exact ⟨[], [], rfl, .nil, fun _ => rfl⟩
  | @file name p hFile =>
    obtain ⟨layer, hRun, hDescribes⟩ := run_fileLayer hFile true
    refine ⟨[layer], [p], ?_, .cons hDescribes .nil, fun s => ?_⟩
    · rw [Option.toList_some, List.mapM_cons, run_bind_ok hRun]
      rfl
    · simp

theorem run_usual {ps : List Partial} {names : List Path}
    (h : List.Forall₂ (AtPlace t) names ps) :
    ∃ layers, (names.mapM (fileLayer false) :
        ExceptT LoadFault (StateM FileTree) (List Layer)).run t = (.ok layers, t) ∧
      List.Forall₂ Describes layers ps := by
  induction h with
  | nil => exact ⟨[], rfl, .nil⟩
  | cons hFirst _ ih =>
    obtain ⟨layer, hRun, hDescribes⟩ := run_fileLayer_of_place hFirst
    obtain ⟨layers, hRest, hAll⟩ := ih
    refine ⟨layer :: layers, ?_, .cons hDescribes hAll⟩
    rw [List.mapM_cons, run_bind_ok hRun, run_bind_ok hRest]
    rfl

/-- All layers are read, one after the other, and the last one that sets a setting decides. -/
theorem run_layers {asked? : Option Path} {first second third user asked named : Partial}
    (hUsual : List.Forall₂ (AtPlace t) usualPlaces [first, second, third])
    (hUser : OfUser t environment user) (hAsked : Asked t asked? asked)
    (hVariables : OfVariables environment named) :
    ∃ read ps, (layers environment asked? : ExceptT LoadFault (StateM FileTree) _).run t =
        (.ok read, t) ∧
      List.Forall₂ Describes read ps ∧
      ∀ s, ps.reverse.findSome? (· s) =
        [named, asked, user, third, second, first].findSome? (· s) := by
  obtain ⟨usual, hRunUsual, hDescribesUsual⟩ := run_usual hUsual
  obtain ⟨own, hRunUser, hDescribesUser⟩ := run_userLayer hUser
  obtain ⟨explicit, ps, hRunAsked, hDescribesAsked, hSame⟩ := run_asked hAsked
  refine ⟨usual ++ [own] ++ explicit ++ [ofEnvironment environment],
    [first, second, third] ++ [user] ++ ps ++ [named], ?_,
    List.rel_append (List.rel_append (List.rel_append hDescribesUsual (.cons hDescribesUser .nil))
      hDescribesAsked) (.cons (describes_ofEnvironment hVariables) .nil), fun s => ?_⟩
  · -- nothing changes the tree
    rw [layers, run_bind_ok hRunUsual, run_bind_ok hRunUser, run_bind_ok hRunAsked]
    rfl
  · -- the layers were listed from the weakest to the strongest
    have hLatest : ([first, second, third] ++ [user] ++ ps ++ [named]).reverse =
        [named] ++ (ps.reverse ++ [user, third, second, first]) := by simp
    have hOne : ∀ p : Partial, [p].findSome? (· s) = p s := fun p => by simp
    rw [hLatest, List.findSome?_append, List.findSome?_append, hSame, ← hOne asked,
      ← List.findSome?_append, ← List.findSome?_append]
    rfl

/-- Layers that describe partial configurations make a configuration. -/
theorem load_of_described {asked? : Option Path} {read : List Layer} {ps : List Partial}
    (hLayers : (layers environment asked? : ExceptT LoadFault (StateM FileTree) _).run t =
      (.ok read, t))
    (hDescribes : List.Forall₂ Describes read ps) :
    ∃ c : Configuration,
      (load environment asked? : ExceptT LoadFault (StateM FileTree) Configuration).run t =
        (.ok c, t) ∧
      ∀ s, s.get c = (ps.reverse.findSome? (· s)).getD (s.get {}) := by
  have hDecoded := ofFields_of_shows (shows_combine hDescribes)
  refine ⟨_, ?_, Partial.get_complete fun s => ps.reverse.findSome? (· s)⟩
  rw [load, run_bind_ok hLayers]
  simp only [hDecoded]
  rfl

/-- **Layering.** Let each of the three usual places, the user, what is asked for and the variables
have nothing or describe a partial configuration. Then a configuration is loaded, and every setting
of it has the value of the last layer that sets it, and its standard value if none does. -/
theorem load_of_layers {asked? : Option Path} {first second third user asked named : Partial}
    (hUsual : List.Forall₂ (AtPlace t) usualPlaces [first, second, third])
    (hUser : OfUser t environment user) (hAsked : Asked t asked? asked)
    (hVariables : OfVariables environment named) :
    ∃ c : Configuration,
      (load environment asked? : ExceptT LoadFault (StateM FileTree) Configuration).run t =
        (.ok c, t) ∧
      ∀ s, s.get c = ([named, asked, user, third, second, first].findSome? (· s)).getD
        (s.get {}) := by
  obtain ⟨read, ps, hLayers, hDescribes, hLatest⟩ := run_layers hUsual hUser hAsked hVariables
  obtain ⟨c, hRun, hValues⟩ := load_of_described hLayers hDescribes
  exact ⟨c, hRun, fun s => by rw [hValues, hLatest]⟩

/-- A file at the path that a name spells, with the extension of a format, is what the name
means. -/
theorem inFile_of_target (path : Path) (format : FileFormat) {name : Path} {text : String}
    {layer : Layer} {l : Location} {serial : Nat}
    (hPath : (FileTree.pathOf t.workingDirectory).join name = path)
    (hFormat : (FileFormat.all.find? fun f => path.extension? == some f.extension) = some format)
    (hTarget : t.target path = .ok (l, .file serial text.toUTF8))
    (hRead : format.read? text.toList = some layer) (hLayer : Describes layer p) :
    InFile t name p := by
  have hFile : t.isFile path = true := by rw [FileTree.isFile, hTarget]
  have hWorking : (Disk.workingDirectory : StateM FileTree Path) t =
      (FileTree.pathOf t.workingDirectory, t) := rfl
  -- the only file that is looked for is the one at the path itself
  have hLook : (Disk.isFile ((FileTree.pathOf t.workingDirectory).join name) :
      StateM FileTree Bool) t = (true, t) := by
    rw [hPath]
    exact congrArg (Prod.mk · t) hFile
  refine ⟨path, format, text.toUTF8, text, layer, ?_, ?_, Text.Utf8.decode_toUTF8 text, hRead,
    hLayer⟩
  · refine (FileTree.bind_apply hWorking).trans ((FileTree.bind_apply hLook).trans ?_)
    simp only [hPath, hFormat]
    rfl
  · rw [FileTree.read, hTarget]
    rfl

end

theorem stepsOf_group : ∀ g ∈ groups, stepsOf g = [.field g] ∧ Text.lowercase g = g := by
  decide

/-- Tables of groups, with values for settings of these groups, describe the partial configuration
that these values are read as. -/
theorem describes_tables (tables : List (String × List (Setting × Value))) {p : Partial}
    (hKnown : ∀ g ∈ tables, g.1 ∈ groups) (hGroup : ∀ g ∈ tables, ∀ e ∈ g.2, e.1.group = g.1)
    (hRead : ∀ g ∈ tables, ∀ e ∈ g.2, ∃ x, e.1.read e.2 = some x ∧ p e.1 = some x)
    (hOnly : ∀ s x, p s = some x → ∃ g ∈ tables, s ∈ g.2.map (·.1)) :
    Describes (tables.map fun g => (g.1, .table (g.2.map fun e => (e.1.key, e.2)))) p := by
  refine ⟨fun e hMem => ?_, fun e hMem s v hAssigns => ?_, fun s x hSet => ?_⟩
  · obtain ⟨g, hTable, rfl⟩ := List.mem_map.1 hMem
    obtain ⟨hSteps, hName⟩ := stepsOf_group g.1 (hKnown g hTable)
    exact .inTable _ hSteps (hName.symm ▸ hKnown g hTable) rfl
  · obtain ⟨g, hTable, rfl⟩ := List.mem_map.1 hMem
    obtain ⟨hSteps, -⟩ := stepsOf_group g.1 (hKnown g hTable)
    -- a key without a dot leads into a table, never along a path
    cases hAssigns with
    | inTable fields key _ _ hFields hMem hKey =>
      cases hFields
      obtain ⟨entry, hEntry, hSame⟩ := List.mem_map.1 hMem
      obtain ⟨rfl, rfl⟩ := Prod.mk.inj hSame
      obtain rfl := Setting.eq_of_key ((lowercase_key entry.1).symm.trans hKey)
      exact hRead g hTable entry hEntry
    | byPath group key hSteps' =>
      rw [hSteps] at hSteps'
      cases hSteps'
  · obtain ⟨g, hTable, hSetting⟩ := hOnly s x hSet
    obtain ⟨entry, hEntry, rfl⟩ := List.mem_map.1 hSetting
    obtain ⟨hSteps, hName⟩ := stepsOf_group g.1 (hKnown g hTable)
    exact ⟨_, List.mem_map_of_mem hTable, entry.2, .inTable _ entry.1.key hSteps
      (hName.trans (hGroup g hTable entry hEntry).symm) rfl (List.mem_map_of_mem hEntry)
      (lowercase_key entry.1)⟩

/-! ### A project with three layers -/

/-- A file at a usual place: where the module goes, and that a dump is written. -/
def usualText : String := "[output]\npath = \"a.rs\"\ndump = true\n"

/-- A file that is asked for: the module goes somewhere else. -/
def askedText : String := "[output]\npath = \"b.rs\"\n"

/-- A directory with these files. -/
def layeredProject : FileTree :=
  ⟨[(["project"], .directory), (["project", "psdgen.toml"], .file 0 usualText.toUTF8),
    (["project", "own.toml"], .file 1 askedText.toUTF8)], 2, ["project"]⟩

/-- A variable for another setting of the group. -/
def layeredEnvironment : Environment := [("PSDGEN__OUTPUT__ENUM_MODULE", "crate::enums")]

theorem unlinked_layeredProject : layeredProject.Unlinked :=
  FileTree.unlinked_of_nodes (by simp [layeredProject, FileTree.kindOf])

theorem target_layeredProject {p : Path} (name : String) {serial : Nat} {content : ByteArray}
    (hText : p.text ≠ "") (hTerminator : '\x00' ∉ p.text.toList)
    (hLength : p.text.utf8ByteSize ≤ 4095) (hSlash : FileTree.endsInSlash p = false)
    (hAbsolute : p.isAbsolute = true) (hRoute : FileTree.route p = ["project", name])
    (hName : FileTree.IsEntryName name)
    (hNode : layeredProject.node? ["project", name] = some (.file serial content)) :
    layeredProject.target p = .ok (["project", name], .file serial content) := by
  refine FileTree.target_eq_ok_iff.2 ⟨?_, hNode⟩
  rw [FileTree.resolve_of_text hText hTerminator hLength, hSlash, FileTree.startOf, hAbsolute,
    if_pos rfl, hRoute, FileTree.walk_directory ⟨by decide, by decide, by decide⟩ rfl
      fun _ => .inl rfl, FileTree.walk_entry hName fun _ => .inl rfl, List.nil_append,
    List.cons_append, List.nil_append, hNode]
  rfl

/-- What the file at the usual place sets. -/
def usualPartial : Partial
  | .path => some "a.rs"
  | .dump => some true
  | _ => none

/-- What the file that is asked for sets. -/
def askedPartial : Partial
  | .path => some "b.rs"
  | _ => none

/-- What the variable sets. -/
def namedPartial : Partial
  | .enumModule => some "crate::enums"
  | _ => none

theorem inFile_usual : InFile layeredProject ⟨"psdgen.toml"⟩ usualPartial := by
  have hText : usualText = String.ofList _ := rfl
  -- the text of the file is parsed by evaluation, down to its table
  have hRead : FileFormat.toml.read? usualText.toList =
      some [("output", .table [("path", .text "a.rs"), ("dump", .boolean true)])] := by
    rw [hText, String.toList_ofList]
    rfl
  refine inFile_of_target ⟨"/project/psdgen.toml"⟩ .toml (by decide)
    (by decide) (target_layeredProject "psdgen.toml" (by decide) (by decide) (by decide) (by decide)
    (by decide) (by decide) ⟨by decide, by decide, by decide⟩ rfl) hRead ?_
  -- and the table is read setting by setting
  refine describes_tables [("output", [(.path, .text "a.rs"), (.dump, .boolean true)])]
    (by decide) (by decide) ?_ ?_
  · intro g hTable e hMem
    obtain rfl := List.mem_singleton.1 hTable
    rcases List.mem_pair.1 hMem with rfl | rfl
    · exact ⟨"a.rs", rfl, rfl⟩
    · exact ⟨true, rfl, rfl⟩
  · intro s x hSet
    cases s <;> first | decide | cases hSet

theorem inFile_asked : InFile layeredProject ⟨"own.toml"⟩ askedPartial := by
  have hText : askedText = String.ofList _ := rfl
  -- as for the usual file
  have hRead : FileFormat.toml.read? askedText.toList =
      some [("output", .table [("path", .text "b.rs")])] := by
    rw [hText, String.toList_ofList]
    rfl
  refine inFile_of_target ⟨"/project/own.toml"⟩ .toml (by decide)
    (by decide) (target_layeredProject "own.toml" (by decide) (by decide) (by decide) (by decide)
    (by decide) (by decide) ⟨by decide, by decide, by decide⟩ rfl) hRead ?_
  refine describes_tables [("output", [(.path, .text "b.rs")])] (by decide) (by decide) ?_ ?_
  · intro g hTable e hMem
    obtain rfl := List.mem_singleton.1 hTable
    obtain rfl := List.mem_singleton.1 hMem
    exact ⟨"b.rs", rfl, rfl⟩
  · intro s x hSet
    cases s <;> first | decide | cases hSet

theorem ofVariables_layeredEnvironment : OfVariables layeredEnvironment namedPartial := by
  refine ⟨fun v hMem _ => ?_, fun v hMem s hName => ?_, fun s x hSet => ?_⟩
  · obtain rfl := List.mem_singleton.1 hMem
    exact ⟨.enumModule, by decide⟩
  · obtain rfl := List.mem_singleton.1 hMem
    have hSetting : s = .enumModule := by
      cases s <;> first | rfl | exact absurd hName (by decide)
    subst hSetting
    exact ⟨rfl, "crate::enums", rfl, rfl⟩
  · refine ⟨_, List.mem_singleton_self _, ?_⟩
    cases s <;> first | decide | cases hSet

theorem missing_layeredProject {name : Path}
    (hNone : ∀ p ∈ spellings (FileTree.pathOf layeredProject.workingDirectory) name,
      (layeredProject.node? (FileTree.place layeredProject.workingDirectory p)).isNone = true) :
    AtPlace layeredProject name .nothing :=
  .missing fun p hMem =>
    unlinked_layeredProject.isFile_of_none (Option.isNone_iff_eq_none.1 (hNone p hMem))

/-- In the project the module goes where the file that is asked for says; the dump is kept from
the usual place, the other setting of the group is that of the variable, and nothing else is set. -/
theorem load_layeredProject :
    ∃ c : Configuration,
      (load layeredEnvironment (some ⟨"own.toml"⟩) :
        ExceptT LoadFault (StateM FileTree) Configuration).run layeredProject =
        (.ok c, layeredProject) ∧
      c = { output := { path := ⟨"b.rs"⟩, enumModule := "crate::enums", dump := true } } := by
  obtain ⟨c, hRun, hValues⟩ := load_of_layers
    (.cons (.file inFile_usual) (.cons (missing_layeredProject (by decide))
      (.cons (missing_layeredProject (by decide)) .nil)))
    (.homeless rfl) (.file inFile_asked) ofVariables_layeredEnvironment
  refine ⟨c, hRun, eq_of_get fun s => (hValues s).trans ?_⟩
  cases s <;> rfl

end PropertySets.Configuration
