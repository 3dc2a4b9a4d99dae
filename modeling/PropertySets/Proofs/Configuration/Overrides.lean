import PropertySets.Proofs.Configuration.Layering

/-!
# Texts in environment variables

An environment variable for a setting takes the place of whatever files say for it. The value of a
variable is taken as a truth value or a number wherever it reads as one, before it is known what
the setting wants. A setting that wants a text then gets the text of that value, which need not be
the one that was given: `TRUE` becomes `true`, and `007` becomes `7`. The rules of the scan take
nothing but texts, so they cannot be set to such a text at all: no configuration is loaded.

* `Setting.decode`, `ofFields_eq_ok_iff` — how each setting is decoded by itself.
* `Spares` — the keys that leave a setting alone.
* `Overridden` — two tables of settings, the second with a value of its own for one setting;
  `Overridden.entry`, `Overridden.layer` keep it.
* `Overridden.ofFields_ok`, `Overridden.ofFields_misfit` — how such tables are decoded.
* `load_text_of_variable` — the configuration that is loaded.
* `truth_value_refused` — a text that cannot be set.
-/

namespace PropertySets.Configuration

open Data FileTree
open Xml (bind_eq_ok)

/-! ## Settings by themselves -/

theorem bind_error {ε α β : Type} {x : Except ε α} {e : ε} (h : x = .error e)
    (f : α → Except ε β) : (x >>= f) = .error e := by
  rw [h]
  rfl

namespace Setting

/-- How a setting is read when a table is decoded: the name of a format may be that of a table. -/
def decoder : (s : Setting) → Value → Option s.Carrier
  | dumpFormat => asFormat?
  | s => s.read

/-- The fields that a setting is decoded from. -/
def groupFields (fields : List (String × Value)) : Setting → Except Misfit (List (String × Value))
  | root | folderName | nameStart | extension => tableOf "source" fields
  | path | runtimeModule | enumModule | dump | dumpFormat =>
    groupOf "output" ["path", "runtime_module", "enum_module", "dump", "dump_format"] fields
  | defaultEntityType | knownSubIndices =>
    groupOf "naming" ["default_entity_type", "known_sub_indices"] fields

/-- A setting decoded from the fields of its group. -/
def decodeIn (s : Setting) (fields : List (String × Value)) : Except Misfit s.Carrier :=
  setting s.group s.key s.decoder (s.get {}) fields

/-- A setting decoded by itself. -/
def decode (s : Setting) (fields : List (String × Value)) : Except Misfit s.Carrier :=
  s.groupFields fields >>= s.decodeIn

end Setting

section

variable {fields : List (String × Value)} {c : Configuration}

theorem decodeSource_eq_ok_iff :
    decodeSource fields = .ok c.source ↔
      ∀ s : Setting, s.group = "source" → s.decode fields = .ok (s.get c) := by
  constructor
  · intro h s hGroup
    -- each line of the decoder succeeded, and gave what the configuration has there
    obtain ⟨⟨⟨_⟩, ⟨_, _, _⟩⟩, _, _⟩ := c
    obtain ⟨inner, hInner, h⟩ := bind_eq_ok.1 h
    obtain ⟨_, hRoot, h⟩ := bind_eq_ok.1 h
    obtain ⟨_, hFolderName, h⟩ := bind_eq_ok.1 h
    obtain ⟨_, hNameStart, h⟩ := bind_eq_ok.1 h
    obtain ⟨_, hExtension, h⟩ := bind_eq_ok.1 h
    cases h
    cases s with
    | root => exact (bind_ok hInner _).trans hRoot
    | folderName => exact (bind_ok hInner _).trans hFolderName
    | nameStart => exact (bind_ok hInner _).trans hNameStart
    | extension => exact (bind_ok hInner _).trans hExtension
    | _ => exact absurd hGroup (by decide)
  · intro h
    obtain ⟨inner, hInner, hRoot⟩ := bind_eq_ok.1 (h .root rfl)
    -- the group is looked up once by the decoder, and once for each setting here
    have hIn : ∀ s : Setting, s.group = "source" → s.groupFields fields = .ok inner →
        s.decodeIn inner = .ok (s.get c) :=
      fun s hGroup hFields => (bind_ok hFields _).symm.trans (h s hGroup)
    exact (bind_ok hInner _).trans <| (bind_ok hRoot _).trans <|
      (bind_ok (hIn .folderName rfl hInner) _).trans <|
      (bind_ok (hIn .nameStart rfl hInner) _).trans <| bind_ok (hIn .extension rfl hInner) _

theorem decodeOutput_eq_ok_iff :
    decodeOutput fields = .ok c.output ↔
      ∀ s : Setting, s.group = "output" → s.decode fields = .ok (s.get c) := by
  constructor
  · intro h s hGroup
    -- as for the source: line by line, and back with the group looked up once
    obtain ⟨_, ⟨⟨_⟩, _, _, _, _⟩, _⟩ := c
    obtain ⟨inner, hInner, h⟩ := bind_eq_ok.1 h
    obtain ⟨_, hPath, h⟩ := bind_eq_ok.1 h
    obtain ⟨_, hRuntimeModule, h⟩ := bind_eq_ok.1 h
    obtain ⟨_, hEnumModule, h⟩ := bind_eq_ok.1 h
    obtain ⟨_, hDump, h⟩ := bind_eq_ok.1 h
    obtain ⟨_, hDumpFormat, h⟩ := bind_eq_ok.1 h
    cases h
    cases s with
    | path => exact (bind_ok hInner _).trans hPath
    | runtimeModule => exact (bind_ok hInner _).trans hRuntimeModule
    | enumModule => exact (bind_ok hInner _).trans hEnumModule
    | dump => exact (bind_ok hInner _).trans hDump
    | dumpFormat => exact (bind_ok hInner _).trans hDumpFormat
    | _ => exact absurd hGroup (by decide)
  · intro h
    obtain ⟨inner, hInner, hPath⟩ := bind_eq_ok.1 (h .path rfl)
    have hIn : ∀ s : Setting, s.group = "output" → s.groupFields fields = .ok inner →
        s.decodeIn inner = .ok (s.get c) :=
      fun s hGroup hFields => (bind_ok hFields _).symm.trans (h s hGroup)
    exact (bind_ok hInner _).trans <| (bind_ok hPath _).trans <|
      (bind_ok (hIn .runtimeModule rfl hInner) _).trans <|
      (bind_ok (hIn .enumModule rfl hInner) _).trans <|
      (bind_ok (hIn .dump rfl hInner) _).trans <| bind_ok (hIn .dumpFormat rfl hInner) _

theorem decodeNaming_eq_ok_iff :
    decodeNaming fields = .ok c.naming ↔
      ∀ s : Setting, s.group = "naming" → s.decode fields = .ok (s.get c) := by
  constructor
  · intro h s hGroup
    -- as for the source, with two settings
    obtain ⟨_, _, ⟨_, _⟩⟩ := c
    obtain ⟨inner, hInner, h⟩ := bind_eq_ok.1 h
    obtain ⟨_, hEntityType, h⟩ := bind_eq_ok.1 h
    obtain ⟨_, hSubIndices, h⟩ := bind_eq_ok.1 h
    cases h
    cases s with
    | defaultEntityType => exact (bind_ok hInner _).trans hEntityType
    | knownSubIndices => exact (bind_ok hInner _).trans hSubIndices
    | _ => exact absurd hGroup (by decide)
  · intro h
    obtain ⟨inner, hInner, hEntityType⟩ := bind_eq_ok.1 (h .defaultEntityType rfl)
    have hSubIndices : Setting.knownSubIndices.decodeIn inner = .ok c.naming.knownSubIndices :=
      (bind_ok hInner _).symm.trans (h .knownSubIndices rfl)
    exact (bind_ok hInner _).trans <| (bind_ok hEntityType _).trans <| bind_ok hSubIndices _

/-- A table is decoded as a configuration if each setting is, by itself, as its value there. -/
theorem ofFields_eq_ok_iff :
    ofFields fields = .ok c ↔ ∀ s : Setting, s.decode fields = .ok (s.get c) := by
  constructor
  · intro h s
    obtain ⟨source, hSource, h⟩ := bind_eq_ok.1 h
    obtain ⟨output, hOutput, h⟩ := bind_eq_ok.1 h
    obtain ⟨naming, hNaming, h⟩ := bind_eq_ok.1 h
    cases h
    -- every setting is in one of the three groups, and each group has its decoder
    have hGroup : s.group = "source" ∨ s.group = "output" ∨ s.group = "naming" := by
      cases s <;> decide
    rcases hGroup with hGroup | hGroup | hGroup
    · exact decodeSource_eq_ok_iff.1 hSource s hGroup
    · exact decodeOutput_eq_ok_iff.1 hOutput s hGroup
    · exact decodeNaming_eq_ok_iff.1 hNaming s hGroup
  · intro h
    exact (bind_ok (decodeSource_eq_ok_iff.2 fun s _ => h s) _).trans <|
      (bind_ok (decodeOutput_eq_ok_iff.2 fun s _ => h s) _).trans <|
      bind_ok (decodeNaming_eq_ok_iff.2 fun s _ => h s) _

end

/-! ## One setting with a value of its own -/

/-- The second settings are the first ones with a value for one of them: other groups are the same,
and in its group nothing else is new. Lists have no fields, so a group that was written as a list
only has this one. -/
structure Overridden (s : Setting) (v : Value) (settings settings' : Value) : Prop where
  others : ∀ name, name ≠ s.group → settings'.field? name = settings.field? name
  inGroup : ∃ inner, settings'.field? s.group = some (.table inner) ∧ inner.lookup s.key = some v ∧
    ∀ key, key ≠ s.key → inner.lookup key = (settings.field? s.group).bind (·.field? key)

/-- What is put over settings by the path of one of them. -/
theorem overridden_path (s : Setting) {v : Value} (hPlain : Plain v) (settings : Value) :
    Overridden s v settings (addSetting settings (s.group ++ "." ++ s.key, v)) := by
  -- a path has two steps, so the value is put into the table of the group
  have hAdded : addSetting settings (s.group ++ "." ++ s.key, v) = .table (putField s.group
      (merge s.key v ((settings.field? s.group).getD .null)) settings.fields) := by
    rw [addSetting_eq, stepsOf_path, setAlong_two, lowercase_group]
  obtain ⟨inner, hInner⟩ : ∃ inner,
      merge s.key v ((settings.field? s.group).getD .null) = .table inner := ⟨_, merge_eq _ _ _⟩
  -- within the group, only the key itself is changed
  have hField : ∀ key, inner.lookup key = if key = s.key then some v else
      (settings.field? s.group).bind (·.field? key) := by
    intro key
    have hMerged := field?_merge key s.key v ((settings.field? s.group).getD .null)
    rw [hInner, lowercase_key, laidOver_of_plain hPlain] at hMerged
    refine hMerged.trans ?_
    cases settings.field? s.group <;> rfl
  refine ⟨fun name hOther => ?_, inner, ?_, ?_, fun key hOther => ?_⟩
  · rw [hAdded, field?_table_putField, if_neg hOther]
  · rw [hAdded, field?_table_putField, if_pos rfl, hInner]
  · rw [hField, if_pos rfl]
  · rw [hField, if_neg hOther]

/-- What is set along a path depends, in the field that the path begins with, on that field only. -/
theorem field?_setAlong_congr {settings settings' : Value} {name : String}
    (h : settings'.field? name = settings.field? name) (v : Value) (key : String)
    (rest : List Step) :
    (setAlong v (.field key :: rest) settings').field? name =
      (setAlong v (.field key :: rest) settings).field? name := by
  by_cases hHere : name = Text.lowercase key
  · subst hHere
    cases rest with
    | nil => rw [setAlong, setAlong, field?_merge, field?_merge, h]
    | cons step rest =>
      rw [setAlong, setAlong]
      · rw [field?_table_putField, field?_table_putField, h]
      · exact List.cons_ne_nil _ _
      · exact List.cons_ne_nil _ _
  · rw [field?_setAlong_of_ne hHere, field?_setAlong_of_ne hHere, h]

theorem exists_table_setAlong (v : Value) (key : String) (rest : List Step) (settings : Value) :
    ∃ inner, setAlong v (.field key :: rest) settings = .table inner := by
  cases rest with
  | nil => exact ⟨_, (by rw [setAlong, merge_eq])⟩
  | cons step rest =>
    refine ⟨putField (Text.lowercase key) (setAlong v (step :: rest)
      ((settings.field? (Text.lowercase key)).getD .null)) settings.fields, ?_⟩
    rw [setAlong]
    exact List.cons_ne_nil _ _

/-- A key leaves a setting alone: it leads to another group, or to something else in the group. -/
inductive Spares (s : Setting) (key : String) : Prop
  | elsewhere (hHead : headOf key ≠ s.group)
  | beside (group other : String) (rest : List Step)
      (hSteps : stepsOf key = .field group :: .field other :: rest)
      (hOther : Text.lowercase other ≠ s.key)

namespace Overridden

variable {s : Setting} {v : Value} {settings settings' : Value}

/-- An entry that leads elsewhere does the same to both. -/
theorem entry_elsewhere (h : Overridden s v settings settings') {e : String × Value}
    (hHead : headOf e.1 ≠ s.group) :
    Overridden s v (addSetting settings e) (addSetting settings' e) := by
  obtain ⟨k, rest, hSteps⟩ := exists_stepsOf e.1
  rw [headOf_eq hSteps] at hHead
  obtain ⟨inner, hInner, hValue, hBeside⟩ := h.inGroup
  have hSame : ∀ settings : Value,
      (addSetting settings e).field? s.group = settings.field? s.group := by
    intro settings
    rw [addSetting_eq, hSteps, field?_setAlong_of_ne hHead.symm]
  refine ⟨fun name hOther => ?_, inner, (hSame settings').trans hInner, hValue, fun key hKey => ?_⟩
  · rw [addSetting_eq, addSetting_eq, hSteps]
    exact field?_setAlong_congr (h.others name hOther) _ _ _
  · rw [hSame settings]
    exact hBeside key hKey

/-- An entry that leaves the setting alone does the same to both. -/
theorem entry (h : Overridden s v settings settings') {e : String × Value}
    (hSpares : Spares s e.1) :
    Overridden s v (addSetting settings e) (addSetting settings' e) := by
  cases hSpares with
  | elsewhere hHead => exact h.entry_elsewhere hHead
  | beside group other rest hSteps hOther =>
    by_cases hHere : Text.lowercase group = s.group
    case neg => exact h.entry_elsewhere (headOf_eq hSteps ▸ hHere)
    -- in the group of the setting, the path goes on to a field that is the same in both
    obtain ⟨inner, hInner, hValue, hBeside⟩ := h.inGroup
    have hAdded : ∀ settings : Value, addSetting settings e = .table (putField s.group
        (setAlong e.2 (.field other :: rest) ((settings.field? s.group).getD .null))
        settings.fields) := by
      intro settings
      rw [addSetting_eq, hSteps, setAlong, hHere]
      exact List.cons_ne_nil _ _
    obtain ⟨added, hTable⟩ := exists_table_setAlong e.2 other rest (.table inner)
    have hField : ∀ settings : Value, (addSetting settings e).field? s.group =
        some (setAlong e.2 (.field other :: rest) ((settings.field? s.group).getD .null)) := by
      intro settings
      rw [hAdded, field?_table_putField, if_pos rfl]
    refine ⟨fun name hOther => ?_, added, ?_, ?_, fun key hKey => ?_⟩
    · rw [hAdded, hAdded, field?_table_putField, field?_table_putField, if_neg hOther,
        if_neg hOther]
      exact h.others name hOther
    · rw [hField, hInner, Option.getD_some, hTable]
    · have hLeft := field?_setAlong_of_ne hOther.symm e.2 rest (.table inner)
      rw [hTable] at hLeft
      exact hLeft.trans hValue
    · have hSame : (Value.table inner).field? key =
          ((settings.field? s.group).getD .null).field? key := by
        refine (hBeside key hKey).trans ?_
        cases settings.field? s.group <;> rfl
      have hCongr := field?_setAlong_congr hSame e.2 other rest
      rw [hTable] at hCongr
      rw [hField, Option.bind_some]
      exact hCongr

/-- So does a layer of such entries. -/
theorem layer {layer : Layer} (hSpares : ∀ e ∈ layer, Spares s e.1)
    (h : Overridden s v settings settings') :
    Overridden s v (addLayer settings layer) (addLayer settings' layer) := by
  induction layer generalizing settings settings' with
  | nil => exact h
  | cons e rest ih =>
    obtain ⟨hHere, hRest⟩ := List.forall_mem_cons.1 hSpares
    exact ih hRest (h.entry hHere)

end Overridden

/-! ## Decoding such settings -/

section

variable {s s' : Setting} {v : Value} {settings settings' : Value}

theorem tableOf_congr {g : String} {fields fields' : List (String × Value)}
    (h : fields'.lookup g = fields.lookup g) : tableOf g fields' = tableOf g fields := by
  rw [tableOf, h, tableOf]

theorem groupOf_congr {g : String} (keys : List String) {fields fields' : List (String × Value)}
    (h : fields'.lookup g = fields.lookup g) : groupOf g keys fields' = groupOf g keys fields := by
  rw [groupOf, h, tableOf_congr h, groupOf]

/-- The fields that a setting is decoded from depend on its group only. -/
theorem groupFields_congr (h : settings'.field? s.group = settings.field? s.group) :
    s.groupFields settings'.fields = s.groupFields settings.fields := by
  cases s <;> first | exact tableOf_congr h | exact groupOf_congr _ h

theorem groupFields_of_table {inner : List (String × Value)}
    (h : settings.field? s.group = some (.table inner)) :
    s.groupFields settings.fields = .ok inner := by
  have hLookup : settings.fields.lookup s.group = some (.table inner) := h
  have hTable : tableOf s.group settings.fields = .ok inner := by rw [tableOf, hLookup]
  have hGroup : ∀ keys, groupOf s.group keys settings.fields = .ok inner := by
    intro keys
    rw [groupOf, hLookup]
    exact hTable
  cases s <;> first | exact hTable | exact hGroup _

/-- The fields that a setting is decoded from are those of its group, unless this is a list. -/
theorem lookup_groupFields {inner : List (String × Value)}
    (h : s.groupFields settings.fields = .ok inner) :
    (∀ key, (settings.field? s.group).bind (·.field? key) = inner.lookup key) ∨
      ∀ key, (settings.field? s.group).bind (·.field? key) = none := by
  cases hField : settings.field? s.group with
  | none => exact .inr fun key => rfl
  | some v =>
    cases v with
    | table fields =>
      rw [groupFields_of_table hField] at h
      cases h
      exact .inl fun key => rfl
    | _ => exact .inr fun key => rfl

theorem decodeIn_congr {fields fields' : List (String × Value)}
    (h : fields'.lookup s.key = fields.lookup s.key) : s.decodeIn fields' = s.decodeIn fields := by
  rw [Setting.decodeIn, setting, h]
  rfl

namespace Overridden

/-- Settings of other groups are decoded as before. -/
theorem decode_of_group_ne (h : Overridden s v settings settings') (hGroup : s'.group ≠ s.group) :
    s'.decode settings'.fields = s'.decode settings.fields := by
  rw [Setting.decode, groupFields_congr (h.others s'.group hGroup), Setting.decode]

/-- The other settings of the group are still decoded: as before, or as their standard values. -/
theorem exists_decode (h : Overridden s v settings settings') (hOther : s' ≠ s) {x : s'.Carrier}
    (hDecoded : s'.decode settings.fields = .ok x) : ∃ y, s'.decode settings'.fields = .ok y := by
  by_cases hGroup : s'.group = s.group
  case neg => exact ⟨x, (h.decode_of_group_ne hGroup).trans hDecoded⟩
  obtain ⟨inner, hInner, -, hBeside⟩ := h.inGroup
  have hKey : s'.key ≠ s.key := fun hSame => hOther (Setting.eq_of_key hSame)
  have hDecode : s'.decode settings'.fields = s'.decodeIn inner :=
    bind_ok (groupFields_of_table (hGroup ▸ hInner)) _
  obtain ⟨old, hOld, hValue⟩ := bind_eq_ok.1 hDecoded
  have hLookup := hBeside s'.key hKey
  rw [← hGroup] at hLookup
  -- where the group was a list, the setting may have had a value there, and has none now
  rcases lookup_groupFields hOld with hTable | hNone
  · refine ⟨x, hDecode.trans ?_⟩
    rw [decodeIn_congr (hLookup.trans (hTable s'.key)), hValue]
  · refine ⟨s'.get {}, hDecode.trans ?_⟩
    rw [Setting.decodeIn, setting, hLookup.trans (hNone s'.key)]

/-- The setting itself is decoded from its own value. -/
theorem decode_self (h : Overridden s v settings settings') :
    s.decode settings'.fields = match s.decoder v with
      | some x => .ok x
      | none => .error ⟨s.group, some s.key⟩ := by
  obtain ⟨inner, hInner, hValue, -⟩ := h.inGroup
  have hDecode : s.decode settings'.fields = s.decodeIn inner :=
    bind_ok (groupFields_of_table hInner) _
  rw [hDecode, Setting.decodeIn, setting, hValue]
  cases hRead : s.decoder v <;> simp only [hRead]

/-- If the value fits, the settings are decoded, the setting as it is read from the value, and those
of other groups as before. -/
theorem ofFields_ok (h : Overridden s v settings settings') {c : Configuration}
    (hDecoded : ofFields settings.fields = .ok c) {x : s.Carrier} (hRead : s.decoder v = some x) :
    ∃ c' : Configuration, ofFields settings'.fields = .ok c' ∧ s.get c' = x ∧
      ∀ s' : Setting, s'.group ≠ s.group → s'.get c' = s'.get c := by
  have hAll := ofFields_eq_ok_iff.1 hDecoded
  have hSelf : s.decode settings'.fields = .ok x := by rw [h.decode_self, hRead]
  -- every setting can be decoded after the change, the others of the group because their fields
  -- stay
  have hEach : ∀ s' : Setting, ∃ y, s'.decode settings'.fields = .ok y := by
    intro s'
    by_cases hSame : s' = s
    · subst hSame
      exact ⟨x, hSelf⟩
    · exact h.exists_decode hSame (hAll s')
  -- so there is a configuration with these values
  choose values hValues using hEach
  have hGet : ∀ s' : Setting, s'.get (Partial.complete fun s => some (values s)) = values s' :=
    fun s' => Partial.get_complete _ s'
  refine ⟨Partial.complete fun s => some (values s), ofFields_eq_ok_iff.2 fun s' => ?_, ?_,
    fun s' hGroup => ?_⟩
  · rw [hGet, hValues]
  · exact (hGet s).trans (Except.ok.inj ((hValues s).symm.trans hSelf))
  · have hOld := (h.decode_of_group_ne hGroup).trans (hAll s')
    exact (hGet s').trans (Except.ok.inj ((hValues s').symm.trans hOld))

end Overridden

end

/-- The rules of the scan. -/
def scanRules : List Setting := [.folderName, .nameStart, .extension]

/-- If the value does not fit, and the setting is a rule of the scan, nothing else is at fault. -/
theorem Overridden.ofFields_misfit {s : Setting} {v settings settings' : Value}
    (h : Overridden s v settings settings') {c : Configuration}
    (hDecoded : ofFields settings.fields = .ok c) (hRule : s ∈ scanRules)
    (hRead : s.decoder v = none) : ofFields settings'.fields = .error ⟨s.group, some s.key⟩ := by
  have hAll := ofFields_eq_ok_iff.1 hDecoded
  have hSelf : s.decode settings'.fields = .error ⟨s.group, some s.key⟩ := by
    rw [h.decode_self, hRead]
  obtain ⟨inner, hInner, -⟩ := h.inGroup
  have hFields : ∀ s' : Setting, s'.group = s.group → s'.groupFields settings'.fields = .ok inner :=
    fun s' hGroup => groupFields_of_table (hGroup ▸ hInner)
  have hSelfIn : s.decodeIn inner = .error ⟨s.group, some s.key⟩ :=
    (bind_ok (hFields s rfl) _).symm.trans hSelf
  -- the rules are decoded behind the root, in order
  have hIn : ∀ s' : Setting, s'.group = s.group → s' ≠ s → ∃ y, s'.decodeIn inner = .ok y := by
    intro s' hGroup hOther
    obtain ⟨y, hDecode⟩ := h.exists_decode hOther (hAll s')
    exact ⟨y, (bind_ok (hFields s' hGroup) _).symm.trans hDecode⟩
  have hSource : decodeSource settings'.fields = .error ⟨s.group, some s.key⟩ := by
    simp only [scanRules, List.mem_cons, List.not_mem_nil, or_false] at hRule
    rcases hRule with rfl | rfl | rfl
    · obtain ⟨_, hRoot⟩ := hIn .root rfl (by decide)
      exact (bind_ok (hFields .root rfl) _).trans <| (bind_ok hRoot _).trans <|
        bind_error hSelfIn _
    · obtain ⟨_, hRoot⟩ := hIn .root rfl (by decide)
      obtain ⟨_, hFolderName⟩ := hIn .folderName rfl (by decide)
      exact (bind_ok (hFields .root rfl) _).trans <| (bind_ok hRoot _).trans <|
        (bind_ok hFolderName _).trans <| bind_error hSelfIn _
    · obtain ⟨_, hRoot⟩ := hIn .root rfl (by decide)
      obtain ⟨_, hFolderName⟩ := hIn .folderName rfl (by decide)
      obtain ⟨_, hNameStart⟩ := hIn .nameStart rfl (by decide)
      exact (bind_ok (hFields .root rfl) _).trans <| (bind_ok hRoot _).trans <|
        (bind_ok hFolderName _).trans <| (bind_ok hNameStart _).trans <| bind_error hSelfIn _
  exact bind_error hSource _

/-! ## What a variable is taken for -/

/-- A text that reads as a truth value or a number. -/
def ReadsAsScalar (text : String) : Prop :=
  Text.lowercase text = "true" ∨ Text.lowercase text = "false" ∨
    (Integer.read? text.toList).isSome = true ∨ (Real.read? text.toList).isSome = true

instance (text : String) : Decidable (ReadsAsScalar text) :=
  inferInstanceAs (Decidable (_ ∨ _))

/-- Any other text is taken as it is. -/
theorem valueOfText_of_text {text : String} (h : ¬ ReadsAsScalar text) :
    valueOfText text = .text text := by
  simp only [ReadsAsScalar, not_or, Bool.not_eq_true, Option.isSome_eq_false_iff,
    Option.isNone_iff_eq_none] at h
  obtain ⟨hTrue, hFalse, hInteger, hReal⟩ := h
  simp only [valueOfText, hTrue, hFalse, hInteger, hReal, if_false]

/-- A scalar is no text, but has one. -/
theorem valueOfText_of_scalar {text : String} (h : ReadsAsScalar text) :
    asPlainText? (valueOfText text) = none ∧ (asText? (valueOfText text)).isSome = true := by
  by_cases hTrue : Text.lowercase text = "true"
  · rw [valueOfText, hTrue]
    exact ⟨rfl, rfl⟩
  by_cases hFalse : Text.lowercase text = "false"
  · rw [valueOfText, hFalse]
    exact ⟨rfl, rfl⟩
  simp only [valueOfText, hTrue, hFalse, if_false]
  cases hInteger : Integer.read? text.toList with
  | some n => exact ⟨rfl, rfl⟩
  | none =>
    cases hReal : Real.read? text.toList with
    | some x => exact ⟨rfl, rfl⟩
    | none => simp [ReadsAsScalar, hTrue, hFalse, hInteger, hReal] at h

theorem plain_valueOfText (text : String) : Plain (valueOfText text) := by
  by_cases h : ReadsAsScalar text
  · rintro fields hTable
    obtain ⟨-, hSome⟩ := valueOfText_of_scalar h
    rw [hTable] at hSome
    cases hSome
  · rw [valueOfText_of_text h]
    exact nofun

/-- A variable leaves a setting alone: it is for no setting, or its key does. -/
def LeavesAlone (s : Setting) (variable' : String × String) : Prop :=
  ∀ e, ofVariable? variable' = some e → Spares s e.1

/-- A variable for another setting leaves a setting alone. -/
theorem leavesAlone_of_name {s s' : Setting} {variable' : String × String}
    (hName : Text.lowercase variable'.1 = variableName s') (hOther : s' ≠ s) :
    LeavesAlone s variable' := by
  intro e hEntry
  rw [ofVariable?_of_name hName] at hEntry
  cases hEntry
  refine .beside _ _ [] (stepsOf_path s') ?_
  rw [lowercase_key]
  exact fun hSame => hOther (Setting.eq_of_key hSame)

/-- With a variable for a setting in them, variables put its value over what they put otherwise. -/
theorem overridden_ofEnvironment {s : Setting} {name : String}
    (hName : Text.lowercase name = variableName s) (text : String) (before : Environment)
    {after : Environment} (hAfter : ∀ v ∈ after, LeavesAlone s v) (settings : Value) :
    Overridden s (valueOfText text) (addLayer settings (ofEnvironment (before ++ after)))
      (addLayer settings (ofEnvironment (before ++ (name, text) :: after))) := by
  have hEntry : ofVariable? (name, text) = some (s.group ++ "." ++ s.key, valueOfText text) :=
    ofVariable?_of_name hName
  have hSpares : ∀ e ∈ ofEnvironment after, Spares s e.1 := by
    intro e hMem
    obtain ⟨v, hVariable, hRead⟩ := List.mem_filterMap.1 hMem
    exact hAfter v hVariable e hRead
  rw [ofEnvironment, ofEnvironment, List.filterMap_append, List.filterMap_append,
    List.filterMap_cons_some hEntry, addLayer, addLayer, List.foldl_append, List.foldl_append,
    List.foldl_cons]
  exact (overridden_path s (plain_valueOfText text) _).layer hSpares

/-! ## Loading -/

theorem lookup_insert {name text key : String} (h : key ≠ name) (before after : Environment) :
    (before ++ (name, text) :: after).lookup key = (before ++ after).lookup key := by
  rw [List.lookup_append, List.lookup_append, lookup_cons_eq, if_neg h]

/-- A variable for a setting does not tell where the user's file is. -/
theorem userPath?_insert {s : Setting} {name : String}
    (hName : Text.lowercase name = variableName s) (text : String) (before after : Environment) :
    userPath? (before ++ (name, text) :: after) = userPath? (before ++ after) := by
  have hOther : ∀ key, Text.lowercase key ≠ variableName s → key ≠ name := by
    rintro key hKey rfl
    exact hKey hName
  have hDirectory : "XDG_CONFIG_HOME" ≠ name := hOther _ (by cases s <;> decide)
  have hHome : "HOME" ≠ name := hOther _ (by cases s <;> decide)
  rw [userPath?, lookup_insert hDirectory, lookup_insert hHome, userPath?]

section

variable {t t' : FileTree} {environment environment' : Environment} {asked? : Option Path}

/-- The layers of files do not depend on the variables, but for the place of the user's file. -/
theorem exists_files (hUser : userPath? environment' = userPath? environment) {all : List Layer}
    (hRun : (layers environment asked? : ExceptT LoadFault (StateM FileTree) _).run t =
      (.ok all, t')) :
    ∃ files, all = files ++ [ofEnvironment environment] ∧
      (layers environment' asked? : ExceptT LoadFault (StateM FileTree) _).run t =
        (.ok (files ++ [ofEnvironment environment']), t') := by
  obtain ⟨usual, t₁, hUsual, hRun⟩ := exists_of_run_bind hRun
  obtain ⟨own, t₂, hOwn, hRun⟩ := exists_of_run_bind hRun
  obtain ⟨asked, t₃, hAsked, hRun⟩ := exists_of_run_bind hRun
  cases hRun
  have hSame : (userLayer environment' : ExceptT LoadFault (StateM FileTree) Layer) =
      userLayer environment := by rw [userLayer, hUser, userLayer]
  refine ⟨usual ++ [own] ++ asked, rfl, ?_⟩
  rw [layers, run_bind_ok hUsual, hSame, run_bind_ok hOwn, run_bind_ok hAsked]
  rfl

theorem ofFields_of_run_load {c : Configuration}
    (hRun : (load environment asked? : ExceptT LoadFault (StateM FileTree) _).run t =
      (.ok c, t')) :
    ∃ all, (layers environment asked? : ExceptT LoadFault (StateM FileTree) _).run t =
      (.ok all, t') ∧ ofFields (combine all).fields = .ok c := by
  obtain ⟨all, t₁, hLayers, hRun⟩ := exists_of_run_bind hRun
  cases hDecoded : ofFields (combine all).fields with
  | ok c' =>
    rw [hDecoded] at hRun
    cases hRun
    exact ⟨all, hLayers, hDecoded⟩
  | error misfit =>
    rw [hDecoded] at hRun
    cases hRun

theorem run_load {all : List Layer}
    (hLayers : (layers environment asked? : ExceptT LoadFault (StateM FileTree) _).run t =
      (.ok all, t')) :
    (load environment asked? : ExceptT LoadFault (StateM FileTree) _).run t =
      ((ofFields (combine all).fields).mapError .misfit, t') := by
  rw [load, run_bind_ok hLayers]
  cases ofFields (combine all).fields <;> rfl

end

/-! ## Settings that are texts -/

/-- The settings that are texts. -/
def textSettings : List Setting :=
  [.root, .folderName, .nameStart, .extension, .path, .runtimeModule, .enumModule,
    .defaultEntityType]

/-- The text that a setting is set to. -/
def Setting.text? (c : Configuration) : Setting → Option String
  | .root => some c.source.root.text
  | .folderName => some c.source.scan.folderName
  | .nameStart => some c.source.scan.nameStart
  | .extension => some c.source.scan.extension
  | .path => some c.output.path.text
  | .runtimeModule => some c.output.runtimeModule
  | .enumModule => some c.output.enumModule
  | .defaultEntityType => some c.naming.defaultEntityType
  | .dump | .dumpFormat | .knownSubIndices => none

/-- A setting that is a text is decoded from the text of a scalar, and a rule of the scan from
nothing but a text. -/
theorem exists_decoder {s : Setting} (hText : s ∈ textSettings) {v : Value} {written : String}
    (hWritten : asText? v = some written)
    (hPlain : s ∈ scanRules → asPlainText? v = some written) :
    ∃ x, s.decoder v = some x ∧ ∀ c, s.get c = x → s.text? c = some written := by
  simp only [textSettings, List.mem_cons, List.not_mem_nil, or_false] at hText
  rcases hText with rfl | rfl | rfl | rfl | rfl | rfl | rfl | rfl
  case inr.inl | inr.inr.inl | inr.inr.inr.inl =>
    exact ⟨written, hPlain (by decide), fun _ hValue => congrArg some hValue⟩
  all_goals exact ⟨written, hWritten, fun _ hValue => congrArg some hValue⟩

theorem decoder_of_scanRule {s : Setting} (hRule : s ∈ scanRules) {v : Value}
    (hPlain : asPlainText? v = none) : s.decoder v = none := by
  simp only [scanRules, List.mem_cons, List.not_mem_nil, or_false] at hRule
  rcases hRule with rfl | rfl | rfl <;> exact hPlain

section

variable {s : Setting} {name text : String} {before after : Environment} {asked? : Option Path}
  {t t' : FileTree} {c : Configuration}

/-- With a variable for a setting behind the others, the settings are those without it, with the
value of the variable for the setting. -/
theorem exists_overridden (hName : Text.lowercase name = variableName s)
    (hAfter : ∀ v ∈ after, LeavesAlone s v)
    (hLoads : (load (before ++ after) asked? : ExceptT LoadFault (StateM FileTree) _).run t =
      (.ok c, t')) :
    ∃ settings settings' : Value, Overridden s (valueOfText text) settings settings' ∧
      ofFields settings.fields = .ok c ∧
      (load (before ++ (name, text) :: after) asked? :
        ExceptT LoadFault (StateM FileTree) _).run t =
        ((ofFields settings'.fields).mapError .misfit, t') := by
  obtain ⟨all, hLayers, hDecoded⟩ := ofFields_of_run_load hLoads
  obtain ⟨files, rfl, hLayers'⟩ := exists_files (userPath?_insert hName text before after) hLayers
  -- the variables are the last layer, in both runs over the same files
  have hCombine : ∀ environment : Environment, combine (files ++ [ofEnvironment environment]) =
      addLayer (combine files) (ofEnvironment environment) :=
    fun environment => List.foldl_concat ..
  refine ⟨_, _, overridden_ofEnvironment hName text before hAfter (combine files), ?_, ?_⟩
  · rw [← hCombine]
    exact hDecoded
  · rw [← hCombine]
    exact run_load hLayers'

/-- A text that the setting takes is loaded. -/
theorem load_of_taken (hText : s ∈ textSettings) (hName : Text.lowercase name = variableName s)
    (hAfter : ∀ v ∈ after, LeavesAlone s v)
    (hLoads : (load (before ++ after) asked? : ExceptT LoadFault (StateM FileTree) _).run t =
      (.ok c, t'))
    {written : String} (hWritten : asText? (valueOfText text) = some written)
    (hPlain : s ∈ scanRules → asPlainText? (valueOfText text) = some written) :
    ∃ c' : Configuration,
      (load (before ++ (name, text) :: after) asked? :
        ExceptT LoadFault (StateM FileTree) _).run t = (.ok c', t') ∧
      s.text? c' = some written ∧
      ∀ s' : Setting, s'.group ≠ s.group → s'.get c' = s'.get c := by
  obtain ⟨settings, settings', hOverridden, hDecoded, hRun⟩ := exists_overridden hName hAfter hLoads
  -- the setting is decoded from the text as from any other value
  obtain ⟨x, hRead, hHas⟩ := exists_decoder hText hWritten hPlain
  obtain ⟨c', hDecoded', hValue, hOthers⟩ := hOverridden.ofFields_ok hDecoded hRead
  refine ⟨c', ?_, hHas c' hValue, hOthers⟩
  rw [hRun, hDecoded']
  rfl

/-- A rule of the scan does not take a scalar. -/
theorem load_of_refused (hRule : s ∈ scanRules) (hName : Text.lowercase name = variableName s)
    (hAfter : ∀ v ∈ after, LeavesAlone s v)
    (hLoads : (load (before ++ after) asked? : ExceptT LoadFault (StateM FileTree) _).run t =
      (.ok c, t'))
    (hScalar : ReadsAsScalar text) :
    (load (before ++ (name, text) :: after) asked? :
      ExceptT LoadFault (StateM FileTree) _).run t =
      (.error (.misfit ⟨s.group, some s.key⟩), t') := by
  obtain ⟨settings, settings', hOverridden, hDecoded, hRun⟩ := exists_overridden hName hAfter hLoads
  have hRead := decoder_of_scanRule hRule (valueOfText_of_scalar hScalar).1
  rw [hRun, hOverridden.ofFields_misfit hDecoded hRule hRead]
  rfl

end

/-- **Texts in variables.** Let a configuration be loaded without the variable for a setting that is
a text, and let no variable behind it lead to that setting. With the variable, if its text does not
read as a truth value or a number, a configuration is loaded in which the setting is that text. If
it does, the setting is the text of that value, unless it is a rule of the scan: then no
configuration is loaded, and the setting is named. Settings of other groups stay. -/
theorem load_text_of_variable {s : Setting} (hText : s ∈ textSettings) {name text : String}
    (hName : Text.lowercase name = variableName s) {before after : Environment}
    (hAfter : ∀ v ∈ after, LeavesAlone s v) {asked? : Option Path} {t t' : FileTree}
    {c : Configuration}
    (hLoads : (load (before ++ after) asked? : ExceptT LoadFault (StateM FileTree) _).run t =
      (.ok c, t')) :
    (¬ ReadsAsScalar text → ∃ c' : Configuration,
        (load (before ++ (name, text) :: after) asked? :
          ExceptT LoadFault (StateM FileTree) _).run t = (.ok c', t') ∧
        s.text? c' = some text ∧
        ∀ s' : Setting, s'.group ≠ s.group → s'.get c' = s'.get c) ∧
      (ReadsAsScalar text → s ∉ scanRules → ∃ c' : Configuration,
        (load (before ++ (name, text) :: after) asked? :
          ExceptT LoadFault (StateM FileTree) _).run t = (.ok c', t') ∧
        s.text? c' = asText? (valueOfText text) ∧
        ∀ s' : Setting, s'.group ≠ s.group → s'.get c' = s'.get c) ∧
      (ReadsAsScalar text → s ∈ scanRules →
        (load (before ++ (name, text) :: after) asked? :
          ExceptT LoadFault (StateM FileTree) _).run t =
          (.error (.misfit ⟨s.group, some s.key⟩), t')) := by
  refine ⟨fun hPlain => ?_, fun hScalar hOther => ?_, fun hScalar hRule => ?_⟩
  · have hValue := valueOfText_of_text hPlain
    exact load_of_taken hText hName hAfter hLoads (by rw [hValue]; rfl) fun _ => by
      rw [hValue]
      rfl
  · obtain ⟨written, hWritten⟩ := Option.isSome_iff_exists.1 (valueOfText_of_scalar hScalar).2
    rw [hWritten]
    exact load_of_taken hText hName hAfter hLoads hWritten fun hRule => absurd hRule hOther
  · exact load_of_refused hRule hName hAfter hLoads hScalar

theorem load_emptyProject :
    (load [] none : ExceptT LoadFault (StateM FileTree) Configuration).run emptyProject =
      (.ok {}, emptyProject) := by
  have hUnlinked : emptyProject.Unlinked := unlinked_of_nodes (by decide)
  have hNone : ∀ p ∈ usualPlaces.flatMap (spellings (pathOf emptyProject.workingDirectory)),
      (emptyProject.node? (place emptyProject.workingDirectory p)).isNone = true := by
    decide
  exact load_of_missing fun p hMem =>
    hUnlinked.isFile_of_none (Option.isNone_iff_eq_none.1 (hNone p hMem))

/-- A word is taken as it is, also if there are digits in it, whatever other variables are for. A
truth value is spelled anew where a text is wanted, and a number cannot be what documents start
with. -/
theorem texts_of_variables :
    (∃ c : Configuration,
      (load [("PSDGEN__SOURCE__FILE_PREFIX", "Pset2_"), ("PSDGEN__OUTPUT__PATH", "gen.rs")] none :
        ExceptT LoadFault (StateM FileTree) _).run emptyProject = (.ok c, emptyProject) ∧
      c.source.scan.nameStart = "Pset2_" ∧ c.output.path.text = "gen.rs") ∧
    (∃ c : Configuration,
      (load [("PSDGEN__NAMING__DEFAULT_ENTITY_TYPE", "TRUE")] none :
        ExceptT LoadFault (StateM FileTree) _).run emptyProject = (.ok c, emptyProject) ∧
      c.naming.defaultEntityType = "true") ∧
    (load [("PSDGEN__SOURCE__FILE_PREFIX", "2")] none :
      ExceptT LoadFault (StateM FileTree) Configuration).run emptyProject =
      (.error (.misfit ⟨"source", some "file_prefix"⟩), emptyProject) := by
  have hPrefix : Text.lowercase "PSDGEN__SOURCE__FILE_PREFIX" = variableName .nameStart := by
    decide
  have hEntity : Text.lowercase "PSDGEN__NAMING__DEFAULT_ENTITY_TYPE" =
      variableName .defaultEntityType := by decide
  have hPath : Text.lowercase "PSDGEN__OUTPUT__PATH" = variableName .path := by decide
  have hAfter : ∀ v ∈ [("PSDGEN__OUTPUT__PATH", "gen.rs")], LeavesAlone .nameStart v := by
    intro v hMem
    obtain rfl := List.mem_singleton.1 hMem
    exact leavesAlone_of_name hPath (by decide)
  have hRead : valueOfText "gen.rs" = .text "gen.rs" := valueOfText_of_text (by decide)
  -- the variable for the path alone is loaded first; it leads to another setting than the one in
  -- front of it
  obtain ⟨c₀, hLoads, hSet, -⟩ := @load_of_taken .path _ "gen.rs" [] [] none _ _ _ (by decide) hPath
    nofun load_emptyProject _ (congrArg asText? hRead) fun _ => congrArg asPlainText? hRead
  obtain ⟨c, hWord, hStart, hOthers⟩ := (@load_text_of_variable .nameStart (by decide) _ "Pset2_"
    hPrefix [] _ hAfter none _ _ _ hLoads).1 (by decide)
  obtain ⟨c', hTruth, hType, -⟩ := (@load_text_of_variable .defaultEntityType (by decide) _ "TRUE"
    hEntity [] [] nofun none _ _ _ load_emptyProject).2.1 (by decide) (by decide)
  have hSpelled : asText? (valueOfText "TRUE") = some "true" := by decide
  exact ⟨⟨c, hWord, Option.some.inj hStart,
      (hOthers .path (by decide)).trans (Option.some.inj hSet)⟩,
    ⟨c', hTruth, Option.some.inj (hType.trans hSpelled)⟩,
    (@load_text_of_variable .nameStart (by decide) _ "2" hPrefix [] [] nofun none _ _ _
      load_emptyProject).2.2 (by decide) (by decide)⟩

/-- What documents start with cannot be set to a word for a truth value: with it in the variable no
configuration is loaded, though one is without. -/
theorem truth_value_refused :
    (load [] none : ExceptT LoadFault (StateM FileTree) Configuration).run emptyProject =
        (.ok {}, emptyProject) ∧
      (load [("PSDGEN__SOURCE__FILE_PREFIX", "true")] none :
        ExceptT LoadFault (StateM FileTree) Configuration).run emptyProject =
        (.error (.misfit ⟨"source", some "file_prefix"⟩), emptyProject) := by
  have hName : Text.lowercase "PSDGEN__SOURCE__FILE_PREFIX" = variableName .nameStart := by decide
  have hScalar : ReadsAsScalar "true" := by decide
  exact ⟨load_emptyProject, @load_of_refused .nameStart _ "true" [] [] none _ _ _ (by decide) hName
    nofun load_emptyProject hScalar⟩

end PropertySets.Configuration
