import PropertySets.Configuration.Decoding

/-!
# The settings of a configuration

A configuration has eleven settings, in three groups. Each of them has a key in its group and is
read from a value in its own way; a partial configuration gives a value to some of them. A table
from which every setting is read that it has stands for a partial configuration, and decoding the
table gives that one, completed by the standard values.

* `Setting` — the settings, with their groups, keys and readers.
* `Partial`, `Partial.complete` — partial configurations, and what they make of the standard one.
* `Shows`, `ofFields_of_shows` — the partial configuration of a table, and how it is decoded.
-/

namespace PropertySets.Configuration

open Data

/-- The settings of a configuration. -/
inductive Setting where
  | root
  | folderName
  | nameStart
  | extension
  | path
  | runtimeModule
  | enumModule
  | dump
  | dumpFormat
  | defaultEntityType
  | knownSubIndices
  deriving DecidableEq, Repr

namespace Setting

/-- What a setting is set to. -/
def Carrier : Setting → Type
  | dump => Bool
  | dumpFormat => DumpFormat
  | knownSubIndices => List String
  | _ => String

/-- The group that a setting belongs to. -/
def group : Setting → String
  | root | folderName | nameStart | extension => "source"
  | path | runtimeModule | enumModule | dump | dumpFormat => "output"
  | defaultEntityType | knownSubIndices => "naming"

/-- The key of a setting in its group. -/
def key : Setting → String
  | root => "root"
  | folderName => "schema_dir_name"
  | nameStart => "file_prefix"
  | extension => "file_extension"
  | path => "path"
  | runtimeModule => "runtime_module"
  | enumModule => "enum_module"
  | dump => "dump"
  | dumpFormat => "dump_format"
  | defaultEntityType => "default_entity_type"
  | knownSubIndices => "known_sub_indices"

/-- What a value says for a setting: a scalar for a text, a plain text for the rules of the scan, a
truth value or a word for it, the name of a format, or a list of texts. -/
def read : (s : Setting) → Value → Option s.Carrier
  | root, v | path, v | runtimeModule, v | enumModule, v | defaultEntityType, v => asText? v
  | folderName, v | nameStart, v | extension, v => asPlainText? v
  | dump, v => asFlag? v
  | dumpFormat, v => match v with
    | .text name => formatOfName? name
    | _ => none
  | knownSubIndices, v => asTexts? v

/-- The value of a setting in a configuration. -/
def get (c : Configuration) : (s : Setting) → s.Carrier
  | root => c.source.root.text
  | folderName => c.source.scan.folderName
  | nameStart => c.source.scan.nameStart
  | extension => c.source.scan.extension
  | path => c.output.path.text
  | runtimeModule => c.output.runtimeModule
  | enumModule => c.output.enumModule
  | dump => c.output.dump
  | dumpFormat => c.output.dumpFormat
  | defaultEntityType => c.naming.defaultEntityType
  | knownSubIndices => c.naming.knownSubIndices

theorem eq_of_key : ∀ {s s' : Setting}, s.key = s'.key → s = s' := by
  intro s s' h
  cases s <;> cases s' <;> first | rfl | exact absurd h (by decide)

/-- No setting is read from a table. -/
theorem read_table (s : Setting) (fields : List (String × Value)) :
    s.read (.table fields) = none := by
  cases s <;> rfl

end Setting

/-- A configuration is what its settings are set to. -/
theorem eq_of_get {c c' : Configuration} (h : ∀ s : Setting, s.get c = s.get c') : c = c' := by
  obtain ⟨⟨⟨_⟩, ⟨_, _, _⟩⟩, ⟨⟨_⟩, _, _, _, _⟩, ⟨_, _⟩⟩ := c
  obtain ⟨⟨⟨_⟩, ⟨_, _, _⟩⟩, ⟨⟨_⟩, _, _, _, _⟩, ⟨_, _⟩⟩ := c'
  cases h .root
  cases h .folderName
  cases h .nameStart
  cases h .extension
  cases h .path
  cases h .runtimeModule
  cases h .enumModule
  cases h .dump
  cases h .dumpFormat
  cases h .defaultEntityType
  cases h .knownSubIndices
  rfl

/-- The groups of settings. -/
def groups : List String := ["source", "output", "naming"]

theorem group_mem_groups (s : Setting) : s.group ∈ groups := by
  cases s <;> decide

/-- Values for some of the settings. -/
abbrev Partial := (s : Setting) → Option s.Carrier

namespace Partial

/-- Values for none of the settings. -/
def nothing : Partial := fun _ => none

/-- The value of a setting, the standard one if there is none. -/
def value (p : Partial) (s : Setting) : s.Carrier := (p s).getD (s.get {})

/-- The configuration with these values, and the standard ones for the other settings. -/
def complete (p : Partial) : Configuration :=
  ⟨⟨⟨p.value .root⟩, ⟨p.value .folderName, p.value .nameStart, p.value .extension⟩⟩,
    ⟨⟨p.value .path⟩, p.value .runtimeModule, p.value .enumModule, p.value .dump,
      p.value .dumpFormat⟩,
    ⟨p.value .defaultEntityType, p.value .knownSubIndices⟩⟩

theorem get_complete (p : Partial) (s : Setting) : s.get p.complete = p.value s := by
  cases s <;> rfl

end Partial

/-! ## Tables of settings -/

/-- The value that a table has for a setting. -/
def valueAt (settings : Value) (s : Setting) : Option Value :=
  (settings.field? s.group).bind (·.field? s.key)

/-- A table in which the groups, as far as they are there, are tables. -/
def Grouped (settings : Value) : Prop :=
  ∀ g ∈ groups, ∀ v, settings.field? g = some v → ∃ fields, v = .table fields

/-- A table shows a partial configuration: it has values for the same settings, and they are read
as the values there. -/
structure Shows (settings : Value) (p : Partial) : Prop where
  grouped : Grouped settings
  values : ∀ s, (valueAt settings s).map s.read = (p s).map some

/-- A setting is decoded as it is shown, by any reader that reads what is read for it. -/
theorem setting_of_read {α : Type} {group key : String} {read : Value → Option α} {standard : α}
    {fields : List (String × Value)} {x? : Option α}
    (h : (fields.lookup key).map read = x?.map some) :
    setting group key read standard fields = .ok (x?.getD standard) := by
  unfold setting
  -- a field that is there is read, and one that is not leaves the standard value
  cases hField : fields.lookup key with
  | none =>
    rw [hField] at h
    cases x? with
    | none => rfl
    | some x => cases h
  | some v =>
    rw [hField] at h
    cases x? with
    | none => cases h
    | some x =>
      have hRead : read v = some x := Option.some.inj h
      simp only [hRead]
      rfl

/-- The fields of a group that is shown. -/
theorem tableOf_of_grouped {settings : Value} (h : Grouped settings) {g : String}
    (hGroup : g ∈ groups) :
    ∃ fields, tableOf g settings.fields = .ok fields ∧
      ∀ key, fields.lookup key = (settings.field? g).bind (·.field? key) := by
  unfold tableOf
  cases hField : settings.field? g with
  | none =>
    have hLookup : settings.fields.lookup g = none := hField
    rw [hLookup]
    exact ⟨[], rfl, fun _ => rfl⟩
  | some v =>
    obtain ⟨fields, rfl⟩ := h g hGroup v hField
    have hLookup : settings.fields.lookup g = some (.table fields) := hField
    rw [hLookup]
    exact ⟨fields, rfl, fun _ => rfl⟩

theorem groupOf_of_grouped {settings : Value} (h : Grouped settings) {g : String}
    (hGroup : g ∈ groups) (keys : List String) :
    groupOf g keys settings.fields = tableOf g settings.fields := by
  unfold groupOf
  split
  · rename_i items hList
    obtain ⟨fields, hTable⟩ := h g hGroup _ hList
    cases hTable
  · rfl

/-- The reader of formats takes what is read for the setting. -/
theorem asFormat?_of_read {v : Value} {f : DumpFormat} (h : Setting.dumpFormat.read v = some f) :
    asFormat? v = some f := by
  cases v <;> first | exact h | cases h

section

variable {settings : Value} {p : Partial}

/-- A setting is decoded from the fields of its group. -/
theorem setting_of_shows (h : Shows settings p) (s : Setting) {fields : List (String × Value)}
    (hLookup : ∀ key, fields.lookup key = (settings.field? s.group).bind (·.field? key)) :
    setting s.group s.key s.read (s.get {}) fields = .ok (p.value s) := by
  refine setting_of_read ?_
  rw [hLookup]
  exact h.values s

/-- The format is decoded by a reader that takes tables as well. -/
theorem format_of_shows (h : Shows settings p) {fields : List (String × Value)}
    (hLookup : ∀ key, fields.lookup key = (settings.field? "output").bind (·.field? key)) :
    setting "output" "dump_format" asFormat? (Setting.dumpFormat.get {}) fields =
      .ok (p.value .dumpFormat) := by
  refine setting_of_read ?_
  have hShown : (fields.lookup "dump_format").map Setting.dumpFormat.read =
      (p .dumpFormat).map some := by
    rw [hLookup]
    exact h.values .dumpFormat
  cases hField : fields.lookup "dump_format" with
  | none => rwa [hField] at hShown
  | some v =>
    rw [hField] at hShown
    -- a value that is shown is the name of a format, which this reader takes too
    cases hValue : p .dumpFormat with
    | none =>
      rw [hValue] at hShown
      cases hShown
    | some f =>
      rw [hValue] at hShown
      exact congrArg some (asFormat?_of_read (Option.some.inj hShown))

theorem bind_ok {ε α β : Type} {x : Except ε α} {a : α} (h : x = .ok a) (f : α → Except ε β) :
    (x >>= f) = f a := by
  rw [h]
  rfl

theorem decodeSource_of_shows (h : Shows settings p) :
    decodeSource settings.fields = .ok p.complete.source := by
  obtain ⟨fields, hTable, hLookup⟩ := tableOf_of_grouped h.grouped (group_mem_groups .root)
  rw [decodeSource]
  exact (bind_ok hTable _).trans <| (bind_ok (setting_of_shows h .root hLookup) _).trans <|
    (bind_ok (setting_of_shows h .folderName hLookup) _).trans <|
    (bind_ok (setting_of_shows h .nameStart hLookup) _).trans <|
    bind_ok (setting_of_shows h .extension hLookup) _

theorem decodeOutput_of_shows (h : Shows settings p) :
    decodeOutput settings.fields = .ok p.complete.output := by
  obtain ⟨fields, hTable, hLookup⟩ := tableOf_of_grouped h.grouped (group_mem_groups .path)
  rw [decodeOutput]
  exact (bind_ok ((groupOf_of_grouped h.grouped (group_mem_groups .path) _).trans hTable)
      _).trans <|
    (bind_ok (setting_of_shows h .path hLookup) _).trans <|
    (bind_ok (setting_of_shows h .runtimeModule hLookup) _).trans <|
    (bind_ok (setting_of_shows h .enumModule hLookup) _).trans <|
    (bind_ok (setting_of_shows h .dump hLookup) _).trans <|
    bind_ok (format_of_shows h hLookup) _

theorem decodeNaming_of_shows (h : Shows settings p) :
    decodeNaming settings.fields = .ok p.complete.naming := by
  obtain ⟨fields, hTable, hLookup⟩ :=
    tableOf_of_grouped h.grouped (group_mem_groups .defaultEntityType)
  rw [decodeNaming]
  exact (bind_ok ((groupOf_of_grouped h.grouped (group_mem_groups .defaultEntityType) _).trans
      hTable) _).trans <|
    (bind_ok (setting_of_shows h .defaultEntityType hLookup) _).trans <|
    bind_ok (setting_of_shows h .knownSubIndices hLookup) _

/-- **Decoding.** A table is decoded as the partial configuration that it shows, completed. -/
theorem ofFields_of_shows (h : Shows settings p) : ofFields settings.fields = .ok p.complete := by
  rw [ofFields]
  exact (bind_ok (decodeSource_of_shows h) _).trans <|
    (bind_ok (decodeOutput_of_shows h) _).trans <| bind_ok (decodeNaming_of_shows h) _

end

end PropertySets.Configuration
