import Mathlib.Data.List.Forall2
import PropertySets.Configuration.Layers
import PropertySets.Proofs.Configuration.Settings

/-!
# Layers over one another

An entry of a layer assigns values to settings: it is the table of a group, or leads to a setting by
its path. Everything else stays as it is, so a table that sets one setting of a group leaves the
others to earlier layers, and so does a path. A layer therefore puts the partial configuration that
it describes over the one that is shown, and all layers together show the last values.

* `Assigns`, `Describes` — what an entry assigns, and what a layer describes.
* `Assigned`, `addSetting_spec` — the effect of one entry.
* `shows_addLayer`, `shows_combine` — the effect of a layer, and of all of them.
-/

namespace PropertySets.Configuration

open Data

/-! ## What a layer assigns -/

/-- The steps of a key: those of a path, or the key itself. -/
def stepsOf (key : String) : List Step := (readKeyPath? key.toList).getD [.field key]

/-- The name of the field that a key begins with. -/
def headOf (key : String) : String :=
  match stepsOf key with
  | .field k :: _ => Text.lowercase k
  | _ => ""

/-- An entry of a layer assigns a value to a setting: in the table of its group, or by its path.
Keys do not distinguish capitals from small letters. -/
inductive Assigns (e : String × Value) (s : Setting) (v : Value) : Prop
  | inTable (fields : List (String × Value)) (key : String) (hSteps : stepsOf e.1 = [.field e.1])
      (hGroup : Text.lowercase e.1 = s.group) (hTable : e.2 = .table fields)
      (hMem : (key, v) ∈ fields) (hKey : Text.lowercase key = s.key)
  | byPath (group key : String) (hSteps : stepsOf e.1 = [.field group, .field key])
      (hGroup : Text.lowercase group = s.group) (hKey : Text.lowercase key = s.key)
      (hValue : e.2 = v)

/-- An entry of a layer is the table of a group, or leads into one by its path, or has nothing to
do with settings. -/
inductive Fits (e : String × Value) : Prop
  | inTable (fields : List (String × Value)) (hSteps : stepsOf e.1 = [.field e.1])
      (hGroup : Text.lowercase e.1 ∈ groups) (hTable : e.2 = .table fields)
  | byPath (group key : String) (hSteps : stepsOf e.1 = [.field group, .field key])
      (hGroup : Text.lowercase group ∈ groups)
  | elsewhere (hHead : headOf e.1 ∉ groups)

/-- A layer describes a partial configuration: its entries fit, the values that they assign are
read as the values there, and there are no others. -/
structure Describes (layer : Layer) (p : Partial) : Prop where
  fits : ∀ e ∈ layer, Fits e
  typed : ∀ e ∈ layer, ∀ s v, Assigns e s v → ∃ x, s.read v = some x ∧ p s = some x
  assigned : ∀ s x, p s = some x → ∃ e ∈ layer, ∃ v, Assigns e s v

theorem describes_nil : Describes [] .nothing :=
  ⟨nofun, nofun, nofun⟩

/-! ## Merging -/

/-- A value over an old one: a table goes into it, anything else takes its place. -/
def laidOver (v : Value) (old? : Option Value) : Value :=
  match v with
  | .table fields => mergeAll fields (old?.getD (.table []))
  | v => v

theorem merge_eq (key : String) (v target : Value) :
    merge key v target = .table (putField (Text.lowercase key)
      (laidOver v (target.field? (Text.lowercase key))) target.fields) := by
  cases v <;> rw [merge] <;> first | rfl | exact nofun

theorem field?_table_putField (name key : String) (v target : Value) :
    (Value.table (putField key v target.fields)).field? name =
      if name = key then some v else target.field? name :=
  lookup_putField key name v target.fields

theorem field?_merge (name key : String) (v target : Value) :
    (merge key v target).field? name = if name = Text.lowercase key then
      some (laidOver v (target.field? (Text.lowercase key))) else target.field? name := by
  rw [merge_eq, field?_table_putField]

/-- A value that is no table. -/
def Plain (v : Value) : Prop := ∀ fields, v ≠ .table fields

theorem laidOver_of_plain {v : Value} (h : Plain v) (old? : Option Value) :
    laidOver v old? = v := by
  cases v with
  | table fields => exact absurd rfl (h fields)
  | _ => rfl

/-- Fields with plain values: after merging, a field has one of the values for it, or what it had
if there are none. -/
theorem field?_mergeAll {fields : List (String × Value)} {name : String}
    (hPlain : ∀ key v, (key, v) ∈ fields → Text.lowercase key = name → Plain v) (target : Value) :
    (∃ key v, (key, v) ∈ fields ∧ Text.lowercase key = name ∧
      (mergeAll fields target).field? name = some v) ∨
    ((∀ key v, (key, v) ∈ fields → Text.lowercase key ≠ name) ∧
      (mergeAll fields target).field? name = target.field? name) := by
  induction fields generalizing target with
  | nil => exact .inr ⟨nofun, by rw [mergeAll]⟩
  | cons f rest ih =>
    obtain ⟨key, v⟩ := f
    rw [mergeAll]
    rcases ih (fun key v hMem => hPlain key v (List.mem_cons_of_mem _ hMem)) (merge key v target)
      with ⟨key', v', hMem, hName, hField⟩ | ⟨hNone, hField⟩
    · exact .inl ⟨key', v', List.mem_cons_of_mem _ hMem, hName, hField⟩
    · rw [hField, field?_merge]
      -- no later field has the name, so this one decides
      by_cases hHere : name = Text.lowercase key
      · have hValue := hPlain key v List.mem_cons_self hHere.symm
        exact .inl ⟨key, v, List.mem_cons_self, hHere.symm,
          by rw [if_pos hHere, laidOver_of_plain hValue]⟩
      · refine .inr ⟨fun key' v' hMem hName => ?_, if_neg hHere⟩
        rcases List.mem_cons.1 hMem with hFirst | hMem
        · obtain ⟨rfl, rfl⟩ := Prod.mk.inj hFirst
          exact hHere hName.symm
        · exact hNone key' v' hMem hName

theorem exists_table_mergeAll (fields : List (String × Value)) {target : Value}
    (hTable : ∃ inner, target = .table inner) :
    ∃ inner, mergeAll fields target = .table inner := by
  induction fields generalizing target with
  | nil =>
    rw [mergeAll]
    exact hTable
  | cons f rest ih =>
    rw [mergeAll]
    exact ih ⟨_, merge_eq _ _ _⟩

/-! ## One entry -/

theorem addSetting_eq (settings : Value) (e : String × Value) :
    addSetting settings e = setAlong e.2 (stepsOf e.1) settings := by
  rw [addSetting, stepsOf]
  cases readKeyPath? e.1.toList with
  | none => rw [Option.getD_none, setAlong]
  | some steps => rfl

/-- What is set along a path is in the field that the path begins with. -/
theorem field?_setAlong_of_ne {name key : String} (h : name ≠ Text.lowercase key) (v : Value)
    (rest : List Step) (target : Value) :
    (setAlong v (.field key :: rest) target).field? name = target.field? name := by
  cases rest with
  | nil => rw [setAlong, field?_merge, if_neg h]
  | cons step rest =>
    rw [setAlong]
    · rw [field?_table_putField, if_neg h]
    · exact nofun

/-- The value that is assigned by path is merged into what the group has. -/
theorem setAlong_two (v : Value) (group key : String) (target : Value) :
    setAlong v [.field group, .field key] target = .table (putField (Text.lowercase group)
      (merge key v ((target.field? (Text.lowercase group)).getD .null)) target.fields) := by
  rw [setAlong, setAlong]
  exact nofun

/-- Settings stay grouped while the field of a group is set to a table. -/
theorem grouped_putField {settings : Value} (h : Grouped settings) {name : String} {v : Value}
    (hTable : name ∈ groups → ∃ fields, v = .table fields) :
    Grouped (.table (putField name v settings.fields)) := by
  intro g hGroup w hField
  rw [field?_table_putField] at hField
  split at hField
  · rename_i hHere
    obtain rfl := Option.some.inj hField
    exact hTable (hHere ▸ hGroup)
  · exact h g hGroup w hField

theorem valueAt_of_field? {settings settings' : Value} {s : Setting}
    (h : settings'.field? s.group = settings.field? s.group) :
    valueAt settings' s = valueAt settings s := by
  rw [valueAt, h, valueAt]

/-- What a step does to settings: they stay grouped, and each has an assigned value, or what it had
if none is assigned. -/
def Assigned (assigns : Setting → Value → Prop) (settings settings' : Value) : Prop :=
  Grouped settings' ∧ ∀ s, (∃ v, assigns s v ∧ valueAt settings' s = some v) ∨
    ((∀ v, ¬ assigns s v) ∧ valueAt settings' s = valueAt settings s)

theorem headOf_eq {key k : String} {rest : List Step} (h : stepsOf key = .field k :: rest) :
    headOf key = Text.lowercase k := by
  rw [headOf, h]

/-- The head of a key is its first step, and that is a field. -/
theorem exists_stepsOf (key : String) :
    ∃ k rest, stepsOf key = .field k :: rest := by
  rw [stepsOf]
  cases hPath : readKeyPath? key.toList with
  | none => exact ⟨key, [], rfl⟩
  | some steps =>
    obtain ⟨⟨k, after⟩, -, hSteps⟩ := Option.bind_eq_some_iff.1 hPath
    obtain ⟨rest, -, hRest⟩ := Option.bind_eq_some_iff.1 hSteps
    exact ⟨k, rest, (Option.some.inj hRest).symm⟩

section

variable {settings : Value} {e : String × Value}

/-- An entry that has nothing to do with settings assigns nothing. -/
theorem addSetting_elsewhere (hGrouped : Grouped settings) (hHead : headOf e.1 ∉ groups) :
    Assigned (Assigns e) settings (addSetting settings e) := by
  obtain ⟨k, rest, hSteps⟩ := exists_stepsOf e.1
  have hField : ∀ g ∈ groups, (addSetting settings e).field? g = settings.field? g := by
    intro g hGroup
    rw [addSetting_eq, hSteps]
    refine field?_setAlong_of_ne (fun hHere => hHead ?_) _ _ _
    rwa [headOf_eq hSteps, ← hHere]
  refine ⟨fun g hGroup v hValue => hGrouped g hGroup v ((hField g hGroup).symm.trans hValue),
    fun s => .inr ⟨fun v hAssigns => hHead ?_,
      valueAt_of_field? (hField _ (group_mem_groups s))⟩⟩
  cases hAssigns with
  | inTable _ _ hSteps' hGroup => rw [headOf_eq hSteps', hGroup]; exact group_mem_groups s
  | byPath _ _ hSteps' hGroup => rw [headOf_eq hSteps', hGroup]; exact group_mem_groups s

/-- A table of a group assigns the values in it. -/
theorem addSetting_inTable (hGrouped : Grouped settings)
    (hPlain : ∀ s v, Assigns e s v → Plain v) {fields : List (String × Value)}
    (hSteps : stepsOf e.1 = [.field e.1]) (hGroup : Text.lowercase e.1 ∈ groups)
    (hTable : e.2 = .table fields) : Assigned (Assigns e) settings (addSetting settings e) := by
  obtain ⟨k, v⟩ := e
  subst hTable
  -- the fields go into what the group has
  have hMerged : addSetting settings (k, .table fields) =
      .table (putField (Text.lowercase k)
        (mergeAll fields ((settings.field? (Text.lowercase k)).getD (.table [])))
        settings.fields) := by
    rw [addSetting_eq, hSteps, setAlong, merge_eq]
    rfl
  have hOld : ∃ inner, (settings.field? (Text.lowercase k)).getD (.table []) = .table inner := by
    cases hField : settings.field? (Text.lowercase k) with
    | none => exact ⟨[], rfl⟩
    | some old => exact hGrouped _ hGroup old hField
  refine ⟨?_, fun s => ?_⟩
  · rw [hMerged]
    exact grouped_putField hGrouped fun _ => exists_table_mergeAll fields hOld
  · by_cases hHere : s.group = Text.lowercase k
    · have hAssigns : ∀ key v, (key, v) ∈ fields → Text.lowercase key = s.key →
          Assigns (k, .table fields) s v := fun key v hMem hKey =>
        .inTable fields key hSteps hHere.symm rfl hMem hKey
      have hField : valueAt (addSetting settings (k, .table fields)) s =
          (mergeAll fields
            ((settings.field? (Text.lowercase k)).getD (.table []))).field? s.key := by
        rw [valueAt, hMerged, field?_table_putField, if_pos hHere, Option.bind_some]
      rcases @field?_mergeAll fields s.key
        (fun key v hMem hKey => hPlain s v (hAssigns key v hMem hKey))
        ((settings.field? (Text.lowercase k)).getD (.table [])) with
        ⟨key, v, hMem, hKey, hValue⟩ | ⟨hNone, hValue⟩
      · exact .inl ⟨v, hAssigns key v hMem hKey, hField.trans hValue⟩
      · refine .inr ⟨fun v hAssigned => ?_, ?_⟩
        · cases hAssigned with
          | inTable fields' key _ _ hTable hMem hKey =>
            cases hTable
            exact hNone key v hMem hKey
          | byPath group key hSteps' =>
            rw [hSteps] at hSteps'
            cases hSteps'
        · rw [hField, hValue, valueAt, hHere]
          cases settings.field? (Text.lowercase k) <;> rfl
    · refine .inr ⟨fun v hAssigned => ?_, ?_⟩
      · cases hAssigned with
        | inTable _ _ _ hGroup' => exact hHere hGroup'.symm
        | byPath _ _ hSteps' =>
          rw [hSteps] at hSteps'
          cases hSteps'
      · refine valueAt_of_field? ?_
        rw [hMerged, field?_table_putField, if_neg hHere]

/-- A path into a group assigns its value. -/
theorem addSetting_byPath (hGrouped : Grouped settings)
    (hPlain : ∀ s v, Assigns e s v → Plain v) {group key : String}
    (hSteps : stepsOf e.1 = [.field group, .field key]) :
    Assigned (Assigns e) settings (addSetting settings e) := by
  have hMerged : addSetting settings e = .table (putField (Text.lowercase group)
      (merge key e.2 ((settings.field? (Text.lowercase group)).getD .null)) settings.fields) := by
    rw [addSetting_eq, hSteps, setAlong_two]
  refine ⟨?_, fun s => ?_⟩
  · rw [hMerged]
    exact grouped_putField hGrouped fun _ => ⟨_, merge_eq _ _ _⟩
  · -- a path assigns to no other setting than the one it spells
    have hOnly : ∀ v, Assigns e s v →
        Text.lowercase group = s.group ∧ Text.lowercase key = s.key := fun v hAssigned => by
      cases hAssigned with
      | inTable _ _ hSteps' =>
        rw [hSteps] at hSteps'
        cases hSteps'
      | byPath _ _ hSteps' hGroup hKey =>
        rw [hSteps] at hSteps'
        cases hSteps'
        exact ⟨hGroup, hKey⟩
    -- what is in the other groups, and the other fields of the group, stays
    by_cases hGroup : s.group = Text.lowercase group
    · have hField : valueAt (addSetting settings e) s =
          (merge key e.2 ((settings.field? (Text.lowercase group)).getD .null)).field? s.key := by
        rw [valueAt, hMerged, field?_table_putField, if_pos hGroup, Option.bind_some]
      rw [field?_merge] at hField
      by_cases hKey : s.key = Text.lowercase key
      · have hAssigns : Assigns e s e.2 := .byPath group key hSteps hGroup.symm hKey.symm rfl
        rw [if_pos hKey, laidOver_of_plain (hPlain s e.2 hAssigns)] at hField
        exact .inl ⟨e.2, hAssigns, hField⟩
      · rw [if_neg hKey] at hField
        refine .inr ⟨fun v hAssigned => hKey (hOnly v hAssigned).2.symm, ?_⟩
        rw [hField, valueAt, hGroup]
        cases settings.field? (Text.lowercase group) <;> rfl
    · refine .inr ⟨fun v hAssigned => hGroup (hOnly v hAssigned).1.symm, valueAt_of_field? ?_⟩
      rw [hMerged, field?_table_putField, if_neg hGroup]

/-- An entry that fits assigns its values, and leaves everything else as it is. -/
theorem addSetting_spec (hGrouped : Grouped settings) (hFits : Fits e)
    (hPlain : ∀ s v, Assigns e s v → Plain v) :
    Assigned (Assigns e) settings (addSetting settings e) := by
  cases hFits with
  | inTable fields hSteps hGroup hTable =>
    exact addSetting_inTable hGrouped hPlain hSteps hGroup hTable
  | byPath group key hSteps _ => exact addSetting_byPath hGrouped hPlain hSteps
  | elsewhere hHead => exact addSetting_elsewhere hGrouped hHead

end

/-! ## Layers over one another -/

/-- The entries of a layer assign their values one after the other. -/
theorem addLayer_spec {layer : Layer} (hFits : ∀ e ∈ layer, Fits e)
    (hPlain : ∀ e ∈ layer, ∀ s v, Assigns e s v → Plain v) {settings : Value}
    (hGrouped : Grouped settings) :
    Assigned (fun s v => ∃ e ∈ layer, Assigns e s v) settings (addLayer settings layer) := by
  induction layer generalizing settings with
  | nil => exact ⟨hGrouped, fun s => .inr ⟨nofun, rfl⟩⟩
  | cons e rest ih =>
    obtain ⟨hHere, hRest⟩ := List.forall_mem_cons.1 hFits
    obtain ⟨hPlainHere, hPlainRest⟩ := List.forall_mem_cons.1 hPlain
    obtain ⟨hGrouped₁, hFirst⟩ := addSetting_spec hGrouped hHere hPlainHere
    obtain ⟨hGrouped₂, hLater⟩ := ih hRest hPlainRest hGrouped₁
    refine ⟨hGrouped₂, fun s => ?_⟩
    change (∃ v, _ ∧ valueAt (addLayer (addSetting settings e) rest) s = some v) ∨
      (_ ∧ valueAt (addLayer (addSetting settings e) rest) s = _)
    -- a later entry counts if there is one, or else this one
    rcases hLater s with ⟨v, ⟨e', hMem, hAssigns⟩, hValue⟩ | ⟨hNone, hValue⟩
    · exact .inl ⟨v, ⟨e', List.mem_cons_of_mem _ hMem, hAssigns⟩, hValue⟩
    · rw [hValue]
      rcases hFirst s with ⟨v, hAssigns, hValue'⟩ | ⟨hNone', hValue'⟩
      · exact .inl ⟨v, ⟨e, List.mem_cons_self, hAssigns⟩, hValue'⟩
      · refine .inr ⟨fun v ⟨e', hMem, hAssigns⟩ => ?_, hValue'⟩
        rcases List.mem_cons.1 hMem with rfl | hMem
        · exact hNone' v hAssigns
        · exact hNone v ⟨e', hMem, hAssigns⟩

/-- A value that is read for a setting is no table. -/
theorem plain_of_read {s : Setting} {v : Value} {x : s.Carrier} (h : s.read v = some x) :
    Plain v := by
  rintro fields rfl
  rw [Setting.read_table] at h
  cases h

/-- A layer puts the partial configuration that it describes over the one that is shown. -/
theorem shows_addLayer {settings : Value} {p q : Partial} (hShows : Shows settings p)
    {layer : Layer} (hLayer : Describes layer q) :
    Shows (addLayer settings layer) fun s => (q s).or (p s) := by
  have hPlain : ∀ e ∈ layer, ∀ s v, Assigns e s v → Plain v := fun e hMem s v hAssigns => by
    obtain ⟨x, hRead, -⟩ := hLayer.typed e hMem s v hAssigns
    exact plain_of_read hRead
  obtain ⟨hGrouped, hValues⟩ := addLayer_spec hLayer.fits hPlain hShows.grouped
  refine ⟨hGrouped, fun s => ?_⟩
  rcases hValues s with ⟨v, ⟨e, hMem, hAssigns⟩, hValue⟩ | ⟨hNone, hValue⟩
  · obtain ⟨x, hRead, hSet⟩ := hLayer.typed e hMem s v hAssigns
    rw [hValue, hSet, Option.map_some, hRead]
    rfl
  · -- no entry assigns to the setting, so the layer does not describe it
    cases hSet : q s with
    | none =>
      rw [hValue]
      exact hShows.values s
    | some x =>
      obtain ⟨e, hMem, v, hAssigns⟩ := hLayer.assigned s x hSet
      exact absurd ⟨e, hMem, hAssigns⟩ (hNone v)

theorem shows_nothing : Shows (.table []) .nothing :=
  ⟨nofun, fun _ => rfl⟩

/-- All layers together show, for each setting, the value of the last one that has one. -/
theorem shows_combine {layers : List Layer} {ps : List Partial}
    (h : List.Forall₂ Describes layers ps) :
    Shows (combine layers) fun s => ps.reverse.findSome? (· s) := by
  have hFrom : ∀ {settings : Value} {p : Partial}, Shows settings p →
      Shows (layers.foldl addLayer settings) fun s => (ps.reverse.findSome? (· s)).or (p s) := by
    induction h with
    | nil => exact fun hShows => hShows
    | @cons layer q layers ps hLayer _ ih =>
      intro settings p hShows
      have hAll := ih (shows_addLayer hShows hLayer)
      simp only [List.reverse_cons, List.findSome?_append, Option.or_assoc]
      simpa using hAll
  simpa [combine, Partial.nothing] using hFrom shows_nothing

end PropertySets.Configuration
