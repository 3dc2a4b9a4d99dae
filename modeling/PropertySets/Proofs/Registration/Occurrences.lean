import PropertySets.Proofs.Generation.Emission
import PropertySets.Proofs.Naming.Routines

/-!
# The properties that come up in a registry

While a module is emitted the properties of the registry come up in a fixed order: sets by ascending
name, the editions of a set as they came in, and the properties of an edition as its document has
them, a complex property standing for its direct children. Editions without a known revision are
passed over. What a module holds and which enumerations are requested are both read off this list.

* `Registry.editions`, `Registry.occurrences` — the editions of a registry, and the properties that
  come up.
* `requests_eq_filterMap_occurrences` — the enumerations that are requested.
* `entries_ofRegistry` — the entries of the module.
-/

namespace PropertySets

open Naming Registration

/-- A property that comes up, with the edition that it belongs to. -/
structure Occurrence where
  edition : Edition
  property : Property

/-- The properties that come up in an edition: none without a known revision. -/
def Edition.occurrences (e : Edition) : List Occurrence :=
  if (revision? e).isSome then (flattened e.definition).map fun p => ⟨e, p⟩ else []

/-- The editions of a registry, set after set. -/
def Registry.editions (r : Registry) : List Edition := r.groups.flatMap (·.2)

theorem Registry.mem_editions_insert {r : Registry} {e e' : Edition} :
    e' ∈ (r.insert e).editions ↔ e' = e ∨ e' ∈ r.editions := by
  have hGroups : ∀ groups : List (String × List Edition),
      e' ∈ (insertInto e.name e groups).flatMap (·.2) ↔ e' = e ∨ e' ∈ groups.flatMap (·.2) := by
    intro groups
    induction groups with
    | nil => simp [insertInto]
    | cons group rest ih =>
      -- the edition is put into a group, into a new one, or further on
      unfold insertInto
      split
      · simp only [List.flatMap_cons, List.mem_append, List.mem_singleton]
        tauto
      · split
        · simp only [List.flatMap_cons, List.mem_append, List.mem_singleton]
        · simp only [List.flatMap_cons, List.mem_append, ih]
          tauto
  exact hGroups r.groups

/-- A registry holds the editions that it was filled with, and no others. -/
theorem Registry.mem_editions_ofList {es : List Edition} {e : Edition} :
    e ∈ (Registry.ofList es).editions ↔ e ∈ es := by
  have hFrom : ∀ (es : List Edition) (r : Registry),
      e ∈ (es.foldl insert r).editions ↔ e ∈ es ∨ e ∈ r.editions := by
    intro es
    induction es with
    | nil => simp
    | cons first rest ih =>
      intro r
      rw [List.foldl_cons, ih, Registry.mem_editions_insert, List.mem_cons]
      tauto
  have hEmpty : Registry.empty.editions = [] := rfl
  rw [Registry.ofList, hFrom, hEmpty]
  simp

/-- The properties that come up in a registry, in the order in which they do. -/
def Registry.occurrences (r : Registry) : List Occurrence := r.editions.flatMap Edition.occurrences

theorem Edition.mem_occurrences {e : Edition} {o : Occurrence} :
    o ∈ e.occurrences ↔
      o.edition = e ∧ (revision? e).isSome = true ∧ o.property ∈ flattened e.definition := by
  rw [occurrences]
  split
  · rename_i hKnown
    rw [List.mem_map]
    constructor
    · rintro ⟨p, hMem, rfl⟩
      exact ⟨rfl, hKnown, hMem⟩
    · rintro ⟨rfl, -, hMem⟩
      exact ⟨o.property, hMem, rfl⟩
  · rename_i hUnknown
    simp [hUnknown]

/-- What comes up belongs to an edition with a known revision, and is one of its properties or a
direct child of one. -/
theorem Registry.mem_occurrences {r : Registry} {o : Occurrence} :
    o ∈ r.occurrences ↔ o.edition ∈ r.editions ∧ (revision? o.edition).isSome = true ∧
      o.property ∈ flattened o.edition.definition := by
  rw [occurrences, List.mem_flatMap]
  constructor
  · rintro ⟨e, hEdition, hMem⟩
    obtain ⟨rfl, hKnown, hProperty⟩ := Edition.mem_occurrences.1 hMem
    exact ⟨hEdition, hKnown, hProperty⟩
  · rintro ⟨hEdition, hKnown, hProperty⟩
    exact ⟨o.edition, hEdition, Edition.mem_occurrences.2 ⟨rfl, hKnown, hProperty⟩⟩

/-! ## The enumerations that are requested -/

/-- The enumeration that is requested with an occurrence. -/
def Occurrence.request? (o : Occurrence) : Option Enumeration.Request :=
  o.edition.request? o.property

/-- Only enumerated properties request an enumeration: theirs. -/
theorem Occurrence.exists_of_request? {o : Occurrence} {q : Enumeration.Request}
    (h : o.request? = some q) :
    ∃ label name items, o.property = .valued label (.enumerated name items) ∧
      q = ⟨o.edition.version, o.edition.folder, name, items, sourceOf o.edition⟩ := by
  rw [request?] at h
  cases hProperty : o.property with
  | typeless label => rw [hProperty] at h; cases h
  | complex label typeName properties => rw [hProperty] at h; cases h
  | valued label shape =>
    rw [hProperty] at h
    cases shape with
    | enumerated name items =>
      cases h
      exact ⟨label, name, items, rfl, rfl⟩
    | _ => cases h

theorem Edition.requests_eq (e : Edition) :
    e.requests = e.occurrences.filterMap Occurrence.request? := by
  rw [requests, occurrences]
  split
  · rw [List.filterMap_map]
    rfl
  · rfl

theorem requests_eq_filterMap_occurrences (r : Registry) :
    r.requests = r.occurrences.filterMap Occurrence.request? := by
  simp only [Registry.requests, Registry.occurrences, Registry.editions, List.flatMap_assoc,
    List.filterMap_flatMap, ← Edition.requests_eq]

/-! ## The entries of a module -/

namespace Registration

/-- The entries of a module, routine after routine and block after block. -/
def Module.entries (m : Module) : List PropertyEntry :=
  m.routines.flatMap fun routine => routine.blocks.flatMap (·.entries)

/-- The entry of an occurrence, if it has one. -/
def PropertyEntry.ofOccurrence? (c : Configuration) (o : Occurrence) : Option PropertyEntry :=
  PropertyEntry.ofProperty? c o.edition o.property

theorem entries_ofEdition? (c : Configuration) (e : Edition) :
    (Block.ofEdition? c e).toList.flatMap (·.entries) =
      e.occurrences.filterMap (PropertyEntry.ofOccurrence? c) := by
  rw [Block.ofEdition?, Edition.occurrences]
  cases revision? e with
  | none => rfl
  | some revision =>
    rw [Option.isSome_some, if_pos rfl, List.filterMap_map]
    exact List.append_nil _

/-- Whatever the names of a set are, its routine has the entries of its editions. -/
theorem entries_ofGroup (c : Configuration) (names : SetNames) (group : String × List Edition) :
    (Routine.ofGroup c names group.1 group.2).blocks.flatMap (·.entries) =
      (group.2.flatMap Edition.occurrences).filterMap (PropertyEntry.ofOccurrence? c) := by
  rw [Routine.ofGroup, List.filterMap_eq_flatMap_toList, List.flatMap_assoc,
    List.filterMap_flatMap]
  simp only [entries_ofEdition?]

/-- The entries of a module are those of what comes up in the registry, in the same order. -/
theorem entries_ofRegistry (c : Configuration) (r : Registry) :
    (Module.ofRegistry c r).entries =
      r.occurrences.filterMap (PropertyEntry.ofOccurrence? c) := by
  -- every set is named, so none of the routines is missing
  have hRoutine : ∀ group ∈ r.groups, ∃ names,
      (NameTable.assign r.names).find? group.1 = some names := by
    intro group hMem
    exact NameTable.exists_find? (List.mem_map_of_mem hMem)
  have hGroups : ∀ groups : List (String × List Edition), (∀ g ∈ groups, g ∈ r.groups) →
      (groups.filterMap fun g => ((NameTable.assign r.names).find? g.1).map
        fun names => Routine.ofGroup c names g.1 g.2).flatMap
          (fun routine => routine.blocks.flatMap (·.entries)) =
      ((groups.flatMap (·.2)).flatMap Edition.occurrences).filterMap
        (PropertyEntry.ofOccurrence? c) := by
    intro groups hAll
    induction groups with
    | nil => rfl
    | cons group rest ih =>
      obtain ⟨names, hNames⟩ := hRoutine group (hAll group List.mem_cons_self)
      have hRest := ih fun g hMem => hAll g (List.mem_cons_of_mem _ hMem)
      rw [List.filterMap_cons_some (b := Routine.ofGroup c names group.1 group.2)
          (by simp [hNames]), List.flatMap_cons, entries_ofGroup, hRest, List.flatMap_cons,
        List.flatMap_append, List.filterMap_append]
  exact hGroups r.groups fun _ hMem => hMem

/-- An entry of a module is the entry of something that comes up. -/
theorem mem_entries_ofRegistry {c : Configuration} {r : Registry} {entry : PropertyEntry} :
    entry ∈ (Module.ofRegistry c r).entries ↔
      ∃ o ∈ r.occurrences, PropertyEntry.ofOccurrence? c o = some entry := by
  rw [entries_ofRegistry, List.mem_filterMap]

end Registration

end PropertySets
