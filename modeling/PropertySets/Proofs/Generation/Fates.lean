import PropertySets.Proofs.Document.Elements
import PropertySets.Proofs.Generation.Conservation

/-!
# What becomes of the elements of a document

Let a document be read without an omission and a run on its registry succeed. Then a `PropertyDef`
element that declares a value has an entry, unless the revision of its set is not known or the
element lies in a complex property inside a complex property. In these cases the set or the complex
property is reported — but neither report counts as an omission, and generating code reports no
other that does.

* `Module.Shows` — a module has entries for the elements of a document.
* `ReportedNested` — an element is accounted for by the flaw of a complex property.
* `Course.omissions_eq_nil` — a run on a registry reports no omission.
* `fate_of_document` — what becomes of the elements of a document.
-/

namespace PropertySets

open Document Enumeration FileTree Naming Registration Relation Xml

/-! ## Editions of a registry -/

theorem Registry.name_of_mem_insertInto {gs : List (String × List Edition)} {e : Edition}
    (h : ∀ group ∈ gs, ∀ e' ∈ group.2, e'.name = group.1) :
    ∀ group ∈ insertInto e.name e gs, ∀ e' ∈ group.2, e'.name = group.1 := by
  induction gs with
  | nil =>
    intro group hGroup e' hEdition
    obtain rfl := List.mem_singleton.1 hGroup
    rw [List.mem_singleton.1 hEdition]
  | cons first rest ih =>
    obtain ⟨hFirst, hRest⟩ := List.forall_mem_cons.1 h
    unfold insertInto
    split
    · rename_i hName
      refine List.forall_mem_cons.2 ⟨fun e' hEdition => ?_, hRest⟩
      -- a group grows by an edition of its own name
      rcases List.mem_append.1 hEdition with hEdition | hEdition
      · exact hFirst e' hEdition
      · rw [List.mem_singleton.1 hEdition]
        exact hName
    · split
      · -- a new group starts with the one edition
        refine List.forall_mem_cons.2 ⟨fun e' hEdition => ?_, h⟩
        rw [List.mem_singleton.1 hEdition]
      · exact List.forall_mem_cons.2 ⟨hFirst, ih hRest⟩

/-- The editions of a group are those of the set that the group is named after. -/
theorem Registry.name_of_mem_ofList {es : List Edition} :
    ∀ group ∈ (Registry.ofList es).groups, ∀ e ∈ group.2, e.name = group.1 := by
  have hFrom : ∀ (es : List Edition) (r : Registry),
      (∀ group ∈ r.groups, ∀ e ∈ group.2, e.name = group.1) →
      ∀ group ∈ (es.foldl Registry.insert r).groups, ∀ e ∈ group.2, e.name = group.1 := by
    intro es
    induction es with
    | nil => exact fun r h => h
    | cons first rest ih => exact fun r h => ih _ (name_of_mem_insertInto h)
  exact hFrom es .empty nofun

namespace Registration

/-- An edition with a known revision has its block, in the routine of its group. -/
theorem exists_block_of_edition (c : Configuration) {r : Registry} {group : String × List Edition}
    {e : Edition} {revision : Revision} (hGroup : group ∈ r.groups) (hEdition : e ∈ group.2)
    (hKnown : revision? e = some revision) :
    ∃ routine ∈ (Module.ofRegistry c r).routines, routine.setName = group.1 ∧
      ∃ block ∈ routine.blocks, block.revision = revision ∧
        block.entries = (flattened e.definition).filterMap (PropertyEntry.ofProperty? c e) := by
  obtain ⟨names, hNames⟩ := NameTable.exists_find? (List.mem_map_of_mem (f := (·.1)) hGroup)
  have hRoutine : Routine.ofGroup c names group.1 group.2 ∈ (Module.ofRegistry c r).routines :=
    List.mem_filterMap.2 ⟨group, hGroup, congrArg (Option.map _) hNames⟩
  have hBlock : Block.ofEdition? c e = some _ := congrArg (Option.map _) hKnown
  exact ⟨_, hRoutine, rfl, _, List.mem_filterMap.2 ⟨e, hEdition, hBlock⟩, rfl, rfl⟩

/-! ## Elements with entries -/

/-- What an entry says of an element: its name and the kind of its value. -/
def PropertyEntry.heading (entry : PropertyEntry) : String × ValueKind := (entry.name, entry.kind)

theorem exists_of_mem_readFrom {ns : List Node} {ps : List Property}
    (h : List.Forall₂ ReadFrom ns ps) {n : Node} (hMem : n ∈ ns) : ∃ p ∈ ps, ReadFrom n p := by
  induction h with
  | nil => cases hMem
  | cons hFirst _ ih =>
    rcases List.mem_cons.1 hMem with rfl | hMem
    · exact ⟨_, List.mem_cons_self, hFirst⟩
    · obtain ⟨p, hProperty, hRead⟩ := ih hMem
      exact ⟨p, List.mem_cons_of_mem _ hProperty, hRead⟩

/-- The entries of the properties are those of the elements that they were read from. -/
theorem headings_of_readFrom (c : Configuration) (e : Edition) {ns : List Node}
    {ps : List Property} (h : List.Forall₂ ReadFrom ns ps) :
    (ps.filterMap (PropertyEntry.ofProperty? c e)).map PropertyEntry.heading =
      ns.filterMap heading? := by
  induction h with
  | nil => rfl
  | @cons n p ns ps hFirst _ ih =>
    cases p with
    | typeless l => exact hFirst.elim
    | valued l shape =>
      rw [List.filterMap_cons_some (show heading? n = some (l.name, .ofShape shape) from hFirst),
        ← ih]
      rfl
    | complex l typeName properties =>
      -- a complex property has no entry, and its element declares no value
      have hNone : heading? n = none := by
        by_contra hSome
        obtain ⟨heading, hHeading⟩ := Option.ne_none_iff_exists'.1 hSome
        have hValue := isBundle_of_heading hHeading
        rw [hFirst.2] at hValue
        cases hValue
      rw [List.filterMap_cons_none hNone, ← ih]
      rfl

/-- The module has a block of the edition, and its entries are those of the elements of the
document whose properties can have entries, in document order. -/
def Module.Shows (m : Module) (e : Edition) (root : Node) : Prop :=
  ∃ routine ∈ m.routines, routine.setName = e.name ∧
    ∃ block ∈ routine.blocks, revision? e = some block.revision ∧
      block.entries.map PropertyEntry.heading = (expanded root).filterMap heading?

theorem report_of_unknownFlaw? {setName : String} {e : Edition} {flaw : Diagnostic}
    (h : unknownFlaw? setName e = some flaw) :
    .report flaw ∈ editionEvents setName e ∧ flaw.code = .unknownRevision := by
  rw [unknownFlaw?] at h
  split at h
  · rename_i hRevision
    cases h
    rw [editionEvents, hRevision]
    exact ⟨List.mem_singleton_self _, rfl⟩
  · cases h

end Registration

/-! ## What a run reports -/

variable {c : Configuration} {r : Registry} {t t' : FileTree} {report : Report}

theorem mem_emission (c : Configuration) {group : String × List Edition} {e : Edition}
    {event : Event} (hGroup : group ∈ r.groups) (hEdition : e ∈ group.2)
    (hEvent : event ∈ editionEvents group.1 e) : event ∈ emission c r := by
  refine List.mem_flatMap.2 ⟨group, hGroup, ?_⟩
  rw [groupEvents]
  exact List.mem_append_left _ (List.mem_append_right _ (List.mem_flatMap.2 ⟨e, hEdition, hEvent⟩))

/-- A flaw is reported when its event comes up, unless it is of a kind that the reconciler deals
with. -/
theorem Course.mem_flaws (course : Course c r t report t') {flaw : Diagnostic}
    (hEvent : .report flaw ∈ emission c r) (hConflict : flaw.code ≠ .conflictingEnumDefinition)
    (hCollision : flaw.code ≠ .discriminantCollision) : flaw ∈ report.flaws := by
  have hSame := course.tallied.2 (· == flaw.code) (beq_eq_false_iff_ne.2 hConflict.symm)
    (beq_eq_false_iff_ne.2 hCollision.symm)
  have hReported : flaw ∈ ((emission c r).filterMap Event.flaw?).filter (·.code == flaw.code) :=
    List.mem_filter.2 ⟨List.mem_filterMap.2 ⟨_, hEvent, rfl⟩, beq_self_eq_true _⟩
  rw [← hSame] at hReported
  exact (List.mem_filter.1 hReported).1

/-! ### Omissions -/

namespace Registration

/-- An event that reports no omission. -/
def Event.Spares : Event → Prop
  | .report flaw => flaw.severity ≠ .omission
  | _ => True

theorem spares_propertyEvents (e : Edition) (p : Property) :
    ∀ event ∈ propertyEvents e p, event.Spares := by
  intro event hEvent
  -- what is reported of a property is no omission
  cases p with
  | typeless l =>
    obtain rfl := List.mem_singleton.1 hEvent
    rintro ⟨⟩
  | complex l typeName properties =>
    obtain rfl := List.mem_singleton.1 hEvent
    rintro ⟨⟩
  | valued l shape =>
    rcases List.mem_append.1 hEvent with hEvent | hEvent
    · rcases List.mem_append.1 hEvent with hEvent | hEvent
      · obtain ⟨q, -, rfl⟩ := Option.map_eq_some_iff.1 (Option.mem_toList.1 hEvent)
        trivial
      · obtain ⟨flaw, rfl, hCode⟩ := mem_languageFlaws hEvent
        rw [Event.Spares, Diagnostic.severity, hCode]
        rintro ⟨⟩
    · obtain rfl := List.mem_singleton.1 hEvent
      trivial

theorem spares_editionEvents (setName : String) (e : Edition) :
    ∀ event ∈ editionEvents setName e, event.Spares := by
  intro event hEvent
  rw [editionEvents] at hEvent
  split at hEvent
  · obtain rfl := List.mem_singleton.1 hEvent
    rintro ⟨⟩
  · rcases List.mem_append.1 hEvent with hEvent | hEvent
    · obtain ⟨p, -, hEvent⟩ := List.mem_flatMap.1 hEvent
      exact spares_propertyEvents e p event hEvent
    · obtain rfl := List.mem_singleton.1 hEvent
      trivial

theorem spares_emission (c : Configuration) (r : Registry) :
    ∀ event ∈ emission c r, event.Spares := by
  intro event hEvent
  obtain ⟨group, -, hEvent⟩ := List.mem_flatMap.1 hEvent
  rcases List.mem_append.1 hEvent with hEvent | hEvent
  · rcases List.mem_append.1 hEvent with hEvent | hEvent
    · -- a set without an index is reported, which is no omission
      cases hLookup : subIndex? c group.1 with
      | some identifier =>
        rw [hLookup] at hEvent
        cases hEvent
      | none =>
        rw [hLookup] at hEvent
        obtain rfl := List.mem_singleton.1 hEvent
        rintro ⟨⟩
    · obtain ⟨e, -, hEvent⟩ := List.mem_flatMap.1 hEvent
      exact spares_editionEvents group.1 e event hEvent
  · obtain rfl := List.mem_singleton.1 hEvent
    trivial

end Registration

/-- **Only reading reports omissions.** Whatever a run on a registry leaves out, it reports none. -/
theorem Course.omissions_eq_nil (course : Course c r t report t') :
    Diagnostics.omissions report.flaws = [] := by
  have hSame := course.tallied.2 (·.severity == .omission) rfl rfl
  refine hSame.trans (List.filter_eq_nil_iff.2 fun flaw hMem => ?_)
  obtain ⟨event, hEvent, hFlaw⟩ := List.mem_filterMap.1 hMem
  obtain rfl := eq_report_of_flaw? hFlaw
  rw [beq_iff_eq]
  exact spares_emission c r _ hEvent

/-! ## Fates of elements -/

/-- The flaw that is reported of a complex property in place of an entry. -/
def nestedFlaw (e : Edition) (name : String) : Diagnostic :=
  .of (sourceOf e) .nestedComplexProperty
    (name ++ " is a complex property inside a complex property, skipped")

/-- The element lies in a complex property inside a complex property, and that one is reported. -/
def ReportedNested (flaws : Diagnostics) (e : Edition) (root n : Node) : Prop :=
  ∃ holder ∈ expanded root, ∃ name, TransGen Holds holder n ∧ name? holder = some name ∧
    nestedFlaw e name ∈ flaws

/-- **What becomes of a document.** Let a document be read without an omission, and let a run on a
registry with its edition succeed. Either the revision of the set is not known, and that is
reported; or the module has the entries of the document, and every `PropertyDef` that declares a
value, at any depth of complex properties, is one of those that have them or lies in a complex
property that is reported. -/
theorem fate_of_document {es : List Edition} (course : Course c (.ofList es) t report t')
    {e : Edition} (hEdition : e ∈ es) {root : Node}
    (hFrom : List.Forall₂ ReadFrom (expanded root) (flattened e.definition)) :
    (∃ flaw ∈ report.flaws, unknownFlaw? e.name e = some flaw) ∨
    ((Module.ofRegistry c (.ofList es)).Shows e root ∧
      ∀ top ∈ propertyDefs root, ∀ n heading, ReflTransGen Holds top n →
        heading? n = some heading → n ∈ expanded root ∨ ReportedNested report.flaws e root n) := by
  obtain ⟨group, hGroup, hMember⟩ :=
    List.mem_flatMap.1 (Registry.mem_editions_ofList.2 hEdition)
  have hName : e.name = group.1 := Registry.name_of_mem_ofList group hGroup e hMember
  cases hRevision : revision? e with
  | none =>
    obtain ⟨flaw, hUnknown⟩ : ∃ flaw, unknownFlaw? group.1 e = some flaw := by
      rw [unknownFlaw?, hRevision]
      exact ⟨_, rfl⟩
    obtain ⟨hEvent, hCode⟩ := report_of_unknownFlaw? hUnknown
    have hReported := course.mem_flaws (mem_emission c hGroup hMember hEvent)
      (by rw [hCode]; rintro ⟨⟩) (by rw [hCode]; rintro ⟨⟩)
    exact .inl ⟨flaw, hReported, hName ▸ hUnknown⟩
  | some revision =>
    refine .inr ⟨?_, fun top hTop n heading hBelow hHeading => ?_⟩
    · obtain ⟨routine, hRoutine, hSet, block, hBlock, hBlockRevision, hEntries⟩ :=
        exists_block_of_edition c hGroup hMember hRevision
      refine ⟨routine, hRoutine, hSet.trans hName.symm, block, hBlock, ?_, ?_⟩
      · rw [hRevision, hBlockRevision]
      · rw [hEntries]
        exact headings_of_readFrom c e hFrom
    rcases expanded_or_within hTop hBelow hHeading with hPlace | ⟨m, hPlace, hBundle, hInside⟩
    · exact .inl hPlace
    · -- the property of the inner complex property comes up, and is skipped
      obtain ⟨p, hProperty, hRead⟩ := exists_of_mem_readFrom hFrom hPlace
      cases p with
      | typeless l => exact hRead.elim
      | valued l shape =>
        rw [isBundle_of_heading hRead] at hBundle
        cases hBundle
      | complex l typeName properties =>
        have hEvent : .report (nestedFlaw e l.name) ∈ editionEvents group.1 e := by
          rw [editionEvents, hRevision]
          exact List.mem_append_left _
            (List.mem_flatMap.2 ⟨_, hProperty, List.mem_singleton_self _⟩)
        exact .inr ⟨m, hPlace, l.name, hInside, hRead.1,
          course.mem_flaws (mem_emission c hGroup hMember hEvent)
            (by rintro ⟨⟩) (by rintro ⟨⟩)⟩

end PropertySets
