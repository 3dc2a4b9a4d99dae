import Mathlib.Algebra.Ring.Nat
import PropertySets.Proofs.Enumeration.Contents

/-!
# Nothing is lost on the way into the module

A set becomes a routine. An edition becomes a block, or is reported for its unknown revision. A
property that comes up becomes an entry, or is reported because it has no type or is complex. None
of them is passed over in silence, none is both written and reported, and none is reported twice,
so the counts of a report and the numbers of its flaws add up to what the registry holds.

* `tally`, `Tallied` — what the events of an emission add up to.
* `settlement?` — the events that settle a property, an edition or a set: one for each.
* `generate_conserves` — the counts and the flaws of a run.
-/

namespace PropertySets

open Enumeration FileTree Registration

namespace Registration

/-! ## What events add up to -/

/-- The flaw that an event reports. -/
def Event.flaw? : Event → Option Diagnostic
  | .report flaw => some flaw
  | _ => none

/-- The routines, blocks and entries that are complete after events. -/
def tally (events : List Event) : Counts :=
  ⟨events.count .routine, events.count .block, events.count .entry⟩

/-- The counts are those of the events, and so are the flaws, except that the reconciler has added
its own. -/
structure Tallied (done : List Event) (s : Emitted Handle) : Prop where
  counts : s.counts = tally done
  flaws : ∀ kinds : Code → Bool, kinds .conflictingEnumDefinition = false →
    kinds .discriminantCollision = false →
    s.flaws.filter (kinds ·.code) = (done.filterMap Event.flaw?).filter (kinds ·.code)

theorem Tallied.step {done : List Event} {event : Event} {s s₁ : Emitted Handle} {t t₁ : FileTree}
    (h : Tallied done s) (hCarried : Carried event s t s₁ t₁) : Tallied (done ++ [event]) s₁ := by
  -- a count grows with its own event only
  have hCounts := h.counts
  rw [tally] at hCounts
  refine ⟨?_, fun kinds hConflict hCollision => ?_⟩
  · rw [tally, List.count_append, List.count_append, List.count_append]
    cases hCarried <;> simp [hCounts]
  · rw [List.filterMap_append, List.filter_append, ← h.flaws kinds hConflict hCollision]
    cases hCarried with
    | report flaw => exact List.filter_append _ _
    | entry | block | routine => exact (List.append_nil _).symm
    | @enumeration q _ _ _ outcome _ hAnswers hOk =>
      -- the flaws of the reconciler are of other kinds
      have hOwn : outcome.flaws.filter (kinds ·.code) = [] := by
        rw [List.filter_eq_nil_iff]
        intro flaw hMem
        rcases code_of_reconciled (reconciled_of_run hAnswers) hMem with hCode | hCode
        · simp [hCode, hConflict]
        · simp [hCode, hCollision]
      show (s.flaws ++ outcome.flaws).filter (kinds ·.code) = s.flaws.filter (kinds ·.code) ++ []
      rw [List.filter_append, hOwn]

theorem tallied_of_emit {r₀ : Reconciler Handle} {events : List Event} {s : Emitted Handle}
    {t t' : FileTree}
    (h : (emit (.start r₀) events : StateM FileTree _) t = ((s, none), t')) : Tallied events s := by
  have hStart : Tallied [] (.start r₀) := ⟨rfl, fun _ _ _ => rfl⟩
  exact emit_preserves (fun done s _ => Tallied done s) hStart
    (fun _ _ _ _ _ _ hCarried hTallied => hTallied.step hCarried) h

/-! ## What settles a property, an edition or a set -/

/-- The events that settle what `mark` is the completion of: the mark itself, or a flaw of one of
the kinds, which stands in its place. -/
def settlement? (mark : Event) (kinds : Code → Bool) : Event → Option (Option Diagnostic)
  | .report flaw => if kinds flaw.code then some (some flaw) else none
  | event => if event = mark then some none else none

variable {mark : Event} {kinds : Code → Bool}

theorem settlement?_of_kind {flaw : Diagnostic} (h : kinds flaw.code = true) :
    settlement? mark kinds (.report flaw) = some (some flaw) := if_pos h

theorem settlement?_of_otherKind {flaw : Diagnostic} (h : ¬ kinds flaw.code = true) :
    settlement? mark kinds (.report flaw) = none := if_neg h

theorem settlement?_of_mark (hMark : mark.flaw? = none) :
    settlement? mark kinds mark = some none := by
  cases mark with
  | report flaw => cases hMark
  | _ => simp [settlement?]

theorem settlement?_of_other {event : Event} (hEvent : event.flaw? = none) (h : event ≠ mark) :
    settlement? mark kinds event = none := by
  cases event with
  | report flaw => cases hEvent
  | _ => exact if_neg h

theorem eq_report_of_flaw? {event : Event} {flaw : Diagnostic} (h : event.flaw? = some flaw) :
    event = .report flaw := by
  cases event with
  | report flaw' =>
    cases h
    rfl
  | _ => cases h

variable (mark kinds) in
/-- The flaws among the settlements are those of the kinds, and all others are marks. -/
theorem settlements_eq (hMark : mark.flaw? = none) (events : List Event) :
    (events.filterMap (settlement? mark kinds)).filterMap id =
        (events.filterMap Event.flaw?).filter (kinds ·.code) ∧
      (events.filterMap (settlement? mark kinds)).length =
        events.count mark + ((events.filterMap Event.flaw?).filter (kinds ·.code)).length := by
  induction events with
  | nil => exact ⟨rfl, rfl⟩
  | cons event rest ih =>
    obtain ⟨hFlaws, hLength⟩ := ih
    cases hFlaw : event.flaw? with
    | some flaw =>
      -- a report is never the mark, so it settles something by its kind or not at all
      obtain rfl := eq_report_of_flaw? hFlaw
      have hOther : Event.report flaw ≠ mark := by
        rintro rfl
        cases hMark
      rw [List.filterMap_cons_some hFlaw, List.count_cons_of_ne hOther]
      by_cases hKind : kinds flaw.code = true
      · rw [List.filterMap_cons_some (settlement?_of_kind hKind), List.filter_cons, if_pos hKind,
          List.length_cons, List.length_cons, hLength, ← hFlaws]
        exact ⟨rfl, by omega⟩
      · rw [List.filterMap_cons_none (settlement?_of_otherKind hKind), List.filter_cons,
          if_neg hKind]
        exact ⟨hFlaws, hLength⟩
    | none =>
      rw [List.filterMap_cons_none hFlaw]
      by_cases hSame : event = mark
      · subst hSame
        rw [List.filterMap_cons_some (settlement?_of_mark hMark), List.length_cons, hLength,
          List.count_cons_self]
        exact ⟨hFlaws, by omega⟩
      · rw [List.filterMap_cons_none (settlement?_of_other hFlaw hSame),
          List.count_cons_of_ne hSame]
        exact ⟨hFlaws, hLength⟩

/-! ## Properties -/

/-- The kinds of flaws that are reported in place of an entry. -/
def skips (code : Code) : Bool := code == .typelessProperty || code == .nestedComplexProperty

theorem mem_languageFlaws {source name : String} {aliases : List Alias} {event : Event}
    (h : event ∈ aliases.flatMap (languageFlaws source name)) :
    ∃ flaw, event = .report flaw ∧ flaw.code = .unknownLanguage := by
  obtain ⟨a, -, hMem⟩ := List.mem_flatMap.1 h
  rw [languageFlaws] at hMem
  split at hMem
  · cases hMem
  · exact ⟨_, List.mem_singleton.1 hMem, rfl⟩

variable (mark) in
theorem settlements_languageFlaws (hKinds : kinds .unknownLanguage = false)
    (source name : String) (aliases : List Alias) :
    (aliases.flatMap (languageFlaws source name)).filterMap (settlement? mark kinds) = [] := by
  rw [List.filterMap_eq_nil_iff]
  intro event hMem
  obtain ⟨flaw, rfl, hCode⟩ := mem_languageFlaws hMem
  exact settlement?_of_otherKind (by simp [hCode, hKinds])

end Registration

/-- The flaw that is reported in place of the entry of a property. -/
def Occurrence.skip? (o : Occurrence) : Option Diagnostic :=
  match o.property with
  | .typeless l => some (.of (sourceOf o.edition) .typelessProperty
      (l.name ++ " has no property type, skipped"))
  | .complex l _ _ => some (.of (sourceOf o.edition) .nestedComplexProperty
      (l.name ++ " is a complex property inside a complex property, skipped"))
  | .valued _ _ => none

/-- A property has an entry or is reported, but not both. -/
theorem Occurrence.isSome_ofOccurrence?_iff (c : Configuration) (o : Occurrence) :
    (PropertyEntry.ofOccurrence? c o).isSome = true ↔ o.skip? = none := by
  obtain ⟨e, p⟩ := o
  cases p with
  | typeless l => exact ⟨nofun, nofun⟩
  | complex l name properties => exact ⟨nofun, nofun⟩
  | valued l shape => exact ⟨fun _ => rfl, fun _ => rfl⟩

namespace Registration

theorem settlements_propertyEvents (e : Edition) (p : Property) :
    (propertyEvents e p).filterMap (settlement? .entry skips) = [Occurrence.skip? ⟨e, p⟩] := by
  cases p with
  | typeless l => rfl
  | complex l name properties => rfl
  | valued l shape =>
    have hKnown : skips .unknownLanguage = false := rfl
    have hLanguages := settlements_languageFlaws .entry hKnown (sourceOf e) l.name l.aliases
    rw [propertyEvents, List.filterMap_append, List.filterMap_append, hLanguages]
    cases requestOf e shape <;> rfl

/-- What happens for properties settles neither an edition nor a set. -/
theorem settlements_properties_of_outer (hMark : mark = .block ∨ mark = .routine)
    (hKinds : ∀ code, kinds code = true → code = .unknownRevision) (e : Edition)
    (ps : List Property) :
    (ps.flatMap (propertyEvents e)).filterMap (settlement? mark kinds) = [] := by
  have hReport : ∀ flaw : Diagnostic, flaw.code ≠ .unknownRevision →
      settlement? mark kinds (.report flaw) = none := fun flaw hCode =>
    settlement?_of_otherKind fun hKind => hCode (hKinds _ hKind)
  rw [List.filterMap_eq_nil_iff]
  intro event hEvent
  obtain ⟨p, -, hMem⟩ := List.mem_flatMap.1 hEvent
  -- whatever happens for a property is an entry, a request, or a flaw of another kind
  cases p with
  | typeless l =>
    obtain rfl := List.mem_singleton.1 hMem
    exact hReport _ nofun
  | complex l name properties =>
    obtain rfl := List.mem_singleton.1 hMem
    exact hReport _ nofun
  | valued l shape =>
    rcases List.mem_append.1 hMem with hMem | hMem
    · rcases List.mem_append.1 hMem with hMem | hMem
      · obtain ⟨q, -, rfl⟩ := Option.map_eq_some_iff.1 (Option.mem_toList.1 hMem)
        exact settlement?_of_other rfl (by rcases hMark with rfl | rfl <;> simp)
      · obtain ⟨flaw, rfl, hCode⟩ := mem_languageFlaws hMem
        exact hReport flaw (by rw [hCode]; nofun)
    · obtain rfl := List.mem_singleton.1 hMem
      exact settlement?_of_other rfl (by rcases hMark with rfl | rfl <;> simp)

/-! ## Editions and sets -/

/-- The kind of the flaw that is reported in place of a block. -/
def isUnknown (code : Code) : Bool := code == .unknownRevision

/-- The flaw that is reported in place of the block of an edition. -/
def unknownFlaw? (setName : String) (e : Edition) : Option Diagnostic :=
  match revision? e with
  | none => some (.of setName .unknownRevision ("IfcVersion " ++ e.version ++ " in " ++ e.folder ++
      " matches no export revision, definition skipped"))
  | some _ => none

theorem entries_editionEvents (setName : String) (e : Edition) :
    (editionEvents setName e).filterMap (settlement? .entry skips) =
      e.occurrences.map Occurrence.skip? := by
  rw [editionEvents, Edition.occurrences]
  cases revision? e with
  | none => rfl
  | some revision =>
    show ((flattened e.definition).flatMap (propertyEvents e) ++ [Event.block]).filterMap _ =
      ((flattened e.definition).map fun p => ⟨e, p⟩).map Occurrence.skip?
    rw [List.filterMap_append, List.filterMap_flatMap, List.map_map]
    simp only [settlements_propertyEvents]
    rw [List.map_eq_flatMap]
    exact List.append_nil _

theorem blocks_editionEvents (setName : String) (e : Edition) :
    (editionEvents setName e).filterMap (settlement? .block isUnknown) =
      [unknownFlaw? setName e] := by
  have hProperties : ∀ ps : List Property,
      (ps.flatMap (propertyEvents e)).filterMap (settlement? .block isUnknown) = [] :=
    settlements_properties_of_outer (.inl rfl) (fun code h => by simpa [isUnknown] using h) e
  rw [editionEvents, unknownFlaw?]
  cases revision? e with
  | none => rfl
  | some revision =>
    simp only [List.filterMap_append, hProperties]
    rfl

theorem routines_editionEvents (setName : String) (e : Edition) :
    (editionEvents setName e).filterMap (settlement? .routine fun _ => false) = [] := by
  have hProperties : ∀ ps : List Property,
      (ps.flatMap (propertyEvents e)).filterMap (settlement? .routine fun _ => false) = [] :=
    settlements_properties_of_outer (.inr rfl) (fun code h => by simp at h) e
  rw [editionEvents]
  cases revision? e with
  | none => rfl
  | some revision =>
    simp only [List.filterMap_append, hProperties]
    rfl

/-- What is settled in an emission is settled in the editions, or a routine is complete. -/
theorem settlements_emission (hKinds : kinds .subIndexNotFound = false) (c : Configuration)
    (r : Registry) :
    (emission c r).filterMap (settlement? mark kinds) = r.groups.flatMap fun group =>
      (group.2.flatMap fun e => (editionEvents group.1 e).filterMap (settlement? mark kinds)) ++
        [Event.routine].filterMap (settlement? mark kinds) := by
  have hGroup : ∀ group : String × List Edition,
      (groupEvents c group).filterMap (settlement? mark kinds) =
        (group.2.flatMap fun e => (editionEvents group.1 e).filterMap (settlement? mark kinds)) ++
          [Event.routine].filterMap (settlement? mark kinds) := by
    intro group
    rw [groupEvents, List.filterMap_append, List.filterMap_append, List.filterMap_flatMap]
    cases subIndex? c group.1 with
    | some identifier => rfl
    | none =>
      -- the missing sub-element index settles nothing
      rw [List.filterMap_cons_none (settlement?_of_otherKind (by simp [Diagnostic.of, hKinds]))]
      rfl
  rw [emission, List.filterMap_flatMap]
  simp only [hGroup]

/-- Every property that comes up is settled once, in the order in which it does. -/
theorem entries_emission (c : Configuration) (r : Registry) :
    (emission c r).filterMap (settlement? .entry skips) = r.occurrences.map Occurrence.skip? := by
  rw [settlements_emission rfl, Registry.occurrences, Registry.editions, List.flatMap_assoc,
    List.map_flatMap]
  refine List.flatMap_congr fun group _ => ?_
  simp only [entries_editionEvents, List.map_flatMap]
  exact List.append_nil _

/-- Every edition is settled once. -/
theorem blocks_emission (c : Configuration) (r : Registry) :
    (emission c r).filterMap (settlement? .block isUnknown) =
      r.groups.flatMap fun group => group.2.map (unknownFlaw? group.1) := by
  rw [settlements_emission rfl]
  refine List.flatMap_congr fun group _ => ?_
  simp only [blocks_editionEvents, List.map_eq_flatMap]
  exact List.append_nil _

/-- Every set is settled once. -/
theorem routines_emission (c : Configuration) (r : Registry) :
    (emission c r).filterMap (settlement? .routine fun _ => false) =
      r.groups.map fun _ => none := by
  rw [settlements_emission rfl, List.map_eq_flatMap]
  refine List.flatMap_congr fun group _ => ?_
  have hEditions : (group.2.flatMap fun e =>
      (editionEvents group.1 e).filterMap (settlement? .routine fun _ => false)) = [] := by
    rw [List.flatMap_eq_nil_iff]
    intro e _
    exact routines_editionEvents group.1 e
  rw [hEditions]
  rfl

end Registration

/-! ## How many properties a registry holds -/

/-- How many properties can have entries for a property: for a complex one its direct children. -/
def Property.width : Property → Nat
  | .complex _ _ properties => properties.length
  | _ => 1

/-- How many properties the editions with a known revision have. -/
def Registry.propertyCount (r : Registry) : Nat :=
  ((r.editions.filter fun e => (revision? e).isSome).map fun e =>
    (e.definition.properties.map Property.width).sum).sum

theorem length_flattened (d : Definition) :
    (flattened d).length = (d.properties.map Property.width).sum := by
  rw [flattened, List.length_flatMap]
  congr 1
  refine List.map_congr_left fun p _ => ?_
  cases p <;> rfl

theorem length_occurrences (r : Registry) : r.occurrences.length = r.propertyCount := by
  rw [Registry.occurrences, Registry.propertyCount]
  induction r.editions with
  | nil => rfl
  | cons e rest ih =>
    rw [List.flatMap_cons, List.length_append, ih, Edition.occurrences]
    by_cases hKnown : (revision? e).isSome = true
    · rw [List.filter_cons, if_pos hKnown, if_pos hKnown, List.map_cons, List.sum_cons,
        List.length_map, length_flattened]
    · rw [List.filter_cons, if_neg hKnown, if_neg hKnown, List.length_nil, Nat.zero_add]

/-! ## The counts and the flaws of a run -/

theorem length_filter_skips (flaws : Diagnostics) :
    (flaws.withCode .typelessProperty).length + (flaws.withCode .nestedComplexProperty).length =
      (flaws.filter (skips ·.code)).length := by
  induction flaws with
  | nil => rfl
  | cons flaw rest ih =>
    rw [Diagnostics.withCode, Diagnostics.withCode] at ih ⊢
    rw [List.filter_cons, List.filter_cons, List.filter_cons, skips]
    by_cases hTypeless : flaw.code = .typelessProperty
    · simp [hTypeless]
      omega
    · by_cases hNested : flaw.code = .nestedComplexProperty
      · simp [hNested]
        omega
      · simpa [hTypeless, hNested] using ih

/-- What comes up either has an entry or is skipped. -/
theorem length_entries_add_skips (c : Configuration) (os : List Occurrence) :
    (os.filterMap (PropertyEntry.ofOccurrence? c)).length +
      (os.filterMap Occurrence.skip?).length = os.length := by
  induction os with
  | nil => rfl
  | cons o rest ih =>
    -- one of the two lists takes the occurrence, and not the other
    have hEither := o.isSome_ofOccurrence?_iff c
    cases hEntry : PropertyEntry.ofOccurrence? c o with
    | none =>
      obtain ⟨flaw, hSkip⟩ : ∃ flaw, o.skip? = some flaw := by
        rw [hEntry] at hEither
        exact Option.ne_none_iff_exists'.1 fun hNone => absurd (hEither.2 hNone) (by simp)
      rw [List.filterMap_cons_none hEntry, List.filterMap_cons_some hSkip, List.length_cons,
        List.length_cons]
      omega
    | some entry =>
      have hKept : o.skip? = none := hEither.1 (by rw [hEntry]; rfl)
      rw [List.filterMap_cons_some hEntry, List.filterMap_cons_none hKept, List.length_cons,
        List.length_cons]
      omega

theorem Course.tallied {c : Configuration} {r : Registry} {t t' : FileTree} {report : Report}
    (course : Course c r t report t') :
    report.counts = tally (emission c r) ∧
      ∀ kinds : Code → Bool, kinds .conflictingEnumDefinition = false →
        kinds .discriminantCollision = false →
        report.flaws.filter (kinds ·.code) =
          ((emission c r).filterMap Event.flaw?).filter (kinds ·.code) := by
  have hTallied := tallied_of_emit course.emits
  rw [course.report_eq]
  exact ⟨hTallied.counts, hTallied.flaws⟩

/-- **Conservation.** Let a run succeed, on any tree. Then

1. there is a routine for each set;
2. each definition has a block or is reported for its unknown revision;
3. each property of a definition with a known revision, complex ones being replaced by their direct
   children, has an entry or is reported as typeless or nested too deep;
4. the entries counted are those of the module that was written, and both they and the flaws of the
   properties come from the properties one by one, in the order in which these come up, each
   property having either an entry or a flaw. -/
theorem generate_conserves {c : Configuration} {r : Registry} {t t' : FileTree} {report : Report}
    (hRun : (generate c r : ExceptT Failure (StateM FileTree) Report).run t = (.ok report, t')) :
    report.counts.routines = r.names.length ∧
    report.counts.blocks + (report.flaws.withCode .unknownRevision).length = r.definitionCount ∧
    report.counts.entries + (report.flaws.withCode .typelessProperty).length +
      (report.flaws.withCode .nestedComplexProperty).length = r.propertyCount ∧
    (⟨.registration, c.outputIn t, .ofBytes (Module.ofRegistry c r).render.toUTF8⟩ ∈
        report.artifacts ∧
      report.counts.entries = (Module.ofRegistry c r).entries.length ∧
      (Module.ofRegistry c r).entries = r.occurrences.filterMap (PropertyEntry.ofOccurrence? c) ∧
      report.flaws.filter (skips ·.code) = r.occurrences.filterMap Occurrence.skip? ∧
      ∀ o ∈ r.occurrences, ((PropertyEntry.ofOccurrence? c o).isSome = true ↔ o.skip? = none)) := by
  obtain ⟨course⟩ := exists_course hRun
  obtain ⟨hCounts, hFlaws⟩ := course.tallied
  -- one routine event for each set
  have hSets : r.names.length = (emission c r).count .routine := by
    obtain ⟨-, hSettled⟩ := settlements_eq .routine (fun _ => false) rfl (emission c r)
    rw [routines_emission] at hSettled
    simpa [Registry.names] using hSettled
  -- for each definition a block or a flaw
  have hDefinitions : (emission c r).count .block +
      (report.flaws.withCode .unknownRevision).length = r.definitionCount := by
    obtain ⟨-, hSettled⟩ := settlements_eq .block isUnknown rfl (emission c r)
    rw [blocks_emission, ← hFlaws isUnknown rfl rfl, List.length_flatMap] at hSettled
    rw [Registry.definitionCount, List.length_flatMap]
    simp only [List.length_map] at hSettled
    exact hSettled.symm
  obtain ⟨hFlawed, hSettled⟩ := settlements_eq .entry skips rfl (emission c r)
  rw [entries_emission, ← hFlaws skips rfl rfl] at hFlawed hSettled
  have hSkipped : report.flaws.filter (skips ·.code) =
      r.occurrences.filterMap Occurrence.skip? := by
    rw [← hFlawed, List.filterMap_map]
    rfl
  -- for each property an entry or a flaw
  have hProperties : (emission c r).count .entry + (report.flaws.filter (skips ·.code)).length =
      r.occurrences.length := by
    rw [← hSettled, List.length_map]
  -- the module has an entry for each property that is not skipped, which are as many
  have hModule : report.counts.entries = (Module.ofRegistry c r).entries.length := by
    have hEach := length_entries_add_skips c r.occurrences
    rw [← hSkipped, ← entries_ofRegistry] at hEach
    rw [hCounts]
    show (emission c r).count .entry = _
    omega
  have hWritten : ⟨.registration, c.outputIn t, .ofBytes (Module.ofRegistry c r).render.toUTF8⟩ ∈
      report.artifacts := by
    rw [course.report_eq, ← course.registered_eq]
    exact List.mem_append_left _ List.mem_cons_self
  refine ⟨?_, ?_, ?_, hWritten, hModule, entries_ofRegistry c r, hSkipped,
    fun o _ => o.isSome_ofOccurrence?_iff c⟩
  · rw [hCounts, hSets]
    rfl
  · rw [hCounts]
    exact hDefinitions
  · rw [hCounts, Nat.add_assoc, length_filter_skips, ← length_occurrences]
    exact hProperties

/-- A set with an edition of unknown revision, and one with typeless and complex properties at the
top and below. -/
def mixedRegistry : Registry :=
  .ofList [
    ⟨"OLD", "Pset_Mixed", "IFC1", none, [], [.typeless ⟨"Unseen", none, []⟩]⟩,
    ⟨"IFC2X2", "Pset_Mixed", "IFC2X2", none, [],
      [.typeless ⟨"Open", none, []⟩,
      .complex ⟨"Outer", none, []⟩ "C"
        [.typeless ⟨"OpenBelow", none, []⟩,
        .complex ⟨"Inner", none, []⟩ "C" [.valued ⟨"Deep", none, []⟩ (.single "IfcLabel")],
        .valued ⟨"Below", none, []⟩ (.single "IfcLabel")],
      .valued ⟨"Plain", none, []⟩ (.single "IfcLabel")]⟩]

/-- Of the five properties that come up two have entries, and the other three are reported. -/
theorem mixedRegistry_conserves :
    ∃ report t', (generate {} mixedRegistry : ExceptT Failure (StateM FileTree) Report).run
        emptyProject = (.ok report, t') ∧
      report.counts.routines = 1 ∧
      report.counts.blocks + (report.flaws.withCode .unknownRevision).length = 2 ∧
      report.counts.entries + (report.flaws.withCode .typelessProperty).length +
        (report.flaws.withCode .nestedComplexProperty).length = 5 ∧
      report.counts.entries = 2 ∧ (report.flaws.filter (skips ·.code)).length = 3 := by
  -- nothing is filed, so there is no file that could fail
  have hFits : ∀ tag ∈ mixedRegistry.filedTags,
      FitsName besideExporter.directory (besideExporter.fileName tag) := by decide
  obtain ⟨report, t', hRun⟩ := exists_run_emptyProject hFits (by decide)
  obtain ⟨hSets, hEditions, hProperties, -, hEntries, hModule, hSkipped, -⟩ :=
    generate_conserves hRun
  have hCount : mixedRegistry.propertyCount = 5 := by decide
  have hListed :
      (mixedRegistry.occurrences.filterMap (PropertyEntry.ofOccurrence? {})).length = 2 := by
    decide
  have hLeftOut : (mixedRegistry.occurrences.filterMap Occurrence.skip?).length = 3 := by
    decide
  refine ⟨report, t', hRun, hSets, hEditions, hProperties.trans hCount, ?_, ?_⟩
  · rw [hEntries, hModule, hListed]
  · rw [hSkipped, hLeftOut]

end PropertySets
