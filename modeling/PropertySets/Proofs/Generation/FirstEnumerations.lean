import Mathlib.Data.List.Induction
import PropertySets.Proofs.Enumeration.Contents

/-!
# Which enumeration of a key is written

The same enumeration comes up in many sets, versions and properties, and only one of its
definitions is written: the first one in the order in which a module is emitted. That order runs
over the sets by name, over the editions of a set with a known revision, and over their properties
with complex ones replaced by their direct children. An enumeration that does not come up in it is
never written, and never keeps another one from being written.

* `Occurrence.FilesUnder` — an enumerated property that can be filed under a key.
* `Registry.FirstUnder` — the first such property, which is unique (`FirstUnder.unique`).
* `generate_writes_first` — the enumeration files of a run on any tree.
-/

namespace PropertySets

open Enumeration FileTree Registration

/-! ## The first enumeration under a key -/

/-- The property is enumerated, and it can be filed under the key with these items. -/
structure Occurrence.FilesUnder (o : Occurrence) (k : Key) (items : List EnumItem) : Prop where
  enumerated : ∃ label, o.property = .valued label (.enumerated k.name items)
  version_ne_empty : o.edition.version ≠ ""
  name_ne_empty : k.name ≠ ""
  items_ne_nil : items ≠ []
  tag : enumerationTag o.edition.version o.edition.folder = k.tag

/-- The first property that can be filed under the key: it belongs to an edition with a known
revision, it is one of the edition's properties or a direct child of one, and no property that comes
up before it can be filed under the key. -/
structure Registry.FirstUnder (r : Registry) (k : Key) (items : List EnumItem)
    (o : Occurrence) : Prop where
  files : o.FilesUnder k items
  edition : o.edition ∈ r.editions
  known : (revision? o.edition).isSome = true
  property : o.property ∈ flattened o.edition.definition
  first : ∃ before after, r.occurrences = before ++ o :: after ∧
    ∀ o' ∈ before, ∀ items', ¬ o'.FilesUnder k items'

theorem Occurrence.filesUnder_iff {o : Occurrence} {k : Key} {items : List EnumItem} :
    o.FilesUnder k items ↔ ∃ q, o.request? = some q ∧ q.key? = some k ∧ q.items = items := by
  constructor
  · rintro ⟨⟨label, hProperty⟩, hVersion, hName, hItems, hTag⟩
    refine ⟨⟨o.edition.version, o.edition.folder, k.name, items, sourceOf o.edition⟩, ?_, ?_, rfl⟩
    · rw [request?, hProperty]
      rfl
    · simp [Request.key?, Request.filingTag?, hVersion, hName, hItems, hTag]
  · rintro ⟨q, hRequest, hKey, rfl⟩
    obtain ⟨label, name, items, hProperty, rfl⟩ := Occurrence.exists_of_request? hRequest
    obtain ⟨tag, hFiled, rfl⟩ := Option.map_eq_some_iff.1 hKey
    simp only [Request.filingTag?, Option.ite_none_left_eq_some, Bool.or_eq_true,
      String.isEmpty_iff, List.isEmpty_iff, not_or, Option.some.injEq] at hFiled
    obtain ⟨⟨⟨hVersion, hName⟩, hItems⟩, hTag⟩ := hFiled
    exact ⟨⟨label, hProperty⟩, hVersion, hName, hItems, hTag⟩

/-- Only one enumeration is the first under a key. -/
theorem Registry.FirstUnder.unique {r : Registry} {k : Key} {items items' : List EnumItem}
    {o o' : Occurrence} (h : r.FirstUnder k items o) (h' : r.FirstUnder k items' o') :
    o = o' ∧ items = items' := by
  obtain ⟨before, after, hSplit, hBefore⟩ := h.first
  obtain ⟨before', after', hSplit', hBefore'⟩ := h'.first
  -- if they were not at one place, the earlier one would stand before the later one
  have hSame : o = o' := by
    rw [hSplit] at hSplit'
    rcases List.append_eq_append_iff.1 hSplit' with ⟨more, rfl, hRest⟩ | ⟨more, rfl, hRest⟩
    · cases more with
      | nil => simpa using (List.cons.inj hRest).1
      | cons first others =>
        obtain ⟨rfl, -⟩ := List.cons.inj hRest
        exact absurd h.files (hBefore' o (by simp) items)
    · cases more with
      | nil => simpa using (List.cons.inj hRest).1.symm
      | cons first others =>
        obtain ⟨rfl, -⟩ := List.cons.inj hRest
        exact absurd h'.files (hBefore o' (by simp) items')
  subst hSame
  obtain ⟨label, hProperty⟩ := h.files.enumerated
  obtain ⟨label', hProperty'⟩ := h'.files.enumerated
  rw [hProperty] at hProperty'
  cases hProperty'
  exact ⟨rfl, rfl⟩

/-! ## What the requests of a registry file first -/

/-- A key of a registry is filed with the items of the first property under it. -/
theorem exists_firstUnder {r : Registry} {k : Key} (hKey : k ∈ keysOf r.requests) :
    ∃ items o, r.FirstUnder k items o ∧
      firstLiterals? r.requests k =
        some (items.map fun item => Naming.sanitizeLiteral item.literal) := by
  cases hFirst : firstLiterals? r.requests k with
  | none => exact absurd hKey (firstLiterals?_eq_none_iff.1 hFirst)
  | some literals =>
    obtain ⟨q, hFind, rfl⟩ := Option.map_eq_some_iff.1 hFirst
    -- the first request under the key comes from the first occurrence with such a request
    rw [requests_eq_filterMap_occurrences, List.find?_filterMap] at hFind
    obtain ⟨o, hFound, hRequest⟩ := Option.bind_eq_some_iff.1 hFind
    obtain ⟨hFiled, before, after, hSplit, hBefore⟩ := List.find?_eq_some_iff_append.1 hFound
    rw [hRequest] at hFiled
    have hUnder : o.FilesUnder k q.items :=
      Occurrence.filesUnder_iff.2 ⟨q, hRequest, by simpa using hFiled, rfl⟩
    have hMem : o ∈ r.occurrences := by
      rw [hSplit]
      simp
    obtain ⟨hEdition, hKnown, hProperty⟩ := Registry.mem_occurrences.1 hMem
    refine ⟨q.items, o, ⟨hUnder, hEdition, hKnown, hProperty, before, after, hSplit, ?_⟩, rfl⟩
    intro o' hEarlier items' hUnder'
    obtain ⟨q', hRequest', hKey', -⟩ := Occurrence.filesUnder_iff.1 hUnder'
    have hPassed := hBefore o' hEarlier
    rw [hRequest'] at hPassed
    simp [hKey'] at hPassed

/-- Every key comes once. -/
theorem nodup_keysOf (qs : List Request) : (keysOf qs).Nodup := by
  induction qs using List.reverseRecOn with
  | nil => exact .nil
  | append_singleton qs q ih =>
    by_cases hKnown : ∀ k, q.key? = some k → k ∈ keysOf qs
    · rwa [keysOf_concat_of_known hKnown]
    · obtain ⟨k, hKey, hNew⟩ : ∃ k, q.key? = some k ∧ k ∉ keysOf qs := by simpa using hKnown
      rw [keysOf_concat_of_new hKey hNew]
      exact ih.append (List.nodup_singleton k) (by simpa using hNew)

/-- The text of an enumeration that is written for a name and the items under it. -/
def bodyText (body : String × List EnumItem) : String :=
  enumerationText body.1
    (assign (body.2.map fun item => Naming.sanitizeLiteral item.literal)).declarations

/-- Each key of a list has its enumeration, with the items of the first property under it. -/
theorem exists_bodies_of_keys {r : Registry} {tag : String} {ks : List Key}
    (hKeys : ∀ k ∈ ks, k ∈ keysOf r.requests ∧ k.tag = tag) :
    ∃ bodies : List (String × List EnumItem), ks.map (keyText r.requests) = bodies.map bodyText ∧
      bodies.map (·.1) = ks.map (·.name) ∧
      ∀ body ∈ bodies, ∃ o, r.FirstUnder ⟨tag, body.1⟩ body.2 o := by
  induction ks with
  | nil => exact ⟨[], rfl, rfl, nofun⟩
  | cons k rest ih =>
    obtain ⟨bodies, hTexts, hNames, hFirst⟩ :=
      ih fun k' hMem => hKeys k' (List.mem_cons_of_mem _ hMem)
    obtain ⟨hKey, rfl⟩ := hKeys k List.mem_cons_self
    -- the literals that came first under a key are those of the first property under it
    obtain ⟨items, o, hUnder, hLiterals⟩ := exists_firstUnder hKey
    refine ⟨(k.name, items) :: bodies, ?_, ?_, fun body hMem => ?_⟩
    · rw [List.map_cons, List.map_cons, hTexts, keyText, hLiterals]
      rfl
    · rw [List.map_cons, List.map_cons, hNames]
    · rcases List.mem_cons.1 hMem with rfl | hMem
      · exact ⟨o, hUnder⟩
      · exact hFirst body hMem

/-- The file of a tag holds one enumeration for each of its keys, with the items of the first
property under the key. -/
theorem exists_bodies (r : Registry) (tag : String) :
    ∃ bodies : List (String × List EnumItem),
      fileText r.requests tag =
        sheetHead tag ++ String.join (bodies.map bodyText) ++ "\x7d\n" ∧
      (bodies.map (·.1)).Nodup ∧ (∀ body ∈ bodies, ∃ o, r.FirstUnder ⟨tag, body.1⟩ body.2 o) ∧
      ∀ k ∈ keysOf r.requests, k.tag = tag → k.name ∈ bodies.map (·.1) := by
  have hOfTag : ∀ k ∈ (keysOf r.requests).filter (·.tag = tag),
      k ∈ keysOf r.requests ∧ k.tag = tag := by
    intro k hMem
    simpa using List.mem_filter.1 hMem
  obtain ⟨bodies, hTexts, hNames, hFirst⟩ := exists_bodies_of_keys hOfTag
  refine ⟨bodies, ?_, ?_, hFirst, fun k hMem hTag => ?_⟩
  · rw [fileText, openText, hTexts]
  · -- keys of one tag differ in their names
    rw [hNames]
    refine List.Nodup.map_on (fun k hMem k' hMem' hSame => ?_) ((nodup_keysOf _).filter _)
    obtain ⟨-, hTag⟩ := hOfTag k hMem
    obtain ⟨-, hTag'⟩ := hOfTag k' hMem'
    cases k
    cases k'
    simp_all
  · rw [hNames]
    exact List.mem_map_of_mem (List.mem_filter.2 ⟨hMem, by simpa using hTag⟩)

/-! ## The files of a run -/

/-- **Which enumerations are written.** Let a run succeed, on any tree. Every enumeration file that
it reports holds the module of a tag in which each name stands once, with the items of the first
property under the tag and the name; only if its path leads to the output does it hold the
registration module instead. -/
theorem generate_writes_first {c : Configuration} {r : Registry} {t t' : FileTree}
    {report : Report}
    (hRun : (generate c r : ExceptT Failure (StateM FileTree) Report).run t = (.ok report, t')) :
    ∀ a ∈ report.artifacts, a.kind = .enumeration →
      ∃ content, t'.read a.path = .ok content ∧ a.checksum = .ofBytes content ∧
        ((∃ tag, ∃ bodies : List (String × List EnumItem),
          content =
            (sheetHead tag ++ String.join (bodies.map bodyText) ++ "\x7d\n").toUTF8 ∧
          (bodies.map (·.1)).Nodup ∧
          ∀ body ∈ bodies, ∃ o, r.FirstUnder ⟨tag, body.1⟩ body.2 o) ∨
        content = (Module.ofRegistry c r).render.toUTF8) := by
  intro a hArtifact hKind
  obtain ⟨course⟩ := exists_course hRun
  obtain ⟨hPath, content, hRead, hSame⟩ :=
    course.readEnums.ofArtifact a (course.mem_enums hArtifact hKind)
  -- the path of the artifact is that of a sheet, which was read back there
  obtain ⟨s, hSheet, hPath⟩ := List.mem_map.1 hPath
  rw [← hPath] at hRead
  refine ⟨content, by rwa [← hPath], by rw [hSame], ?_⟩
  refine (course.read_of_mem hSheet hRead).imp_left ?_
  rintro ⟨tag, rfl⟩
  obtain ⟨bodies, hText, hNodup, hFirst, -⟩ := exists_bodies r tag
  exact ⟨tag, bodies, by rw [hText], hNodup, hFirst⟩

/-! ## A key that comes up again and again -/

/-- A property that is an enumeration `E` of one literal. -/
def enumerationOf (literal : String) : Property :=
  .valued ⟨"P", none, []⟩ (.enumerated "E" [⟨literal, []⟩])

/-- A registry in which `E` comes up under one tag in two sets, in an edition without a known
revision, and in complex properties one and two levels deep. -/
def recurringRegistry : Registry :=
  .ofList [
    ⟨"IFC4_ADD1", "Pset_B", "X", none, [], [enumerationOf "LATE"]⟩,
    ⟨"X", "Pset_A", "IFC4", none, [], [enumerationOf "UNKNOWN"]⟩,
    ⟨"IFC4_ADD1", "Pset_A", "X", none, [],
      [.complex ⟨"Outer", none, []⟩ "C"
        [.complex ⟨"Inner", none, []⟩ "C" [enumerationOf "DEEP"], enumerationOf "FIRST"],
      enumerationOf "NEXT"]⟩]

/-- The edition of `Pset_A` with a known revision. -/
def recurringEdition : Edition :=
  ⟨"IFC4_ADD1", "Pset_A", "X", none, [],
    [.complex ⟨"Outer", none, []⟩ "C"
      [.complex ⟨"Inner", none, []⟩ "C" [enumerationOf "DEEP"], enumerationOf "FIRST"],
    enumerationOf "NEXT"]⟩

theorem firstUnder_recurringRegistry :
    recurringRegistry.FirstUnder ⟨"X", "E"⟩ [⟨"FIRST", []⟩]
      ⟨recurringEdition, enumerationOf "FIRST"⟩ where
  files := ⟨⟨_, rfl⟩, by decide, by decide, by simp, by decide⟩
  edition := by
    have hEditions : recurringRegistry.editions = [_, recurringEdition, _] := rfl
    rw [hEditions]
    simp
  known := by decide
  property := by simp [recurringEdition, flattened]
  first := by
    let inner : Property := .complex ⟨"Inner", none, []⟩ "C" [enumerationOf "DEEP"]
    -- only the complex property stands before it in the flattened list
    refine ⟨[⟨recurringEdition, inner⟩], _, rfl, ?_⟩
    -- and that one is no enumeration
    intro o hMem items hUnder
    obtain ⟨label, hProperty⟩ := hUnder.enumerated
    rw [List.mem_singleton.1 hMem] at hProperty
    cases hProperty

theorem exists_run_recurringRegistry :
    ∃ report t', (generate {} recurringRegistry : ExceptT Failure (StateM FileTree) Report).run
      emptyProject = (.ok report, t') :=
  exists_run_emptyProject (by decide) (by decide)

/-- The run of the registry succeeds, and wherever it writes `E` under its tag the literal is that
of the first property. -/
theorem recurringRegistry_writes_first :
    ∃ report t', (generate {} recurringRegistry : ExceptT Failure (StateM FileTree) Report).run
        emptyProject = (.ok report, t') ∧
      (∃ a ∈ report.artifacts, a.kind = .enumeration) ∧
      ∀ a ∈ report.artifacts, a.kind = .enumeration →
        ∃ content, t'.read a.path = .ok content ∧
          ((∃ tag, ∃ bodies : List (String × List EnumItem),
            content =
              (sheetHead tag ++ String.join (bodies.map bodyText) ++ "\x7d\n").toUTF8 ∧
            ∀ body ∈ bodies, tag = "X" → body.1 = "E" → body.2 = [⟨"FIRST", []⟩]) ∨
          content = (Module.ofRegistry {} recurringRegistry).render.toUTF8) := by
  obtain ⟨report, t', hRun⟩ := exists_run_recurringRegistry
  have hKey : (⟨"X", "E"⟩ : Key) ∈ keysOf recurringRegistry.requests := by decide
  obtain ⟨course⟩ := exists_course hRun
  obtain ⟨s, hSheet, -⟩ := Reconciler.hasSheet_eq_true_iff.1 (course.tracked.covered _ hKey)
  obtain ⟨a, hThere, hEnum, -⟩ := course.exists_artifact (List.mem_map_of_mem hSheet)
  refine ⟨report, t', hRun, ⟨a, hThere, hEnum⟩, fun a hArtifact hKind => ?_⟩
  obtain ⟨content, hRead, -, hContent⟩ := generate_writes_first hRun a hArtifact hKind
  refine ⟨content, hRead, hContent.imp_left ?_⟩
  rintro ⟨tag, bodies, hText, -, hFirst⟩
  -- there is one first property under the key, which is `FIRST`
  refine ⟨tag, bodies, hText, fun body hMem hTag hName => ?_⟩
  obtain ⟨o, hUnder⟩ := hFirst body hMem
  rw [hTag, hName] at hUnder
  exact (hUnder.unique firstUnder_recurringRegistry).2

end PropertySets
