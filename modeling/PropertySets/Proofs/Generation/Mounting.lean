import Mathlib.Data.List.Sort
import PropertySets.Proofs.Enumeration.Records
import PropertySets.Proofs.Generation.References
import PropertySets.Proofs.Naming.TagModules

/-!
# Enumeration files mounted side by side

All enumeration files of a run are mounted in one module. Each of them is a module of its own, named
after the tag, and an entry refers to an enumeration by the name of that module. Files and keys go
by the exact tags, modules by a spelling that different tags can share. So references are
unambiguous exactly if no two tags of the run are spelled alike.

* `Course.accounted`, `Course.exists_tags` — the enumeration files that a run on any tree reports.
* `declarations` — what the enumeration files declare when they are mounted.
* `tag_modules_apart` — when the modules are different, and what the references then name.
* `alike_tags_share_module` — two documents whose tags have one module.
-/

namespace PropertySets

open Enumeration FileTree Registration

variable {c : Configuration} {r : Registry} {t t' : FileTree} {report : Report} {d : Location}

/-! ## The files that are reported -/

namespace Course

/-- At the end of its emission a run holds what its requests come to, and none of their keys is
lost. -/
theorem accounted (course : Course c r t report t') :
    Accounted course.reconciler ⟨r.requests, []⟩ course.emitted.reconciler := by
  rw [← requests_emission c r]
  have hStart : Accounted course.reconciler ⟨[], []⟩ (Emitted.start course.reconciler).reconciler :=
    .ofBeside course.beside
  -- only an enumeration is a call to the reconciler, and each was answered
  refine emit_preserves
    (fun done s _ => Accounted course.reconciler ⟨done.filterMap Event.request?, []⟩ s.reconciler)
    hStart ?_ course.emits
  intro done event s t s₁ t₁ hCarried hHere
  rw [List.filterMap_append]
  cases hCarried with
  | report | entry | block | routine =>
    show Accounted course.reconciler ⟨done.filterMap Event.request? ++ [], []⟩ s.reconciler
    rwa [List.append_nil]
  | @enumeration q _ _ _ outcome _ hAnswers hOk =>
    have hNext := hHere.call (reconciled_of_run hAnswers)
    rwa [Record.add_of_kept _ (c := (q, outcome)) hOk fun _ _ => List.not_mem_nil] at hNext

/-- The enumeration files of the report are those of the sheets. -/
theorem enumPaths_eq (course : Course c r t report t') :
    report.enumPaths = course.emitted.reconciler.sheets.map (·.path) := by
  have hEnums : course.enums.filter (·.kind == .enumeration) = course.enums := by
    refine List.filter_eq_self.2 fun a hMem => ?_
    obtain ⟨-, content, -, hSame⟩ := course.readEnums.ofArtifact a hMem
    rw [hSame]
    rfl
  have hDumps : course.dumps.filter (·.kind == .enumeration) = [] := by
    refine List.filter_eq_nil_iff.2 fun a hMem => ?_
    obtain ⟨-, content, -, hSame⟩ := course.readDumps.ofArtifact a hMem
    rw [hSame]
    exact Bool.false_ne_true
  refine (congrArg Report.enumPaths course.report_eq).trans ?_
  rw [Report.enumPaths, List.filter_append, List.filter_cons_of_neg Bool.false_ne_true, hEnums,
    hDumps, List.append_nil, course.readEnums.listed]

/-- There is one file for each tag that something is filed under, in ascending order of the
tags. -/
theorem exists_tags (course : Course c r t report t') :
    ∃ tags : List String, tags.Pairwise (· < ·) ∧ (∀ tag, tag ∈ tags ↔ tag ∈ r.filedTags) ∧
      report.enumPaths = tags.map course.reconciler.pathFor := by
  have hAccounted := course.accounted
  refine ⟨course.emitted.reconciler.sheets.map (·.tag),
    List.pairwise_map.2 hAccounted.shelf.ascending, fun tag => ?_, ?_⟩
  · -- a sheet is open for a tag exactly if there is a key under it
    rw [List.mem_map, ← Reconciler.hasSheet_eq_true_iff, hAccounted.covered, mem_filedTags,
      exists_mem_keysOf_iff]
  · rw [course.enumPaths_eq, List.map_map]
    exact List.map_congr_left hAccounted.shelf.path

end Course

/-! ## What the files declare -/

/-- The enumerations that the files of tags declare when they are mounted in a module, as
references name them. -/
def declarations (enumModule : String) (tags : List String)
    (bodies : String → List (String × List EnumItem)) : List EnumReference :=
  tags.flatMap fun tag =>
    (bodies tag).map fun body => ⟨enumModule, Naming.versionModule tag, body.1⟩

theorem mem_declarations {enumModule : String} {tags : List String}
    {bodies : String → List (String × List EnumItem)} {tag name : String} (hTag : tag ∈ tags)
    (hName : name ∈ (bodies tag).map (·.1)) :
    ⟨enumModule, Naming.versionModule tag, name⟩ ∈ declarations enumModule tags bodies := by
  obtain ⟨body, hBody, rfl⟩ := List.mem_map.1 hName
  exact List.mem_flatMap.2 ⟨tag, hTag, List.mem_map.2 ⟨body, hBody, rfl⟩⟩

/-- If the modules are different, nothing is declared twice. -/
theorem nodup_declarations {enumModule : String} {tags : List String}
    {bodies : String → List (String × List EnumItem)}
    (hModules : (tags.map Naming.versionModule).Nodup)
    (hBodies : ∀ tag ∈ tags, ((bodies tag).map (·.1)).Nodup) :
    (declarations enumModule tags bodies).Nodup := by
  rw [declarations, List.nodup_flatMap]
  constructor
  · intro tag hTag
    have hNames : (bodies tag).map (fun body =>
        (⟨enumModule, Naming.versionModule tag, body.1⟩ : EnumReference)) =
        ((bodies tag).map (·.1)).map fun name => ⟨enumModule, Naming.versionModule tag, name⟩ := by
      rw [List.map_map]
      rfl
    rw [hNames]
    refine (hBodies tag hTag).map fun name name' hSame => ?_
    exact congrArg EnumReference.name hSame
  · -- what two files declare differs in the module
    refine (List.pairwise_map.1 hModules).imp fun {tag tag'} hModule => ?_
    rintro reference hHere hThere
    obtain ⟨body, -, rfl⟩ := List.mem_map.1 hHere
    obtain ⟨body', -, hSame⟩ := List.mem_map.1 hThere
    exact hModule (congrArg EnumReference.tagModule hSame).symm

/-- **Modules of tags.** Let a run succeed, on any tree. Then

1. it reports one enumeration file for each tag that something is filed under, in ascending order;
2. the modules of these files have different names exactly if no two of the tags are spelled alike;
3. if they are, the output lies in a fresh directory, and the stem of the output can stand before
   the tags, then the file of each tag is its module, nothing is declared twice in all the files
   mounted together, and every reference of an entry is among what is declared: it names exactly one
   enumeration. -/
theorem tag_modules_apart
    (hRun : (generate c r : ExceptT Failure (StateM FileTree) Report).run t = (.ok report, t')) :
    ∃ (r₀ : Reconciler Handle) (tags : List String),
      Reconciler.beside (c.outputIn t) = .ok r₀ ∧
      tags.Pairwise (· < ·) ∧ (∀ tag, tag ∈ tags ↔ tag ∈ r.filedTags) ∧
      report.enumPaths = tags.map r₀.pathFor ∧
      ((tags.map Naming.versionModule).Nodup ↔ tags.Pairwise fun a b => ¬ Naming.Alike a b) ∧
      (FreshWhenMade c t d → (∀ tag ∈ tags, r₀.TagSafe tag) →
        (tags.Pairwise fun a b => ¬ Naming.Alike a b) →
        ∃ bodies : String → List (String × List EnumItem),
          (∀ tag ∈ tags, t'.read (r₀.pathFor tag) =
            .ok (sheetHead tag ++ String.join ((bodies tag).map bodyText) ++ "\x7d\n").toUTF8) ∧
          (declarations c.output.enumModule tags bodies).Nodup ∧
          ∀ entry ∈ (Module.ofRegistry c r).entries, ∀ reference,
            entry.enumeration = some reference →
              reference ∈ declarations c.output.enumModule tags bodies) := by
  obtain ⟨course⟩ := exists_course hRun
  obtain ⟨tags, hAscending, hTags, hPaths⟩ := course.exists_tags
  have hModules : (tags.map Naming.versionModule).Nodup ↔
      tags.Pairwise fun a b => ¬ Naming.Alike a b := by
    rw [List.Nodup, List.pairwise_map]
    simp only [Ne, Naming.versionModule_eq_iff]
  refine ⟨course.reconciler, tags, course.beside, hAscending, hTags, hPaths, hModules, ?_⟩
  intro hFresh hSafe hApart
  have hReadied := hFresh course.directory course.readied course.parent course.makes
  have hSafe' : ∀ tag ∈ r.filedTags, course.reconciler.TagSafe tag := fun tag hFiled =>
    hSafe tag ((hTags tag).2 hFiled)
  -- the text of each tag, taken apart into its enumerations
  choose bodies hText hNodup _ hNamed using exists_bodies r
  refine ⟨bodies, fun tag hTag => ?_,
    nodup_declarations (hModules.2 hApart) fun tag _ => hNodup tag,
    fun entry hEntry reference hReference => ?_⟩
  · obtain ⟨q, hMem, hFiled⟩ := mem_filedTags.1 ((hTags tag).1 hTag)
    -- a tag that something is filed under has a key, so its file was written and kept
    have hKey : (⟨tag, q.name⟩ : Key) ∈ keysOf r.requests := key_mem_keysOf hMem hFiled
    rw [← hText]
    exact (course.read_of_key hReadied hSafe' hKey).2
  · -- a reference names the key of a request, which is declared in the file of its tag
    obtain ⟨k, hKey, rfl⟩ := exists_key_of_reference hEntry hReference
    have hFiled := mem_filedTags.2 (exists_filed_of_mem_keysOf hKey)
    exact mem_declarations ((hTags k.tag).2 hFiled) (hNamed _ _ hKey rfl)

/-- A registry with two sets, whose enumerations are filed under published tags. -/
def publishedRegistry : Registry :=
  .ofList [twinEdition "Pset_A" "IFC2X2" "ONE", twinEdition "Pset_B" "IFC4" "TWO"]

theorem filedTags_publishedRegistry :
    publishedRegistry.filedTags = ["IFC2X2", "IFC4_ADD1"] := by decide

theorem exists_run_publishedRegistry :
    ∃ report t', (generate {} publishedRegistry : ExceptT Failure (StateM FileTree) Report).run
      emptyProject = (.ok report, t') :=
  exists_run_emptyProject (by decide) (by decide)

/-- Two files are mounted side by side, and both references are unambiguous. -/
theorem publishedRegistry_mounted :
    ∃ report t' bodies, (generate {} publishedRegistry :
        ExceptT Failure (StateM FileTree) Report).run emptyProject = (.ok report, t') ∧
      report.enumPaths = ["IFC2X2", "IFC4_ADD1"].map besideExporter.pathFor ∧
      (declarations "crate::exporter::property_set" ["IFC2X2", "IFC4_ADD1"] bodies).Nodup ∧
      ⟨"crate::exporter::property_set", "ifc2x2", "E"⟩ ∈
        declarations "crate::exporter::property_set" ["IFC2X2", "IFC4_ADD1"] bodies ∧
      ⟨"crate::exporter::property_set", "ifc4_add1", "E"⟩ ∈
        declarations "crate::exporter::property_set" ["IFC2X2", "IFC4_ADD1"] bodies := by
  obtain ⟨report, t', hRun⟩ := exists_run_publishedRegistry
  obtain ⟨r₀, tags, hBeside, hAscending, hTags, hPaths, -, hMounted⟩ := tag_modules_apart hRun
  obtain rfl := Except.ok.inj (beside_emptyProject.symm.trans hBeside)
  rw [filedTags_publishedRegistry] at hTags
  -- an ascending list is known by its members
  obtain rfl : tags = ["IFC2X2", "IFC4_ADD1"] :=
    hAscending.eq_of_mem_iff (by decide) hTags
  obtain ⟨bodies, -, hNodup, hReferences⟩ := hMounted (freshOutput_emptyProject.whenMade rfl)
    (fun tag _ => tagSafe_besideExporter tag) (by decide)
  have hEntries : (Module.ofRegistry {} publishedRegistry).entries.map (·.enumeration) =
      [some ⟨"crate::exporter::property_set", "ifc2x2", "E"⟩,
        some ⟨"crate::exporter::property_set", "ifc4_add1", "E"⟩] := by decide
  have hDeclared : ∀ reference,
      some reference ∈ (Module.ofRegistry {} publishedRegistry).entries.map (·.enumeration) →
      reference ∈ declarations "crate::exporter::property_set" ["IFC2X2", "IFC4_ADD1"] bodies := by
    intro reference hMem
    obtain ⟨entry, hEntry, hReference⟩ := List.mem_map.1 hMem
    exact hReferences entry hEntry reference hReference
  rw [hEntries] at hDeclared
  exact ⟨report, t', bodies, hRun, hPaths, hNodup, hDeclared _ (by simp), hDeclared _ (by simp)⟩

/-! ## Tags that are spelled alike -/

/-- A document of a published version, with an enumeration. -/
def capitalDocument : String :=
  "<PropertySetDef><Name>Pset_A</Name><IfcVersion version=\"2x2\"/><PropertyDefs><PropertyDef>" ++
    "<Name>P</Name><PropertyType><TypePropertyEnumeratedValue><EnumList name=\"E\">" ++
    "<EnumItem>ONE</EnumItem></EnumList></TypePropertyEnumeratedValue></PropertyType>" ++
    "</PropertyDef></PropertyDefs></PropertySetDef>"

/-- A document of the same version in small letters. -/
def smallDocument : String :=
  "<PropertySetDef><Name>Pset_B</Name><IfcVersion version=\"ifc2x2\"/><PropertyDefs>" ++
    "<PropertyDef><Name>P</Name><PropertyType><TypePropertyEnumeratedValue><EnumList name=\"E\">" ++
    "<EnumItem>TWO</EnumItem></EnumList></TypePropertyEnumeratedValue></PropertyType>" ++
    "</PropertyDef></PropertyDefs></PropertySetDef>"

/-- The registry of the definitions that are read from the documents. -/
def alikeRegistry : Registry :=
  .ofList (((Document.read capitalDocument "IFC2X2" "psd").1.toList ++
    (Document.read smallDocument "IFC2X2" "psd").1.toList).map fun definition =>
      ⟨"IFC2X2", definition⟩)

/-- The requests of the registry, and what its entries refer to. -/
theorem alikeRegistry_refers :
    alikeRegistry.requests =
        [⟨"IFC2X2", "IFC2X2", "E", [⟨"ONE", []⟩], "Pset_A@IFC2X2"⟩,
          ⟨"ifc2x2", "IFC2X2", "E", [⟨"TWO", []⟩], "Pset_B@IFC2X2"⟩] ∧
      (Module.ofRegistry {} alikeRegistry).entries.map (·.enumeration) =
        [some ⟨"crate::exporter::property_set", "ifc2x2", "E"⟩,
          some ⟨"crate::exporter::property_set", "ifc2x2", "E"⟩] := by
  have hCapital : capitalDocument = String.ofList (_ ++ _ ++ _ ++ _) :=
    Text.eq_ofList_append (Text.eq_ofList_append (Text.eq_ofList_append rfl _) _) _
  have hSmall : smallDocument = String.ofList (_ ++ _ ++ _ ++ _) :=
    Text.eq_ofList_append (Text.eq_ofList_append (Text.eq_ofList_append rfl _) _) _
  rw [alikeRegistry, Document.read, Document.read, hCapital, hSmall, String.toList_ofList,
    String.toList_ofList]
  decide +kernel

/-- Two documents of one version, written differently: a run succeeds and reports two files, both
are the same module with an enumeration of the same name, and two entries refer to it. -/
theorem alike_tags_share_module :
    ∃ report t', (generate {} alikeRegistry : ExceptT Failure (StateM FileTree) Report).run
        emptyProject = (.ok report, t') ∧
      report.enumPaths = [⟨"/project/ExporterInitializer_PsetDefIFC2X2Enum.rs"⟩,
        ⟨"/project/ExporterInitializer_PsetDefifc2x2Enum.rs"⟩] ∧
      Naming.versionModule "IFC2X2" = "ifc2x2" ∧ Naming.versionModule "ifc2x2" = "ifc2x2" ∧
      t'.read ⟨"/project/ExporterInitializer_PsetDefIFC2X2Enum.rs"⟩ =
        .ok (sheetHead "IFC2X2" ++ enumerationText "E" ["ONE"] ++ "\x7d\n").toUTF8 ∧
      t'.read ⟨"/project/ExporterInitializer_PsetDefifc2x2Enum.rs"⟩ =
        .ok (sheetHead "ifc2x2" ++ enumerationText "E" ["TWO"] ++ "\x7d\n").toUTF8 ∧
      (Module.ofRegistry {} alikeRegistry).entries.map (·.enumeration) =
        List.replicate 2 (some ⟨"crate::exporter::property_set", "ifc2x2", "E"⟩) := by
  obtain ⟨hRequests, hEntries⟩ := alikeRegistry_refers
  have hFiled : alikeRegistry.filedTags = ["IFC2X2", "ifc2x2"] := by
    rw [Registry.filedTags, hRequests]
    decide +kernel
  -- both tags fit, so a run succeeds
  obtain ⟨report, t', hRun⟩ := exists_run_emptyProject (r := alikeRegistry)
    (by rw [hFiled]; decide) (by rw [hRequests]; decide)
  obtain ⟨course⟩ := exists_course hRun
  have hReconciler : course.reconciler = besideExporter :=
    Except.ok.inj (course.beside.symm.trans beside_emptyProject)
  obtain ⟨tags, hAscending, hTags, hPaths⟩ := course.exists_tags
  rw [hFiled] at hTags
  obtain rfl : tags = ["IFC2X2", "ifc2x2"] := hAscending.eq_of_mem_iff (by decide) hTags
  have hReadied := freshOutput_emptyProject.whenMade rfl _ _ course.parent course.makes
  -- the general statement excludes such tags, so the files are read key by key
  have hRead : ∀ k ∈ keysOf alikeRegistry.requests,
      t'.read (besideExporter.pathFor k.tag) =
        .ok (fileText alikeRegistry.requests k.tag).toUTF8 := by
    intro k hKey
    have hHere := (course.read_of_key hReadied
      (fun tag _ => by rw [hReconciler]; exact tagSafe_besideExporter tag) hKey).2
    rwa [hReconciler] at hHere
  rw [hRequests] at hRead
  have hCapital := hRead ⟨"IFC2X2", "E"⟩ (by decide +kernel)
  have hSmall := hRead ⟨"ifc2x2", "E"⟩ (by decide +kernel)
  have hCapitalPath : besideExporter.pathFor "IFC2X2" =
      ⟨"/project/ExporterInitializer_PsetDefIFC2X2Enum.rs"⟩ := by decide +kernel
  have hSmallPath : besideExporter.pathFor "ifc2x2" =
      ⟨"/project/ExporterInitializer_PsetDefifc2x2Enum.rs"⟩ := by decide +kernel
  rw [hCapitalPath] at hCapital
  rw [hSmallPath] at hSmall
  refine ⟨report, t', hRun, ?_, by decide +kernel, by decide +kernel, hCapital.trans ?_,
    hSmall.trans ?_, hEntries⟩
  · rw [hPaths, hReconciler, List.map_cons, List.map_singleton, hCapitalPath, hSmallPath]
  · exact congrArg (fun text : String => Except.ok text.toUTF8) (by decide +kernel)
  · exact congrArg (fun text : String => Except.ok text.toUTF8) (by decide +kernel)

end PropertySets
