import PropertySets.Proofs.Document.Items
import PropertySets.Proofs.Generation.Success
import PropertySets.Proofs.Registration.Occurrences

/-!
# Enumerations that come out of documents

Two places decide whether an enumeration is complete. Reading a document keeps it only when it has
a literal or a constant; filing it takes a version, a name and items. The items are therefore never
what is missing, but version and name can be empty texts in a document, and such an enumeration is
registered without a reference to it.

* `Property.Itemized` — no enumeration in a property is without items.
* `itemized_read` — this holds of every property that is read.
* `entry_references_enumeration` — which entries of a module refer to their enumerations.
* `empty_version_unreferenced` — a document whose enumeration is registered without a reference.
-/

namespace PropertySets

open Enumeration FileTree Registration

/-! ## Enumerations with items -/

/-- An enumeration has items. -/
def Shape.Itemized : Shape → Prop
  | .enumerated _ items => items ≠ []
  | _ => True

/-- Every enumeration in a property has items, however deep it lies. -/
inductive Property.Itemized : Property → Prop
  | typeless (l : Label) : Itemized (.typeless l)
  | valued (l : Label) {shape : Shape} (h : shape.Itemized) : Itemized (.valued l shape)
  | complex (l : Label) (name : String) {properties : List Property}
      (h : ∀ p ∈ properties, Itemized p) : Itemized (.complex l name properties)

theorem itemized_flattened {d : Definition} (h : ∀ p ∈ d.properties, p.Itemized) :
    ∀ p ∈ flattened d, p.Itemized := by
  intro p hMem
  obtain ⟨q, hProperty, hMem⟩ := List.mem_flatMap.1 hMem
  have hItemized := h q hProperty
  cases q with
  | typeless l => exact List.mem_singleton.1 hMem ▸ hItemized
  | valued l shape => exact List.mem_singleton.1 hMem ▸ hItemized
  | complex l name properties =>
    cases hItemized with
    | complex _ _ hBelow => exact hBelow p hMem

namespace Document

open Xml

/-- An enumeration that is read has the items of its literals, or of its constants if there are no
literals. -/
theorem itemized_readEnumerated {source path propertyName : String} {n : Node} {shape : Shape}
    (h : (readEnumerated source path propertyName n).1 = some shape) : shape.Itemized := by
  rcases readEnumerated_cases source path propertyName n with
    ⟨-, -, hRead⟩ | ⟨-, hConstants, hRead⟩ | ⟨-, -, hRead⟩ | ⟨name, hLiterals, -, hRead⟩
  · rw [hRead] at h
    cases h
  · rw [hRead] at h
    obtain rfl := Option.some.inj h
    exact mt List.map_eq_nil_iff.1 hConstants
  · rw [hRead] at h
    cases h
  · rw [hRead] at h
    obtain rfl := Option.some.inj h
    -- there is a literal, and even one that no constant matches has an item
    intro hNone
    obtain ⟨first, hFirst⟩ := List.exists_mem_of_ne_nil _ hLiterals
    exact (group_itemsOf _ first).ne_nil (List.flatMap_eq_nil_iff.1 hNone first hFirst)

theorem itemized_readSingle (source path : String) (n : Node) :
    (readSingle source path n).1.Itemized := by
  rw [readSingle]
  split <;> trivial

theorem itemized_readReference {source path : String} {n : Node} {shape : Shape}
    (h : (readReference source path n).1 = some shape) : shape.Itemized := by
  unfold readReference at h
  dsimp only at h
  split at h
  · cases h
    trivial
  · cases h

theorem itemized_readShape {source path propertyName : String} {n : Node} {shape : Shape}
    (h : (readShape source path propertyName n).1 = some shape) : shape.Itemized := by
  unfold readShape at h
  split at h
  · cases h
    exact itemized_readSingle source path n
  · exact itemized_readReference h
  · exact itemized_readEnumerated h
  · cases h
    trivial
  · cases h
    trivial
  · cases h
    trivial
  · cases h

theorem itemized_ofType {l : Label} {shape? : Option Shape}
    (h : ∀ shape, shape? = some shape → shape.Itemized) :
    (Property.ofType l (shape?.map .value)).Itemized := by
  cases shape? with
  | none => exact .typeless l
  | some shape => exact .valued l (h shape rfl)

/-- What is gathered was read from one of the elements. -/
theorem exists_of_mem_gather {α β : Type} {reader : β → Option α × Diagnostics} {elements : List β}
    {a : α} (h : a ∈ (gather (elements.map reader)).1) : ∃ n ∈ elements, (reader n).1 = some a := by
  obtain ⟨result, hResult, hRead⟩ := List.mem_filterMap.1 h
  obtain ⟨n, hMem, rfl⟩ := List.mem_map.1 hResult
  exact ⟨n, hMem, hRead⟩

/-- A property that is read has items in its enumerations, however deep complex properties are
opened. -/
theorem itemized_readProperty {source owner : String} {depth : Nat} {n : Node} {p : Property}
    (h : (readProperty source depth owner n).1 = some p) : p.Itemized := by
  induction depth, owner, n using readProperty_induction source generalizing p with
  | nameless _ hRead =>
    rw [hRead] at h
    cases h
  | untyped _ _ hRead =>
    rw [hRead] at h
    exact Option.some.inj h ▸ .typeless _
  | unnamed _ _ _ _ hRead =>
    rw [hRead] at h
    exact Option.some.inj h ▸ .typeless _
  | closed _ _ _ _ hRead =>
    rw [hRead] at h
    exact Option.some.inj h ▸ .complex _ _ nofun
  | opened _ _ _ _ hRead ih =>
    rw [hRead] at h
    obtain rfl := Option.some.inj h
    refine .complex _ _ fun q hMem => ?_
    -- what is held is read by the same reader, one level further down
    obtain ⟨m, -, hBelow⟩ := exists_of_mem_gather hMem
    exact ih m hBelow
  | shaped _ _ _ hRead =>
    rw [hRead] at h
    obtain rfl := Option.some.inj h
    exact itemized_ofType fun shape hShape => itemized_readShape hShape

theorem itemized_readElement {folder source : String} {root : Node} {d : Definition}
    (h : (readElement folder source root).1 = some d) : ∀ p ∈ d.properties, p.Itemized := by
  rcases readElement_cases source root with ⟨flaw, -, -, hRead⟩ | ⟨name, raw, -, -, -, hRead⟩
  · rw [hRead folder] at h
    cases h
  · rw [hRead folder] at h
    obtain rfl := Option.some.inj h
    intro p hMem
    obtain ⟨n, -, hProperty⟩ := exists_of_mem_gather hMem
    exact itemized_readProperty hProperty

/-- Every definition that is read has items in its enumerations. -/
theorem itemized_read {text folder source : String} {d : Definition}
    (h : (read text folder source).1 = some d) : ∀ p ∈ d.properties, p.Itemized := by
  rcases read_cases text source with ⟨flaw, -, -, hRead⟩ | ⟨root, -, hRead⟩
  · rw [hRead folder] at h
    cases h
  · rw [hRead folder] at h
    exact itemized_readElement h

end Document

/-! ## References to enumerations -/

namespace Registration

/-- The line of an entry that refers to an enumeration. -/
def EnumReference.line (r : EnumReference) : String :=
  "        entry.property_enumeration_type = Some(std::any::type_name::<" ++ r.enumModule ++ "::" ++
    r.tagModule ++ "::" ++ r.name ++ ">());\n"

/-- An entry with a reference has its line. -/
theorem exists_line_of_enumeration {entry : PropertyEntry} {reference : EnumReference}
    (h : entry.enumeration = some reference) (variableName : String) :
    ∃ before after, entry.render variableName = before ++ reference.line ++ after := by
  have hSplit : ∀ a line b₁ b₂ b₃ b₄ b₅ b₆ b₇ b₈ : String,
      a ++ line ++ b₁ ++ b₂ ++ b₃ ++ b₄ ++ b₅ ++ b₆ ++ b₇ ++ b₈ =
        a ++ line ++ (b₁ ++ b₂ ++ b₃ ++ b₄ ++ b₅ ++ b₆ ++ b₇ ++ b₈) := by
    intros
    simp only [String.append_assoc]
  unfold PropertyEntry.render
  simp only [h]
  rw [hSplit]
  exact ⟨_, _, rfl⟩

/-- With items an enumeration is referred to unless its version or its name is empty. -/
theorem enumReference?_enumerated (c : Configuration) (e : Edition) (name : String)
    {items : List EnumItem} (hItems : items ≠ []) :
    enumReference? c e (.enumerated name items) =
      if e.version = "" ∨ name = "" then none
      else some ⟨c.output.enumModule, Naming.versionModule (enumerationTag e.version e.folder),
        name⟩ := by
  -- the request that such a property makes
  let q : Request := ⟨e.version, e.folder, name, items, sourceOf e⟩
  have hTag : q.filingTag? = if e.version = "" ∨ name = "" then none
      else some (enumerationTag e.version e.folder) := by
    simp [Request.filingTag?, q, hItems]
  have hReference : enumReference? c e (.enumerated name items) =
      q.filingTag?.map fun tag => ⟨c.output.enumModule, Naming.versionModule tag, name⟩ := by
    show (q.filingTag?.bind fun tag => _) = _
    rw [Option.map_eq_bind]
    rfl
  rw [hReference, hTag]
  split <;> rfl

/-- **Which enumerations are referred to.** Let all definitions of a registry come out of documents.
Then every enumerated property that comes up has an entry in the module. The entry has the line that
refers to its enumeration unless the version tag of the definition or the name of the enumeration is
empty; then it has no reference. -/
theorem entry_references_enumeration {r : Registry}
    (hRead : ∀ e ∈ r.editions, ∃ text folder source,
      (Document.read text folder source).1 = some e.definition) (c : Configuration) :
    ∀ o ∈ r.occurrences, ∀ label name items, o.property = .valued label (.enumerated name items) →
      ∃ entry ∈ (Module.ofRegistry c r).entries, PropertyEntry.ofOccurrence? c o = some entry ∧
        (o.edition.version ≠ "" ∧ name ≠ "" →
          ∃ reference : EnumReference, entry.enumeration = some reference ∧
            reference = ⟨c.output.enumModule,
              Naming.versionModule (enumerationTag o.edition.version o.edition.folder), name⟩ ∧
            ∀ variableName, ∃ before after,
              entry.render variableName = before ++ reference.line ++ after) ∧
        (o.edition.version = "" ∨ name = "" → entry.enumeration = none) := by
  intro o hMem label name items hProperty
  obtain ⟨hEdition, -, hFlat⟩ := Registry.mem_occurrences.1 hMem
  obtain ⟨text, folder, source, hDefinition⟩ := hRead o.edition hEdition
  have hItemized := itemized_flattened (Document.itemized_read hDefinition) o.property hFlat
  -- a document is read into enumerations with items only
  have hItems : items ≠ [] := by
    rw [hProperty] at hItemized
    cases hItemized with
    | valued _ hShape => exact hShape
  -- a property with a value has an entry, with the reference of its enumeration
  have hEntry : ∃ entry, PropertyEntry.ofOccurrence? c o = some entry ∧
      entry.enumeration = enumReference? c o.edition (.enumerated name items) := by
    rw [PropertyEntry.ofOccurrence?, hProperty]
    exact ⟨_, rfl, rfl⟩
  obtain ⟨entry, hEntry, hReference⟩ := hEntry
  rw [enumReference?_enumerated c o.edition name hItems] at hReference
  refine ⟨entry, mem_entries_ofRegistry.2 ⟨o, hMem, hEntry⟩, hEntry, fun hFiled => ?_,
    fun hMissing => ?_⟩
  · rw [if_neg (not_or.2 hFiled)] at hReference
    exact ⟨_, hReference, rfl, exists_line_of_enumeration hReference⟩
  · rw [if_pos hMissing] at hReference
    exact hReference

end Registration

/-! ## Documents with one enumeration -/

/-- A document with an enumeration `E` under a version token. -/
def versionedDocument (version : String) : String :=
  "<PropertySetDef><Name>A</Name><IfcVersion version=\"" ++ version ++
    "\"/><PropertyDefs><PropertyDef><Name>P</Name><PropertyType><TypePropertyEnumeratedValue>" ++
    "<EnumList name=\"E\"><EnumItem>X</EnumItem></EnumList></TypePropertyEnumeratedValue>" ++
    "</PropertyType></PropertyDef></PropertyDefs></PropertySetDef>"

/-- The registry of the definition that is read from the document. -/
def versionedRegistry (version : String) : Registry :=
  .ofList ((Document.read (versionedDocument version) "IFC4_ADD1" "psd").1.toList.map
    fun definition => ⟨"IFC4_ADD1", definition⟩)

theorem read_of_mem_versionedRegistry (version : String) :
    ∀ e ∈ (versionedRegistry version).editions, ∃ text folder source,
      (Document.read text folder source).1 = some e.definition := by
  intro e hMem
  obtain ⟨definition, hRead, rfl⟩ := List.mem_map.1 (Registry.mem_editions_ofList.1 hMem)
  exact ⟨_, _, _, Option.mem_toList.1 hRead⟩

/-- Under a version tag the enumeration of the document is referred to. -/
theorem versionedDocument_referenced :
    (∀ e ∈ (versionedRegistry "X").editions, ∃ text folder source,
      (Document.read text folder source).1 = some e.definition) ∧
    ∃ entry ∈ (Module.ofRegistry {} (versionedRegistry "X")).entries,
      entry.enumeration = some ⟨"crate::exporter::property_set", "x", "E"⟩ := by
  have hRead := read_of_mem_versionedRegistry "X"
  have hRequests : (versionedRegistry "X").requests =
      [⟨"X", "IFC4_ADD1", "E", [⟨"X", []⟩], "A@IFC4_ADD1"⟩] := by
    -- reading a list of characters, the kernel need not decode the bytes of the string
    have hText : versionedDocument "X" = String.ofList (_ ++ _ ++ _ ++ _ ++ _) :=
      Text.eq_ofList_append (Text.eq_ofList_append (Text.eq_ofList_append
        (Text.eq_ofList_append rfl _) _) _) _
    rw [versionedRegistry, Document.read, hText, String.toList_ofList]
    decide +kernel
  rw [requests_eq_filterMap_occurrences] at hRequests
  obtain ⟨o, hMem, hRequest⟩ := List.mem_filterMap.1 (hRequests ▸ List.mem_singleton_self _)
  obtain ⟨label, name, items, hProperty, hSame⟩ := Occurrence.exists_of_request? hRequest
  obtain ⟨hVersion, hFolder, rfl, -⟩ := Enumeration.Request.mk.inj hSame
  obtain ⟨entry, hEntry, -, hReferenced, -⟩ :=
    entry_references_enumeration hRead {} o hMem label "E" items hProperty
  obtain ⟨reference, hReference, hPlace, -⟩ := hReferenced ⟨by rw [← hVersion]; decide, by decide⟩
  refine ⟨hRead, entry, hEntry, hReference.trans ?_⟩
  rw [hPlace, ← hVersion, ← hFolder]
  exact congrArg some (by decide +kernel)

/-- What a module has for the property of the document when no enumeration is referred to. -/
def bareEntry : PropertyEntry := ⟨"P", "Label", .enumeratedValue, none, [], "PCalculator"⟩

/-- The statements for that entry. None of them sets an enumeration type. -/
def bareStatements : String :=
  "\n        let mut entry = PropertySetEntry::new(\"P\");\n" ++
    "        entry.property_name = \"P\".to_string();\n" ++
    "        entry.property_type = PropertyType::Label;\n" ++
    "        entry.property_value_type = PropertyValueType::EnumeratedValue;\n" ++
    "        entry.property_calculator = ctx.calculators.lookup(\"PCalculator\");\n" ++
    "        property_set_a.add_entry(entry);\n        entry_added = true;\n"

/-- Without a version tag the run succeeds as well, and the property is registered, but without a
reference to its enumeration. -/
theorem empty_version_unreferenced :
    (∀ e ∈ (versionedRegistry "").editions, ∃ text folder source,
      (Document.read text folder source).1 = some e.definition) ∧
    (∃ report t', (generate {} (versionedRegistry "") :
      ExceptT Failure (StateM FileTree) Report).run emptyProject = (.ok report, t')) ∧
    (Module.ofRegistry {} (versionedRegistry "")).entries = [bareEntry] ∧
    bareEntry.kind = .enumeratedValue ∧ bareEntry.enumeration = none ∧
    bareEntry.render "property_set_a" = bareStatements := by
  -- the document as a list of characters, so that it is parsed by evaluation
  have hText : versionedDocument "" = String.ofList (_ ++ _ ++ _ ++ _ ++ _) :=
    Text.eq_ofList_append (Text.eq_ofList_append (Text.eq_ofList_append
      (Text.eq_ofList_append rfl _) _) _) _
  have hTags : (versionedRegistry "").filedTags = [] := by
    rw [versionedRegistry, Document.read, hText, String.toList_ofList]
    decide +kernel
  have hEntries : (Module.ofRegistry {} (versionedRegistry "")).entries = [bareEntry] := by
    rw [versionedRegistry, Document.read, hText, String.toList_ofList]
    decide +kernel
  have hEnds : ∀ q ∈ (versionedRegistry "").requests, (assign? q.literals).isSome = true := by
    rw [versionedRegistry, Document.read, hText, String.toList_ofList]
    decide +kernel
  refine ⟨read_of_mem_versionedRegistry "", exists_run_emptyProject (fun tag hMem => ?_) hEnds,
    hEntries, rfl, rfl, by decide +kernel⟩
  rw [hTags] at hMem
  cases hMem

end PropertySets
