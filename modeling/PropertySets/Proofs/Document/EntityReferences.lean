import Mathlib.Data.List.TakeWhile
import PropertySets.Proofs.Document.Cases

/-!
# Where a reference names its entity

Releases differ in where a reference names the entity it points to: in a nested `DataType` element,
or in an attribute of the type element. Both places are read. A blank attribute names nothing, the
nested form goes before the attribute, and a reference that names nothing in either place leaves the
property without a type and is reported once.

There is one exception. A nested element that names nothing still hides the attribute: such a
reference is reported as missing its attribute although the attribute is there.

* `NamesEntity` — an attribute of an element names an entity.
* `NestedForm`, `AttributeForm`, `Refers` — the two forms, and the entity that they settle.
* `Shadowed` — the attribute is hidden.
* `entity?`, `entity?_eq_some_iff`, `entity?_of_shadowed` — the entity that is read.
* `reference_reads_either_form` — what is read of a property with a reference type.
-/

namespace PropertySets

namespace Text

/-! ## Blank strings -/

theorem trimEnds_eq_nil_iff {p : Char → Bool} {s : List Char} :
    trimEnds p s = [] ↔ ∀ c ∈ s, p c = true := by
  rw [trimEnds, List.reverse_eq_nil_iff, List.dropWhile_eq_nil_iff]
  constructor
  · intro hRest c hMem
    rw [← List.takeWhile_append_dropWhile (p := p) (l := s), List.mem_append] at hMem
    -- what is dropped at the start satisfies the predicate anyway
    rcases hMem with hDropped | hKept
    · exact List.mem_takeWhile_imp hDropped
    · exact hRest c (List.mem_reverse.2 hKept)
  · intro hAll c hMem
    exact hAll c ((List.dropWhile_sublist p).mem (List.mem_reverse.1 hMem))

/-- Trimming leaves something of a string exactly if a character of it is not blank. -/
theorem trim_ne_empty_iff {s : String} : trim s ≠ "" ↔ ∃ c ∈ s.toList, isBlank c = false := by
  rw [ne_eq, ← String.toList_eq_nil_iff, toList_trim, trimEnds_eq_nil_iff]
  simp only [not_forall, Bool.not_eq_true, exists_prop]

end Text

namespace Document

open Text Xml

/-! ## The two forms -/

/-- An attribute of an element names an entity: its value is not blank, and the entity is the value
without the blanks at its ends. -/
def NamesEntity (holder : Node) (key entity : String) : Prop :=
  ∃ value, holder.attribute? key = some value ∧
    (∃ c ∈ value.toList, isBlank c = false) ∧ entity = trim value

/-- The first nested `DataType` element of a type element names an entity. -/
def NestedForm (type : Node) (entity : String) : Prop :=
  ∃ nested, type.child? "DataType" = some nested ∧ NamesEntity nested "type" entity

/-- The attribute of a type element names an entity. -/
def AttributeForm (type : Node) (entity : String) : Prop := NamesEntity type "reftype" entity

/-- The entity that a reference points to: the nested one, or that of the attribute if none is
nested. -/
def Refers (type : Node) (entity : String) : Prop :=
  NestedForm type entity ∨ (∀ e, ¬ NestedForm type e) ∧ AttributeForm type entity

/-- The attribute names an entity and is hidden by a nested element that names none. -/
def Shadowed (type : Node) : Prop :=
  (∃ nested, type.child? "DataType" = some nested) ∧ (∀ e, ¬ NestedForm type e) ∧
    ∃ e, AttributeForm type e

theorem filledAttribute?_eq_some_iff {n : Node} {key entity : String} :
    filledAttribute? n key = some entity ↔ NamesEntity n key entity := by
  rw [filledAttribute?, Option.filter_eq_some_iff, Option.map_eq_some_iff, decide_eq_true_eq]
  constructor
  · rintro ⟨⟨value, hValue, rfl⟩, hFilled⟩
    exact ⟨value, hValue, trim_ne_empty_iff.1 hFilled, rfl⟩
  · rintro ⟨value, hValue, hFilled, rfl⟩
    exact ⟨⟨value, hValue, rfl⟩, trim_ne_empty_iff.2 hFilled⟩

theorem childDataType?_eq_some_iff {type : Node} {entity : String} :
    childDataType? type = some entity ↔ NestedForm type entity := by
  rw [childDataType?, Option.bind_eq_some_iff]
  exact exists_congr fun nested => and_congr_right fun _ => filledAttribute?_eq_some_iff

/-- A form that names no entity is read as none. -/
theorem eq_none_of_iff {read? : Option String} {Form : String → Prop}
    (hRead : ∀ {e}, read? = some e ↔ Form e) : read? = none ↔ ∀ e, ¬ Form e := by
  rw [Option.eq_none_iff_forall_ne_some]
  exact forall_congr' fun e => not_congr hRead

/-- A reference points somewhere exactly if one of its forms names an entity. -/
theorem exists_refers_iff {type : Node} :
    (∃ entity, Refers type entity) ↔
      (∃ entity, NestedForm type entity) ∨ ∃ entity, AttributeForm type entity := by
  constructor
  · rintro ⟨entity, hNested | ⟨-, hAttribute⟩⟩
    · exact .inl ⟨entity, hNested⟩
    · exact .inr ⟨entity, hAttribute⟩
  · rintro (⟨entity, hNested⟩ | ⟨entity, hAttribute⟩)
    · exact ⟨entity, .inl hNested⟩
    · by_cases hNested : ∃ e, NestedForm type e
      · obtain ⟨e, hNested⟩ := hNested
        exact ⟨e, .inl hNested⟩
      · exact ⟨entity, .inr ⟨fun e h => hNested ⟨e, h⟩, hAttribute⟩⟩

/-! ## Reading a reference -/

/-- The entity that is read: the nested one if an element is nested, that of the attribute
otherwise. -/
def entity? (type : Node) : Option String :=
  match type.child? "DataType" with
  | some nested => dataType? nested
  | none => filledAttribute? type "reftype"

theorem entity?_of_nested {type nested : Node} (hChild : type.child? "DataType" = some nested) :
    entity? type = childDataType? type := by
  rw [entity?, childDataType?, hChild]
  rfl

/-- Unless the attribute is hidden, the entity that is read is the one the reference points to. -/
theorem entity?_eq_some_iff {type : Node} (hOpen : ¬ Shadowed type) {entity : String} :
    entity? type = some entity ↔ Refers type entity := by
  cases hChild : type.child? "DataType" with
  | none =>
    have hNoNested : ∀ e, ¬ NestedForm type e := by
      rintro e ⟨nested, hNested, -⟩
      rw [hChild] at hNested
      cases hNested
    rw [entity?, hChild]
    refine filledAttribute?_eq_some_iff.trans ⟨fun hAttribute => .inr ⟨hNoNested, hAttribute⟩, ?_⟩
    rintro (hNested | ⟨-, hAttribute⟩)
    · exact absurd hNested (hNoNested entity)
    · exact hAttribute
  | some nested =>
    rw [entity?_of_nested hChild]
    refine childDataType?_eq_some_iff.trans ⟨.inl, ?_⟩
    rintro (hNested | ⟨hNoNested, hAttribute⟩)
    · exact hNested
    · -- the nested element names nothing, so it hides the attribute
      exact absurd ⟨⟨nested, hChild⟩, hNoNested, entity, hAttribute⟩ hOpen

/-- Behind a nested element that names nothing no entity is read. -/
theorem entity?_of_shadowed {type : Node} (hShadowed : Shadowed type) : entity? type = none := by
  obtain ⟨⟨nested, hChild⟩, hNoNested, -⟩ := hShadowed
  rw [entity?_of_nested hChild]
  exact (eq_none_of_iff childDataType?_eq_some_iff).2 hNoNested

/-- What is read of a property with a reference type, given the entity if there is one. -/
def referenceOutcome (label : Label) (flaw : Diagnostic) :
    Option String → Option Property × Diagnostics
  | some entity => (some (.valued label (.reference entity)), [])
  | none => (some (.typeless label), [flaw])

/-- Different entities, and one and none, are told apart by what is read. -/
theorem referenceOutcome_inj {label : Label} {flaw : Diagnostic} {x y : Option String} :
    referenceOutcome label flaw x = referenceOutcome label flaw y ↔ x = y := by
  cases x <;> cases y <;> simp [referenceOutcome]

theorem readReference_eq (source path : String) (type : Node) :
    readReference source path type =
      match entity? type with
      | some entity => (some (.reference entity), [])
      | none => (none, [.missingField source path "TypePropertyReferenceValue reftype"]) := rfl

theorem readProperty_of_reference {source owner name : String} {depth : Nat} {n type : Node}
    (hName : name? n = some name) (hType : typeElement? n = some type)
    (hReference : type.localName = "TypePropertyReferenceValue") :
    readProperty source depth owner n =
      referenceOutcome ⟨name, n.attribute? "ifdguid", aliases n⟩
        (.missingField source (owner ++ "." ++ name) "TypePropertyReferenceValue reftype")
        (entity? type) := by
  have hSimple : type.localName ≠ "TypeComplexProperty" := by
    rw [hReference]
    decide
  have hShape : readShape source (owner ++ "." ++ name) name type =
      readReference source (owner ++ "." ++ name) type := by
    unfold readShape
    rw [hReference]
    rfl
  -- the type is not complex, so the reader of shapes gets it
  rw [readProperty_of_shape hName hType hSimple, hShape, readReference_eq]
  cases entity? type with
  | none => rfl
  | some entity => rfl

/--
**Either form of a reference is read.** Let a `PropertyDef` have a name and a reference type.

1. Unless its attribute is hidden, the property is read as a reference exactly if one of the two
   forms names an entity. The entity is then the one of the nested form if that names any, and the
   one of the attribute otherwise; nothing is reported. Exactly if neither form names an entity the
   property is left without a type, and that is reported once.
2. If its attribute is hidden, it is left without a type and reported in the same words.
-/
theorem reference_reads_either_form {source owner name : String} {depth : Nat} {n type : Node}
    (hName : name? n = some name) (hType : typeElement? n = some type)
    (hReference : type.localName = "TypePropertyReferenceValue") :
    let label : Label := ⟨name, n.attribute? "ifdguid", aliases n⟩
    let flaw : Diagnostic :=
      .missingField source (owner ++ "." ++ name) "TypePropertyReferenceValue reftype"
    (¬ Shadowed type →
      ((∃ entity, readProperty source depth owner n =
          (some (.valued label (.reference entity)), [])) ↔
        (∃ entity, NestedForm type entity) ∨ ∃ entity, AttributeForm type entity) ∧
      (∀ entity, readProperty source depth owner n =
          (some (.valued label (.reference entity)), []) ↔ Refers type entity) ∧
      (readProperty source depth owner n = (some (.typeless label), [flaw]) ↔
        (∀ entity, ¬ NestedForm type entity) ∧ ∀ entity, ¬ AttributeForm type entity)) ∧
    (Shadowed type → readProperty source depth owner n = (some (.typeless label), [flaw])) := by
  intro label flaw
  rw [readProperty_of_reference hName hType hReference]
  constructor
  · intro hOpen
    -- what is made of an entity tells the entity, so each part is about entities alone
    have hRead : ∀ entity, referenceOutcome label flaw (entity? type) =
        (some (.valued label (.reference entity)), []) ↔ Refers type entity := fun entity =>
      (referenceOutcome_inj (y := some entity)).trans (entity?_eq_some_iff hOpen)
    refine ⟨?_, hRead, ?_⟩
    · rw [← exists_refers_iff]
      exact exists_congr hRead
    · -- the report is made for no entity, and for nothing else
      have hNone : referenceOutcome label flaw (entity? type) = (some (.typeless label), [flaw]) ↔
          ∀ entity, ¬ Refers type entity :=
        (referenceOutcome_inj (y := none)).trans (eq_none_of_iff (entity?_eq_some_iff hOpen))
      rw [hNone, ← not_exists, ← not_exists, ← not_exists, ← not_or, exists_refers_iff]
  · intro hShadowed
    rw [entity?_of_shadowed hShadowed]
    rfl

/-- A reference type whose attribute names a material, with a nested element of some type. -/
def materialReference (nestedType : String) : Node :=
  .element ⟨"", none, "TypePropertyReferenceValue"⟩ [⟨none, "reftype", "IfcMaterial"⟩]
    [.element ⟨"", none, "DataType"⟩ [⟨none, "type", nestedType⟩] []]

/-- A `PropertyDef` with that type. -/
def materialProperty (nestedType : String) : Node :=
  .element ⟨"", none, "PropertyDef"⟩ []
    [.element ⟨"", none, "Name"⟩ [] [.text "P".toList],
      .element ⟨"", none, "PropertyType"⟩ [] [materialReference nestedType]]

/-- With both forms in one element the nested one counts, without the blanks at its ends. -/
theorem materialProperty_read_nested :
    NestedForm (materialReference " IfcTimeSeries\n") "IfcTimeSeries" ∧
    AttributeForm (materialReference " IfcTimeSeries\n") "IfcMaterial" ∧
    readProperty "psd" 2 "Pset_A" (materialProperty " IfcTimeSeries\n") =
      (some (.valued ⟨"P", none, []⟩ (.reference "IfcTimeSeries")), []) := by
  have hNested : NestedForm (materialReference " IfcTimeSeries\n") "IfcTimeSeries" :=
    childDataType?_eq_some_iff.1 (by decide +kernel)
  have hAttribute : AttributeForm (materialReference " IfcTimeSeries\n") "IfcMaterial" :=
    filledAttribute?_eq_some_iff.1 (by decide +kernel)
  have hName : name? (materialProperty " IfcTimeSeries\n") = some "P" := by decide +kernel
  obtain ⟨hOpen, -⟩ := @reference_reads_either_form "psd" "Pset_A" "P" 2 _ _ hName rfl rfl
  obtain ⟨-, hRead, -⟩ := hOpen fun hShadowed => hShadowed.2.1 _ hNested
  exact ⟨hNested, hAttribute, (hRead "IfcTimeSeries").2 (.inl hNested)⟩

/-- A nested element with a blank attribute hides the attribute of the type: the reference names its
entity there, and is reported to lack that very attribute. -/
theorem blank_nested_type_hides_attribute :
    typeElement? (materialProperty " ") = some (materialReference " ") ∧
    (∀ entity, ¬ NestedForm (materialReference " ") entity) ∧
    AttributeForm (materialReference " ") "IfcMaterial" ∧
    readProperty "psd" 2 "Pset_A" (materialProperty " ") =
      (some (.typeless ⟨"P", none, []⟩),
        [.missingField "psd" "Pset_A.P" "TypePropertyReferenceValue reftype"]) := by
  have hNoNested : ∀ entity, ¬ NestedForm (materialReference " ") entity :=
    (eq_none_of_iff childDataType?_eq_some_iff).1 (by decide +kernel)
  have hAttribute : AttributeForm (materialReference " ") "IfcMaterial" :=
    filledAttribute?_eq_some_iff.1 (by decide +kernel)
  -- the nested element has the attribute, and names nothing with it
  have hShadowed : Shadowed (materialReference " ") :=
    ⟨⟨_, rfl⟩, hNoNested, "IfcMaterial", hAttribute⟩
  have hName : name? (materialProperty " ") = some "P" := by decide +kernel
  refine ⟨rfl, hNoNested, hAttribute, ?_⟩
  rw [readProperty_of_reference hName rfl rfl, entity?_of_shadowed hShadowed]
  rfl

end Document

end PropertySets
