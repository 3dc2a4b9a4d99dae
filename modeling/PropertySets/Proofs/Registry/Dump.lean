import Mathlib.Logic.Function.Basic
import PropertySets.Dump
import PropertySets.Proofs.Data.Json

/-!
# Nothing is lost in a dump

The dump of a registry as JSON determines the registry. The values that definitions are written as
are read back from their text, and different definitions are written as different values: a field
that is left out is missed under its key, and a type says its kind.

* `Registry.plain_toValue` — a registry is written as a plain value.
* `Property.toValue_injective`, `Registry.toValue_injective` — different ones as different values.
* `Dump.render_json_inj` — the dumps of registries are the same only if the registries are.
-/

namespace PropertySets

open Data Data.Json

/-! ## Texts, aliases and literals -/

theorem plain_optionalText (s : Option String) : Plain (optionalText s) := by
  cases s with
  | none => exact .null
  | some s => exact .text s

theorem optionalText_injective : Function.Injective optionalText := by
  intro s s' h
  cases s <;> cases s' <;> simp_all [optionalText]

namespace Alias

theorem plain_toValue (a : Alias) : Plain a.toValue :=
  .table (by simp) (by simp [Plain.text])

theorem toValue_injective : Function.Injective toValue := by
  rintro ⟨text, language⟩ ⟨text', language'⟩ h
  simpa [toValue] using h

end Alias

namespace EnumItem

theorem plain_toValue (i : EnumItem) : Plain i.toValue :=
  .table (by simp) (by simp [Plain.text, Plain.list_map Alias.plain_toValue])

theorem toValue_injective : Function.Injective toValue := by
  rintro ⟨literal, aliases⟩ ⟨literal', aliases'⟩ h
  simpa [toValue, (List.map_injective_iff.2 Alias.toValue_injective).eq_iff] using h

end EnumItem

/-! ## Types and labels -/

namespace Shape

theorem plain_toValue (shape : Shape) : Plain shape.toValue := by
  cases shape <;>
    exact .table (by simp)
      (by simp [Plain.text, plain_optionalText, Plain.list_map EnumItem.plain_toValue])

/-- Shapes of one kind differ in a field, others in their kinds. -/
theorem toValue_injective : Function.Injective toValue := by
  intro shape shape' h
  cases shape <;> cases shape' <;>
    simp_all [toValue, optionalText_injective.eq_iff,
      (List.map_injective_iff.2 EnumItem.toValue_injective).eq_iff]

/-- A shape is not written as a bundle. -/
theorem toValue_ne_bundleValue (shape : Shape) (name : String) (values : List Value) :
    shape.toValue ≠ bundleValue name values := by
  cases shape <;> simp [toValue, bundleValue]

theorem toValue_ne_null (shape : Shape) : shape.toValue ≠ .null := by
  cases shape <;> simp [toValue]

end Shape

namespace Label

theorem plain_fieldsWith (l : Label) {type : Value} (h : Plain type) :
    Plain (.table (l.fieldsWith type)) := by
  have hAliases := Plain.list_map Alias.plain_toValue l.aliases
  cases hGuid : l.guid <;> by_cases hEmpty : l.aliases.isEmpty = true <;>
    exact .table (by simp [fieldsWith, hGuid, hEmpty])
      (by simp [fieldsWith, hGuid, hEmpty, h, hAliases, Plain.text])

/-- A label is known by its fields, and the type behind it too: what is left out is missed under
its key. -/
theorem fieldsWith_inj {l l' : Label} {type type' : Value}
    (h : l.fieldsWith type = l'.fieldsWith type') : l = l' ∧ type = type' := by
  obtain ⟨name, guid, aliases⟩ := l
  obtain ⟨name', guid', aliases'⟩ := l'
  -- a field of one label that the other leaves out stands at the place of another key
  cases guid <;> cases guid' <;> cases aliases <;> cases aliases' <;>
    simp_all [fieldsWith, Alias.toValue_injective.eq_iff,
      (List.map_injective_iff.2 Alias.toValue_injective).eq_iff]

end Label

/-! ## Properties -/

namespace Property

-- by recursion on a property and on the list in a bundle, as they are written
mutual

theorem plain_toValue : ∀ p : Property, Plain p.toValue
  | .typeless l => l.plain_fieldsWith .null
  | .valued l shape => l.plain_fieldsWith shape.plain_toValue
  | .complex l name properties => by
    rw [toValue]
    refine l.plain_fieldsWith (.table (by simp) ?_)
    simp [Plain.text, Plain.list (plain_valuesOfList properties)]

theorem plain_valuesOfList : ∀ ps : List Property, ∀ v ∈ valuesOfList ps, Plain v
  | [], _, hMem => by simp [valuesOfList] at hMem
  | p :: ps, v, hMem => by
    rw [valuesOfList, List.mem_cons] at hMem
    rcases hMem with rfl | hMem
    · exact plain_toValue p
    · exact plain_valuesOfList ps v hMem

end

mutual

/-- Properties that are written alike are the same, the properties in their bundles too. -/
theorem toValue_inj : ∀ {p q : Property}, p.toValue = q.toValue → p = q
  -- the labels are the same in any case, and then the types tell the kinds apart
  | .typeless _, q, h => by
    cases q <;> obtain ⟨rfl, hType⟩ := Label.fieldsWith_inj (Value.table.inj h)
    case typeless => rfl
    case valued shape => exact absurd hType.symm shape.toValue_ne_null
    case complex => simp [bundleValue] at hType
  | .valued _ shape, q, h => by
    cases q <;> obtain ⟨rfl, hType⟩ := Label.fieldsWith_inj (Value.table.inj h)
    case typeless => exact absurd hType shape.toValue_ne_null
    case valued shape' => rw [Shape.toValue_injective hType]
    case complex => exact absurd hType (shape.toValue_ne_bundleValue _ _)
  | .complex _ name properties, q, h => by
    cases q <;> obtain ⟨rfl, hType⟩ := Label.fieldsWith_inj (Value.table.inj h)
    case typeless => simp [bundleValue] at hType
    case valued shape => exact absurd hType.symm (shape.toValue_ne_bundleValue _ _)
    case complex name' properties' =>
      obtain ⟨hName, hProperties⟩ : name = name' ∧
          valuesOfList properties = valuesOfList properties' := by
        simpa [bundleValue] using hType
      rw [hName, valuesOfList_inj hProperties]

theorem valuesOfList_inj : ∀ {ps qs : List Property}, valuesOfList ps = valuesOfList qs → ps = qs
  | [], [], _ => rfl
  | [], _ :: _, h => nomatch h
  | _ :: _, [], h => nomatch h
  | _ :: _, _ :: _, h => by
    obtain ⟨hFirst, hRest⟩ := List.cons.inj h
    rw [toValue_inj hFirst, valuesOfList_inj hRest]

end

end Property

/-! ## Definitions and registries -/

namespace Definition

theorem plain_toValue (d : Definition) : Plain d.toValue := by
  have hClasses := Plain.list_map Plain.text d.applicableClasses
  have hProperties := Plain.list (Property.plain_valuesOfList d.properties)
  cases hGuid : d.guid <;>
    exact .table (by simp [hGuid]) (by simp [hGuid, hClasses, hProperties, Plain.text])

theorem toValue_injective : Function.Injective toValue := by
  rintro ⟨name, version, guid, classes, properties⟩
    ⟨name', version', guid', classes', properties'⟩ h
  have hClasses : (classes.map Value.text = classes'.map Value.text) ↔ classes = classes' :=
    (List.map_injective_iff.2 fun _ _ => Value.text.inj).eq_iff
  have hProperties :
      Property.valuesOfList properties = Property.valuesOfList properties' ↔
        properties = properties' := ⟨Property.valuesOfList_inj, congrArg _⟩
  cases guid <;> cases guid' <;> simp_all [toValue]

end Definition

namespace Edition

theorem plain_toValue (e : Edition) : Plain e.toValue :=
  .table (by simp) (by simp [Plain.text, e.definition.plain_toValue])

theorem toValue_injective : Function.Injective toValue := by
  rintro ⟨folder, definition⟩ ⟨folder', definition'⟩ h
  simp only [toValue, Value.table.injEq, List.cons.injEq, Prod.mk.injEq, Value.text.injEq,
    true_and, and_true] at h
  rw [h.1, Definition.toValue_injective h.2.2]

end Edition

namespace Registry

/-- The names of a registry are different, so they are keys. -/
theorem plain_toValue (r : Registry) : Plain r.toValue := by
  refine .table ?_ fun field hMem => ?_
  · rw [List.map_map]
    exact r.nodup_names
  · obtain ⟨group, -, rfl⟩ := List.mem_map.1 hMem
    exact Plain.list_map Edition.plain_toValue group.2

theorem toValue_injective : Function.Injective toValue := by
  rintro ⟨groups, hAscending⟩ ⟨groups', hAscending'⟩ h
  -- that names ascend is no part of what is written, so the groups are compared alone
  have hGroup : Function.Injective fun group : String × List Edition =>
      (group.1, Value.list (group.2.map Edition.toValue)) := by
    rintro ⟨name, editions⟩ ⟨name', editions'⟩ hSame
    obtain ⟨hName, hEditions⟩ := Prod.mk.inj hSame
    obtain rfl : name = name' := hName
    obtain rfl : editions = editions' :=
      List.map_injective_iff.2 Edition.toValue_injective (Value.list.inj hEditions)
    rfl
  obtain rfl : groups = groups' := List.map_injective_iff.2 hGroup (Value.table.inj h)
  rfl

end Registry

/-- **Nothing is lost in a dump.** Registries with the same dump as JSON are the same: the same
names, and under each the same editions in the same order, with everything in them. -/
theorem Dump.render_json_inj (r r' : Registry) :
    Dump.render r .json = Dump.render r' .json ↔ r = r' := by
  constructor
  · intro h
    exact Registry.toValue_injective (eq_of_render_eq r.plain_toValue r'.plain_toValue h)
  · rintro rfl
    rfl

end PropertySets
