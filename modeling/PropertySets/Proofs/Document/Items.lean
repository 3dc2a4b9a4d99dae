import Mathlib.Data.List.Forall2
import PropertySets.Proofs.Document.Cases

/-!
# The items of an enumeration

An enumeration with literals has their items one group after the other, in document order. The
group of a literal holds the constants that it names up to case, as they are spelled, or the literal
itself if it names none. So no literal is lost, a literal that names several constants has them all,
and if no two constants have one name up to case there is an item for each literal. An enumeration
without literals has an item for each constant.

* `Names`, `Spelled`, `Group` — which items stand for a literal.
* `group_itemsOf` — the items of a literal are such a group.
* `readEnumerated_groups` — the items of an enumeration that is read.
* `constants_stand_in_uncompared` — where constants stand in for literals, their numbers differ.
-/

namespace PropertySets.Document

open Text Xml

/-! ## Names of constants -/

/-- A constant has a name, and that is a literal up to case. -/
def Names (literal : String) (constant : Node) : Prop :=
  ∃ name, constant.child? "Name" = some name ∧ lowercase (contentOf name) = lowercase literal

/-- No two constants have one name up to case. -/
def DistinctNames (constants : List Node) : Prop :=
  constants.Pairwise fun c c' => ∀ name, c.child? "Name" = some name →
    ¬ Names (contentOf name) c'

/-- An item has the name of a constant as it is spelled there, and its localized names. -/
def Spelled (constant : Node) (item : EnumItem) : Prop :=
  ∃ name, constant.child? "Name" = some name ∧ item = ⟨contentOf name, aliases constant⟩

theorem namesLiteral_iff {literal : String} {constant : Node} :
    namesLiteral literal constant = true ↔ Names literal constant := by
  unfold namesLiteral Names
  cases constant.child? "Name" with
  | none => simp
  | some name => simp

instance (literal : String) : DecidablePred (Names literal) := fun _ =>
  decidable_of_iff _ namesLiteral_iff

theorem spelled_constantItem {literal : String} {constant : Node} (h : Names literal constant) :
    Spelled constant (constantItem constant) := by
  obtain ⟨name, hName, -⟩ := h
  exact ⟨name, hName, by rw [constantItem, hName]; rfl⟩

/-! ## The items of a literal -/

/-- The items that stand for a literal: the literal itself if it names no constant, and otherwise
all constants that it names, in document order. -/
inductive Group (constants : List Node) (literal : String) : List EnumItem → Prop
  | raw (unnamed : ∀ c ∈ constants, ¬ Names literal c) : Group constants literal [⟨literal, []⟩]
  | matched {items : List EnumItem} (named : ∃ c ∈ constants, Names literal c)
    (spelled : List.Forall₂ Spelled (constants.filter fun c => Names literal c) items) :
    Group constants literal items

theorem filter_namesLiteral (constants : List Node) (literal : String) :
    constants.filter (namesLiteral literal) = constants.filter fun c => Names literal c :=
  List.filter_congr fun c _ => by rw [Bool.eq_iff_iff, namesLiteral_iff, decide_eq_true_iff]

theorem group_itemsOf (constants : List Node) (literal : String) :
    Group constants literal (itemsOf constants literal) := by
  have hNamed : ∀ c ∈ constants.filter fun c => Names literal c, c ∈ constants ∧ Names literal c :=
    fun c hMem => by rwa [List.mem_filter, decide_eq_true_iff] at hMem
  rw [itemsOf, filter_namesLiteral]
  split
  · rename_i hNone
    refine .raw fun c hMem hNames => ?_
    exact List.filter_eq_nil_iff.1 hNone c hMem (decide_eq_true hNames)
  · rename_i hSome
    obtain ⟨c, hMem⟩ := List.exists_mem_of_ne_nil _ hSome
    refine .matched ⟨c, hNamed c hMem⟩ ?_
    rw [List.forall₂_map_right_iff, List.forall₂_same]
    exact fun c hMem => spelled_constantItem (hNamed c hMem).2

theorem Group.ne_nil {constants : List Node} {literal : String} {items : List EnumItem}
    (h : Group constants literal items) : items ≠ [] := by
  rintro rfl
  cases h with
  | matched hNamed hSpelled =>
    obtain ⟨c, hMem, hNames⟩ := hNamed
    have hNone := List.forall₂_nil_right_iff.1 hSpelled
    exact List.filter_eq_nil_iff.1 hNone c hMem (decide_eq_true hNames)

/-- Of constants with different names, no more than one is named by a literal. -/
theorem length_filter_names_le {constants : List Node} (h : DistinctNames constants)
    (literal : String) : (constants.filter fun c => Names literal c).length ≤ 1 := by
  have hDistinct : DistinctNames (constants.filter fun c => Names literal c) := h.filter _
  have hNamed : ∀ c ∈ constants.filter fun c => Names literal c, Names literal c :=
    fun c hMem => of_decide_eq_true (List.mem_filter.1 hMem).2
  generalize constants.filter (fun c => Names literal c) = matching at hDistinct hNamed
  match matching with
  | [] => exact Nat.zero_le 1
  | [c] => exact Nat.le_refl 1
  | c :: c' :: rest =>
    -- the names of the first two would be the literal up to case, so they would be one
    obtain ⟨name, hName, hSame⟩ := hNamed c List.mem_cons_self
    obtain ⟨name', hName', hSame'⟩ := hNamed c' (List.mem_cons_of_mem _ List.mem_cons_self)
    have hApart := (List.pairwise_cons.1 hDistinct).1 c' List.mem_cons_self name hName
    exact absurd ⟨name', hName', hSame'.trans hSame.symm⟩ hApart

theorem Group.length_eq_one {constants : List Node} {literal : String} {items : List EnumItem}
    (h : Group constants literal items) (hDistinct : DistinctNames constants) :
    items.length = 1 := by
  refine Nat.le_antisymm ?_ (List.length_pos_iff.2 h.ne_nil)
  cases h with
  | raw => exact Nat.le_refl 1
  | matched _ hSpelled =>
    rw [← hSpelled.length_eq]
    exact length_filter_names_le hDistinct literal

/-! ## The items of an enumeration -/

/-- Groups of one item each have as many items as there are literals. -/
theorem length_flatten_groups {constants : List Node} (hDistinct : DistinctNames constants)
    {literals : List String} {groups : List (List EnumItem)}
    (h : List.Forall₂ (Group constants) literals groups) :
    groups.flatten.length = literals.length := by
  induction h with
  | nil => rfl
  | cons hFirst _ ih =>
    rw [List.flatten_cons, List.length_append, hFirst.length_eq_one hDistinct, ih,
      List.length_cons, Nat.add_comm]

/-- With literals, an enumeration that is read has the items of each in order, and the numbers of
literals and constants are compared. -/
theorem readEnumerated_of_literals {source path propertyName : String} {n : Node} {shape : Shape}
    (hLiterals : literalsOf n ≠ [])
    (h : (readEnumerated source path propertyName n).1 = some shape) :
    ∃ name, shape = .enumerated name ((literalsOf n).flatMap (itemsOf (constantsOf n))) ∧
      (readEnumerated source path propertyName n).2 =
        if (n.child? "ConstantList").isSome ∧ (constantsOf n).length ≠ (literalsOf n).length then
          [.enumMismatch source path (literalsOf n).length (constantsOf n).length]
        else [] := by
  -- with literals and a shape only the last case is left
  rcases readEnumerated_cases source path propertyName n with
    ⟨hNone, -, -⟩ | ⟨hNone, -, -⟩ | ⟨-, -, hRead⟩ | ⟨name, -, -, hRead⟩
  · exact absurd hNone hLiterals
  · exact absurd hNone hLiterals
  · rw [hRead] at h
    cases h
  · rw [hRead] at h ⊢
    obtain rfl := Option.some.inj h
    exact ⟨name, rfl, rfl⟩

/-- Without literals, an enumeration that is read has the items of the constants. -/
theorem readEnumerated_of_constants {source path propertyName : String} {n : Node} {shape : Shape}
    (hLiterals : literalsOf n = [])
    (h : (readEnumerated source path propertyName n).1 = some shape) :
    constantsOf n ≠ [] ∧
      shape = .enumerated ("PEnum_" ++ propertyName) ((constantsOf n).map constantItem) ∧
      (readEnumerated source path propertyName n).2.map (·.code) = [.enumListEmpty] := by
  rcases readEnumerated_cases source path propertyName n with
    ⟨-, -, hRead⟩ | ⟨-, hConstants, hRead⟩ | ⟨hSome, -, -⟩ | ⟨name, hSome, -, -⟩
  · rw [hRead] at h
    cases h
  · rw [hRead] at h ⊢
    obtain rfl := Option.some.inj h
    exact ⟨hConstants, rfl, rfl⟩
  · exact absurd hLiterals hSome
  · exact absurd hLiterals hSome

/-- **The items of an enumeration.** An enumeration that is read has items. If the type element has
literals, the items fall into groups, one for each literal and in their order, and there is one flaw
if there is a constant list with another number of constants, and none otherwise; with different
names of the constants there are as many items as literals. If it has no literals, the items are
those of the constants, the enumeration is named after the property, and this is the one flaw. -/
theorem readEnumerated_groups {source path propertyName : String} {n : Node} {shape : Shape}
    (h : (readEnumerated source path propertyName n).1 = some shape) :
    ∃ name items, shape = .enumerated name items ∧ items ≠ [] ∧
      (literalsOf n ≠ [] →
        (∃ groups : List (List EnumItem), items = groups.flatten ∧
          List.Forall₂ (Group (constantsOf n)) (literalsOf n) groups ∧ ∀ g ∈ groups, g ≠ []) ∧
        (readEnumerated source path propertyName n).2 =
          (if (n.child? "ConstantList").isSome ∧ (constantsOf n).length ≠ (literalsOf n).length then
            [.enumMismatch source path (literalsOf n).length (constantsOf n).length]
          else []) ∧
        (DistinctNames (constantsOf n) → items.length = (literalsOf n).length)) ∧
      (literalsOf n = [] → name = "PEnum_" ++ propertyName ∧
        items = (constantsOf n).map constantItem ∧
        (readEnumerated source path propertyName n).2.map (·.code) = [.enumListEmpty]) := by
  by_cases hLiterals : literalsOf n = []
  · obtain ⟨hConstants, rfl, hFlaws⟩ := readEnumerated_of_constants hLiterals h
    exact ⟨_, _, rfl, mt List.map_eq_nil_iff.1 hConstants, fun hSome => absurd hLiterals hSome,
      fun _ => ⟨rfl, rfl, hFlaws⟩⟩
  · obtain ⟨name, rfl, hFlaws⟩ := readEnumerated_of_literals hLiterals h
    let groups : List (List EnumItem) := (literalsOf n).map (itemsOf (constantsOf n))
    have hGroups : List.Forall₂ (Group (constantsOf n)) (literalsOf n) groups :=
      List.forall₂_map_right_iff.2 (List.forall₂_same.2 fun literal _ => group_itemsOf _ literal)
    have hFilled : ∀ g ∈ groups, g ≠ [] := by
      intro g hMem
      obtain ⟨literal, -, rfl⟩ := List.mem_map.1 hMem
      exact (group_itemsOf _ literal).ne_nil
    have hItems : (literalsOf n).flatMap (itemsOf (constantsOf n)) = groups.flatten :=
      List.flatMap_def
    refine ⟨name, _, rfl, fun hNone => ?_, fun _ => ⟨⟨groups, hItems, hGroups, hFilled⟩, hFlaws,
      fun hDistinct => ?_⟩, fun hNone => absurd hNone hLiterals⟩
    · -- there is a literal, and its group has an item
      obtain ⟨literal, hMem⟩ := List.exists_mem_of_ne_nil _ hLiterals
      exact (group_itemsOf _ literal).ne_nil (List.flatMap_eq_nil_iff.1 hNone literal hMem)
    · rw [hItems]
      exact length_flatten_groups hDistinct hGroups

/-- An element without a namespace and with text. -/
def textElement (name : String) (text : String) : Node :=
  .element ⟨"", none, name⟩ [] [.text text.toList]

/-- A type element with four literals, of which two name the same two constants, and with a constant
without a name. -/
def stateType : Node :=
  .element ⟨"", none, "TypePropertyEnumeratedValue"⟩ [] [
    .element ⟨"", none, "EnumList"⟩ [⟨none, "name", "State"⟩]
      (["NEW", "other", "7", "new"].map (textElement "EnumItem")),
    .element ⟨"", none, "ConstantList"⟩ [] [
      .element ⟨"", none, "ConstantDef"⟩ [] [textElement "Name" "New",
        .element ⟨"", none, "NameAliases"⟩ [] [
          .element ⟨"", none, "NameAlias"⟩ [⟨none, "lang", "de"⟩] [.text "Neu".toList]]],
      .element ⟨"", none, "ConstantDef"⟩ [] [],
      .element ⟨"", none, "ConstantDef"⟩ [] [textElement "Name" "NEW"]]]

/-- The items of the element fall into groups of two, one, one and two. -/
theorem stateType_grouped :
    (readEnumerated "psd" "A.P" "P" stateType).1 =
      some (.enumerated "State" [⟨"New", [⟨"Neu", "de"⟩]⟩, ⟨"NEW", []⟩, ⟨"other", []⟩, ⟨"7", []⟩,
        ⟨"New", [⟨"Neu", "de"⟩]⟩, ⟨"NEW", []⟩]) ∧
    (∃ groups : List (List EnumItem), groups.flatten.length = 6 ∧
      List.Forall₂ (Group (constantsOf stateType)) ["NEW", "other", "7", "new"] groups) ∧
    (readEnumerated "psd" "A.P" "P" stateType).2 = [.enumMismatch "psd" "A.P" 4 3] := by
  have hRead : (readEnumerated "psd" "A.P" "P" stateType).1 =
      some (.enumerated "State" [⟨"New", [⟨"Neu", "de"⟩]⟩, ⟨"NEW", []⟩, ⟨"other", []⟩, ⟨"7", []⟩,
        ⟨"New", [⟨"Neu", "de"⟩]⟩, ⟨"NEW", []⟩]) := by decide +kernel
  have hLiterals : literalsOf stateType = ["NEW", "other", "7", "new"] := by decide +kernel
  obtain ⟨name, items, hShape, -, hGrouped, -⟩ := readEnumerated_groups hRead
  obtain ⟨-, rfl⟩ := Shape.enumerated.inj hShape
  -- the groups come from the general statement, the items from evaluation
  obtain ⟨⟨groups, hItems, hGroups, -⟩, hFlaws, -⟩ := hGrouped (by rw [hLiterals]; decide)
  rw [hLiterals] at hGroups hFlaws
  refine ⟨hRead, ⟨groups, by rw [← hItems]; rfl, hGroups⟩, hFlaws.trans ?_⟩
  decide +kernel

/-- A type element without literals, with one constant. -/
def sideType : Node :=
  .element ⟨"", none, "TypePropertyEnumeratedValue"⟩ [] [
    .element ⟨"", none, "ConstantList"⟩ [] [
      .element ⟨"", none, "ConstantDef"⟩ [] [textElement "Name" "LEFT"]]]

/-- Without literals the constants stand in for them and are not counted against them: of the
element above one item is read for no literal, and no mismatch is reported. -/
theorem constants_stand_in_uncompared :
    ¬ (∀ (source path propertyName name : String) (n : Node) (items : List EnumItem),
      (readEnumerated source path propertyName n).1 = some (.enumerated name items) →
      ((readEnumerated source path propertyName n).2.countP (·.code == .enumConstantMismatch) = 1 ↔
        (n.child? "ConstantList").isSome ∧
          (constantsOf n).length ≠ (literalsOf n).length)) ∧
    ¬ (∀ (source path propertyName name : String) (n : Node) (items : List EnumItem),
      (readEnumerated source path propertyName n).1 = some (.enumerated name items) →
      DistinctNames (constantsOf n) → items.length = (literalsOf n).length) := by
  have hRead : (readEnumerated "psd" "A.P" "P" sideType).1 =
      some (.enumerated "PEnum_P" [⟨"LEFT", []⟩]) := by decide +kernel
  have hLiterals : literalsOf sideType = [] := by decide +kernel
  constructor
  · intro hCompared
    -- there is a constant list with one constant more than there are literals
    have hReported := (hCompared _ _ _ _ sideType _ hRead).2
      ⟨by decide +kernel, by rw [hLiterals]; decide +kernel⟩
    revert hReported
    decide +kernel
  · intro hCounted
    have hConstants : constantsOf sideType =
        [.element ⟨"", none, "ConstantDef"⟩ [] [textElement "Name" "LEFT"]] := rfl
    have hCount := hCounted _ _ _ _ sideType _ hRead (by
      rw [hConstants]
      exact List.pairwise_singleton _ _)
    rw [hLiterals] at hCount
    cases hCount

end PropertySets.Document
