import PropertySets.Proofs.Document.Cases

/-!
# Nothing is lost silently when a document is read

A reader that leaves something out reports exactly one omission for it. This module counts: the
omissions of a document that yields a definition are the visited `PropertyDef` elements without a
name and the properties, at every level of the definition, that were left without a type. A
document that yields none has a single omission.

* `Property.withNested`, `Definition.allProperties` — the properties at every level.
* `Document.visited` — the `PropertyDef` elements that a reader looks at.
* `omissions_readShape`, `omissions_readProperty` — the counts of the readers.
* `read_reports_every_omission` — the count for a whole document.
-/

namespace PropertySets

/-! ## Properties at every level -/

namespace Property

mutual

/-- The property and every property inside it, in document order. -/
def withNested : Property → List Property
  | typeless l => [typeless l]
  | valued l shape => [valued l shape]
  | complex l name properties => complex l name properties :: withNestedOfList properties

/-- The properties of a list and every property inside them, in document order. -/
def withNestedOfList : List Property → List Property
  | [] => []
  | p :: ps => withNested p ++ withNestedOfList ps

end

/-- Was the property left without a type? -/
def isTypeless (p : Property) : Bool := p.type?.isNone

theorem withNestedOfList_append (ps qs : List Property) :
    withNestedOfList (ps ++ qs) = withNestedOfList ps ++ withNestedOfList qs := by
  induction ps with
  | nil => rfl
  | cons p rest ih =>
    rw [List.cons_append, withNestedOfList, withNestedOfList, ih, List.append_assoc]

end Property

/-- The properties of a definition at every level, in document order. -/
def Definition.allProperties (d : Definition) : List Property :=
  Property.withNestedOfList d.properties

/-! ## Counting omissions -/

namespace Diagnostics

theorem omissions_append (ds es : Diagnostics) :
    omissions (ds ++ es) = omissions ds ++ omissions es :=
  List.filter_append ds es

theorem hasOmissions_eq_false_iff {ds : Diagnostics} :
    ds.hasOmissions = false ↔ omissions ds = [] := by
  rw [hasOmissions, List.any_eq_false, omissions, withSeverity, List.filter_eq_nil_iff]

/-- A single flaw is counted if and only if its severity is that of an omission. -/
theorem length_omissions_singleton (d : Diagnostic) :
    (omissions [d]).length = if d.severity = .omission then 1 else 0 := by
  rw [omissions, withSeverity, List.filter_cons, List.filter_nil]
  by_cases hOmission : d.severity = .omission
  · rw [if_pos hOmission, hOmission]
    rfl
  · rw [if_neg hOmission, if_neg (by rw [beq_iff_eq]; exact hOmission)]
    rfl

theorem omissions_singleton_ne_nil {d : Diagnostic} (h : d.severity = .omission) :
    omissions [d] ≠ [] := by
  intro hNil
  have hLength := length_omissions_singleton d
  rw [hNil, if_pos h] at hLength
  cases hLength

end Diagnostics

namespace Document

open Xml Diagnostics

/-! ## Visited elements -/

/-- The `PropertyDef` elements that a `PropertyDef` bundles: those of its type element, if that is
a complex property with a name attribute. -/
def bundled (n : Node) : List Node :=
  match typeElement? n with
  | none => []
  | some type =>
    if type.localName = "TypeComplexProperty" ∧ (type.attribute? "name").isSome then
      type.childrenNamed "PropertyDef"
    else []

/-- A visited `PropertyDef` and those visited below it, `depth` complex levels being opened. -/
def visitedFrom : Nat → Node → List Node
  | 0, n => [n]
  | depth + 1, n =>
    n :: if (name? n).isSome then (bundled n).flatMap (visitedFrom depth) else []

/-- The `PropertyDef` elements visited in a document with this root element. -/
def visited (root : Node) : List Node :=
  (((root.child? "PropertyDefs").map fun d => d.childrenNamed "PropertyDef").getD []).flatMap
    (visitedFrom complexDepth)

/-- Does an element lack a name? -/
def isNameless (n : Node) : Bool := (name? n).isNone

/-! ## Readers of value shapes -/

/-- How many omissions a reader owes for what it read: one if it read nothing. -/
def owed {α : Type} (read? : Option α) : Nat := if read?.isNone then 1 else 0

theorem omissions_readSingle (source path : String) (n : Node) :
    (omissions (readSingle source path n).2).length = 0 := by
  unfold readSingle
  split
  · rfl
  · -- the replaced data type is a warning
    exact length_omissions_singleton _

theorem omissions_readReference (source path : String) (n : Node) :
    (omissions (readReference source path n).2).length = owed (readReference source path n).1 := by
  unfold readReference
  -- whichever place decides, the entity is there or it is reported
  cases n.child? "DataType" with
  | some t =>
    dsimp only
    cases dataType? t with
    | some entity => rfl
    | none => exact length_omissions_singleton _
  | none =>
    dsimp only
    cases filledAttribute? n "reftype" with
    | some entity => rfl
    | none => exact length_omissions_singleton _

theorem omissions_readEnumerated (source path propertyName : String) (n : Node) :
    (omissions (readEnumerated source path propertyName n).2).length =
      owed (readEnumerated source path propertyName n).1 := by
  rcases readEnumerated_cases source path propertyName n with
    ⟨-, -, hRead⟩ | ⟨-, -, hRead⟩ | ⟨-, -, hRead⟩ | ⟨name, -, -, hRead⟩
  · rw [hRead]
    exact length_omissions_singleton _
  · rw [hRead]
    exact length_omissions_singleton _
  · rw [hRead]
    exact length_omissions_singleton _
  · -- different counts are a warning, and the enumeration is kept
    rw [hRead]
    dsimp only
    split
    · exact length_omissions_singleton _
    · rfl

/-- A shape that cannot be read is reported by exactly one omission, whichever type it has. -/
theorem omissions_readShape (source path propertyName : String) (n : Node) :
    (omissions (readShape source path propertyName n).2).length =
      owed (readShape source path propertyName n).1 := by
  unfold readShape
  split
  · exact omissions_readSingle source path n
  · exact omissions_readReference source path n
  · exact omissions_readEnumerated source path propertyName n
  · rfl
  · rfl
  · rfl
  · exact length_omissions_singleton _

/-! ## Properties -/

/-- What is owed for elements that were visited and properties that were read: an omission for
each element without a name and each property without a type. -/
def debt (elements : List Node) (properties : List Property) : Nat :=
  (elements.filter isNameless).length +
    ((Property.withNestedOfList properties).filter Property.isTypeless).length

theorem debt_append (ns ms : List Node) (ps qs : List Property) :
    debt (ns ++ ms) (ps ++ qs) = debt ns ps + debt ms qs := by
  simp only [debt, List.filter_append, Property.withNestedOfList_append, List.length_append]
  omega

/-- What is owed for several readers is what is owed for each of them. -/
theorem omissions_gather {visits : Node → List Node} {reader : Node → Option Property × Diagnostics}
    (hReader : ∀ n, (omissions (reader n).2).length = debt (visits n) (reader n).1.toList)
    (ns : List Node) :
    (omissions (gather (ns.map reader)).2).length =
      debt (ns.flatMap visits) (gather (ns.map reader)).1 := by
  induction ns with
  | nil => rfl
  | cons n rest ih =>
    -- what the first reader gives and reports stands in front
    have hProperties : (gather ((n :: rest).map reader)).1 =
        (reader n).1.toList ++ (gather (rest.map reader)).1 := by
      rw [gather, gather, List.map_cons, List.filterMap_cons]
      cases (reader n).1 with
      | none => rfl
      | some p => rfl
    have hFlaws : (gather ((n :: rest).map reader)).2 =
        (reader n).2 ++ (gather (rest.map reader)).2 := rfl
    rw [hProperties, hFlaws, omissions_append, List.length_append, List.flatMap_cons, debt_append,
      hReader, ih]

theorem isNameless_of_name {n : Node} {name : String} (hName : name? n = some name) :
    isNameless n = false := by
  rw [isNameless, hName]
  rfl

/-- A named element owes nothing itself. -/
theorem debt_cons_of_named {n : Node} {name : String} (hName : name? n = some name)
    (ns : List Node) (ps : List Property) : debt (n :: ns) ps = debt ns ps := by
  have hNamed : ¬ isNameless n = true := by
    rw [isNameless_of_name hName]
    exact Bool.false_ne_true
  rw [debt, debt, List.filter_cons_of_neg hNamed]

/-- A property with a shape owes nothing, and one without owes an omission. -/
theorem debt_ofType (l : Label) (shape? : Option Shape) :
    debt [] [.ofType l (shape?.map .value)] = owed shape? := by
  cases shape? with
  | none => rfl
  | some shape => rfl

/-- A complex property owes what the properties in it owe. -/
theorem debt_complex (ns : List Node) (l : Label) (name : String) (ps : List Property) :
    debt ns [.complex l name ps] = debt ns ps := by
  have hNested : Property.withNestedOfList [.complex l name ps] =
      .complex l name ps :: Property.withNestedOfList ps := by
    rw [Property.withNestedOfList, Property.withNested, Property.withNestedOfList,
      List.append_nil]
  rw [debt, debt, hNested]
  rfl

/-- Nothing is visited below a property that is not complex or whose type has no name. -/
theorem visitedFrom_of_bundled_eq_nil {n : Node} (hNone : bundled n = []) (depth : Nat) :
    visitedFrom depth n = [n] := by
  cases depth with
  | zero => rfl
  | succ d => rw [visitedFrom, hNone, List.flatMap_nil, ite_self]

/-- A property that is read reports what it owes, however deep complex properties are opened. -/
theorem omissions_readProperty (source : String) (depth : Nat) (owner : String) (n : Node) :
    (omissions (readProperty source depth owner n).2).length =
      debt (visitedFrom depth n) (readProperty source depth owner n).1.toList := by
  induction depth, owner, n using readProperty_induction source with
  | @nameless depth owner n hName hRead =>
    have hVisited : visitedFrom depth n = [n] := by
      cases depth with
      | zero => rfl
      | succ d => rw [visitedFrom, hName]; rfl
    have hNameless : isNameless n = true := by rw [isNameless, hName]; rfl
    rw [hRead, hVisited, debt, List.filter_cons_of_pos hNameless]
    exact length_omissions_singleton _
  | @untyped depth owner name n hName hType hRead =>
    have hNone : bundled n = [] := by rw [bundled, hType]
    rw [hRead, visitedFrom_of_bundled_eq_nil hNone, Option.toList_some, debt_cons_of_named hName]
    exact length_omissions_singleton _
  | @unnamed depth owner name n type hName hType _ hAttribute hRead =>
    have hNone : bundled n = [] := by simp [bundled, hType, hAttribute]
    rw [hRead, visitedFrom_of_bundled_eq_nil hNone, Option.toList_some, debt_cons_of_named hName]
    exact length_omissions_singleton _
  | closed hName _ _ _ hRead =>
    -- no level is left to open: nothing below is visited, and nothing is read
    rw [hRead, visitedFrom, Option.toList_some, debt_complex, debt_cons_of_named hName]
    rfl
  | @opened depth owner name typeName n type hName hType hComplex hAttribute hRead ih =>
    have hBundled : bundled n = type.childrenNamed "PropertyDef" := by
      simp [bundled, hType, hAttribute, hComplex]
    rw [hRead, visitedFrom, hName, Option.isSome_some, if_pos rfl, hBundled, Option.toList_some,
      debt_complex, debt_cons_of_named hName]
    exact omissions_gather ih _
  | @shaped depth owner name n type hName hType hNotComplex hRead =>
    have hNone : bundled n = [] := by simp [bundled, hType, hNotComplex]
    rw [hRead, visitedFrom_of_bundled_eq_nil hNone, Option.toList_some, debt_cons_of_named hName,
      debt_ofType]
    exact omissions_readShape source (owner ++ "." ++ name) name type

/-! ## Documents -/

theorem readElement_of_none {folder source : String} {root : Node}
    (hNone : (readElement folder source root).1 = none) :
    ∃ flaw, (readElement folder source root).2 = [flaw] ∧ flaw.severity = .omission := by
  rcases readElement_cases source root with
    ⟨flaw, -, hSeverity, hRead⟩ | ⟨name, raw, -, -, -, hRead⟩
  · rw [hRead folder]
    exact ⟨flaw, rfl, hSeverity⟩
  · rw [hRead folder] at hNone
    exact absurd hNone (Option.some_ne_none _)

theorem readElement_of_some {folder source : String} {root : Node} {d : Definition}
    (hSome : (readElement folder source root).1 = some d) :
    (omissions (readElement folder source root).2).length = debt (visited root) d.properties := by
  rcases readElement_cases source root with ⟨flaw, -, -, hRead⟩ | ⟨name, raw, -, -, -, hRead⟩
  · rw [hRead folder] at hSome
    exact absurd hSome.symm (Option.some_ne_none d)
  · rw [hRead folder] at hSome ⊢
    obtain rfl := Option.some.inj hSome
    exact omissions_gather (omissions_readProperty source complexDepth name) _

/-- A document that yields no definition is reported by one omission. -/
theorem read_of_none {text folder source : String} (hNone : (read text folder source).1 = none) :
    ∃ flaw, (read text folder source).2 = [flaw] ∧ flaw.severity = .omission := by
  rcases read_cases text source with ⟨flaw, -, hSeverity, hRead⟩ | ⟨root, -, hRead⟩
  · rw [hRead folder]
    exact ⟨flaw, rfl, hSeverity⟩
  · rw [hRead folder] at hNone ⊢
    exact readElement_of_none hNone

/-- A document that yields a definition reports what its elements and properties owe. -/
theorem read_of_some {text folder source : String} {d : Definition}
    (hSome : (read text folder source).1 = some d) :
    ∃ root, readDocument (dropMark (dropMark text.toList)) = .ok root ∧
      (omissions (read text folder source).2).length = debt (visited root) d.properties := by
  rcases read_cases text source with ⟨flaw, -, -, hRead⟩ | ⟨root, hDocument, hRead⟩
  · rw [hRead folder] at hSome
    exact absurd hSome.symm (Option.some_ne_none d)
  · rw [hRead folder] at hSome ⊢
    exact ⟨root, hDocument, readElement_of_some hSome⟩

/--
**Nothing is lost silently.** Reading a document only appends flaws to those gathered before.

1. A document without a definition appends exactly one flaw, an omission.
2. A document with a definition appends one omission for each visited `PropertyDef` without a name
   and one for each property, at any level of the definition, that has no type.
-/
theorem read_reports_every_omission (text folder source : String) :
    ∃ appended : Diagnostics,
      (∀ (folders : Nat) (earlier : List Reading),
        (gatherReadings folders (earlier ++
          [⟨folder, (read text folder source).1, (read text folder source).2⟩])).flaws =
            (gatherReadings folders earlier).flaws ++ appended) ∧
      ((read text folder source).1 = none →
        ∃ flaw, appended = [flaw] ∧ flaw.severity = .omission) ∧
      ∀ d, (read text folder source).1 = some d →
        ∃ root, readDocument (dropMark (dropMark text.toList)) = .ok root ∧
          (omissions appended).length =
            ((visited root).filter fun n => (name? n).isNone).length +
              (d.allProperties.filter fun p => p.type?.isNone).length := by
  refine ⟨(read text folder source).2, fun folders earlier => ?_, read_of_none,
    fun d hSome => read_of_some hSome⟩
  -- the flaws of readings are put together in order
  simp [gatherReadings]

end Document

end PropertySets
