import PropertySets.Scan

/-!
# What a reader does, case by case

The readers of documents go through nested matches, and whatever is said of them later, of their
flaws, of the properties or of the items, is said for the same few cases. Each reader is opened here
once: its cases are named by what the document holds, with all that was checked on the way and with
the result as an equation.

* `typeElement?`, `literalsOf`, `constantsOf`, `propertyDefs` — what the readers look for.
* `readEnumerated_cases` — the literals count if there are any, and the constants otherwise.
* `readProperty_induction` — a complex property is opened as long as a level is left, and the
  properties in it are one level lower.
* `readElement_cases`, `read_cases`, `parseBytes_cases` — one omission and no definition, or a
  definition; the schema folder decides about its version only.
-/

namespace PropertySets

namespace Document

open Xml

/-! ## Parts of a document -/

/-- The type element of a `PropertyDef`. -/
def typeElement? (n : Node) : Option Node := (n.child? "PropertyType").bind Node.firstElement?

/-- The texts of the `EnumItem` elements in a type element. -/
def literalsOf (n : Node) : List String := (n.descendantsNamed "EnumItem").map contentOf

/-- The `ConstantDef` elements of the first constant list. -/
def constantsOf (n : Node) : List Node :=
  ((n.child? "ConstantList").map fun l => l.childrenNamed "ConstantDef").getD []

/-- The `PropertyDef` elements below `PropertyDefs`. -/
def propertyDefs (root : Node) : List Node :=
  ((root.child? "PropertyDefs").map fun d => d.childrenNamed "PropertyDef").getD []

/-! ## Enumerations -/

/-- An enumeration is read from its literals, or from the constants if there are no literals; it is
left out if there is neither, or if literals come without the name of their list. -/
theorem readEnumerated_cases (source path propertyName : String) (n : Node) :
    (literalsOf n = [] ∧ constantsOf n = [] ∧
      readEnumerated source path propertyName n = (none, [.of source .emptyEnumeration
        ("Enumeration of " ++ path ++ " has neither EnumItems nor ConstantDefs")])) ∨
    (literalsOf n = [] ∧ constantsOf n ≠ [] ∧
      readEnumerated source path propertyName n =
        (some (.enumerated ("PEnum_" ++ propertyName) ((constantsOf n).map constantItem)),
          [.of source .enumListEmpty
            ("EnumList of " ++ path ++ " is empty, items taken from ConstantList")])) ∨
    (literalsOf n ≠ [] ∧ ((n.child? "EnumList").bind fun l => l.attribute? "name") = none ∧
      readEnumerated source path propertyName n =
        (none, [.missingField source path "EnumList@name"])) ∨
    ∃ name, literalsOf n ≠ [] ∧
      ((n.child? "EnumList").bind fun l => l.attribute? "name") = some name ∧
      readEnumerated source path propertyName n =
        (some (.enumerated name ((literalsOf n).flatMap (itemsOf (constantsOf n)))),
          if (n.child? "ConstantList").isSome ∧ (constantsOf n).length ≠ (literalsOf n).length then
            [.enumMismatch source path (literalsOf n).length (constantsOf n).length]
          else []) := by
  -- a case for each way through the reader
  fun_cases readEnumerated source path propertyName n with
  | case1 literals _ constants hLiterals hConstants =>
    exact .inl ⟨List.isEmpty_iff.1 hLiterals, List.isEmpty_iff.1 hConstants, rfl⟩
  | case2 literals _ constants hLiterals hConstants =>
    exact .inr (.inl ⟨List.isEmpty_iff.1 hLiterals, mt List.isEmpty_iff.2 hConstants, rfl⟩)
  | case3 literals hLiterals hName =>
    exact .inr (.inr (.inl ⟨mt List.isEmpty_iff.2 hLiterals, hName, rfl⟩))
  | case4 literals _ constants hLiterals name hName =>
    exact .inr (.inr (.inr ⟨name, mt List.isEmpty_iff.2 hLiterals, hName, rfl⟩))

/-! ## Properties -/

/-- A type element that is not complex is left to the reader of shapes. -/
theorem readProperty_of_shape {source owner name : String} {depth : Nat} {n type : Node}
    (hName : name? n = some name) (hType : typeElement? n = some type)
    (hShape : type.localName ≠ "TypeComplexProperty") :
    readProperty source depth owner n =
      (some (.ofType ⟨name, n.attribute? "ifdguid", aliases n⟩
        ((readShape source (owner ++ "." ++ name) name type).1.map .value)),
        (readShape source (owner ++ "." ++ name) name type).2) := by
  rw [typeElement?] at hType
  unfold readProperty
  simp only [hName, hType, if_neg hShape]

/-- Induction along the reader of properties. Lean derives no such principle by itself, since the
reader recurs inside the mapping over the elements of a complex type. -/
theorem readProperty_induction (source : String) {motive : Nat → String → Node → Prop}
    (nameless : ∀ {depth : Nat} {owner : String} {n : Node}, name? n = none →
      readProperty source depth owner n =
        (none, [.missingField source owner "PropertyDef/Name"]) →
      motive depth owner n)
    (untyped : ∀ {depth : Nat} {owner name : String} {n : Node}, name? n = some name →
      typeElement? n = none →
      readProperty source depth owner n =
        (some (.typeless ⟨name, n.attribute? "ifdguid", aliases n⟩),
          [.of source .missingPropertyType
            ("Missing PropertyType for " ++ (owner ++ "." ++ name))]) →
      motive depth owner n)
    (unnamed : ∀ {depth : Nat} {owner name : String} {n type : Node}, name? n = some name →
      typeElement? n = some type → type.localName = "TypeComplexProperty" →
      type.attribute? "name" = none →
      readProperty source depth owner n =
        (some (.typeless ⟨name, n.attribute? "ifdguid", aliases n⟩),
          [.missingField source (owner ++ "." ++ name) "TypeComplexProperty@name"]) →
      motive depth owner n)
    (closed : ∀ {owner name typeName : String} {n type : Node}, name? n = some name →
      typeElement? n = some type → type.localName = "TypeComplexProperty" →
      type.attribute? "name" = some typeName →
      readProperty source 0 owner n =
        (some (.complex ⟨name, n.attribute? "ifdguid", aliases n⟩ typeName []), []) →
      motive 0 owner n)
    (opened : ∀ {depth : Nat} {owner name typeName : String} {n type : Node}, name? n = some name →
      typeElement? n = some type → type.localName = "TypeComplexProperty" →
      type.attribute? "name" = some typeName →
      readProperty source (depth + 1) owner n =
        (some (.complex ⟨name, n.attribute? "ifdguid", aliases n⟩ typeName
          (gather ((type.childrenNamed "PropertyDef").map
            (readProperty source depth (owner ++ "." ++ name)))).1),
          (gather ((type.childrenNamed "PropertyDef").map
            (readProperty source depth (owner ++ "." ++ name)))).2) →
      (∀ m, motive depth (owner ++ "." ++ name) m) → motive (depth + 1) owner n)
    (shaped : ∀ {depth : Nat} {owner name : String} {n type : Node}, name? n = some name →
      typeElement? n = some type → type.localName ≠ "TypeComplexProperty" →
      readProperty source depth owner n =
        (some (.ofType ⟨name, n.attribute? "ifdguid", aliases n⟩
          ((readShape source (owner ++ "." ++ name) name type).1.map .value)),
          (readShape source (owner ++ "." ++ name) name type).2) →
      motive depth owner n)
    (depth : Nat) (owner : String) (n : Node) : motive depth owner n := by
  -- on the levels that are left, of which only the case of an opened type takes one
  induction depth using Nat.strongRecOn generalizing owner n with
  | ind depth ih =>
    cases hName : name? n with
    | none => exact nameless hName (by unfold readProperty; rw [hName])
    | some name =>
      cases hType : (n.child? "PropertyType").bind Node.firstElement? with
      | none => exact untyped hName hType (by unfold readProperty; simp only [hName, hType])
      | some type =>
        by_cases hComplex : type.localName = "TypeComplexProperty"
        · cases hAttribute : type.attribute? "name" with
          | none =>
            refine unnamed hName hType hComplex hAttribute ?_
            unfold readProperty
            simp only [hName, hType, if_pos hComplex, hAttribute]
          | some typeName =>
            cases depth with
            | zero =>
              refine closed hName hType hComplex hAttribute ?_
              unfold readProperty
              simp only [hName, hType, if_pos hComplex, hAttribute]
            | succ d =>
              refine opened hName hType hComplex hAttribute ?_ (ih d d.lt_succ_self _)
              unfold readProperty
              simp only [hName, hType, if_pos hComplex, hAttribute]
        · exact shaped hName hType hComplex (readProperty_of_shape hName hType hComplex)

/-! ## Documents -/

/-- A root element has a definition with its name and with the properties of its elements, or there
is one omission. The folder decides about the version of the definition only. -/
theorem readElement_cases (source : String) (root : Node) :
    (∃ flaw : Diagnostic, flaw.source = source ∧ flaw.severity = .omission ∧
      ∀ folder, readElement folder source root = (none, [flaw])) ∨
    ∃ name raw, root.localName = "PropertySetDef" ∧ name? root = some name ∧
      ((root.child? "IfcVersion").bind fun v => v.attribute? "version") = some raw ∧
      let inner := gather ((propertyDefs root).map (readProperty source complexDepth name))
      ∀ folder, readElement folder source root =
        (some ⟨name, normalizeVersion raw folder, root.attribute? "ifdguid",
          (root.descendantsNamed "ClassName").map fun n => Naming.className (contentOf n), inner.1⟩,
          inner.2) := by
  -- the checks are made one after the other, and the first that fails is reported
  by_cases hRoot : root.localName = "PropertySetDef"
  · have hSet : ¬ root.localName ≠ "PropertySetDef" := not_not_intro hRoot
    cases hName : name? root with
    | none => exact .inl ⟨_, rfl, rfl, fun folder => by rw [readElement, if_neg hSet, hName]⟩
    | some name =>
      cases hVersion : (root.child? "IfcVersion").bind fun v => v.attribute? "version" with
      | none =>
        refine .inl ⟨.missingField source name "IfcVersion@version", rfl, rfl, fun folder => ?_⟩
        simp only [readElement, if_neg hSet, hName, hVersion]
      | some raw =>
        refine .inr ⟨name, raw, hRoot, rfl, rfl, fun folder => ?_⟩
        simp only [readElement, if_neg hSet, hName, hVersion, propertyDefs]
  · exact .inl ⟨_, rfl, rfl, fun folder => by rw [readElement, if_pos hRoot]⟩

/-- A text is read as its root element, or it is no document, which is one omission. -/
theorem read_cases (text source : String) :
    (∃ flaw : Diagnostic, flaw.source = source ∧ flaw.severity = .omission ∧
      ∀ folder, read text folder source = (none, [flaw])) ∨
    ∃ root, readDocument (dropMark (dropMark text.toList)) = .ok root ∧
      ∀ folder, read text folder source = readElement folder source root := by
  cases hDocument : readDocument (dropMark (dropMark text.toList)) with
  | error fault => exact .inl ⟨_, rfl, rfl, fun folder => by rw [read, hDocument]⟩
  | ok root => exact .inr ⟨root, rfl, fun folder => by rw [read, hDocument]⟩

end Document

/-- Bytes are read as the text that they encode, or they encode none, which is one omission. -/
theorem parseBytes_cases (bytes : ByteArray) (source : String) :
    (∃ flaw : Diagnostic, flaw.source = source ∧ flaw.severity = .omission ∧
      ∀ folder, parseBytes bytes folder source = (none, [flaw])) ∨
    ∃ text, Text.Utf8.decode bytes = .ok text ∧
      ∀ folder, parseBytes bytes folder source = Document.read text folder source := by
  cases hText : Text.Utf8.decode bytes with
  | error fault => exact .inl ⟨_, rfl, rfl, fun folder => by rw [parseBytes, hText]⟩
  | ok text => exact .inr ⟨text, rfl, fun folder => by rw [parseBytes, hText]⟩

end PropertySets
