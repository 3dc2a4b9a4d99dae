import Mathlib.Data.List.Forall2
import Mathlib.Logic.Relation
import PropertySets.Proofs.Document.Omissions
import PropertySets.Registration.OfRegistry

/-!
# The elements of a document and the properties that can have entries

When a document is read without an omission, the properties that can have entries are those of its
`PropertyDef` elements: the ones directly below `PropertyDefs`, a complex property being replaced by
the ones in it. Each element has its own property, in document order, with its name and with a value
of the kind that its type element declares. Elements further down lie in a complex property that is
itself one of these, and have no property that can have an entry.

* `declaredKind?`, `isBundle`, `held` — what a `PropertyDef` says of its type.
* `Holds` — the complex properties below `PropertyDefs`, at any depth.
* `expanded` — the elements whose properties can have entries (`expanded_or_within`).
* `read_of_clean` — each of them has its property.
-/

namespace PropertySets

open Registration

/-- The properties that can have entries for a property of a set. -/
def Property.expanded : Property → List Property
  | .complex _ _ properties => properties
  | p => [p]

theorem flattened_eq (d : Definition) : flattened d = d.properties.flatMap Property.expanded := by
  rw [flattened]
  refine List.flatMap_congr fun p _ => ?_
  cases p <;> rfl

namespace Document

open Diagnostics Relation Xml

/-! ## What elements say -/

/-- The kind of value of a type element with this local name, if it is known and not complex. -/
def kindOfType? : String → Option ValueKind
  | "TypePropertySingleValue" => some .singleValue
  | "TypePropertyReferenceValue" => some .referenceValue
  | "TypePropertyEnumeratedValue" => some .enumeratedValue
  | "TypePropertyBoundedValue" => some .boundedValue
  | "TypePropertyListValue" => some .listValue
  | "TypePropertyTableValue" => some .tableValue
  | _ => none

/-- The kind of value that a `PropertyDef` declares, if it is known and not complex. -/
def declaredKind? (n : Node) : Option ValueKind :=
  (typeElement? n).bind fun type => kindOfType? type.localName

/-- The name of a `PropertyDef` and the kind of its value, if it has both. -/
def heading? (n : Node) : Option (String × ValueKind) :=
  match name? n, declaredKind? n with
  | some name, some kind => some (name, kind)
  | _, _ => none

/-- Is a `PropertyDef` declared as a complex property? -/
def isBundle (n : Node) : Bool :=
  (typeElement? n).any fun type => type.localName == "TypeComplexProperty"

/-- The `PropertyDef` elements in a complex property. -/
def held (n : Node) : List Node :=
  if isBundle n then
    ((typeElement? n).map fun type => type.childrenNamed "PropertyDef").getD []
  else []

/-- One `PropertyDef` is a complex property and the other lies directly in it. -/
def Holds (n m : Node) : Prop := m ∈ held n

/-- The elements whose properties can have entries: a complex property stands for those in it. -/
def expanded (root : Node) : List Node :=
  (propertyDefs root).flatMap fun n => if isBundle n then held n else [n]

theorem isBundle_of_complex {n type : Node} (hType : typeElement? n = some type)
    (hComplex : type.localName = "TypeComplexProperty") : isBundle n = true := by
  rw [isBundle, hType, Option.any_some, hComplex]
  rfl

theorem held_of_complex {n type : Node} (hType : typeElement? n = some type)
    (hComplex : type.localName = "TypeComplexProperty") :
    held n = type.childrenNamed "PropertyDef" := by
  rw [held, if_pos (isBundle_of_complex hType hComplex), hType]
  rfl

theorem isBundle_of_holds {n m : Node} (h : Holds n m) : isBundle n = true := by
  rw [Holds, held] at h
  split at h
  · assumption
  · cases h

theorem mem_expanded_of_holds {root top n : Node} (hTop : top ∈ propertyDefs root)
    (h : Holds top n) : n ∈ expanded root :=
  List.mem_flatMap.2 ⟨top, hTop, by rwa [if_pos (isBundle_of_holds h)]⟩

theorem isBundle_of_heading {n : Node} {heading : String × ValueKind}
    (h : heading? n = some heading) : isBundle n = false := by
  by_contra hBundle
  rw [Bool.not_eq_false, isBundle, Option.any_eq_true_iff_get] at hBundle
  obtain ⟨hType, hComplex⟩ := hBundle
  have hNone : declaredKind? n = none := by
    rw [declaredKind?, ← Option.some_get hType, Option.bind_some, beq_iff_eq.1 hComplex]
    rfl
  rw [heading?, hNone] at h
  cases hName : name? n <;> rw [hName] at h <;> cases h

/-- Where the `PropertyDef` elements that declare a value are: their properties can have entries, or
they lie, at whatever depth, in a complex property that is itself inside a complex property. -/
theorem expanded_or_within {root top n : Node} {heading : String × ValueKind}
    (hTop : top ∈ propertyDefs root) (hBelow : ReflTransGen Holds top n)
    (hHeading : heading? n = some heading) :
    n ∈ expanded root ∨ ∃ m ∈ expanded root, isBundle m = true ∧ TransGen Holds m n := by
  rcases ReflTransGen.cases_head hBelow with rfl | ⟨m, hHolds, hRest⟩
  · refine .inl (List.mem_flatMap.2 ⟨top, hTop, ?_⟩)
    rw [if_neg (by rw [isBundle_of_heading hHeading]; exact Bool.false_ne_true)]
    exact List.mem_singleton_self top
  · have hExpanded := mem_expanded_of_holds hTop hHolds
    rcases ReflTransGen.cases_head hRest with rfl | ⟨k, hNext, hLast⟩
    · exact .inl hExpanded
    · exact .inr ⟨m, hExpanded, isBundle_of_holds hNext, .head' hNext hLast⟩

/-! ## Readers without omissions -/

theorem omissions_eq_nil_append {ds es : Diagnostics} (h : omissions (ds ++ es) = []) :
    omissions ds = [] ∧ omissions es = [] := by
  rwa [omissions_append, List.append_eq_nil_iff] at h

/-- What is gathered without omissions was read from the elements one by one. -/
theorem forall₂_gather {R : Node → Property → Prop} {reader : Node → Option Property × Diagnostics}
    (hReader : ∀ n, omissions (reader n).2 = [] → ∃ p, (reader n).1 = some p ∧ R n p)
    {ns : List Node} (hClean : omissions (gather (ns.map reader)).2 = []) :
    List.Forall₂ R ns (gather (ns.map reader)).1 := by
  induction ns with
  | nil => exact .nil
  | cons n rest ih =>
    obtain ⟨hFirst, hRest⟩ := omissions_eq_nil_append hClean
    obtain ⟨p, hRead, hRelated⟩ := hReader n hFirst
    have hGathered : (gather ((n :: rest).map reader)).1 = p :: (gather (rest.map reader)).1 := by
      rw [gather, gather, List.map_cons, List.filterMap_cons_some hRead]
    rw [hGathered]
    exact .cons hRelated (ih hRest)

theorem ofShape_readSingle (source path : String) (n : Node) :
    ValueKind.ofShape (readSingle source path n).1 = .singleValue := by
  unfold readSingle
  split <;> rfl

theorem ofShape_readReference {source path : String} {n : Node} {shape : Shape}
    (h : (readReference source path n).1 = some shape) :
    .ofShape shape = ValueKind.referenceValue := by
  unfold readReference at h
  dsimp only at h
  split at h <;> cases h
  rfl

theorem ofShape_readEnumerated {source path propertyName : String} {n : Node} {shape : Shape}
    (h : (readEnumerated source path propertyName n).1 = some shape) :
    .ofShape shape = ValueKind.enumeratedValue := by
  -- whether it has the literals or the constants, it is an enumeration
  rcases readEnumerated_cases source path propertyName n with
    ⟨-, -, hRead⟩ | ⟨-, -, hRead⟩ | ⟨-, -, hRead⟩ | ⟨name, -, -, hRead⟩
  all_goals
    rw [hRead] at h
    cases h
  all_goals rfl

/-- A shape that is read is of the kind that its type element stands for. -/
theorem kindOfType?_of_readShape {source path propertyName : String} {n : Node} {shape : Shape}
    (h : (readShape source path propertyName n).1 = some shape) :
    kindOfType? n.localName = some (.ofShape shape) := by
  -- the reader is chosen by the name of the element, as the kind is
  unfold readShape at h
  split at h
  · rename_i hName
    obtain rfl : (readSingle source path n).1 = shape := Option.some.inj h
    rw [hName, ofShape_readSingle]
    rfl
  · rename_i hName
    rw [hName, ofShape_readReference h]
    rfl
  · rename_i hName
    rw [hName, ofShape_readEnumerated h]
    rfl
  · rename_i hName
    cases h
    rw [hName]
    rfl
  · rename_i hName
    cases h
    rw [hName]
    rfl
  · rename_i hName
    cases h
    rw [hName]
    rfl
  · cases h

/-- A property that was read from an element without an omission: it has the name of the element,
and its value is of the declared kind, or both are complex. -/
def ReadFrom (n : Node) : Property → Prop
  | .typeless _ => False
  | .valued l shape => heading? n = some (l.name, .ofShape shape)
  | .complex l _ _ => name? n = some l.name ∧ isBundle n = true

/-- An element that is read without an omission yields its property; if it is complex, the
properties in it are read from the elements in it as long as there are levels left to open. -/
theorem readProperty_of_clean {source owner : String} {depth : Nat} {n : Node}
    (hClean : omissions (readProperty source depth owner n).2 = []) :
    ∃ p, (readProperty source depth owner n).1 = some p ∧ ReadFrom n p ∧
      match depth, p with
      | d + 1, .complex _ _ properties => ∃ path,
        properties = (gather ((held n).map (readProperty source d path))).1 ∧
          omissions (gather ((held n).map (readProperty source d path))).2 = []
      | _, _ => True := by
  induction depth, owner, n using readProperty_induction source with
  | nameless _ hRead =>
    rw [hRead] at hClean
    exact absurd hClean (omissions_singleton_ne_nil rfl)
  | untyped _ _ hRead =>
    rw [hRead] at hClean
    exact absurd hClean (omissions_singleton_ne_nil rfl)
  | unnamed _ _ _ _ hRead =>
    rw [hRead] at hClean
    exact absurd hClean (omissions_singleton_ne_nil rfl)
  | closed hName hType hComplex _ hRead =>
    rw [hRead]
    exact ⟨_, rfl, ⟨hName, isBundle_of_complex hType hComplex⟩, trivial⟩
  | opened hName hType hComplex _ hRead _ =>
    rw [hRead] at hClean ⊢
    refine ⟨_, rfl, ⟨hName, isBundle_of_complex hType hComplex⟩, ?_⟩
    rw [held_of_complex hType hComplex]
    exact ⟨_, rfl, hClean⟩
  | @shaped depth owner name n type hName hType _ hRead =>
    rw [hRead] at hClean ⊢
    cases hShape : (readShape source (owner ++ "." ++ name) name type).1 with
    | none =>
      -- what cannot be read owes an omission
      have hOwed := omissions_readShape source (owner ++ "." ++ name) name type
      rw [hClean, hShape] at hOwed
      cases hOwed
    | some shape =>
      have hKind : declaredKind? n = some (.ofShape shape) := by
        rw [declaredKind?, hType, Option.bind_some, kindOfType?_of_readShape hShape]
      refine ⟨.valued ⟨name, n.attribute? "ifdguid", aliases n⟩ shape, rfl, ?_, ?_⟩
      · rw [ReadFrom, heading?, hName, hKind]
      · cases depth <;> trivial

/-- With a level left to open, an element that is read without an omission yields the properties
that can have entries one by one. -/
theorem expanded_of_clean {source owner : String} {depth : Nat} {n : Node}
    (hClean : omissions (readProperty source (depth + 1) owner n).2 = []) :
    ∃ p, (readProperty source (depth + 1) owner n).1 = some p ∧
      List.Forall₂ ReadFrom (if isBundle n then held n else [n]) p.expanded := by
  obtain ⟨p, hRead, hFrom, hBelow⟩ := readProperty_of_clean hClean
  refine ⟨p, hRead, ?_⟩
  -- nothing is left out without a flaw, so the property has a type
  cases p with
  | typeless l => exact hFrom.elim
  | valued l shape =>
    rw [if_neg (by rw [isBundle_of_heading hFrom]; exact Bool.false_ne_true)]
    exact .cons hFrom .nil
  | complex l typeName properties =>
    obtain ⟨path, rfl, hCleanBelow⟩ := hBelow
    rw [if_pos hFrom.2]
    refine forall₂_gather (fun m hCleanOne => ?_) hCleanBelow
    obtain ⟨q, hReadOne, hFromOne, -⟩ := readProperty_of_clean hCleanOne
    exact ⟨q, hReadOne, hFromOne⟩

theorem readElement_of_clean {folder source : String} {root : Node}
    (hClean : omissions (readElement folder source root).2 = []) :
    ∃ d, (readElement folder source root).1 = some d ∧ name? root = some d.name ∧
      List.Forall₂ ReadFrom (expanded root) (flattened d) := by
  rcases readElement_cases source root with
    ⟨flaw, -, hSeverity, hRead⟩ | ⟨name, raw, -, hName, -, hRead⟩
  · rw [hRead folder] at hClean
    exact absurd hClean (omissions_singleton_ne_nil hSeverity)
  · rw [hRead folder] at hClean ⊢
    refine ⟨_, rfl, hName, ?_⟩
    rw [flattened_eq]
    exact List.rel_flatMap (forall₂_gather (fun n => expanded_of_clean) hClean)
      fun _ _ hFrom => hFrom

/-- **A document that is read without an omission** yields a definition, and the properties that can
have entries are those of its elements, one by one and in document order. -/
theorem read_of_clean {text folder source : String}
    (hClean : omissions (read text folder source).2 = []) :
    ∃ root d, readDocument (dropMark (dropMark text.toList)) = .ok root ∧
      (read text folder source).1 = some d ∧ name? root = some d.name ∧
      List.Forall₂ ReadFrom (expanded root) (flattened d) := by
  rcases read_cases text source with ⟨flaw, -, hSeverity, hRead⟩ | ⟨root, hDocument, hRead⟩
  · rw [hRead folder] at hClean
    exact absurd hClean (omissions_singleton_ne_nil hSeverity)
  · rw [hRead folder] at hClean ⊢
    obtain ⟨d, hDefined, hName, hFrom⟩ := readElement_of_clean hClean
    exact ⟨root, d, hDocument, hDefined, hName, hFrom⟩

/-- A document whose bytes are read without an omission is a text whose definition and elements
belong together. -/
theorem parseBytes_of_clean {content : ByteArray} {folder source : String}
    (hClean : omissions (parseBytes content folder source).2 = []) :
    ∃ text root d, Text.Utf8.decode content = .ok text ∧
      readDocument (dropMark (dropMark text.toList)) = .ok root ∧
      (parseBytes content folder source).1 = some d ∧ name? root = some d.name ∧
      List.Forall₂ ReadFrom (expanded root) (flattened d) := by
  rcases parseBytes_cases content source with ⟨flaw, -, hSeverity, hRead⟩ | ⟨text, hText, hRead⟩
  · rw [hRead folder] at hClean
    exact absurd hClean (omissions_singleton_ne_nil hSeverity)
  · rw [hRead folder] at hClean ⊢
    obtain ⟨root, d, hDocument, hDefined, hName, hFrom⟩ := read_of_clean hClean
    exact ⟨text, root, d, hText, hDocument, hDefined, hName, hFrom⟩

end Document

end PropertySets
