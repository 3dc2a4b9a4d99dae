import PropertySets.Document

/-!
# What a reader of documents looks at

Namespaces, comments and processing instructions carry no definitions. A tree is *bare* when they
are taken away and texts that then stand side by side are one text. Every reader goes through a
tree by the local names of elements, by attributes and by text, and these are the same in the bare
tree, so the definition and the flaws that are read are functions of the bare tree alone.

* `Node.bare` — a tree without namespaces, comments and instructions.
* `child?_bare`, `childrenNamed_bare`, `descendantsNamed_bare`, `characters_bare` — each way through
  a tree finds in the bare tree what it finds in the tree.
* `readProperty_bare`, `readElement_bare` — the readers see no difference.
* `read_eq_of_bare` — two documents that are alike when bare are read alike.
-/

namespace PropertySets

namespace Xml.Node

/-! ## Bare trees -/

/-- Put a node before others: comments and instructions are dropped, and a text joins a text that
it comes to stand before. -/
def attach : Node → List Node → List Node
  | comment _, ns => ns
  | instruction _ _, ns => ns
  | text s, text s' :: ns => text (s ++ s') :: ns
  | n, ns => n :: ns

mutual

/-- The tree without what no reader looks at: the namespaces and qualifiers of its elements, and
the comments and instructions in it. -/
def bare : Node → Node
  | element tag attributes cs => element ⟨"", none, tag.localName⟩ attributes (bareList cs)
  | n => n

/-- The nodes of a list as bare trees, without the comments and instructions among them, and with
neighbouring texts joined. -/
def bareList : List Node → List Node
  | [] => []
  | n :: ns => attach n.bare (bareList ns)

end

mutual

/-- Are two trees the same? -/
def decideEq : (n m : Node) → Decidable (n = m)
  | element tag attributes cs, element tag' attributes' cs' =>
    have := decideEqList cs cs'
    decidable_of_iff (tag = tag' ∧ attributes = attributes' ∧ cs = cs') (by simp)
  | text s, text s' => decidable_of_iff (s = s') (by simp)
  | comment s, comment s' => decidable_of_iff (s = s') (by simp)
  | instruction target s, instruction target' s' =>
    decidable_of_iff (target = target' ∧ s = s') (by simp)
  | element _ _ _, text _ | element _ _ _, comment _ | element _ _ _, instruction _ _
  | text _, element _ _ _ | text _, comment _ | text _, instruction _ _
  | comment _, element _ _ _ | comment _, text _ | comment _, instruction _ _
  | instruction _ _, element _ _ _ | instruction _ _, text _
  | instruction _ _, comment _ => isFalse nofun

/-- Are two lists of trees the same? -/
def decideEqList : (ns ms : List Node) → Decidable (ns = ms)
  | [], [] => isTrue rfl
  | n :: ns, m :: ms =>
    have := decideEq n m
    have := decideEqList ns ms
    decidable_of_iff (n = m ∧ ns = ms) (by simp)
  | [], _ :: _ | _ :: _, [] => isFalse nofun

end

instance : DecidableEq Node := decideEq

/-! ## Ways through a bare tree -/

@[simp] theorem isElement_bare (n : Node) : n.bare.isElement = n.isElement := by
  cases n <;> rfl

@[simp] theorem isNamed_bare (name : String) (n : Node) :
    n.bare.isNamed name = n.isNamed name := by
  cases n <;> rfl

@[simp] theorem localName_bare (n : Node) : n.bare.localName = n.localName := by
  cases n <;> rfl

@[simp] theorem attribute?_bare (n : Node) (name : String) :
    n.bare.attribute? name = n.attribute? name := by
  cases n <;> rfl

@[simp] theorem children_bare (n : Node) : n.bare.children = bareList n.children := by
  cases n <;> rfl

/-- Looking for elements among nodes, one does not notice that a node was attached rather than put
in front. -/
theorem filter_attach {p : Node → Bool} (hElements : ∀ n, p n = true → n.isElement = true)
    (n : Node) (ns : List Node) : (attach n ns).filter p = (n :: ns).filter p := by
  have hDropped : ∀ (m : Node) (ms : List Node), m.isElement = false →
      (m :: ms).filter p = ms.filter p := by
    intro m ms hOther
    apply List.filter_cons_of_neg
    intro hFound
    rw [hElements m hFound] at hOther
    cases hOther
  cases n with
  | element tag attributes cs => rfl
  | comment s => exact (hDropped (.comment s) ns rfl).symm
  | instruction target s => exact (hDropped (.instruction target s) ns rfl).symm
  | text s =>
    -- the text is no element, and neither is the one that it is joined with
    rw [hDropped (.text s) ns rfl]
    cases ns with
    | nil => exact hDropped (.text s) [] rfl
    | cons m ns =>
      cases m with
      | text s' =>
        rw [attach, hDropped (.text (s ++ s')) ns rfl, hDropped (.text s') ns rfl]
      | _ => exact hDropped (.text s) _ rfl

/-- The elements among bare nodes are the bare ones of the elements among the nodes. -/
theorem filter_bareList {p : Node → Bool} (hElements : ∀ n, p n = true → n.isElement = true)
    (hBare : ∀ n : Node, p n.bare = p n) (ns : List Node) :
    (bareList ns).filter p = (ns.filter p).map bare := by
  induction ns with
  | nil => rfl
  | cons n rest ih =>
    rw [bareList, filter_attach hElements, List.filter_cons, List.filter_cons, hBare, ih]
    split <;> rfl

theorem isElement_of_isNamed {name : String} (n : Node) (h : n.isNamed name = true) :
    n.isElement = true := by
  cases n with
  | element tag attributes cs => rfl
  | text s | comment s | instruction target s => cases h

theorem childrenNamed_bare (n : Node) (name : String) :
    n.bare.childrenNamed name = (n.childrenNamed name).map bare := by
  rw [childrenNamed, children_bare]
  exact filter_bareList isElement_of_isNamed (isNamed_bare name) n.children

theorem child?_bare (n : Node) (name : String) :
    n.bare.child? name = (n.child? name).map bare := by
  have hAll := childrenNamed_bare n name
  rw [childrenNamed, childrenNamed] at hAll
  -- the first child of a name is the first of all of them
  rw [child?, child?, ← List.head?_filter, ← List.head?_filter, hAll, List.head?_map]

theorem firstElement?_bare (n : Node) : n.bare.firstElement? = n.firstElement?.map bare := by
  have hAll := filter_bareList (fun _ h => h) isElement_bare n.children
  rw [firstElement?, firstElement?, children_bare, ← List.head?_filter, ← List.head?_filter, hAll,
    List.head?_map]

theorem charactersOfList_attach (n : Node) (ns : List Node) :
    charactersOfList (attach n ns) = n.characters ++ charactersOfList ns := by
  cases n with
  | element tag attributes cs => rfl
  | comment s | instruction target s => rfl
  | text s =>
    cases ns with
    | nil => rfl
    | cons m ns =>
      cases m with
      | text s' =>
        -- a joined text has the characters of both
        simp [attach, charactersOfList, characters]
      | _ => rfl

mutual

/-- No text is lost in the bare tree. -/
@[simp] theorem characters_bare : ∀ n : Node, n.bare.characters = n.characters
  | element _ _ cs => charactersOfList_bareList cs
  | text _ => rfl
  | comment _ => rfl
  | instruction _ _ => rfl

theorem charactersOfList_bareList :
    ∀ ns : List Node, charactersOfList (bareList ns) = charactersOfList ns
  | [] => rfl
  | n :: ns => by
    rw [bareList, charactersOfList_attach, characters_bare n, charactersOfList_bareList ns,
      charactersOfList]

end

/-- Attached or put in front, a node has the same elements in it. -/
theorem filter_descendantsOfList_attach {p : Node → Bool}
    (hElements : ∀ n, p n = true → n.isElement = true) (n : Node) (ns : List Node) :
    (descendantsOfList (attach n ns)).filter p =
      n.descendants.filter p ++ (descendantsOfList ns).filter p := by
  have hNone : ∀ m : Node, m.isElement = false → [m].filter p = [] := by
    intro m hOther
    rw [List.filter_eq_nil_iff]
    intro k hMem hFound
    rw [List.mem_singleton.1 hMem] at hFound
    rw [hElements m hFound] at hOther
    cases hOther
  cases n with
  | element tag attributes cs => exact List.filter_append _ _
  | comment s => rw [attach, descendants, hNone _ rfl, List.nil_append]
  | instruction target s => rw [attach, descendants, hNone _ rfl, List.nil_append]
  | text s =>
    rw [descendants, hNone _ rfl, List.nil_append]
    -- a text in front adds no element, whether it is joined or not
    have hFront : (descendantsOfList (text s :: ns)).filter p =
        (descendantsOfList ns).filter p := by
      rw [descendantsOfList, descendants, List.filter_append, hNone _ rfl, List.nil_append]
    cases ns with
    | nil => exact hFront
    | cons m ns =>
      cases m with
      | text s' =>
        rw [attach, descendantsOfList, descendantsOfList, descendants, descendants,
          List.filter_append, List.filter_append, hNone _ rfl, hNone _ rfl]
      | _ => exact hFront

mutual

/-- The elements in a bare tree are the bare ones of the elements in the tree. -/
theorem descendantsNamed_bare (name : String) :
    ∀ n : Node, n.bare.descendantsNamed name = (n.descendantsNamed name).map bare
  | element tag attributes cs => by
    have hInside := filter_descendantsOfList_bareList name cs
    rw [descendantsNamed, descendantsNamed, bare, descendants, descendants, List.filter_cons,
      List.filter_cons, hInside]
    have hHere : (element ⟨"", none, tag.localName⟩ attributes (bareList cs)).isNamed name =
        (element tag attributes cs).isNamed name := rfl
    rw [hHere]
    cases (element tag attributes cs).isNamed name with
    | true => rfl
    | false => rfl
  | text _ => rfl
  | comment _ => rfl
  | instruction _ _ => rfl

theorem filter_descendantsOfList_bareList (name : String) :
    ∀ ns : List Node, (descendantsOfList (bareList ns)).filter (isNamed name) =
      ((descendantsOfList ns).filter (isNamed name)).map bare
  | [] => rfl
  | n :: ns => by
    have hFirst := descendantsNamed_bare name n
    rw [descendantsNamed, descendantsNamed] at hFirst
    rw [bareList, filter_descendantsOfList_attach isElement_of_isNamed, hFirst,
      filter_descendantsOfList_bareList name ns, descendantsOfList, List.filter_append,
      List.map_append]

end

end Xml.Node

namespace Document

open Text Xml Node

/-! ## Readers of parts -/

@[simp] theorem contentOf_bare (n : Node) : contentOf n.bare = contentOf n := by
  rw [contentOf, contentOf, characters_bare]

@[simp] theorem filledAttribute?_bare (n : Node) (name : String) :
    filledAttribute? n.bare name = filledAttribute? n name := by
  rw [filledAttribute?, filledAttribute?, attribute?_bare]

/-- What is read of a child is read of the child of the bare tree. -/
theorem map_child?_bare {α : Type} {f : Node → α} (hReader : ∀ m : Node, f m.bare = f m)
    (n : Node) (name : String) : (n.bare.child? name).map f = (n.child? name).map f := by
  rw [child?_bare, Option.map_map]
  exact congrArg (Option.map · (n.child? name)) (funext hReader)

theorem bind_child?_bare {α : Type} {f : Node → Option α} (hReader : ∀ m : Node, f m.bare = f m)
    (n : Node) (name : String) : (n.bare.child? name).bind f = (n.child? name).bind f := by
  rw [child?_bare, Option.bind_map]
  exact congrArg (Option.bind (n.child? name)) (funext hReader)

/-- What is read of nodes one by one is read of the bare ones. -/
theorem map_map_bare {α : Type} {f : Node → α} (hReader : ∀ m : Node, f m.bare = f m)
    (ns : List Node) : (ns.map bare).map f = ns.map f := by
  rw [List.map_map]
  exact congrArg (List.map · ns) (funext hReader)

@[simp] theorem dataType?_bare (n : Node) : dataType? n.bare = dataType? n :=
  filledAttribute?_bare n "type"

@[simp] theorem childDataType?_bare (n : Node) : childDataType? n.bare = childDataType? n :=
  bind_child?_bare dataType?_bare n "DataType"

@[simp] theorem name?_bare (n : Node) : name? n.bare = name? n := by
  rw [name?, name?, map_child?_bare contentOf_bare]

@[simp] theorem aliases_bare (n : Node) : aliases n.bare = aliases n := by
  unfold aliases
  rw [child?_bare]
  cases n.child? "NameAliases" with
  | none => rfl
  | some holder =>
    simp only [Option.map_some, childrenNamed_bare]
    exact map_map_bare (by simp) _

/-! ## Readers of value shapes -/

theorem readSingle_bare (source path : String) (n : Node) :
    readSingle source path n.bare = readSingle source path n := by
  rw [readSingle, readSingle, childDataType?_bare]

theorem readReference_bare (source path : String) (n : Node) :
    readReference source path n.bare = readReference source path n := by
  unfold readReference
  rw [child?_bare]
  -- either place that the entity can stand in is the same
  cases n.child? "DataType" with
  | none => simp only [Option.map_none, filledAttribute?_bare]
  | some t => simp only [Option.map_some, dataType?_bare]

@[simp] theorem constantItem_bare (n : Node) : constantItem n.bare = constantItem n := by
  rw [constantItem, constantItem, map_child?_bare contentOf_bare, aliases_bare]

@[simp] theorem namesLiteral_bare (literal : String) (n : Node) :
    namesLiteral literal n.bare = namesLiteral literal n := by
  unfold namesLiteral
  rw [child?_bare]
  cases n.child? "Name" with
  | none => rfl
  | some name => simp only [Option.map_some, contentOf_bare]

theorem itemsOf_bare (constants : List Node) :
    itemsOf (constants.map bare) = itemsOf constants := by
  funext literal
  have hMatching : (constants.map bare).filter (namesLiteral literal) =
      (constants.filter (namesLiteral literal)).map bare := by
    rw [List.filter_map]
    exact congrArg (List.map bare ·) (List.filter_congr fun c _ => namesLiteral_bare literal c)
  unfold itemsOf
  rw [hMatching]
  cases constants.filter (namesLiteral literal) with
  | nil => rfl
  | cons first others => exact map_map_bare constantItem_bare (first :: others)

theorem readEnumerated_bare (source path propertyName : String) (n : Node) :
    readEnumerated source path propertyName n.bare =
      readEnumerated source path propertyName n := by
  -- literals and constants are found in the same order
  have hLiterals : (n.bare.descendantsNamed "EnumItem").map contentOf =
      (n.descendantsNamed "EnumItem").map contentOf := by
    rw [descendantsNamed_bare, map_map_bare contentOf_bare]
  have hConstants : ((n.bare.child? "ConstantList").map
      fun l => l.childrenNamed "ConstantDef").getD [] =
      (((n.child? "ConstantList").map fun l => l.childrenNamed "ConstantDef").getD []).map
        bare := by
    rw [child?_bare]
    cases n.child? "ConstantList" with
    | none => rfl
    | some l => exact childrenNamed_bare l "ConstantDef"
  have hName : ((n.bare.child? "EnumList").bind fun l => l.attribute? "name") =
      (n.child? "EnumList").bind fun l => l.attribute? "name" :=
    bind_child?_bare (fun l => attribute?_bare l "name") n "EnumList"
  have hListed : (n.bare.child? "ConstantList").isSome = (n.child? "ConstantList").isSome := by
    rw [child?_bare, Option.isSome_map]
  unfold readEnumerated
  simp only [hLiterals, hConstants, hName, hListed, List.isEmpty_map, List.length_map,
    itemsOf_bare, map_map_bare constantItem_bare]

theorem readList_bare (n : Node) : readList n.bare = readList n := by
  rw [readList, readList, descendantsNamed_bare, List.head?_map, Option.bind_map]
  exact congrArg (fun f => Shape.list (Option.bind _ f)) (funext dataType?_bare)

theorem readTable_bare (n : Node) : readTable n.bare = readTable n := by
  unfold readTable
  simp only [map_child?_bare contentOf_bare, bind_child?_bare childDataType?_bare]

theorem readShape_bare (source path propertyName : String) (n : Node) :
    readShape source path propertyName n.bare = readShape source path propertyName n := by
  unfold readShape
  simp only [localName_bare, readSingle_bare, readReference_bare, readEnumerated_bare,
    childDataType?_bare, readList_bare, readTable_bare]

/-! ## Readers of properties and definitions -/

/-- A property is read alike from the bare tree, however many levels are opened. -/
theorem readProperty_bare (source : String) (depth : Nat) (owner : String) (n : Node) :
    readProperty source depth owner n.bare = readProperty source depth owner n := by
  have hType : ∀ m : Node, (m.bare.child? "PropertyType").bind firstElement? =
      ((m.child? "PropertyType").bind firstElement?).map bare := by
    intro m
    rw [child?_bare]
    cases m.child? "PropertyType" with
    | none => rfl
    | some holder => exact firstElement?_bare holder
  -- on the levels that are left: the properties in a complex one are read with one less
  induction depth generalizing owner n with
  | zero =>
    unfold readProperty
    rw [name?_bare, attribute?_bare, aliases_bare, hType]
    cases (n.child? "PropertyType").bind firstElement? with
    | none => rfl
    | some type => simp only [Option.map_some, localName_bare, attribute?_bare, readShape_bare]
  | succ d ih =>
    unfold readProperty
    rw [name?_bare, attribute?_bare, aliases_bare, hType]
    cases (n.child? "PropertyType").bind firstElement? with
    | none => rfl
    | some type =>
      simp only [Option.map_some, localName_bare, attribute?_bare, readShape_bare,
        childrenNamed_bare, map_map_bare (ih _)]

/-- The definition that a root element holds is that of the bare element. -/
theorem readElement_bare (folder source : String) (root : Node) :
    readElement folder source root.bare = readElement folder source root := by
  -- every part of the definition is looked up by local names, which the bare element keeps
  have hVersion : ((root.bare.child? "IfcVersion").bind fun v => v.attribute? "version") =
      (root.child? "IfcVersion").bind fun v => v.attribute? "version" :=
    bind_child?_bare (fun v => attribute?_bare v "version") root "IfcVersion"
  have hClasses : ((root.bare.descendantsNamed "ClassName").map fun n =>
      Naming.className (contentOf n)) =
      (root.descendantsNamed "ClassName").map fun n => Naming.className (contentOf n) := by
    rw [descendantsNamed_bare]
    exact map_map_bare (by simp) _
  have hDefs : ((root.bare.child? "PropertyDefs").map
      fun d => d.childrenNamed "PropertyDef").getD [] =
      (((root.child? "PropertyDefs").map fun d => d.childrenNamed "PropertyDef").getD []).map
        bare := by
    rw [child?_bare]
    cases root.child? "PropertyDefs" with
    | none => rfl
    | some d => exact childrenNamed_bare d "PropertyDef"
  unfold readElement
  simp only [localName_bare, name?_bare, attribute?_bare, hVersion, hClasses, hDefs,
    map_map_bare (readProperty_bare source complexDepth _)]

/-- **Documents that are alike when bare are read alike.** Let two trees become equal when the
namespaces and qualifiers of their elements are taken away, comments and instructions dropped, and
the texts joined that then stand side by side. Then the same definition is read from both, or none
from either, with the same flaws; and so it is from any two texts that hold these trees, whatever
else stands around the root elements. -/
theorem read_eq_of_bare {root root' : Node} (hBare : root.bare = root'.bare)
    (folder source : String) :
    readElement folder source root = readElement folder source root' ∧
      ∀ text text' : String, readDocument (dropMark (dropMark text.toList)) = .ok root →
        readDocument (dropMark (dropMark text'.toList)) = .ok root' →
        read text folder source = read text' folder source := by
  have hElements : readElement folder source root = readElement folder source root' := by
    rw [← readElement_bare folder source root, hBare, readElement_bare]
  refine ⟨hElements, ?_⟩
  intro text text' hText hText'
  unfold read
  rw [hText, hText']
  exact hElements

/-- A document with a qualifier, with comments before the root, in a name and before a type, and
with a name of which a part is unmarked text. -/
def qualifiedDocument : String :=
  "<!--by hand--><q:PropertySetDef xmlns:q=\"urn:psd\"><q:Name>Pset<!--cut-->_A</q:Name>" ++
    "<q:IfcVersion version=\"2x2\"/><q:PropertyDefs><q:PropertyDef><q:Name>P<![CDATA[1]]>" ++
    "</q:Name><q:PropertyType><?kind?><!--none--><q:TypePropertySingleValue/></q:PropertyType>" ++
    "</q:PropertyDef></q:PropertyDefs></q:PropertySetDef>"

/-- The same document without any of this. -/
def plainDocument : String :=
  "<PropertySetDef><Name>Pset_A</Name><IfcVersion version=\"2x2\"/><PropertyDefs>" ++
    "<PropertyDef><Name>P1</Name><PropertyType><TypePropertySingleValue/></PropertyType>" ++
    "</PropertyDef></PropertyDefs></PropertySetDef>"

set_option maxRecDepth 2000 in
/-- The two documents are different trees that are alike when bare, and a definition is read from
both. -/
theorem qualifiedDocument_read_as_plain :
    ∃ root root', readDocument (dropMark (dropMark qualifiedDocument.toList)) = .ok root ∧
      readDocument (dropMark (dropMark plainDocument.toList)) = .ok root' ∧
      root ≠ root' ∧ root.bare = root'.bare ∧
      (read qualifiedDocument "IFC2X2" "psd").1.isSome = true ∧
      read qualifiedDocument "IFC2X2" "psd" = read plainDocument "IFC2X2" "psd" := by
  -- reading lists of characters, the kernel need not decode the bytes of the strings
  have hQualified : qualifiedDocument = String.ofList (_ ++ _ ++ _ ++ _) :=
    Text.eq_ofList_append (Text.eq_ofList_append (Text.eq_ofList_append rfl _) _) _
  have hPlain : plainDocument = String.ofList (_ ++ _ ++ _) :=
    Text.eq_ofList_append (Text.eq_ofList_append rfl _) _
  have hTrees : ((readDocument (dropMark (dropMark qualifiedDocument.toList))).toOption.bind
      fun root => (readDocument (dropMark (dropMark plainDocument.toList))).toOption.map
        fun root' => decide (root ≠ root' ∧ root.bare = root'.bare ∧
          (readElement "IFC2X2" "psd" root).1.isSome = true)) = some true := by
    rw [hQualified, hPlain, String.toList_ofList, String.toList_ofList]
    decide +kernel
  cases hFirst : readDocument (dropMark (dropMark qualifiedDocument.toList)) with
  | error fault =>
    rw [hFirst] at hTrees
    cases hTrees
  | ok root =>
    cases hSecond : readDocument (dropMark (dropMark plainDocument.toList)) with
    | error fault =>
      rw [hFirst, hSecond] at hTrees
      cases hTrees
    | ok root' =>
      rw [hFirst, hSecond] at hTrees
      obtain ⟨hDifferent, hBare, hRead⟩ := of_decide_eq_true (Option.some.inj hTrees)
      refine ⟨root, root', rfl, rfl, hDifferent, hBare, ?_,
        (read_eq_of_bare hBare "IFC2X2" "psd").2 _ _ hFirst hSecond⟩
      rw [read, hFirst]
      exact hRead

end Document

end PropertySets
