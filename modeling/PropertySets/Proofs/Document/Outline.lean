import Mathlib.Data.List.Forall2
import PropertySets.Proofs.Document.Cases

/-!
# The outline of a document

The properties of a definition form a tree, and so do the `PropertyDef` elements of its document.
The first tree is the second one, cut below two levels of complex properties, without the elements
that have no name and without what lies in a complex type that is no type element or has no name.

An element is known by its address, the child indices on the way to it, and a property by its
position, the indices in the lists of properties. Both are ordered lexicographically, which for
addresses is document order. That every property has one element, and every element in its place
one property, is therefore said by a function from positions to addresses.

* `Node.at?`, `Property.at?` — what is at an address, and at a position.
* `InPlace`, `Kept` — addresses where a `PropertyDef` counts, and that leave nothing out.
* `Placed` — the position of a property and the address of its element.
* `Mirrors`, `read_mirrors` — the outline of a definition is that of its document.
-/

namespace PropertySets

open Xml

/-! ## Addresses and positions -/

namespace Xml.Node

/-- The node at an address: the child indices on the way to it. -/
def at? (n : Node) : List Nat → Option Node
  | [] => some n
  | i :: a => n.children[i]?.bind fun m => m.at? a

theorem at?_cons_of_child {h n : Node} {i : Nat} (hChild : h.children[i]? = some n)
    (a : List Nat) : h.at? (i :: a) = n.at? a := by
  rw [at?, hChild, Option.bind_some]

theorem at?_append (n : Node) (a b : List Nat) : n.at? (a ++ b) = (n.at? a).bind (at? · b) := by
  induction a generalizing n with
  | nil => rfl
  | cons i a ih =>
    rw [List.cons_append, at?, at?, Option.bind_assoc]
    exact congrArg _ (funext fun m => ih m)

/-- An element has one name. -/
theorem eq_of_isNamed {n : Node} {name name' : String} (h : n.isNamed name = true)
    (h' : n.isNamed name' = true) : name = name' := by
  cases n with
  | element tag _ _ => exact (beq_iff_eq.1 h).symm.trans (beq_iff_eq.1 h')
  | _ => cases h

end Xml.Node

namespace Property

/-- The properties in a property: none unless it is complex. -/
def inner : Property → List Property
  | complex _ _ properties => properties
  | _ => []

/-- The name of the complex type of a property, if it is complex. -/
def bundleName? : Property → Option String
  | complex _ name _ => some name
  | _ => none

/-- The property at a position: the indices in the lists on the way to it. -/
def at? : List Property → List Nat → Option Property
  | _, [] => none
  | ps, [i] => ps[i]?
  | ps, i :: j :: p => ps[i]?.bind fun q => at? q.inner (j :: p)

theorem at?_nil (p : List Nat) : at? [] p = none := by
  rcases p with _ | ⟨i, _ | ⟨j, p⟩⟩ <;> rfl

end Property

namespace Document

/-! ## What elements open -/

/-- Where the type element of a `PropertyDef` is: the first element in its `PropertyType`. -/
def typePlace? (n : Node) : Option (List Nat) :=
  (n.children.findIdx? (Node.isNamed "PropertyType")).bind fun x =>
    n.children[x]?.bind fun type => (type.children.findIdx? Node.isElement).map fun y => [x, y]

/-- The type element of a `PropertyDef`, if it is a complex type with a name attribute. -/
def opened? (n : Node) : Option Node :=
  (typeElement? n).filter fun type =>
    type.isNamed "TypeComplexProperty" && (type.attribute? "name").isSome

/-- The name of the complex type that is the type element of a `PropertyDef`. -/
def bundleName? (n : Node) : Option String := (opened? n).bind (·.attribute? "name")

theorem typeElement?_eq (n : Node) : typeElement? n = (typePlace? n).bind n.at? := by
  rw [typeElement?, Node.child?, List.find?_eq_bind_findIdx?_getElem?, typePlace?]
  -- both sides search twice: for the `PropertyType`, and in it for the first element
  cases n.children.findIdx? (Node.isNamed "PropertyType") with
  | none => rfl
  | some x =>
    rw [Option.bind_some, Option.bind_some]
    cases hChild : n.children[x]? with
    | none => rfl
    | some type =>
      rw [Option.bind_some, Option.bind_some, Node.firstElement?,
        List.find?_eq_bind_findIdx?_getElem?]
      cases type.children.findIdx? Node.isElement with
      | none => rfl
      | some y =>
        rw [Option.bind_some, Option.map_some, Option.bind_some, Node.at?_cons_of_child hChild]
        exact (Option.bind_fun_some _).symm

theorem at?_of_typePlace? {n : Node} {b : List Nat} (h : typePlace? n = some b) :
    n.at? b = typeElement? n := by
  rw [typeElement?_eq, h, Option.bind_some]

/-- A type that is opened is the type element, in its place, complex and named. -/
theorem exists_place_of_opened? {n t : Node} (h : opened? n = some t) :
    ∃ b, typePlace? n = some b ∧ n.at? b = some t ∧ t.isNamed "TypeComplexProperty" = true ∧
      (t.attribute? "name").isSome = true := by
  obtain ⟨hType, hComplex⟩ := Option.filter_eq_some_iff.1 h
  obtain ⟨hNamed, hAttribute⟩ := Bool.and_eq_true_iff.1 hComplex
  obtain ⟨b, hPlace, hAt⟩ := Option.bind_eq_some_iff.1 ((typeElement?_eq n).symm.trans hType)
  exact ⟨b, hPlace, hAt, hNamed, hAttribute⟩

theorem opened?_of_place {n t : Node} {b : List Nat} (hPlace : typePlace? n = some b)
    (hAt : n.at? b = some t) (hComplex : t.isNamed "TypeComplexProperty" = true)
    (hName : (t.attribute? "name").isSome = true) : opened? n = some t :=
  Option.filter_eq_some_iff.2
    ⟨(at?_of_typePlace? hPlace).symm.trans hAt, Bool.and_eq_true_iff.2 ⟨hComplex, hName⟩⟩

/-- The nodes on the way to a type element are its `PropertyType` and itself. -/
theorem prefix_of_typePlace? {n m : Node} {b c : List Nat} (hPlace : typePlace? n = some b)
    (hPrefix : c <+: b) (hProper : c ≠ []) (hAt : n.at? c = some m) :
    m.isNamed "PropertyType" = true ∨ c = b := by
  obtain ⟨x, hFirst, hMore⟩ := Option.bind_eq_some_iff.1 hPlace
  obtain ⟨type, hChild, hLast⟩ := Option.bind_eq_some_iff.1 hMore
  obtain ⟨y, -, rfl⟩ := Option.map_eq_some_iff.1 hLast
  obtain ⟨c, rfl, hTail⟩ := (List.prefix_cons_iff.1 hPrefix).resolve_left hProper
  -- one step leads to the `PropertyType`, the second one to the type element
  rcases List.prefix_cons_iff.1 hTail with rfl | ⟨c, rfl, hNil⟩
  · rw [Node.at?_cons_of_child hChild] at hAt
    obtain rfl := Option.some.inj hAt
    obtain ⟨hLt, hNamed, -⟩ := List.findIdx?_eq_some_iff_getElem.1 hFirst
    obtain ⟨-, rfl⟩ := List.getElem?_eq_some_iff.1 hChild
    exact .inl hNamed
  · rw [List.prefix_nil.1 hNil]
    exact .inr rfl

/-! ## Addresses in place -/

/-- A `PropertyDef` is in place in a holder, at an address and `k` complex levels down: it is a
child of the holder, or it is in place, a level less down, in a complex type that belongs to a
child of the holder which is a `PropertyDef`. -/
inductive InPlace : Node → Nat → List Nat → Prop
  | child {h n : Node} {i : Nat} (hChild : h.children[i]? = some n)
      (hDef : n.isNamed "PropertyDef" = true) : InPlace h 0 [i]
  | inside {h n t : Node} {i k : Nat} {a b : List Nat} (hChild : h.children[i]? = some n)
      (hDef : n.isNamed "PropertyDef" = true) (hType : n.at? b = some t)
      (hComplex : t.isNamed "TypeComplexProperty" = true)
      (hOwn : ∀ c m, c ≠ [] → c <+: b → n.at? c = some m → m.isNamed "PropertyDef" = false)
      (hBelow : InPlace t k a) : InPlace h (k + 1) (i :: (b ++ a))

/-- What stands at an address keeps what is in it: a `PropertyDef` has a name, and a complex type
has a name attribute and is the type element of its `PropertyDef`. -/
def Open (h : Node) (c : List Nat) : Prop :=
  ∀ n, h.at? c = some n →
    (n.isNamed "PropertyDef" = true → (name? n).isSome = true) ∧
    (n.isNamed "TypeComplexProperty" = true → (n.attribute? "name").isSome = true ∧
      ∃ e m b, c = e ++ b ∧ h.at? e = some m ∧ m.isNamed "PropertyDef" = true ∧
        typePlace? m = some b)

/-- Everything on the way to an address, and what stands there, keeps what is in it. -/
def Kept (h : Node) (a : List Nat) : Prop := ∀ c, c ≠ [] → c <+: a → Open h c

/-! ## Positions and addresses -/

/-- The children of a holder whose properties are read, with their indices. -/
def kept (h : Node) : List (Node × Nat) :=
  h.children.zipIdx.filter fun e => e.1.isNamed "PropertyDef" && (name? e.1).isSome

/-- The element of the property at a position: it is found among the children that are read, in
the complex types that are opened. -/
inductive Placed : Node → List Nat → List Nat → Prop
  | child {h n : Node} {i x : Nat} (hKept : (kept h)[i]? = some (n, x)) : Placed h [i] [x]
  | inside {h n t : Node} {i x : Nat} {p a b : List Nat} (hKept : (kept h)[i]? = some (n, x))
      (hPlace : typePlace? n = some b) (hOpened : opened? n = some t) (hBelow : Placed t p a) :
      Placed h (i :: p) (x :: (b ++ a))

theorem mem_kept_iff {h n : Node} {x : Nat} :
    (n, x) ∈ kept h ↔
      h.children[x]? = some n ∧ n.isNamed "PropertyDef" = true ∧ (name? n).isSome = true := by
  rw [kept, List.mem_filter, List.mk_mem_zipIdx_iff_getElem?, Bool.and_eq_true]

theorem of_getElem?_kept {h n : Node} {i x : Nat} (hKept : (kept h)[i]? = some (n, x)) :
    h.children[x]? = some n ∧ n.isNamed "PropertyDef" = true ∧ (name? n).isSome = true :=
  mem_kept_iff.1 (List.mem_of_getElem? hKept)

/-- The children that are read have ascending indices. -/
theorem kept_ascending {h n m : Node} {i j x y : Nat} (hFirst : (kept h)[i]? = some (n, x))
    (hSecond : (kept h)[j]? = some (m, y)) (hLt : i < j) : x < y := by
  -- the indices of the children ascend, and a filter keeps their order
  have hIndices : h.children.zipIdx.Pairwise (·.2 < ·.2) := by
    rw [← List.pairwise_map (f := Prod.snd) (R := (· < ·)), List.zipIdx_map_snd]
    exact List.pairwise_lt_range' 1
  obtain ⟨hi, hFirst⟩ := List.getElem?_eq_some_iff.1 hFirst
  obtain ⟨hj, hSecond⟩ := List.getElem?_eq_some_iff.1 hSecond
  have hLater := List.pairwise_iff_getElem.1 (hIndices.filter _) i j hi hj hLt
  change (kept h)[i].2 < (kept h)[j].2 at hLater
  rwa [hFirst, hSecond] at hLater

theorem Placed.ne_nil {h : Node} {p a : List Nat} (hPlaced : Placed h p a) : p ≠ [] ∧ a ≠ [] := by
  cases hPlaced <;> exact ⟨List.cons_ne_nil _ _, List.cons_ne_nil _ _⟩

/-- A property has one element. -/
theorem Placed.address_eq {h : Node} {p a a' : List Nat} (hPlaced : Placed h p a)
    (hOther : Placed h p a') : a = a' := by
  -- both addresses go through the child that the first index picks, and on in one type
  induction hPlaced generalizing a' with
  | child hKept =>
    cases hOther with
    | child hKept' =>
      obtain ⟨-, rfl⟩ := Prod.mk.inj (Option.some.inj (hKept.symm.trans hKept'))
      rfl
    | inside _ _ _ hBelow' => exact absurd rfl hBelow'.ne_nil.1
  | inside hKept hPlace hOpened hBelow ih =>
    cases hOther with
    | child _ => exact absurd rfl hBelow.ne_nil.1
    | inside hKept' hPlace' hOpened' hBelow' =>
      obtain ⟨rfl, rfl⟩ := Prod.mk.inj (Option.some.inj (hKept.symm.trans hKept'))
      obtain rfl := Option.some.inj (hPlace.symm.trans hPlace')
      obtain rfl := Option.some.inj (hOpened.symm.trans hOpened')
      rw [ih hBelow']

/-- A later property has a later element. -/
theorem Placed.lt {h : Node} {p p' a a' : List Nat} (hPlaced : Placed h p a)
    (hOther : Placed h p' a') (hLt : p < p') : a < a' := by
  -- either the first indices decide, or both ways go on in the type of one child
  induction hPlaced generalizing p' a' with
  | child hKept =>
    cases hOther with
    | child hKept' =>
      rcases List.cons_lt_cons_iff.1 hLt with hIndex | ⟨-, hNil⟩
      · exact List.cons_lt_cons_iff.2 (.inl (kept_ascending hKept hKept' hIndex))
      · exact absurd hNil (List.lt_irrefl _)
    | @inside _ _ _ _ x' p' a' b' hKept' _ _ hBelow' =>
      rcases List.cons_lt_cons_iff.1 hLt with hIndex | ⟨rfl, -⟩
      · exact List.cons_lt_cons_iff.2 (.inl (kept_ascending hKept hKept' hIndex))
      · -- an element stands in front of what is in it
        obtain ⟨-, rfl⟩ := Prod.mk.inj (Option.some.inj (hKept.symm.trans hKept'))
        refine List.cons_lt_cons_iff.2 (.inr ⟨rfl, ?_⟩)
        obtain ⟨y, rest, hRest⟩ := List.exists_cons_of_ne_nil
          (List.append_ne_nil_of_right_ne_nil b' hBelow'.ne_nil.2)
        rw [hRest]
        exact List.nil_lt_cons y rest
  | inside hKept hPlace hOpened hBelow ih =>
    cases hOther with
    | child hKept' =>
      rcases List.cons_lt_cons_iff.1 hLt with hIndex | ⟨-, hNil⟩
      · exact List.cons_lt_cons_iff.2 (.inl (kept_ascending hKept hKept' hIndex))
      · exact absurd hNil (List.not_lt_nil _)
    | inside hKept' hPlace' hOpened' hBelow' =>
      rcases List.cons_lt_cons_iff.1 hLt with hIndex | ⟨rfl, hRest⟩
      · exact List.cons_lt_cons_iff.2 (.inl (kept_ascending hKept hKept' hIndex))
      · obtain ⟨rfl, rfl⟩ := Prod.mk.inj (Option.some.inj (hKept.symm.trans hKept'))
        obtain rfl := Option.some.inj (hPlace.symm.trans hPlace')
        obtain rfl := Option.some.inj (hOpened.symm.trans hOpened')
        exact List.cons_lt_cons_iff.2 (.inr ⟨rfl, List.append_left_lt (ih hBelow' hRest)⟩)

/-- Positions are ordered as the addresses of their elements. -/
theorem Placed.lt_iff {h : Node} {p p' a a' : List Nat} (hPlaced : Placed h p a)
    (hOther : Placed h p' a') : p < p' ↔ a < a' := by
  refine ⟨hPlaced.lt hOther, fun hLt => ?_⟩
  -- positions are ordered totally, and equal ones have one address
  by_contra hNot
  rcases List.le_iff_lt_or_eq.1 (List.not_lt.1 hNot) with hBefore | rfl
  · exact List.lt_asymm hLt (hOther.lt hPlaced hBefore)
  · rw [hPlaced.address_eq hOther] at hLt
    exact List.lt_irrefl _ hLt

/-- What is in a complex property has its element in the type element of that property's. -/
theorem Placed.parent {h : Node} {p a' : List Nat} {i : Nat} (hPlaced : Placed h (p ++ [i]) a')
    (hProper : p ≠ []) :
    ∃ a n b z, Placed h p a ∧ h.at? a = some n ∧ typePlace? n = some b ∧ a' = a ++ b ++ [z] := by
  -- the induction goes down to the last step, which is the one from the parent
  generalize hPosition : p ++ [i] = q at hPlaced
  induction hPlaced generalizing p with
  | child _ =>
    have hLength := congrArg List.length hPosition
    rw [List.length_append] at hLength
    exact absurd (List.eq_nil_of_length_eq_zero (Nat.succ.inj hLength)) hProper
  | @inside h n t j x q a b hKept hPlace hOpened hBelow ih =>
    obtain ⟨j', p, rfl⟩ := List.exists_cons_of_ne_nil hProper
    obtain ⟨rfl, rfl⟩ := List.cons.inj hPosition
    have hChild := (of_getElem?_kept hKept).1
    -- the parent is the child itself, or it lies in the type of the child
    by_cases hNil : p = []
    · subst hNil
      have hAt : h.at? [x] = some n := Node.at?_cons_of_child hChild []
      cases hBelow with
      | @child _ _ _ z _ => exact ⟨[x], n, b, z, .child hKept, hAt, hPlace, rfl⟩
      | inside _ _ _ hEmpty => exact absurd rfl hEmpty.ne_nil.1
    · obtain ⟨a₀, m, b₀, z, hPlaced, hAt, hType, rfl⟩ := ih hNil rfl
      obtain ⟨b', hPlace', hAt', -, -⟩ := exists_place_of_opened? hOpened
      obtain rfl := Option.some.inj (hPlace.symm.trans hPlace')
      refine ⟨x :: (b ++ a₀), m, b₀, z, .inside hKept hPlace hOpened hPlaced, ?_, hType, ?_⟩
      · rw [Node.at?_cons_of_child hChild, Node.at?_append, hAt', Option.bind_some, hAt]
      · simp only [List.cons_append, List.append_assoc]

/-! ## Elements with a property are those in place and kept -/

theorem kept_child {h n : Node} {x : Nat} (hChild : h.children[x]? = some n)
    (hDef : n.isNamed "PropertyDef" = true) (hName : (name? n).isSome = true) :
    Open h [x] := by
  intro m hAt
  rw [Node.at?_cons_of_child hChild] at hAt
  obtain rfl := Option.some.inj hAt
  exact ⟨fun _ => hName, fun hComplex => absurd (Node.eq_of_isNamed hDef hComplex) (by decide)⟩

/-- What is open in a part of a tree is open in the tree. -/
theorem Open.append {h t : Node} {f c : List Nat} (hAt : h.at? f = some t) (hOpen : Open t c) :
    Open h (f ++ c) := by
  intro n hNode
  rw [Node.at?_append, hAt, Option.bind_some] at hNode
  obtain ⟨hDefs, hTypes⟩ := hOpen n hNode
  refine ⟨hDefs, fun hComplex => ?_⟩
  obtain ⟨hName, e, m, b, rfl, hOwner, hDef, hPlace⟩ := hTypes hComplex
  refine ⟨hName, f ++ e, m, b, (List.append_assoc f e b).symm, ?_, hDef, hPlace⟩
  rw [Node.at?_append, hAt, Option.bind_some, hOwner]

/-- The way to what is in an opened type is kept. -/
theorem kept_inside {h n t : Node} {x : Nat} {a b : List Nat}
    (hChild : h.children[x]? = some n) (hDef : n.isNamed "PropertyDef" = true)
    (hName : (name? n).isSome = true) (hPlace : typePlace? n = some b)
    (hOpened : opened? n = some t) (hKept : Kept t a) : Kept h (x :: (b ++ a)) := by
  obtain ⟨b', hPlace', hAt, hComplex, hAttribute⟩ := exists_place_of_opened? hOpened
  obtain rfl := Option.some.inj (hPlace.symm.trans hPlace')
  have hType : h.at? (x :: b) = some t := (Node.at?_cons_of_child hChild b).trans hAt
  have hOpenType : Open h (x :: b) := by
    intro m hNode
    obtain rfl := Option.some.inj (hType.symm.trans hNode)
    exact ⟨fun hDef' => absurd (Node.eq_of_isNamed hComplex hDef') (by decide),
      fun _ => ⟨hAttribute, [x], n, b, rfl, Node.at?_cons_of_child hChild [], hDef, hPlace⟩⟩
  intro c hProper hPrefix
  obtain ⟨c, rfl, hRest⟩ := (List.prefix_cons_iff.1 hPrefix).resolve_left hProper
  obtain ⟨rest, hSplit⟩ := hRest
  -- the address ends on the way to the type, at it, or in it
  rcases List.append_eq_append_iff.1 hSplit with ⟨d, rfl, -⟩ | ⟨d, rfl, hInside⟩
  · by_cases hNil : c = []
    · rw [hNil]
      exact kept_child hChild hDef hName
    · intro m hNode
      rw [Node.at?_cons_of_child hChild] at hNode
      rcases prefix_of_typePlace? hPlace (List.prefix_append c d) hNil hNode with hType' | hEnd
      · exact ⟨fun hDef' => absurd (Node.eq_of_isNamed hType' hDef') (by decide),
          fun hComplex' => absurd (Node.eq_of_isNamed hType' hComplex') (by decide)⟩
      · rw [← hEnd] at hOpenType
        exact hOpenType m ((Node.at?_cons_of_child hChild c).trans hNode)
  · by_cases hNil : d = []
    · rw [hNil, List.append_nil]
      exact hOpenType
    · exact (hKept d hNil ⟨rest, hInside.symm⟩).append hType

/-- The element of a property is in place, as many complex levels down as the property, and the
way to it is kept. -/
theorem Placed.inPlace {h : Node} {p a : List Nat} (hPlaced : Placed h p a) :
    ∃ k, p.length = k + 1 ∧ InPlace h k a ∧ Kept h a := by
  induction hPlaced with
  | child hKept =>
    obtain ⟨hChild, hDef, hName⟩ := of_getElem?_kept hKept
    refine ⟨0, rfl, .child hChild hDef, fun c hProper hPrefix => ?_⟩
    obtain ⟨c, rfl, hNil⟩ := (List.prefix_cons_iff.1 hPrefix).resolve_left hProper
    rw [List.prefix_nil.1 hNil]
    exact kept_child hChild hDef hName
  | inside hKept hPlace hOpened hInside ih =>
    obtain ⟨hChild, hDef, hName⟩ := of_getElem?_kept hKept
    obtain ⟨k, hLength, hIn, hRest⟩ := ih
    obtain ⟨b, hPlace', hAt, hComplex, -⟩ := exists_place_of_opened? hOpened
    obtain rfl := Option.some.inj (hPlace.symm.trans hPlace')
    refine ⟨k + 1, congrArg (· + 1) hLength, .inside hChild hDef hAt hComplex ?_ hIn,
      kept_inside hChild hDef hName hPlace hOpened hRest⟩
    -- only a `PropertyType` lies on the way to a type element, so the way has no other owner
    intro c m hProper hPrefix hNode
    rw [← Bool.not_eq_true]
    intro hDef'
    rcases prefix_of_typePlace? hPlace hPrefix hProper hNode with hType | rfl
    · exact absurd (Node.eq_of_isNamed hType hDef') (by decide)
    · obtain rfl := Option.some.inj (hAt.symm.trans hNode)
      exact absurd (Node.eq_of_isNamed hComplex hDef') (by decide)

/-- The `PropertyDef` that a complex type belongs to, with the type as its type element, is the one
that the way to the type goes through, or it lies in the type on the way. -/
theorem owner_cases {h n t m : Node} {i : Nat} {b b' d e : List Nat}
    (hHolder : h.isNamed "PropertyDef" = false) (hChild : h.children[i]? = some n)
    (hType : n.at? b = some t)
    (hOwn : ∀ c m, c ≠ [] → c <+: b → n.at? c = some m → m.isNamed "PropertyDef" = false)
    (hSplit : i :: (b ++ d) = e ++ b') (hAt : h.at? e = some m)
    (hDef : m.isNamed "PropertyDef" = true) :
    (m = n ∧ b' = b ++ d) ∨ ∃ e', d = e' ++ b' ∧ t.at? e' = some m := by
  cases e with
  | nil =>
    obtain rfl := Option.some.inj hAt
    rw [hHolder] at hDef
    cases hDef
  | cons j e =>
    obtain ⟨rfl, hRest⟩ := List.cons.inj hSplit
    rw [Node.at?_cons_of_child hChild] at hAt
    -- the owner stands in the type, or on the way to it, where only its child is a `PropertyDef`
    rcases List.append_eq_append_iff.1 hRest with ⟨e', rfl, hInside⟩ | ⟨f, rfl, hBefore⟩
    · rw [Node.at?_append, hType, Option.bind_some] at hAt
      exact .inr ⟨e', hInside, hAt⟩
    · by_cases hNil : e = []
      · subst hNil
        obtain rfl := Option.some.inj hAt
        exact .inl ⟨rfl, hBefore⟩
      · rw [hOwn e m hNil (List.prefix_append e f) hAt] at hDef
        cases hDef

/-- An element that is in place and kept has a position. -/
theorem InPlace.exists_placed {h : Node} {k : Nat} {a : List Nat} (hIn : InPlace h k a)
    (hHolder : h.isNamed "PropertyDef" = false) (hKept : Kept h a) :
    ∃ p, p.length = k + 1 ∧ Placed h p a := by
  -- what is kept from the holder is kept from each type that is entered, so the way can go on in it
  induction hIn with
  | @child h n x hChild hDef =>
    have hName := (hKept [x] (List.cons_ne_nil _ _) (List.prefix_refl _) n
      (Node.at?_cons_of_child hChild [])).1 hDef
    obtain ⟨i, hIndex⟩ := List.mem_iff_getElem?.1 (mem_kept_iff.2 ⟨hChild, hDef, hName⟩)
    exact ⟨[i], rfl, .child hIndex⟩
  | @inside h n t x k a b hChild hDef hType hComplex hOwn hBelow ih =>
    have hName := (hKept [x] (List.cons_ne_nil _ _)
      (List.cons_prefix_cons.2 ⟨rfl, List.nil_prefix⟩) n (Node.at?_cons_of_child hChild [])).1 hDef
    obtain ⟨i, hIndex⟩ := List.mem_iff_getElem?.1 (mem_kept_iff.2 ⟨hChild, hDef, hName⟩)
    have hNotDef : t.isNamed "PropertyDef" = false := by
      rw [← Bool.not_eq_true]
      exact fun hDef' => absurd (Node.eq_of_isNamed hComplex hDef') (by decide)
    -- the type is opened: its own element is the child that the way goes through
    obtain ⟨hAttribute, e, m, b', hSplit, hOwner, hOwnerDef, hPlace⟩ := (hKept (x :: b)
      (List.cons_ne_nil _ _) (List.cons_prefix_cons.2 ⟨rfl, List.prefix_append b a⟩) t
      ((Node.at?_cons_of_child hChild b).trans hType)).2 hComplex
    have hPlace : typePlace? n = some b := by
      rw [← List.append_nil b] at hSplit
      rcases owner_cases hHolder hChild hType hOwn hSplit hOwner hOwnerDef with
        ⟨rfl, rfl⟩ | ⟨e', hNil, hAt⟩
      · rw [hPlace, List.append_nil]
      · obtain ⟨rfl, rfl⟩ := List.append_eq_nil_iff.1 hNil.symm
        obtain rfl := Option.some.inj hAt
        rw [hNotDef] at hOwnerDef
        cases hOwnerDef
    -- an owner outside the type would have a second type element
    have hInside : Kept t a := by
      intro d hProper hPrefix m hNode
      have hOpen := hKept (x :: (b ++ d)) (List.cons_ne_nil _ _)
        (List.cons_prefix_cons.2 ⟨rfl, (List.prefix_append_right_inj b).2 hPrefix⟩) m (by
          rw [Node.at?_cons_of_child hChild, Node.at?_append, hType, Option.bind_some, hNode])
      refine ⟨hOpen.1, fun hComplex' => ?_⟩
      obtain ⟨hAttribute', e, m', b', hSplit, hOwner, hOwnerDef, hPlace'⟩ := hOpen.2 hComplex'
      rcases owner_cases hHolder hChild hType hOwn hSplit hOwner hOwnerDef with
        ⟨rfl, rfl⟩ | ⟨e', hInside, hAt⟩
      · rw [hPlace, Option.some.injEq, List.self_eq_append_right] at hPlace'
        exact absurd hPlace' hProper
      · exact ⟨hAttribute', e', m', b', hInside, hAt, hOwnerDef, hPlace'⟩
    obtain ⟨p, hLength, hPlaced⟩ := ih hNotDef hInside
    exact ⟨i :: p, congrArg (· + 1) hLength,
      .inside hIndex hPlace (opened?_of_place hPlace hType hComplex hAttribute) hPlaced⟩

/-! ## What is read -/

/-- The properties that are read from the children of a holder. -/
def propertiesIn (source owner : String) (depth : Nat) (h : Node) : List Property :=
  (h.childrenNamed "PropertyDef").filterMap fun n => (readProperty source depth owner n).1

theorem gather_map {α β : Type} (reader : β → Option α × Diagnostics) (elements : List β) :
    (gather (elements.map reader)).1 = elements.filterMap fun n => (reader n).1 :=
  List.filterMap_map

/-- The properties that are read from an opened type: none below the last level. -/
def innerOf (source owner : String) : Nat → Option Node → List Property
  | depth + 1, some t => propertiesIn source owner depth t
  | _, _ => []

/-- A property is read from an element, `depth` levels of complex properties being opened. -/
structure ReadAs (source : String) (depth : Nat) (n : Node) (q : Property) : Prop where
  name : name? n = some q.name
  bundle : q.bundleName? = bundleName? n
  inner : ∃ owner, q.inner = innerOf source owner depth (opened? n)

theorem isNamed_of_typeElement? {n type : Node} (hType : typeElement? n = some type)
    (name : String) : type.isNamed name = true ↔ type.localName = name := by
  obtain ⟨holder, -, hFirst⟩ := Option.bind_eq_some_iff.1 hType
  have hElement := List.find?_some hFirst
  cases type with
  | element tag _ _ => exact beq_iff_eq
  | _ => cases hElement

theorem opened?_eq_none {n : Node} (h : ∀ type, typeElement? n = some type →
    type.localName = "TypeComplexProperty" → type.attribute? "name" = none) : opened? n = none := by
  refine Option.eq_none_iff_forall_ne_some.2 fun t hOpened => ?_
  obtain ⟨hType, hComplex⟩ := Option.filter_eq_some_iff.1 hOpened
  obtain ⟨hNamed, hAttribute⟩ := Bool.and_eq_true_iff.1 hComplex
  rw [h t hType ((isNamed_of_typeElement? hType _).1 hNamed)] at hAttribute
  cases hAttribute

theorem readAs_of_unopened {source : String} {depth : Nat} {n : Node} {q : Property}
    (hName : name? n = some q.name) (hOpened : opened? n = none) (hBundle : q.bundleName? = none)
    (hInner : q.inner = []) : ReadAs source depth n q := by
  refine ⟨hName, ?_, "", ?_⟩
  · rw [hBundle, bundleName?, hOpened]
    rfl
  · rw [hInner, hOpened, innerOf]
    exact nofun

theorem opened?_of_complex {n type : Node} (hType : typeElement? n = some type)
    (hComplex : type.localName = "TypeComplexProperty")
    (hAttribute : (type.attribute? "name").isSome = true) : opened? n = some type :=
  Option.filter_eq_some_iff.2 ⟨hType, Bool.and_eq_true_iff.2
    ⟨(isNamed_of_typeElement? hType _).2 hComplex, hAttribute⟩⟩

/-- An element is read as a property if it has a name, and else as none. -/
theorem readAs_readProperty (source owner : String) (depth : Nat) (n : Node) :
    (name? n = none ∧ (readProperty source depth owner n).1 = none) ∨
    (name? n).isSome = true ∧
      ∃ q, (readProperty source depth owner n).1 = some q ∧ ReadAs source depth n q := by
  -- only a complex type element with a name attribute opens anything; whatever else the type is,
  -- the property has nothing in it
  induction depth, owner, n using readProperty_induction source with
  | nameless hName hRead =>
    rw [hRead]
    exact .inl ⟨hName, rfl⟩
  | untyped hName hType hRead =>
    rw [hRead]
    refine .inr ⟨by rw [hName]; rfl, _, rfl, readAs_of_unopened hName ?_ rfl rfl⟩
    refine opened?_eq_none fun type hSome => ?_
    rw [hType] at hSome
    cases hSome
  | unnamed hName hType _ hAttribute hRead =>
    rw [hRead]
    refine .inr ⟨by rw [hName]; rfl, _, rfl, readAs_of_unopened hName ?_ rfl rfl⟩
    refine opened?_eq_none fun type' hSome _ => ?_
    obtain rfl := Option.some.inj (hType.symm.trans hSome)
    exact hAttribute
  | @closed owner name typeName n type hName hType hComplex hAttribute hRead =>
    have hOpened := opened?_of_complex hType hComplex (by rw [hAttribute]; rfl)
    rw [hRead]
    refine .inr ⟨by rw [hName]; rfl, _, rfl, hName, ?_, "", rfl⟩
    rw [bundleName?, hOpened, Option.bind_some, hAttribute]
    rfl
  | @opened depth owner name typeName n type hName hType hComplex hAttribute hRead _ =>
    have hOpened := opened?_of_complex hType hComplex (by rw [hAttribute]; rfl)
    rw [hRead]
    refine .inr ⟨by rw [hName]; rfl, _, rfl, hName, ?_, owner ++ "." ++ name, ?_⟩
    · rw [bundleName?, hOpened, Option.bind_some, hAttribute]
      rfl
    · rw [hOpened]
      exact gather_map _ _
  | @shaped depth owner name n type hName hType hOther hRead =>
    rw [hRead]
    refine .inr ⟨by rw [hName]; rfl, _, rfl, ?_⟩
    have hNone : opened? n = none := opened?_eq_none fun type' hSome hComplex => by
      obtain rfl := Option.some.inj (hType.symm.trans hSome)
      exact absurd hComplex hOther
    -- a shape or none, it is no complex property
    cases (readShape source (owner ++ "." ++ name) name type).1 with
    | none => exact readAs_of_unopened hName hNone rfl rfl
    | some shape => exact readAs_of_unopened hName hNone rfl rfl

/-- The properties of a holder are read from its children that are kept, one by one. -/
theorem forall₂_propertiesIn (source owner : String) (depth : Nat) (h : Node) :
    List.Forall₂ (fun e q => ReadAs source depth e.1 q) (kept h)
      (propertiesIn source owner depth h) := by
  rw [kept, propertiesIn, Node.childrenNamed]
  -- any index may come first, so that the induction can go on behind a child
  generalize h.children = ns
  generalize 0 = x
  induction ns generalizing x with
  | nil => exact .nil
  | cons n rest ih =>
    rw [List.zipIdx_cons]
    by_cases hDef : n.isNamed "PropertyDef" = true
    · rw [List.filter_cons_of_pos hDef]
      rcases readAs_readProperty source owner depth n with ⟨hName, hRead⟩ | ⟨hName, q, hRead, hAs⟩
      · rw [List.filter_cons_of_neg (by simp [hName]), List.filterMap_cons, hRead]
        exact ih (x + 1)
      · rw [List.filter_cons_of_pos (by rw [hDef, hName]; rfl), List.filterMap_cons, hRead]
        exact .cons hAs (ih (x + 1))
    · rw [List.filter_cons_of_neg hDef, List.filter_cons_of_neg (by simp [hDef])]
      exact ih (x + 1)

/-- Lists that are related member by member have their members at the same indices. -/
theorem forall₂_getElem? {α β : Type} {R : α → β → Prop} {xs : List α} {ys : List β}
    (h : List.Forall₂ R xs ys) (i : Nat) :
    (xs[i]? = none ∧ ys[i]? = none) ∨ ∃ x y, xs[i]? = some x ∧ ys[i]? = some y ∧ R x y := by
  induction h generalizing i with
  | nil => exact .inl ⟨rfl, rfl⟩
  | @cons x y xs ys hFirst _ ih =>
    cases i with
    | zero => exact .inr ⟨x, y, rfl, rfl, hFirst⟩
    | succ i => exact ih i

/-- A property stands for an element in its place, and is read from it. -/
theorem exists_placed_of_at? {source owner : String} {depth : Nat} {h : Node} {p : List Nat}
    {q : Property} (hAt : Property.at? (propertiesIn source owner depth h) p = some q) :
    ∃ a n d, Placed h p a ∧ h.at? a = some n ∧ depth + 1 = d + p.length ∧ ReadAs source d n q := by
  -- each index uses up a level and leads into the type that is opened there
  induction p generalizing h depth owner with
  | nil => cases hAt
  | cons i p ih =>
    rcases forall₂_getElem? (forall₂_propertiesIn source owner depth h) i with
      ⟨-, hNone⟩ | ⟨⟨n, x⟩, q', hKept, hRead, hAs⟩
    · cases p <;> rw [Property.at?, hNone] at hAt <;> cases hAt
    · have hChild := (of_getElem?_kept hKept).1
      cases p with
      | nil =>
        obtain rfl := Option.some.inj (hRead.symm.trans hAt)
        exact ⟨[x], n, depth, .child hKept, Node.at?_cons_of_child hChild [], rfl, hAs⟩
      | cons j p =>
        rw [Property.at?, hRead, Option.bind_some] at hAt
        obtain ⟨path, hInner⟩ := hAs.inner
        rw [hInner] at hAt
        -- something is inside, so the type is opened and a level is left
        cases depth with
        | zero =>
          rw [innerOf, Property.at?_nil] at hAt
          · cases hAt
          · exact nofun
        | succ depth =>
          cases hOpened : opened? n with
          | none =>
            rw [hOpened, innerOf, Property.at?_nil] at hAt
            · cases hAt
            · exact nofun
          | some t =>
            rw [hOpened, innerOf] at hAt
            obtain ⟨a, m, d, hPlaced, hNode, hDepth, hAs'⟩ := ih hAt
            obtain ⟨b, hPlace, hType, -, -⟩ := exists_place_of_opened? hOpened
            refine ⟨x :: (b ++ a), m, d, .inside hKept hPlace hOpened hPlaced, ?_, ?_, hAs'⟩
            · rw [Node.at?_cons_of_child hChild, Node.at?_append, hType, Option.bind_some, hNode]
            · rw [List.length_cons, ← Nat.add_assoc, ← hDepth]

/-- As long as levels are left, an element in its place has its property. -/
theorem Placed.exists_at? {h : Node} {p a : List Nat} (hPlaced : Placed h p a)
    (source owner : String) {depth : Nat} (hDepth : p.length ≤ depth + 1) :
    ∃ q, Property.at? (propertiesIn source owner depth h) p = some q := by
  induction hPlaced generalizing depth owner with
  | @child h n i x hKept =>
    rcases forall₂_getElem? (forall₂_propertiesIn source owner depth h) i with
      ⟨hNone, -⟩ | ⟨-, q, -, hRead, -⟩
    · rw [hKept] at hNone
      cases hNone
    · exact ⟨q, hRead⟩
  | @inside h n t i x p a b hKept _ hOpened hInside ih =>
    rcases forall₂_getElem? (forall₂_propertiesIn source owner depth h) i with
      ⟨hNone, -⟩ | ⟨e, q, hKept', hRead, hAs⟩
    · rw [hKept] at hNone
      cases hNone
    · obtain rfl := Option.some.inj (hKept.symm.trans hKept')
      obtain ⟨path, hInner⟩ := hAs.inner
      obtain ⟨j, p, rfl⟩ := List.exists_cons_of_ne_nil hInside.ne_nil.1
      -- the position goes on, so a level is left to open the type
      obtain ⟨depth, rfl⟩ : ∃ d, depth = d + 1 := by
        refine Nat.exists_eq_add_one_of_ne_zero fun hZero => ?_
        simp only [hZero, List.length_cons] at hDepth
        omega
      rw [hOpened, innerOf] at hInner
      rw [Property.at?, hRead, Option.bind_some, hInner]
      exact ih path (Nat.le_of_succ_le_succ hDepth)

/-! ## The outline -/

/-- A `PropertyDef` is in place in a document, `k` complex levels below the root's
`PropertyDefs`. -/
def Stands (root : Node) (k : Nat) (a : List Nat) : Prop :=
  ∃ i holder b, root.children.findIdx? (Node.isNamed "PropertyDefs") = some i ∧
    root.children[i]? = some holder ∧ a = i :: b ∧ InPlace holder k b

/-- The outline of a definition is that of its document: there is an address for the element of
the property at each position. -/
structure Mirrors (root : Node) (d : Definition) (place : List Nat → List Nat) : Prop where
  /-- The elements with a property are those in place, at most two complex levels down, with
  nothing left out on the way. -/
  complete : ∀ a, (∃ p q, Property.at? d.properties p = some q ∧ place p = a) ↔
    ∃ k ≤ complexDepth, Stands root k a ∧ Kept root a
  /-- A property is as deep as its element and has its name, and it has a complex type of that
  name if the type element is a complex type with a name. -/
  read : ∀ p q, Property.at? d.properties p = some q → ∃ k n, p.length = k + 1 ∧
    Stands root k (place p) ∧ root.at? (place p) = some n ∧ name? n = some q.name ∧
    q.bundleName? = bundleName? n
  /-- Properties are in document order. -/
  ordered : ∀ p p', (Property.at? d.properties p).isSome = true →
    (Property.at? d.properties p').isSome = true → (p < p' ↔ place p < place p')
  /-- The element of a property in a complex one is a child of the type element of that one's. -/
  parent : ∀ p i, p ≠ [] → (Property.at? d.properties (p ++ [i])).isSome = true →
    ∃ n b z, root.at? (place p) = some n ∧ typePlace? n = some b ∧
      place (p ++ [i]) = place p ++ b ++ [z]
  /-- Two complex levels down, nothing is in a property. -/
  cut : ∀ p q, p.length = complexDepth + 1 → Property.at? d.properties p = some q → q.inner = []

/-- Neither the root nor the element below it decides what is kept further down. -/
theorem kept_cons_iff {root holder : Node} {i : Nat} {a : List Nat}
    (hChild : root.children[i]? = some holder) (hRoot : root.isNamed "PropertyDef" = false)
    (hHolder : holder.isNamed "PropertyDefs" = true) : Kept root (i :: a) ↔ Kept holder a := by
  constructor
  · intro hKept d hProper hPrefix n hNode
    have hOpen := hKept (i :: d) (List.cons_ne_nil _ _) (List.cons_prefix_cons.2 ⟨rfl, hPrefix⟩) n
      ((Node.at?_cons_of_child hChild d).trans hNode)
    refine ⟨hOpen.1, fun hComplex => ?_⟩
    obtain ⟨hName, e, m, b, hSplit, hOwner, hDef, hPlace⟩ := hOpen.2 hComplex
    -- the root is no `PropertyDef`, so an owner lies in the holder
    cases e with
    | nil =>
      obtain rfl := Option.some.inj hOwner
      rw [hRoot] at hDef
      cases hDef
    | cons j e =>
      obtain ⟨rfl, hInside⟩ := List.cons.inj hSplit
      rw [Node.at?_cons_of_child hChild] at hOwner
      exact ⟨hName, e, m, b, hInside, hOwner, hDef, hPlace⟩
  · intro hKept c hProper hPrefix
    obtain ⟨d, rfl, hRest⟩ := (List.prefix_cons_iff.1 hPrefix).resolve_left hProper
    by_cases hNil : d = []
    · subst hNil
      intro n hNode
      rw [Node.at?_cons_of_child hChild] at hNode
      obtain rfl := Option.some.inj hNode
      exact ⟨fun hDef => absurd (Node.eq_of_isNamed hHolder hDef) (by decide),
        fun hComplex => absurd (Node.eq_of_isNamed hHolder hComplex) (by decide)⟩
    · exact (hKept d hNil hRest).append (Node.at?_cons_of_child hChild [])

/-- The properties of a definition are read from the first `PropertyDefs` of the root. -/
theorem properties_of_readElement {folder source : String} {root : Node} {d : Definition}
    (hRead : (readElement folder source root).1 = some d) :
    root.isNamed "PropertyDef" = false ∧ d.properties =
      ((root.child? "PropertyDefs").map (propertiesIn source d.name complexDepth)).getD [] := by
  rcases readElement_cases source root with
    ⟨flaw, -, -, hFailed⟩ | ⟨name, raw, hRoot, -, -, hElement⟩
  · rw [hFailed folder] at hRead
    cases hRead
  rw [hElement folder] at hRead
  obtain rfl := Option.some.inj hRead
  -- a root that is read has another name
  constructor
  · rw [← Bool.not_eq_true]
    intro hDef
    cases root with
    | element tag _ _ => exact absurd (hRoot.symm.trans (beq_iff_eq.1 hDef)) (by decide)
    | _ => cases hDef
  · rw [propertyDefs]
    cases root.child? "PropertyDefs" with
    | none => rfl
    | some holder => exact gather_map _ _

/-- Each property of a definition has its element at an address below the holder, the `PropertyDefs`
of the root with the index `i` that the definition is read from. -/
structure Located (source owner : String) (root holder : Node) (i : Nat) (d : Definition)
    (place : List Nat → List Nat) : Prop where
  root_name : root.isNamed "PropertyDef" = false
  index : root.children.findIdx? (Node.isNamed "PropertyDefs") = some i
  child : root.children[i]? = some holder
  properties : d.properties = propertiesIn source owner complexDepth holder
  placed : ∀ {p q}, Property.at? d.properties p = some q → ∃ b n e, place p = i :: b ∧
    Placed holder p b ∧ holder.at? b = some n ∧ complexDepth + 1 = e + p.length ∧
    ReadAs source e n q

namespace Located

variable {source owner : String} {root holder : Node} {i : Nat} {d : Definition}
  {place : List Nat → List Nat}

theorem exists_address (h : Located source owner root holder i d place) {p : List Nat}
    (hSome : (Property.at? d.properties p).isSome = true) :
    ∃ b, place p = i :: b ∧ Placed holder p b ∧ p.length ≤ complexDepth + 1 := by
  obtain ⟨q, hAt⟩ := Option.isSome_iff_exists.1 hSome
  obtain ⟨b, n, e, hAddress, hPlaced, -, hDepth, -⟩ := h.placed hAt
  exact ⟨b, hAddress, hPlaced, by omega⟩

/-- As long as levels are left, an element in its place is that of the property at its position. -/
theorem exists_property (h : Located source owner root holder i d place) {p b : List Nat}
    (hPlaced : Placed holder p b) (hDepth : p.length ≤ complexDepth + 1) :
    ∃ q, Property.at? d.properties p = some q ∧ place p = i :: b := by
  obtain ⟨q, hAt⟩ := hPlaced.exists_at? source owner hDepth
  rw [← h.properties] at hAt
  obtain ⟨b', n, e, hAddress, hPlaced', -⟩ := h.placed hAt
  exact ⟨q, hAt, by rw [hAddress, hPlaced.address_eq hPlaced']⟩

theorem holder_isNamed (h : Located source owner root holder i d place) :
    holder.isNamed "PropertyDefs" = true := by
  obtain ⟨hLt, hNamed, -⟩ := List.findIdx?_eq_some_iff_getElem.1 h.index
  obtain ⟨-, rfl⟩ := List.getElem?_eq_some_iff.1 h.child
  exact hNamed

theorem kept_iff (h : Located source owner root holder i d place) {b : List Nat} :
    Kept root (i :: b) ↔ Kept holder b :=
  kept_cons_iff h.child h.root_name h.holder_isNamed

theorem complete (h : Located source owner root holder i d place) (a : List Nat) :
    (∃ p q, Property.at? d.properties p = some q ∧ place p = a) ↔
      ∃ k ≤ complexDepth, Stands root k a ∧ Kept root a := by
  constructor
  · rintro ⟨p, q, hAt, rfl⟩
    obtain ⟨b, n, e, hAddress, hPlaced, -, hDepth, -⟩ := h.placed hAt
    obtain ⟨k, hLength, hIn, hKept⟩ := hPlaced.inPlace
    refine ⟨k, by omega, ⟨i, holder, b, h.index, h.child, hAddress, hIn⟩, ?_⟩
    rw [hAddress]
    exact h.kept_iff.2 hKept
  · rintro ⟨k, hDepth, ⟨i', holder', b, hIndex, hChild, rfl, hIn⟩, hKept⟩
    obtain rfl := Option.some.inj (h.index.symm.trans hIndex)
    obtain rfl := Option.some.inj (h.child.symm.trans hChild)
    have hNotDef : holder.isNamed "PropertyDef" = false := by
      rw [← Bool.not_eq_true]
      exact fun hDef => absurd (Node.eq_of_isNamed h.holder_isNamed hDef) (by decide)
    obtain ⟨p, hLength, hPlaced⟩ := hIn.exists_placed hNotDef (h.kept_iff.1 hKept)
    obtain ⟨q, hAt, hAddress⟩ := h.exists_property hPlaced (by omega)
    exact ⟨p, q, hAt, hAddress⟩

/-- The element at the address of a property is what the property is read from. -/
theorem read (h : Located source owner root holder i d place) {p : List Nat} {q : Property}
    (hAt : Property.at? d.properties p = some q) : ∃ k n, p.length = k + 1 ∧
      Stands root k (place p) ∧ root.at? (place p) = some n ∧ name? n = some q.name ∧
      q.bundleName? = bundleName? n := by
  obtain ⟨b, n, e, hAddress, hPlaced, hNode, -, hAs⟩ := h.placed hAt
  obtain ⟨k, hLength, hIn, -⟩ := hPlaced.inPlace
  refine ⟨k, n, hLength, ⟨i, holder, b, h.index, h.child, hAddress, hIn⟩, ?_, hAs.name, hAs.bundle⟩
  rw [hAddress, Node.at?_cons_of_child h.child, hNode]

theorem ordered (h : Located source owner root holder i d place) {p p' : List Nat}
    (hSome : (Property.at? d.properties p).isSome = true)
    (hSome' : (Property.at? d.properties p').isSome = true) : p < p' ↔ place p < place p' := by
  -- the index of the holder stands in front of both addresses
  obtain ⟨b, hAddress, hFirst, -⟩ := h.exists_address hSome
  obtain ⟨b', hAddress', hSecond, -⟩ := h.exists_address hSome'
  rw [hAddress, hAddress', hFirst.lt_iff hSecond, List.cons_lt_cons_iff]
  exact ⟨fun hLt => .inr ⟨rfl, hLt⟩, fun hLt => (hLt.resolve_left (Nat.lt_irrefl i)).2⟩

/-- The property around another one is read as well, and its element is the one on the way. -/
theorem parent (h : Located source owner root holder i d place) {p : List Nat} {j : Nat}
    (hProper : p ≠ []) (hSome : (Property.at? d.properties (p ++ [j])).isSome = true) :
    ∃ n b z, root.at? (place p) = some n ∧ typePlace? n = some b ∧
      place (p ++ [j]) = place p ++ b ++ [z] := by
  obtain ⟨b, hAddress, hInside, hDepth⟩ := h.exists_address hSome
  obtain ⟨a, n, b', z, hOuter, hNode, hType, rfl⟩ := hInside.parent hProper
  rw [List.length_append] at hDepth
  obtain ⟨-, -, hAddress'⟩ := h.exists_property hOuter (by omega)
  refine ⟨n, b', z, ?_, hType, ?_⟩
  · rw [hAddress', Node.at?_cons_of_child h.child, hNode]
  · rw [hAddress, hAddress']
    rfl

/-- Two levels down no level is left to open anything. -/
theorem cut (h : Located source owner root holder i d place) {p : List Nat} {q : Property}
    (hLength : p.length = complexDepth + 1) (hAt : Property.at? d.properties p = some q) :
    q.inner = [] := by
  obtain ⟨b, n, e, -, -, -, hDepth, hAs⟩ := h.placed hAt
  obtain rfl : e = 0 := by omega
  obtain ⟨path, hInner⟩ := hAs.inner
  rw [hInner, innerOf]
  exact nofun

theorem mirrors (h : Located source owner root holder i d place) : Mirrors root d place :=
  ⟨h.complete, fun _ _ => h.read, fun _ _ => h.ordered, fun _ _ => h.parent, fun _ _ => h.cut⟩

end Located

/-- Every property has its element, and the address of that is what it is mapped to. -/
theorem exists_located {source owner : String} {root holder : Node} {d : Definition} {i : Nat}
    (hRoot : root.isNamed "PropertyDef" = false)
    (hIndex : root.children.findIdx? (Node.isNamed "PropertyDefs") = some i)
    (hChild : root.children[i]? = some holder)
    (hProperties : d.properties = propertiesIn source owner complexDepth holder) :
    ∃ place, Located source owner root holder i d place := by
  have hExists : ∀ p, ∃ a, ∀ q, Property.at? d.properties p = some q →
      ∃ b n e, a = i :: b ∧ Placed holder p b ∧ holder.at? b = some n ∧
        complexDepth + 1 = e + p.length ∧ ReadAs source e n q := by
    intro p
    cases hAt : Property.at? d.properties p with
    | none => exact ⟨[], nofun⟩
    | some q =>
      obtain ⟨b, n, e, hPlaced⟩ := exists_placed_of_at? (hProperties ▸ hAt)
      refine ⟨i :: b, fun q' hSame => ⟨b, n, e, rfl, ?_⟩⟩
      obtain rfl := Option.some.inj hSame
      exact hPlaced
  choose place hPlace using hExists
  exact ⟨place, hRoot, hIndex, hChild, hProperties, fun {p q} => hPlace p q⟩

/-- **The outline of a definition.** The properties of a definition, at every level, are those of
the `PropertyDef` elements of its document that are in place below the root's `PropertyDefs`, at
most two complex levels down, on a way on which every `PropertyDef` has a name and every complex
type is the type element of its `PropertyDef` and has a name attribute. They come in document order,
each in the complex property whose type holds its element, with its name; two levels down a complex
property has nothing in it. -/
theorem read_mirrors {text folder source : String} {d : Definition}
    (hRead : (read text folder source).1 = some d) :
    ∃ root, readDocument (dropMark (dropMark text.toList)) = .ok root ∧
      ∃ place, Mirrors root d place := by
  unfold read at hRead
  cases hDocument : readDocument (dropMark (dropMark text.toList)) with
  | error fault =>
    rw [hDocument] at hRead
    cases hRead
  | ok root =>
    rw [hDocument] at hRead
    refine ⟨root, rfl, ?_⟩
    obtain ⟨hRoot, hProperties⟩ := properties_of_readElement hRead
    cases hIndex : root.children.findIdx? (Node.isNamed "PropertyDefs") with
    | some i =>
      obtain ⟨hLt, hNamed, -⟩ := List.findIdx?_eq_some_iff_getElem.1 hIndex
      have hChild := List.getElem?_eq_getElem hLt
      rw [Node.child?, List.find?_eq_bind_findIdx?_getElem?, hIndex, Option.bind_some, hChild]
        at hProperties
      obtain ⟨place, hLocated⟩ := exists_located hRoot hIndex hChild hProperties
      exact ⟨place, hLocated.mirrors⟩
    | none =>
      -- without the element there is no property, and nothing is in place
      rw [Node.child?, List.find?_eq_bind_findIdx?_getElem?, hIndex] at hProperties
      have hNothing : ∀ {p q}, Property.at? d.properties p ≠ some q := fun {p q} hAt => by
        rw [hProperties] at hAt
        cases (Property.at?_nil p).symm.trans hAt
      have hNowhere : ∀ {p}, ¬ (Property.at? d.properties p).isSome = true := fun hSome =>
        (Option.isSome_iff_exists.1 hSome).elim fun _ => hNothing
      refine ⟨id, fun a => ⟨?_, ?_⟩, fun p q hAt => absurd hAt hNothing,
        fun p p' hSome => absurd hSome hNowhere, fun p i _ hSome => absurd hSome hNowhere,
        fun p q _ hAt => absurd hAt hNothing⟩
      · rintro ⟨p, q, hAt, -⟩
        exact absurd hAt hNothing
      · rintro ⟨k, -, ⟨i, holder, b, hIndex', -⟩, -⟩
        rw [hIndex] at hIndex'
        cases hIndex'

/-- A document with a property without a name, and with complex properties three levels down. A
type that comes second is no type element, and neither it nor the fourth level counts. -/
def nestedDocument : String :=
  "<PropertySetDef><Name>Pset_A</Name><IfcVersion version=\"2x2\"/><PropertyDefs><PropertyDef/>" ++
    "<PropertyDef><Name>A</Name><PropertyType><TypeComplexProperty name=\"T\"><PropertyDef>" ++
    "<Name>B</Name><PropertyType><TypeComplexProperty name=\"U\"><PropertyDef/><PropertyDef>" ++
    "<Name>C</Name><PropertyType><TypeComplexProperty name=\"V\"><PropertyDef><Name>D</Name>" ++
    "</PropertyDef></TypeComplexProperty></PropertyType></PropertyDef></TypeComplexProperty>" ++
    "<TypeComplexProperty name=\"W\"><PropertyDef><Name>X</Name></PropertyDef>" ++
    "</TypeComplexProperty></PropertyType></PropertyDef><PropertyDef><Name>E</Name>" ++
    "</PropertyDef></TypeComplexProperty></PropertyType></PropertyDef></PropertyDefs>" ++
    "</PropertySetDef>"

set_option maxRecDepth 4000 in
/-- The document has four properties with elements, and the third level is the last. -/
theorem nestedDocument_mirrored :
    ∃ root d place, readDocument (dropMark (dropMark nestedDocument.toList)) = .ok root ∧
      (read nestedDocument "IFC2X2" "psd").1 = some d ∧ Mirrors root d place ∧
      ([[0], [0, 0], [0, 0, 0], [0, 1]].map fun p =>
        (Property.at? d.properties p).map fun q => (q.name, q.bundleName?)) =
        [some ("A", some "T"), some ("B", some "U"), some ("C", some "V"), some ("E", none)] ∧
      (Property.at? d.properties [0, 0, 0, 0]).isNone = true := by
  -- reading a list of characters, the kernel need not decode the bytes of the string
  have hText : nestedDocument = String.ofList (_ ++ _ ++ _ ++ _ ++ _ ++ _ ++ _ ++ _ ++ _) :=
    Text.eq_ofList_append (Text.eq_ofList_append (Text.eq_ofList_append (Text.eq_ofList_append
      (Text.eq_ofList_append (Text.eq_ofList_append (Text.eq_ofList_append
        (Text.eq_ofList_append rfl _) _) _) _) _) _) _) _
  have hShown : ((read nestedDocument "IFC2X2" "psd").1.map fun d =>
      decide (([[0], [0, 0], [0, 0, 0], [0, 1]].map fun p =>
        (Property.at? d.properties p).map fun q => (q.name, q.bundleName?)) =
        [some ("A", some "T"), some ("B", some "U"), some ("C", some "V"), some ("E", none)] ∧
      (Property.at? d.properties [0, 0, 0, 0]).isNone = true)) = some true := by
    rw [read, hText, String.toList_ofList]
    decide +kernel
  cases hRead : (read nestedDocument "IFC2X2" "psd").1 with
  | none =>
    rw [hRead] at hShown
    cases hShown
  | some d =>
    rw [hRead] at hShown
    obtain ⟨root, hRoot, place, hMirrors⟩ := read_mirrors hRead
    exact ⟨root, d, place, hRoot, rfl, hMirrors, of_decide_eq_true (Option.some.inj hShown)⟩

end Document

end PropertySets
