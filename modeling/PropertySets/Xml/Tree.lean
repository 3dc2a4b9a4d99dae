/-!
# XML trees

An element has a tag, attributes and children; between elements there are texts, comments and
processing instructions. Tags and attributes carry the namespace that their qualifier stands for.

* `Node.child?`, `Node.childrenNamed`, `Node.descendants` — elements by their local names.
* `Node.attribute?` — an attribute without a namespace.
* `Node.characters` — all text inside a node.
-/

namespace PropertySets.Xml

/-- The name of an element. -/
structure Tag where
  qualifier : String
  /-- The namespace that the qualifier, or its absence, stands for. -/
  namespaceName : Option String
  localName : String
  deriving DecidableEq, Repr

/-- An attribute. -/
structure Attribute where
  /-- The namespace that the qualifier stands for; none without a qualifier. -/
  namespaceName : Option String
  localName : String
  value : String
  deriving DecidableEq, Repr

/-- A node of an XML tree. -/
inductive Node where
  | element (tag : Tag) (attributes : List Attribute) (children : List Node)
  | text (characters : List Char)
  | comment (characters : List Char)
  | instruction (target : String) (content : List Char)
  deriving Repr

namespace Node

/-- The children of an element. -/
def children : Node → List Node
  | element _ _ cs => cs
  | _ => []

/-- Is the node an element with a local name? -/
def isNamed (name : String) : Node → Bool
  | element tag _ _ => tag.localName == name
  | _ => false

/-- Is the node an element? -/
def isElement : Node → Bool
  | element _ _ _ => true
  | _ => false

/-- The local name of an element, empty for any other node. -/
def localName : Node → String
  | element tag _ _ => tag.localName
  | _ => ""

/-- The value of an element's attribute without a namespace. -/
def attribute? (n : Node) (name : String) : Option String :=
  match n with
  | element _ attributes _ =>
    (attributes.find? fun a => a.namespaceName == none && a.localName == name).map (·.value)
  | _ => none

/-- The first child element with a local name. -/
def child? (n : Node) (name : String) : Option Node := n.children.find? (isNamed name)

/-- The child elements with a local name. -/
def childrenNamed (n : Node) (name : String) : List Node := n.children.filter (isNamed name)

/-- The first child element. -/
def firstElement? (n : Node) : Option Node := n.children.find? isElement

mutual

/-- The node and everything in it, in document order. -/
def descendants : Node → List Node
  | element tag attributes cs => element tag attributes cs :: descendantsOfList cs
  | text characters => [text characters]
  | comment characters => [comment characters]
  | instruction target content => [instruction target content]

/-- The nodes of a list and everything in them, in document order. -/
def descendantsOfList : List Node → List Node
  | [] => []
  | n :: ns => descendants n ++ descendantsOfList ns

end

mutual

/-- All text inside a node. -/
def characters : Node → List Char
  | element _ _ cs => charactersOfList cs
  | text s => s
  | comment _ => []
  | instruction _ _ => []

/-- All text inside the nodes of a list. -/
def charactersOfList : List Node → List Char
  | [] => []
  | n :: ns => characters n ++ charactersOfList ns

end

/-- The elements with a local name in a node, itself included, in document order. -/
def descendantsNamed (n : Node) (name : String) : List Node := n.descendants.filter (isNamed name)

end Node

end PropertySets.Xml
