import PropertySets.Xml.Token
import PropertySets.Xml.Tree

/-!
# Reading XML documents

The tokens of a text are put together to a tree: tags have to match, there is exactly one root
element, and every qualifier has to be declared as a namespace by the element it is used in or one
around it.

* `Scope` — the namespaces in force at a place.
* `readDocument` — the root element of a text.
-/

namespace PropertySets.Xml

/-- The namespace of the qualifier `xml`. -/
def xmlNamespace : String := "http://www.w3.org/XML/1998/namespace"

/-- The namespace of namespace declarations. -/
def declarationNamespace : String := "http://www.w3.org/2000/xmlns/"

/-- The namespaces in force, innermost first; the empty qualifier stands for elements without. -/
abbrev Scope := List (String × String)

/-- The qualifier and namespace that an attribute declares; none if it is no declaration. -/
def declaration? (written : QName × String) : Option (String × String) :=
  let (name, value) := written
  if name.qualifier = "xmlns" then some (name.localName, value)
  else if name.localName = "xmlns" then some ("", value)
  else none

/-- The declarations of an element. Reserved names cannot be redeclared, and a qualifier is
declared once; `xml` may be bound to its own namespace, which changes nothing. The namespace of
elements without a qualifier may be declared again: the first declaration is in force. -/
def declarations (attributes : List (QName × String)) : Except Fault Scope :=
  attributes.foldlM (fun (declared : Scope) written =>
    match declaration? written with
    | none => return declared
    | some (qualifier, space) => do
      -- the namespaces of `xml` and `xmlns` cannot be given to other qualifiers
      if space = declarationNamespace then throw .reservedNamespace
      if qualifier = "xml" then
        if space ≠ xmlNamespace then throw .reservedNamespace
      else if space = xmlNamespace then throw .reservedNamespace
      if qualifier ≠ "" && declared.any (·.1 == qualifier) then
        throw (.repeatedQualifier qualifier)
      -- `xml` bound to its own namespace is not entered: it is in force anyway
      return if space = xmlNamespace then declared else declared ++ [(qualifier, space)]) []

/-- The tag of an element in a scope. -/
def resolveTag (scope : Scope) (name : QName) : Except Fault Tag :=
  match scope.lookup name.qualifier with
  | some space => .ok ⟨name.qualifier, some space, name.localName⟩
  | none =>
    if name.qualifier.isEmpty then .ok ⟨"", none, name.localName⟩
    else .error (.unknownQualifier name.qualifier)

/-- The namespace of an attribute in a scope. -/
def attributeNamespace (scope : Scope) (name : QName) : Except Fault (Option String) :=
  if name.qualifier = "xml" then .ok (some xmlNamespace)
  else if name.qualifier.isEmpty then .ok none
  else match scope.lookup name.qualifier with
    | some space => .ok (some space)
    | none => .error (.unknownQualifier name.qualifier)

/-- The attributes of an element, namespace declarations left out; none is given twice. -/
def resolveAttributes (scope : Scope) (attributes : List (QName × String)) :
    Except Fault (List Attribute) :=
  (attributes.filter fun a => (declaration? a).isNone).foldlM (fun resolved (name, value) => do
    let space ← attributeNamespace scope name
    if resolved.any fun a => a.namespaceName == space && a.localName == name.localName then
      throw (.repeatedAttribute name.localName)
    return resolved ++ [⟨space, name.localName, value⟩]) []

/-- An element that is not closed yet. -/
structure OpenElement where
  name : QName
  tag : Tag
  attributes : List Attribute
  /-- The namespaces in force inside the element. -/
  scope : Scope
  /-- The children so far, last one first. -/
  content : List Node

/-- The element, now that it is closed. -/
def OpenElement.close (e : OpenElement) : Node := .element e.tag e.attributes e.content.reverse

/-- The element with a further child. -/
def OpenElement.add (e : OpenElement) (child : Node) : OpenElement :=
  ⟨e.name, e.tag, e.attributes, e.scope, child :: e.content⟩

/-- Open an element in a scope. -/
def openElement (scope : Scope) (name : QName) (attributes : List (QName × String)) :
    Except Fault OpenElement := do
  if name.qualifier = "xmlns" then throw .reservedNamespace
  let inner := (← declarations attributes) ++ scope
  let resolved ← resolveAttributes inner attributes
  return ⟨name, ← resolveTag inner name, resolved, inner, []⟩

/-- Outside the root element: `root?` is the root, once it has been read. Inside: the open
elements, innermost first, and there is at least one. -/
inductive Progress where
  | outside (root? : Option Node)
  | inside (innermost : OpenElement) (around : List OpenElement)

namespace Progress

/-- A complete node inside the innermost open element, or as the root. -/
def place (node : Node) : List OpenElement → Progress
  | [] => outside (some node)
  | e :: around => inside (e.add node) around

/-- One more token. -/
def step (p : Progress) (token : Token) : Except Fault Progress :=
  match p, token with
  | outside root?, .comment _ => .ok (outside root?)
  | outside root?, .instruction _ _ => .ok (outside root?)
  | outside root?, .characters raw =>
    if raw.all isSpace then .ok (outside root?) else .error .outsideRoot
  -- a tag that closes itself is an element without children
  | outside none, .start name attributes closed => do
    let e ← openElement [] name attributes
    return if closed then outside (some e.close) else inside e []
  | outside _, _ => .error .outsideRoot
  | inside e around, .start name attributes closed => do
    let inner ← openElement e.scope name attributes
    return if closed then inside (e.add inner.close) around else inside inner (e :: around)
  | inside e around, .finish name =>
    if name = e.name then .ok (place e.close around) else .error (.unmatchedTag name.text)
  | inside e around, .characters raw => do
    return inside (e.add (.text (← decodeText false raw))) around
  | inside e around, .unmarked s => .ok (inside (e.add (.text (normalizeLines s))) around)
  | inside e around, .comment s => .ok (inside (e.add (.comment s)) around)
  | inside e around, .instruction target content =>
    .ok (inside (e.add (.instruction target content)) around)

/-- The root element, when everything is closed. -/
def root : Progress → Except Fault Node
  | outside (some node) => .ok node
  | outside none => .error .noRoot
  | inside e _ => .error (.unclosedElement e.name.text)

end Progress

/-- The root element of a text. -/
def readDocument (s : List Char) : Except Fault Node := do
  let progress ← (← Token.list s).foldlM Progress.step (.outside none)
  progress.root

end PropertySets.Xml
