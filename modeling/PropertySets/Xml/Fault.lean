/-!
# Faults of XML documents

Why a text is no well-formed XML document with namespaces.
-/

namespace PropertySets.Xml

/-- Why a text is no XML document. -/
inductive Fault where
  /-- A character that XML does not admit. -/
  | badCharacter
  /-- A name is missing or starts with a character that no name starts with. -/
  | badName
  /-- An ampersand that starts no known reference. -/
  | badReference
  /-- A construct that is not closed before the text ends. -/
  | unterminated
  /-- Markup that is none of the known kinds, or is put together wrongly. -/
  | badMarkup
  /-- `]]>` among the characters of an element. -/
  | sectionEnd
  /-- Two dashes inside a comment. -/
  | dashesInComment
  /-- An XML declaration that is not at the very start. -/
  | misplacedDeclaration
  /-- A document type declaration, which is not supported. -/
  | documentType
  /-- Something other than comments, instructions and white space around the root element. -/
  | outsideRoot
  /-- There is no root element. -/
  | noRoot
  /-- An element that is not closed. -/
  | unclosedElement (name : String)
  /-- A closing tag that does not fit the open element. -/
  | unmatchedTag (name : String)
  /-- A qualifier that is not declared. -/
  | unknownQualifier (qualifier : String)
  /-- A qualifier that is declared twice by one element. -/
  | repeatedQualifier (qualifier : String)
  /-- A declaration that touches the reserved qualifiers or namespaces. -/
  | reservedNamespace
  /-- An attribute that one element has twice. -/
  | repeatedAttribute (name : String)
  deriving DecidableEq, Repr

/-- The wording of a fault. -/
def Fault.message : Fault → String
  | badCharacter => "the text holds a character that XML does not admit"
  | badName => "a name is missing or malformed"
  | badReference => "an ampersand starts no known reference"
  | unterminated => "the text ends inside a construct"
  | badMarkup => "the text holds unknown or malformed markup"
  | sectionEnd => "']]>' stands in character data"
  | dashesInComment => "'--' stands in a comment"
  | misplacedDeclaration => "an XML declaration is not at the start"
  | documentType => "document type declarations are not supported"
  | outsideRoot => "there is content outside the root element"
  | noRoot => "there is no root element"
  | unclosedElement name => "element '" ++ name ++ "' is not closed"
  | unmatchedTag name => "closing tag '" ++ name ++ "' does not fit the open element"
  | unknownQualifier qualifier => "namespace qualifier '" ++ qualifier ++ "' is not declared"
  | repeatedQualifier qualifier => "namespace qualifier '" ++ qualifier ++ "' is declared twice"
  | reservedNamespace => "a reserved namespace is redeclared"
  | repeatedAttribute name => "attribute '" ++ name ++ "' is given twice"

end PropertySets.Xml
