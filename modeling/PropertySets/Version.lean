import PropertySets.Text.Ascii
import PropertySets.Text.CaseMap

/-!
# Schema versions

A definition carries a loosely written version token, and lies in a schema folder. The token is
normalized to a tag; tag and folder together decide the schema revision that the generated code
can export, and the tag that enumerations are filed under.

* `normalizeVersion` — the tag of a token.
* `Revision.detect?` — the revision of a tag and a folder.
* `enumerationTag` — the tag that enumerations are filed under.
-/

namespace PropertySets

open Text

/-- The tag of a version token. Spaces do not count. Tokens that start with `2` are revisions of
IFC2, a bare `2x` being the second one; tokens that start with `IFC4` stand for their folder. -/
def normalizeVersion (raw folder : String) : String :=
  -- only plain spaces are dropped
  let token := String.ofList (raw.toList.filter (· ≠ ' '))
  if token.toList.head? = some '2' then
    if SameTag token "2X" then "IFC" ++ uppercase token ++ "2" else "IFC" ++ uppercase token
  else if "IFC4".toList.isPrefixOf token.toList then uppercase folder
  else token

/-- The tag that an enumeration is filed under: a bare `IFC4` stands for its folder. -/
def enumerationTag (version folder : String) : String :=
  if SameTag version "IFC4" then uppercase folder else version

/-- The schema revisions that the generated code can export. -/
inductive Revision where
  | ifc2x2
  | ifc2x3tc1
  | ifc4add1
  | ifc4add2
  deriving DecidableEq, Repr

namespace Revision

/-- The tag of a revision. -/
def tag : Revision → String
  | ifc2x2 => "IFC2X2"
  | ifc2x3tc1 => "IFC2X3TC1"
  | ifc4add1 => "IFC4_ADD1"
  | ifc4add2 => "IFC4_ADD2"

/-- The export option that switches a revision on. -/
def exportFlag : Revision → String
  | ifc2x2 => "export_as_2x2"
  | ifc2x3tc1 => "export_as_2x3"
  | ifc4add1 => "export_as_4_add1"
  | ifc4add2 => "export_as_4_add2"

/-- The revision of a definition: the revisions of IFC2 go by the version tag, the addenda of IFC4
by the schema folder, and the version tag is asked first. -/
def detect? (version folder : String) : Option Revision :=
  if SameTag version ifc2x2.tag then some ifc2x2
  else if SameTag version ifc2x3tc1.tag then some ifc2x3tc1
  else if SameTag folder ifc4add1.tag then some ifc4add1
  else if SameTag folder ifc4add2.tag then some ifc4add2
  else none

end Revision

end PropertySets
