import PropertySets.Data.Json.Printer
import PropertySets.Path
import PropertySets.Schema.Listing
import PropertySets.Schema.Record
import PropertySets.Text.Ascii

/-!
# The dump of the model

On request the whole registry is written beside the generated module, as readable text or as JSON.

* `DumpFormat.read?` — the format that a word names.
* `Dump.render` — the registry in a format.
* `Dump.path` — where the dump goes.
-/

namespace PropertySets

/-- The formats of a dump. -/
inductive DumpFormat where
  | text
  | json
  deriving DecidableEq, Repr

namespace DumpFormat

/-- The word for a format in settings. -/
def name : DumpFormat → String
  | text => "text"
  | json => "json"

/-- The file extension of a format. -/
def extension : DumpFormat → String
  | text => "txt"
  | json => "json"

/-- The format that a word names, in capitals or small letters. -/
def read? (word : String) : Option DumpFormat :=
  let w := Text.asciiLower word
  if w = "text" ∨ w = "txt" then some text else if w = "json" then some json else none

/-- What is said of a word that names no format. -/
def unknownMessage (word : String) : String :=
  "unknown dump format '" ++ Text.asciiLower word ++ "', expected text or json"

end DumpFormat

namespace Dump

/-- One edition under its heading. -/
def editionText (e : Edition) : String :=
  "\n  ===> IfcVersion: " ++ e.version ++ " (" ++ e.folder ++ ")\n" ++ e.definition.listing ++ "\n"

/-- The readable text of a registry. -/
def renderText (r : Registry) : String :=
  String.join <| r.groups.map fun (name, editions) =>
    "**** Property Set Name: " ++ name ++ String.join (editions.map editionText) ++ "\n\n"

/-- The registry in a format. -/
def render (r : Registry) : DumpFormat → String
  | .text => renderText r
  | .json => Data.Json.render r.toValue

/-- The path of the dump: the output path with the format's extension. -/
def path (output : Path) (format : DumpFormat) : Path := output.withExtension format.extension

end Dump

end PropertySets
