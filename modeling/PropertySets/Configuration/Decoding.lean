import PropertySets.Configuration.Basic
import PropertySets.Data.Real
import PropertySets.Data.Value
import PropertySets.Text.CaseMap

/-!
# Settings from structured data

A configuration is decoded from a table of the three groups. What is missing keeps its standard
value, and keys that are not known are passed over. Scalars turn into one another where a setting
wants a text or a truth value, except for the rules of the scan, which have to be texts. The groups
of output and naming may also be written as lists, by the order of their settings.

* `asText?`, `asFlag?`, `asFormat?`, `asTexts?` — how a value of each kind is read.
* `Configuration.ofFields` — the configuration in a table.
-/

namespace PropertySets.Configuration

open Data

/-- A setting that a value does not fit. -/
structure Misfit where
  group : String
  /-- The key within the group; none if the group itself is of the wrong kind. -/
  key? : Option String
  deriving DecidableEq, Repr

/-- What is said of a misfit. -/
def Misfit.message (m : Misfit) : String :=
  match m.key? with
  | none => "the value of " ++ m.group ++ " is of the wrong kind"
  | some key => "the value of " ++ m.group ++ "." ++ key ++ " is of the wrong kind"

/-! ## Values -/

/-- A text, or the text of a scalar. -/
def asText? : Value → Option String
  | .text s => some s
  | .boolean b => some (if b then "true" else "false")
  | .integer n => some (toString n)
  | .real x => some (Real.text x)
  | _ => none

/-- A text as it stands. -/
def asPlainText? : Value → Option String
  | .text s => some s
  | _ => none

/-- The truth value that a word stands for. -/
def flagOfWord? (word : String) : Option Bool :=
  if word ∈ ["1", "true", "on", "yes"] then some true
  else if word ∈ ["0", "false", "off", "no"] then some false
  else none

/-- A truth value, a number that is zero or not, or a word. -/
def asFlag? : Value → Option Bool
  | .boolean b => some b
  | .integer n => some (n ≠ 0)
  | .real x => some (x != 0)
  | .text s => flagOfWord? (Text.lowercase s)
  | _ => none

/-- The format that goes by a name, whatever its case. -/
def formatOfName? (name : String) : Option DumpFormat :=
  [DumpFormat.text, DumpFormat.json].find? fun f => f.name == Text.lowercase name

/-- The name of a format, or a table with that name as its only key. -/
def asFormat? : Value → Option DumpFormat
  | .text s => formatOfName? s
  | .table [(key, _)] => formatOfName? key
  | _ => none

/-- A list of texts. -/
def asTexts? : Value → Option (List String)
  | .list items => items.mapM asText?
  | _ => none

/-! ## Groups -/

/-- The setting of a key, the standard value if the key is missing. -/
def setting {α : Type} (group key : String) (read : Value → Option α) (standard : α)
    (fields : List (String × Value)) : Except Misfit α :=
  match fields.lookup key with
  | none => .ok standard
  | some v =>
    match read v with
    | some a => .ok a
    | none => .error ⟨group, some key⟩

/-- The fields of a group that has to be a table. -/
def tableOf (group : String) (fields : List (String × Value)) :
    Except Misfit (List (String × Value)) :=
  match fields.lookup group with
  | none => .ok []
  | some (.table inner) => .ok inner
  | some _ => .error ⟨group, none⟩

/-- The fields of a group that may be a list of the settings of `keys`. -/
def groupOf (group : String) (keys : List String) (fields : List (String × Value)) :
    Except Misfit (List (String × Value)) :=
  match fields.lookup group with
  | some (.list items) => .ok (keys.zip items)
  | _ => tableOf group fields

/-- The source settings. -/
def decodeSource (fields : List (String × Value)) : Except Misfit SourceSettings := do
  let standard : SourceSettings := {}
  let fields ← tableOf "source" fields
  let root ← setting "source" "root" asText? standard.root.text fields
  let folderName ← setting "source" "schema_dir_name" asPlainText? standard.scan.folderName fields
  let nameStart ← setting "source" "file_prefix" asPlainText? standard.scan.nameStart fields
  let extension ← setting "source" "file_extension" asPlainText? standard.scan.extension fields
  return ⟨⟨root⟩, ⟨folderName, nameStart, extension⟩⟩

/-- The output settings. -/
def decodeOutput (fields : List (String × Value)) : Except Misfit OutputSettings := do
  let standard : OutputSettings := {}
  let fields ← groupOf "output" ["path", "runtime_module", "enum_module", "dump", "dump_format"]
    fields
  let path ← setting "output" "path" asText? standard.path.text fields
  let runtimeModule ← setting "output" "runtime_module" asText? standard.runtimeModule fields
  let enumModule ← setting "output" "enum_module" asText? standard.enumModule fields
  let dump ← setting "output" "dump" asFlag? standard.dump fields
  let dumpFormat ← setting "output" "dump_format" asFormat? standard.dumpFormat fields
  return ⟨⟨path⟩, runtimeModule, enumModule, dump, dumpFormat⟩

/-- The naming settings. -/
def decodeNaming (fields : List (String × Value)) : Except Misfit NamingSettings := do
  let standard : NamingSettings := {}
  let fields ← groupOf "naming" ["default_entity_type", "known_sub_indices"] fields
  let entityType ←
    setting "naming" "default_entity_type" asText? standard.defaultEntityType fields
  let subIndices ← setting "naming" "known_sub_indices" asTexts? standard.knownSubIndices fields
  return ⟨entityType, subIndices⟩

/-- The configuration in the fields of a table. -/
def ofFields (fields : List (String × Value)) : Except Misfit Configuration := do
  return ⟨← decodeSource fields, ← decodeOutput fields, ← decodeNaming fields⟩

end PropertySets.Configuration
