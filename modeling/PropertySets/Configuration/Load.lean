import PropertySets.Configuration.Decoding
import PropertySets.Configuration.Layers
import PropertySets.Configuration.Printer
import PropertySets.Data.Json.Reader
import PropertySets.Data.Toml.Reader
import PropertySets.Disk.Basic
import PropertySets.Text.Utf8

/-!
# Loading and saving a configuration

A configuration is loaded from files, in a fixed order, and then from environment variables. Files
at the usual places may be missing; a file that is asked for may not. The name of a file tells its
format, and may leave out the extension.

* `userPath?` — the file of the user.
* `Configuration.load` — the configuration that all layers make together.
* `Configuration.save` — a configuration written to a file.
-/

namespace PropertySets.Configuration

open Data

/-- Environment variables, names with values. -/
abbrev Environment := List (String × String)

/-- The formats of configuration files. -/
inductive FileFormat where
  | toml
  | json
  deriving DecidableEq, Repr

/-- The file extension of a format. -/
def FileFormat.extension : FileFormat → String
  | toml => "toml"
  | json => "json"

/-- All formats, in the order in which their extensions are tried. -/
def FileFormat.all : List FileFormat := [toml, json]

/-- The settings in a text, if it is one of the format and holds a table. -/
def FileFormat.read? (f : FileFormat) (text : List Char) : Option Layer :=
  let value? : Option Value :=
    match f with
    | toml => Toml.read? text
    | json => Json.read? text
  match value? with
  | some (.table fields) => some fields
  | _ => none

/-- Why no configuration is loaded. -/
inductive LoadFault where
  /-- A file that is asked for is missing. -/
  | missing (path : Path)
  /-- The extension of a file is that of no format. -/
  | unknownFormat (path : Path)
  /-- A file cannot be read. -/
  | onDisk (path : Path) (error : DiskError)
  /-- The bytes of a file are no text. -/
  | notText (path : Path) (fault : Text.Utf8.Fault)
  /-- The text of a file does not follow its format. -/
  | malformed (path : Path)
  /-- A value does not fit its setting. -/
  | misfit (m : Misfit)
  deriving DecidableEq, Repr

/-- The wording of a fault. -/
def LoadFault.message : LoadFault → String
  | missing path => "configuration file \"" ++ path.text ++ "\" not found"
  | unknownFormat path =>
    "configuration file \"" ++ path.text ++ "\" is not of a registered file format"
  | onDisk path error => error.message ++ " in " ++ path.text
  | notText path fault => fault.message ++ " in " ++ path.text
  | malformed path => path.text ++ " does not follow its format"
  | misfit m => m.message

/-- The configuration file of the user: in the directory for configurations if one is named, and
else in the home directory. -/
def userPath? (environment : Environment) : Option Path :=
  let directory? : Option Path :=
    match environment.lookup "XDG_CONFIG_HOME" with
    | some named => if Path.isAbsolute ⟨named⟩ then some ⟨named⟩ else none
    | none => none
  let home? : Option Path :=
    match environment.lookup "HOME" with
    | some home => if home.isEmpty then none else some (Path.join ⟨home⟩ ⟨".config"⟩)
    | none => none
  (directory?.orElse fun _ => home?).map fun d => (d.join ⟨"psdgen"⟩).join ⟨"psdgen.toml"⟩

/-- The usual places of files in the working directory, in the order of their layers. -/
def usualPlaces : List Path := [⟨"psdgen.toml"⟩, ⟨".psdgen.toml"⟩, ⟨"config/psdgen.toml"⟩]

/-- The path with an extension added to its file name; a path without a file name has none. -/
def withAdded (path : Path) (extension : String) : Option Path :=
  path.fileName?.map fun _ =>
    match path.extension? with
    | none => path.putExtension extension
    | some old => path.putExtension (old ++ "." ++ extension)

section

variable {m : Type → Type} [Monad m] [Disk m]

/-- The first of some formats for which there is a file, and that file. -/
def firstPresent (path : Path) : List FileFormat → m (Option (Path × FileFormat))
  | [] => return none
  | format :: rest => do
    match withAdded path format.extension with
    | none => firstPresent path rest
    | some candidate =>
      if ← Disk.isFile candidate then return some (candidate, format) else firstPresent path rest

/-- The file that goes by a name, and its format. -/
def locate (name : Path) : m (Except LoadFault (Path × FileFormat)) := do
  let path := (← (Disk.workingDirectory : m Path)).join name
  if ← Disk.isFile path then
    match FileFormat.all.find? fun format => path.extension? == some format.extension with
    | some format => return .ok (path, format)
    | none => return .error (.unknownFormat path)
  else
    match ← firstPresent path FileFormat.all with
    | some found => return .ok found
    | none => return .error (.missing name)

/-- The layer of a file that goes by a name. What cannot be found or read, or is no text, is an
empty layer unless it is required; a text that does not follow its format is a fault. -/
def fileLayer (required : Bool) (name : Path) : ExceptT LoadFault m Layer := ExceptT.mk do
  let fail (fault : LoadFault) : Except LoadFault Layer :=
    if required then .error fault else .ok []
  match ← locate name with
  | .error fault => return fail fault
  | .ok (path, format) =>
    match ← Disk.read path with
    | .error e => return fail (.onDisk path e)
    | .ok bytes =>
      match Text.Utf8.decode bytes with
      | .error fault => return fail (.notText path fault)
      | .ok text =>
        match format.read? text.toList with
        | some layer => return .ok layer
        -- a file that is there but malformed is never passed over
        | none => return .error (.malformed path)

/-- The layer of the user's file, if there is one. -/
def userLayer (environment : Environment) : ExceptT LoadFault m Layer := do
  match userPath? environment with
  | none => return []
  | some path => if ← (Disk.present path : m Bool) then fileLayer false path else return []

/-- All layers, in the order in which they are put over one another. -/
def layers (environment : Environment) (asked? : Option Path) :
    ExceptT LoadFault m (List Layer) := do
  -- later layers win, so the environment comes last
  let usual ← usualPlaces.mapM (fileLayer false)
  let user ← userLayer environment
  let asked ← asked?.toList.mapM (fileLayer true)
  return usual ++ [user] ++ asked ++ [ofEnvironment environment]

/-- The configuration that all layers make together. -/
def load (environment : Environment) (asked? : Option Path) :
    ExceptT LoadFault m Configuration := do
  match ofFields (combine (← layers environment asked?)).fields with
  | .ok c => return c
  | .error m => throw (.misfit m)

/-- Write a configuration to a file, making the directory around it. -/
def save (c : Configuration) (path : Path) : m (Except DiskError Unit) := do
  let around : Path := path.parent?.getD ⟨""⟩
  let made : Except DiskError Unit ←
    if around.text.isEmpty then pure (.ok ()) else Disk.makeDirectories around
  match made with
  | .error e => return .error e
  | .ok () => Disk.write path c.render.toUTF8

end

end PropertySets.Configuration
