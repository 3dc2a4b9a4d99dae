import PropertySets.Configuration.Basic
import PropertySets.Data.Toml.Printer

/-!
# Writing a configuration

A configuration is written in full, as one TOML table for each group of settings.

* `Configuration.render` — the text of a configuration.
-/

namespace PropertySets.Configuration

open Data.Toml

/-- The table of the source settings. -/
def writeSource (s : SourceSettings) : List Char :=
  writeHeading "source" ++
    writeEntry "root" (writeText s.root.text.toList) ++
    writeEntry "schema_dir_name" (writeText s.scan.folderName.toList) ++
    writeEntry "file_prefix" (writeText s.scan.nameStart.toList) ++
    writeEntry "file_extension" (writeText s.scan.extension.toList)

/-- The table of the output settings. -/
def writeOutput (s : OutputSettings) : List Char :=
  writeHeading "output" ++
    writeEntry "path" (writeText s.path.text.toList) ++
    writeEntry "runtime_module" (writeText s.runtimeModule.toList) ++
    writeEntry "enum_module" (writeText s.enumModule.toList) ++
    writeEntry "dump" (writeFlag s.dump) ++
    writeEntry "dump_format" (writeText s.dumpFormat.name.toList)

/-- The table of the naming settings. -/
def writeNaming (s : NamingSettings) : List Char :=
  writeHeading "naming" ++
    writeEntry "default_entity_type" (writeText s.defaultEntityType.toList) ++
    writeEntry "known_sub_indices"
      (writeList (s.knownSubIndices.map fun name => writeText name.toList))

/-- The text of a configuration, a blank line between its tables. -/
def render (c : Configuration) : String :=
  String.ofList (writeSource c.source ++ ['\n'] ++ writeOutput c.output ++ ['\n'] ++
    writeNaming c.naming)

end PropertySets.Configuration
