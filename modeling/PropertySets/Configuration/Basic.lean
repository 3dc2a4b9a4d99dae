import PropertySets.Dump

/-!
# Configuration

What a run of the generator is told: where the documents are, where the generated files go, and
which identifiers the generated code uses. Every setting has a standard value.

* `ScanRules.accepts` — the files that are read.
* `Configuration.sourceRoot`, `Configuration.outputPath` — the paths as seen from the working
  directory.
-/

namespace PropertySets

/-- Which directories and files hold definitions. -/
structure ScanRules where
  /-- The name of the directories that hold documents. -/
  folderName : String := "psd"
  /-- How the name of a document starts. -/
  nameStart : String := "Pset_"
  /-- The extension of a document, without the dot. -/
  extension : String := "xml"
  deriving DecidableEq, Repr

/-- Is a path that of a document? Name and extension count with their case. -/
def ScanRules.accepts (rules : ScanRules) (p : Path) : Bool :=
  (p.fileName?.any fun name => rules.nameStart.toList.isPrefixOf name.toList) &&
    p.extension? == some rules.extension

/-- Where the documents are. -/
structure SourceSettings where
  /-- The directory that the schema folders are in. -/
  root : Path := ⟨"."⟩
  scan : ScanRules := {}
  deriving DecidableEq, Repr

/-- Where the generated files go, and which modules the generated code uses. -/
structure OutputSettings where
  /-- The generated module; the other files are placed beside it. -/
  path : Path := ⟨"ExporterInitializer_PsetDef.rs"⟩
  /-- The module that the generated code takes its types from. -/
  runtimeModule : String := "crate::exporter::property_set"
  /-- The module that the enumeration modules are mounted in. -/
  enumModule : String := "crate::exporter::property_set"
  /-- Is a dump of the model written? -/
  dump : Bool := false
  dumpFormat : DumpFormat := .text
  deriving DecidableEq, Repr

/-- Identifiers of the generated code. -/
structure NamingSettings where
  /-- The entity type of a blank applicable class. -/
  defaultEntityType : String := "IfcBuildingElementProxy"
  /-- The sub-element identifiers that the exporter knows. -/
  knownSubIndices : List String := [
    "PSetBeamCommon", "PSetBuildingCommon", "PSetBuildingElementProxyCommon",
    "PSetBuildingStoreyCommon", "PSetColumnCommon", "PSetCoveringCommon", "PSetCurtainWallCommon",
    "PSetDoorCommon", "PSetMemberCommon", "PSetPlateCommon", "PSetRailingCommon", "PSetRampCommon",
    "PSetRoofCommon", "PSetSiteCommon", "PSetSlabCommon", "PSetSpaceCommon", "PSetStairCommon",
    "PSetWallCommon", "PSetWindowCommon", "PSetZoneCommon"]
  deriving DecidableEq, Repr

/-- What a run of the generator is told. -/
structure Configuration where
  source : SourceSettings := {}
  output : OutputSettings := {}
  naming : NamingSettings := {}
  deriving DecidableEq, Repr

namespace Configuration

/-- The directory that the documents are searched in, as seen from the working directory. -/
def sourceRoot (c : Configuration) (workingDirectory : Path) : Path :=
  workingDirectory.join c.source.root

/-- The path of the generated module, as seen from the working directory. -/
def outputPath (c : Configuration) (workingDirectory : Path) : Path :=
  workingDirectory.join c.output.path

end Configuration

end PropertySets
