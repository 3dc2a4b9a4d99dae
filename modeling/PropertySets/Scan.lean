import PropertySets.Configuration.Basic
import PropertySets.Disk.Basic
import PropertySets.Document
import PropertySets.Registry
import PropertySets.Text.Utf8

/-!
# Searching definition documents

The documents of a schema version lie in a directory of a certain name, whose parent directory
names the schema folder. All such directories below the source root are searched, in the order of
their names; the documents in their immediate subdirectories come before their own. A directory of
documents without a name around it ends the search. Names are texts here: one in another encoding
than UTF-8 would end it likewise.

* `discover` — the schema folders below a root and their documents.
* `parseBytes`, `parseFile` — the definition in a file.
* `loadRegistry` — the registry of all documents, with counts and flaws.
-/

namespace PropertySets

/-- A schema folder and its documents. -/
structure SchemaFolder where
  /-- The name of the directory that the documents' directory is in. -/
  folder : String
  directory : Path
  files : List Path
  deriving DecidableEq, Repr

/-- How many schema folders and documents were found, and what became of the documents. -/
structure ScanSummary where
  folders : Nat
  files : Nat
  parsed : Nat
  skipped : Nat
  deriving DecidableEq, Repr

/-- The summary on one line. -/
def ScanSummary.render (s : ScanSummary) : String :=
  "Scanned " ++ toString s.folders ++ " schema folders, " ++ toString s.files ++ " files (" ++
    toString s.parsed ++ " parsed, " ++ toString s.skipped ++ " skipped)\n"

/-- The path of an entry below a root. -/
def Entry.pathFrom (root : Path) (e : Entry) : Path :=
  e.names.foldl (fun p name => p.join ⟨name⟩) root

/-- The name that an entry goes by; a root without a name goes by its spelling. -/
def Entry.nameFrom (root : Path) (e : Entry) : String :=
  (e.names.getLast?).getD (root.fileName?.getD root.text)

/-- Is the entry a file `depth` levels below a directory? -/
def Entry.isFileBelow (directory : List String) (depth : Nat) (e : Entry) : Bool :=
  e.kind == .file && directory.isPrefixOf e.names && e.names.length == directory.length + depth

/-- The documents of a directory: those of its immediate subdirectories, then its own. -/
def documentsOf (rules : ScanRules) (root : Path) (entries : List Entry) (directory : List String) :
    List Path :=
  let files (depth : Nat) : List Path :=
    ((entries.filter (Entry.isFileBelow directory depth)).map (Entry.pathFrom root)).filter
      rules.accepts
  -- entries of subdirectories come before the own ones
  files 2 ++ files 1

/-- The schema folder of a directory of documents, none if it holds no documents. The name around
the directory is asked for first. -/
def schemaFolder? (rules : ScanRules) (root : Path) (entries : List Entry) (e : Entry) :
    Except Failure (Option SchemaFolder) :=
  let directory := e.pathFrom root
  match directory.parent?.bind Path.fileName? with
  | none => .error (.invalidPath directory)
  | some folder =>
    let files := documentsOf rules root entries e.names
    .ok (if files.isEmpty then none else some ⟨folder, directory, files⟩)

/-- The schema folders among the entries below a root. -/
def foldersAmong (rules : ScanRules) (root : Path) (entries : List Entry) :
    Except Failure (List SchemaFolder) := do
  let directories := entries.filter fun e =>
    e.kind == .directory && e.nameFrom root == rules.folderName
  return (← directories.mapM (schemaFolder? rules root entries)).filterMap id

/-- The definition in the bytes of a file. -/
def parseBytes (bytes : ByteArray) (folder source : String) : Option Definition × Diagnostics :=
  match Text.Utf8.decode bytes with
  | .error fault => (none, [.of source .malformedDocument ("not valid UTF-8: " ++ fault.message)])
  | .ok text => Document.read text folder source

/-- What was read of a document of a schema folder. -/
structure Reading where
  folder : String
  definition? : Option Definition
  flaws : Diagnostics

/-- Everything that was read, in order: the registry, the counts and the flaws. -/
structure Loaded where
  registry : Registry
  summary : ScanSummary
  flaws : Diagnostics

/-- Gather what was read of the documents of `folders` schema folders. -/
def gatherReadings (folders : Nat) (readings : List Reading) : Loaded :=
  let editions := readings.filterMap fun r => r.definition?.map fun d => (⟨r.folder, d⟩ : Edition)
  ⟨.ofList editions,
    ⟨folders, readings.length, editions.length, readings.length - editions.length⟩,
    readings.flatMap (·.flaws)⟩

section

variable {m : Type → Type} [Monad m] [Disk m]

/-- The schema folders below a root. -/
def discover (rules : ScanRules) (root : Path) : ExceptT Failure m (List SchemaFolder) :=
  ExceptT.mk do
    if ← Disk.isDirectory root then return foldersAmong rules root (← Disk.survey root)
    else return .error (.missingSourceRoot root)

/-- The definition in a file. -/
def parseFile (path : Path) (folder : String) :
    ExceptT Failure m (Option Definition × Diagnostics) := do
  return parseBytes (← Disk.attempt path (Disk.read path)) folder path.text

/-- The registry of all documents that a configuration leads to. -/
def loadRegistry (c : Configuration) : ExceptT Failure m Loaded := do
  let folders ← discover c.source.scan (c.sourceRoot (← (Disk.workingDirectory : m Path)))
  let readings ← (folders.flatMap fun f => f.files.map fun path => (f.folder, path)).mapM
    fun (folder, path) => do
      let (definition?, flaws) ← parseFile path folder
      return (⟨folder, definition?, flaws⟩ : Reading)
  return gatherReadings folders.length readings

end

end PropertySets
