import PropertySets.Checksum
import PropertySets.Registration.Emission
import PropertySets.Registration.Printer
import PropertySets.Scan

/-!
# Generating code

A run writes the dump of the model if one is wanted, then the registration module, then the
enumeration files, each in place of what was there, and reports what it wrote with checksums.

* `render` — the text of the registration module, with the events of its emission carried out.
* `generate` — a run on a registry.
* `run` — a run on the documents that a configuration leads to.
-/

namespace PropertySets

open Registration

/-- The kinds of files that a run writes. -/
inductive ArtifactKind where
  | registration
  | enumeration
  | dump
  deriving DecidableEq, Repr

/-- The word for a kind of file. -/
def ArtifactKind.name : ArtifactKind → String
  | registration => "registration"
  | enumeration => "enum"
  | dump => "dump"

/-- A file that a run wrote. -/
structure Artifact where
  kind : ArtifactKind
  path : Path
  checksum : Checksum
  deriving DecidableEq, Repr

/-- What a run reports. -/
structure Report where
  counts : Counts
  /-- How many enumerations were filed. -/
  enumerations : Nat
  artifacts : List Artifact
  flaws : Diagnostics
  deriving DecidableEq, Repr

namespace Report

/-- The counts on one line, and a line for each file. -/
def render (r : Report) : String :=
  toString r.counts.routines ++ " property sets, " ++ toString r.counts.blocks ++
      " version blocks, " ++ toString r.counts.entries ++ " entries, " ++
      toString r.enumerations ++ " enums\n" ++
    String.join (r.artifacts.map fun a => "  " ++ a.checksum.short ++ "  " ++ a.path.text ++ "\n")

/-- The paths of the enumeration files. -/
def enumPaths (r : Report) : List Path :=
  (r.artifacts.filter (·.kind == .enumeration)).map (·.path)

/-- The report with flaws found earlier in front of its own. -/
def after (r : Report) (earlier : Diagnostics) : Report :=
  ⟨r.counts, r.enumerations, r.artifacts, earlier ++ r.flaws⟩

end Report

section

variable {m : Type → Type} [Monad m] [Disk m]

/-- The text of the registration module and how far its emission got; a failure in place of the
text when the emission stopped. -/
def renderModule (c : Configuration) (r : Registry)
    (reconciler : Enumeration.Reconciler (Disk.Handle m)) :
    m (Except Failure String × Emitted (Disk.Handle m)) := do
  let (emitted, failure?) ← emit (.start reconciler) (emission c r)
  match failure? with
  | some failure => return (.error failure, emitted)
  | none => return (.ok (Module.ofRegistry c r).render, emitted)

/-- The checksum of a file that was written. -/
def Artifact.ofFile (kind : ArtifactKind) (path : Path) : ExceptT Failure m Artifact := do
  return ⟨kind, path, .ofBytes (← Disk.attempt path (Disk.read path))⟩

/-- Write the dump beside the output; its path. -/
def writeDump (r : Registry) (output : Path) (format : DumpFormat) : ExceptT Failure m Path := do
  let path := Dump.path output format
  Disk.attempt path (Disk.replace path (Dump.render r format).toUTF8)
  return path

/-- Write the registration module and fill the enumeration files; what was emitted. When that
fails the enumeration files are left as far as they got. -/
def writeModule (c : Configuration) (r : Registry) (output : Path) :
    ExceptT Failure m (Emitted (Disk.Handle m)) := ExceptT.mk do
  match Enumeration.Reconciler.beside output with
  | .error failure => return .error failure
  | .ok reconciler =>
    let (code, emitted) ← renderModule c r reconciler
    let written : Except Failure Unit ← match code with
      | .error failure => pure (.error failure)
      | .ok text => (Disk.attempt output (Disk.replace output text.toUTF8)).run
    match written with
    | .error failure =>
      -- the enumeration files stay open-ended: their modules are not closed; and a run that goes
      -- on for ever writes nothing more
      unless failure.isEndless do emitted.reconciler.flush
      return .error failure
    | .ok () => return .ok emitted

/-- A run on a registry. -/
def generate (c : Configuration) (r : Registry) : ExceptT Failure m Report := do
  let output := c.outputPath (← (Disk.workingDirectory : m Path))
  if output.stem?.isNone then throw (.invalidPath output)
  match output.parent? with
  | some parent => Disk.attempt parent (Disk.makeDirectories parent)
  | none => pure ()
  -- the dump is written first, so it is there even if the code cannot be emitted
  let dump? ← if c.output.dump then some <$> writeDump r output c.output.dumpFormat else pure none
  let emitted ← writeModule c r output
  let registration ← Artifact.ofFile .registration output
  -- the sheets are completed behind the module, and read back when all of them are
  let enumPaths ← (emitted.reconciler.finish : m (List Path))
  let enums ← enumPaths.mapM (Artifact.ofFile .enumeration)
  let dumps ← dump?.toList.mapM (Artifact.ofFile .dump)
  return ⟨emitted.counts, emitted.reconciler.size, registration :: enums ++ dumps, emitted.flaws⟩

/-- A run on the documents that a configuration leads to. -/
def run (c : Configuration) : ExceptT Failure m Report := do
  let loaded ← loadRegistry c
  return (← generate c loaded.registry).after loaded.flaws

end

end PropertySets
