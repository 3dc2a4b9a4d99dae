import PropertySets.CommandLine.Arguments
import PropertySets.Configuration.Load
import PropertySets.Configuration.Validation
import PropertySets.Generate

/-!
# The generator's command line

`pset-codegen` loads a configuration, lets its options override it, and refuses to start on one
with problems. Then it searches and reads the documents, generates the code, and reports.

* `GeneratorOptions` — what the arguments say.
* `generatorCommand` — a run of the command.
-/

namespace PropertySets.CommandLine

/-- What the arguments of the generator say. -/
structure GeneratorOptions where
  source? : Option Path
  output? : Option Path
  dump : Bool
  dumpFormat? : Option DumpFormat
  config? : Option Path
  verbose : Bool
  strict : Bool
  deriving DecidableEq, Repr

/-- The options of the generator. -/
def generatorRules : List Rule := [
  ⟨"source", some 's', true⟩, ⟨"output", some 'o', true⟩, ⟨"dump", none, false⟩,
  ⟨"dump-format", none, true⟩, ⟨"config", some 'c', true⟩, ⟨"verbose", some 'v', false⟩,
  ⟨"strict", none, false⟩]

/-- The format that the arguments ask for. -/
def formatOf? (choices : List Choice) : Except UsageFault (Option DumpFormat) :=
  match valueOf? "dump-format" choices with
  | none => .ok none
  | some word =>
    match DumpFormat.read? word with
    | some format => .ok (some format)
    | none => .error (.badValue "dump-format" word)

/-- What the arguments of the generator say. -/
def GeneratorOptions.read (args : List String) : Except UsageFault GeneratorOptions := do
  let given ← readOptions generatorRules args
  checkNoRest given.rest
  checkRepeats given.choices
  let source? ← pathOf? "source" given.choices
  let output? ← pathOf? "output" given.choices
  let format? ← formatOf? given.choices
  return {
    source? := source?.map Path.mk
    output? := output?.map Path.mk
    dump := isChosen "dump" given.choices
    dumpFormat? := format?
    config? := (valueOf? "config" given.choices).map Path.mk
    verbose := isChosen "verbose" given.choices
    strict := isChosen "strict" given.choices }

/-- The configuration with the options put over it; asking for a format asks for a dump. -/
def GeneratorOptions.override (o : GeneratorOptions) (c : Configuration) : Configuration where
  source := ⟨o.source?.getD c.source.root, c.source.scan⟩
  output := {
    path := o.output?.getD c.output.path
    runtimeModule := c.output.runtimeModule
    enumModule := c.output.enumModule
    dump := c.output.dump || o.dump || o.dumpFormat?.isSome
    dumpFormat := o.dumpFormat?.getD c.output.dumpFormat }
  naming := c.naming

/-! ## What is said -/

/-- The reason of a failure with its cause, which for the disk is its wording once more. -/
def causesOf : Failure → String
  | .onDisk path error => (Failure.onDisk path error).message ++ ": " ++ error.message
  | failure => failure.message

/-- The reason why a configuration with problems is refused. -/
def refusal (problems : List Problem) : String :=
  "invalid configuration:\n  " ++ "\n  ".intercalate (problems.map Problem.message)

/-- Where the documents are and the code goes. -/
def heading (c : Configuration) (workingDirectory : Path) : String :=
  "Source: " ++ (c.sourceRoot workingDirectory).text ++ "\nOutput: " ++
    (c.outputPath workingDirectory).text ++ "\n\n"

/-- How many flaws of each severity there are. -/
def flawSummary (flaws : Diagnostics) : String :=
  let lookups := flaws.filter fun d => d.severity == .info
  toString flaws.omissions.length ++ " omission(s), " ++ toString flaws.warnings.length ++
    " warning(s), " ++ toString lookups.length ++
    " lookup miss(es); rerun with --verbose for details\n"

/-- What is said of a finished run. -/
def conclusion (o : GeneratorOptions) (report : Report) (flaws : Diagnostics) : String :=
  report.render ++ "\n" ++ (if o.verbose then flaws.render else flawSummary flaws)

/-! ## Running -/

section

variable {m : Type → Type} [Monad m] [Disk m]

/-- Search, read and generate under a configuration without problems. -/
def generateWith (o : GeneratorOptions) (c : Configuration) : m Outcome := do
  let workingDirectory ← (Disk.workingDirectory : m Path)
  let head := heading c workingDirectory
  match ← (loadRegistry c : ExceptT Failure m Loaded).run with
  | .error failure =>
    let root := (c.sourceRoot workingDirectory).text
    return .failed head ("scanning " ++ root ++ ": " ++ causesOf failure)
  | .ok loaded =>
    let scanned := head ++ loaded.summary.render
    match ← (generate c loaded.registry : ExceptT Failure m Report).run with
    | .error failure => return .failed scanned ("generating code: " ++ causesOf failure)
    | .ok report =>
      let flaws : Diagnostics := loaded.flaws ++ report.flaws
      let said := scanned ++ conclusion o report flaws
      -- the code is written all the same: strictness is about the exit code only
      if o.strict && flaws.hasOmissions then
        return .failed said (toString flaws.omissions.length ++ " psd item(s) were dropped")
      else return ⟨0, said, ""⟩

/-- Load the configuration and go on if it has no problems. -/
def generateLoaded (environment : Configuration.Environment) (o : GeneratorOptions) :
    m Outcome := do
  match ← (Configuration.load environment o.config? : ExceptT Configuration.LoadFault m _).run with
  | .error fault => return .failed "" ("loading configuration: " ++ fault.message)
  | .ok loaded =>
    -- options win over every layer, and problems are sought in the result
    let c := o.override loaded
    if c.problems.isEmpty then generateWith o c else return .failed "" (refusal c.problems)

/-- A run of the generator's command. -/
def generatorCommand (environment : Configuration.Environment) (args : List String) : m Outcome :=
  match GeneratorOptions.read args with
  | .error fault => return .ofUsage fault
  | .ok o => generateLoaded environment o

end

end PropertySets.CommandLine
