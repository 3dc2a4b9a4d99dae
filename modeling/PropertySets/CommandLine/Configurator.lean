import PropertySets.CommandLine.Arguments
import PropertySets.Configuration.Load
import PropertySets.Configuration.Validation

/-!
# The configuration's command line

`pset-config` shows the effective configuration, writes a standard one to a file, checks whether
the effective one can be used, or tells where the file of the user is.

* `ConfiguratorOptions` — what the arguments say.
* `configuratorCommand` — a run of the command.
-/

namespace PropertySets.CommandLine

/-- What the configurator is to do. -/
inductive Action where
  | display
  /-- Write a standard configuration to a file. -/
  | create (path : Path) (force : Bool)
  | validate
  | locate
  deriving DecidableEq, Repr

/-- What the arguments of the configurator say. -/
structure ConfiguratorOptions where
  config? : Option Path
  action : Action
  deriving DecidableEq, Repr

/-- The options in front of the name of the action. -/
def configuratorRules : List Rule := [⟨"config", some 'c', true⟩]

/-- The options of the action that creates a file. -/
def creationRules : List Rule := [⟨"force", none, false⟩]

/-- The file that is created when none is named. -/
def standardFile : String := "psdgen.toml"

/-- The action that takes no arguments. -/
def bareAction (action : Action) (args : List String) : Except UsageFault Action := do
  let given ← readOptions [] args
  checkNoRest given.rest
  return action

/-- The action that creates a file: its path may stand before or behind its option. -/
def creationAction (args : List String) : Except UsageFault Action := do
  let before ← readOptions creationRules args
  match before.rest with
  | [] =>
    checkRepeats before.choices
    return .create ⟨standardFile⟩ (isChosen "force" before.choices)
  | path :: rest =>
    let after ← if before.ended then pure ⟨[], true, rest⟩ else readOptions creationRules rest
    checkNoRest after.rest
    let choices := before.choices ++ after.choices
    checkRepeats choices
    return .create ⟨path⟩ (isChosen "force" choices)

/-- The action that goes by a name. -/
def readAction (name : String) (args : List String) : Except UsageFault Action :=
  match name with
  | "show" => bareAction .display args
  | "init" => creationAction args
  | "validate" => bareAction .validate args
  | "path" => bareAction .locate args
  | _ => .error (.unknownCommand name)

/-- What the arguments of the configurator say. -/
def ConfiguratorOptions.read (args : List String) : Except UsageFault ConfiguratorOptions := do
  let given ← readOptions configuratorRules args
  checkRepeats given.choices
  match given.ended, given.rest with
  | false, name :: rest =>
    return ⟨(valueOf? "config" given.choices).map Path.mk, ← readAction name rest⟩
  | true, text :: _ => throw (.unexpected text)
  | _, [] => throw .missingCommand

section

variable {m : Type → Type} [Monad m] [Disk m]

/-- Go on with the effective configuration. -/
def withConfiguration (environment : Configuration.Environment) (config? : Option Path)
    (next : Configuration → m Outcome) : m Outcome := do
  match ← (Configuration.load environment config? : ExceptT Configuration.LoadFault m _).run with
  | .error fault => return .failed "" fault.message
  | .ok c => next c

/-- Create a file with the standard configuration; one that is there stays unless forced. -/
def createFile (path : Path) (force : Bool) : m Outcome := do
  if (← (Disk.present path : m Bool)) && !force then
    return .failed "" (path.text ++ " already exists (use --force to overwrite)")
  match ← (Configuration.save {} path : m (Except DiskError Unit)) with
  | .error e => return .failed "" e.message
  | .ok () => return ⟨0, "Wrote default configuration to " ++ path.text ++ "\n", ""⟩

/-- Tell what is wrong with a configuration and with the directory it names. -/
def validateConfiguration (c : Configuration) : m Outcome := do
  let root := c.sourceRoot (← (Disk.workingDirectory : m Path))
  let isDirectory ← (Disk.isDirectory root : m Bool)
  let missing : List String :=
    if isDirectory then [] else ["source root " ++ root.text ++ " is not a directory"]
  let problems := c.problems.map Problem.message ++ missing
  if problems.isEmpty then return ⟨0, "Configuration is valid\n", ""⟩
  else
    return .failed (String.join (problems.map fun p => "  - " ++ p ++ "\n"))
      (toString problems.length ++ " problem(s) found")

/-- Carry out an action. -/
def performAction (environment : Configuration.Environment) (o : ConfiguratorOptions) : m Outcome :=
  match o.action with
  | .display => withConfiguration environment o.config? fun c => return ⟨0, c.render, ""⟩
  | .create path force => createFile path force
  | .validate => withConfiguration environment o.config? validateConfiguration
  | .locate =>
    match Configuration.userPath? environment with
    | some path => return ⟨0, path.text ++ "\n", ""⟩
    | none => return ⟨0, "No per-user config directory on this platform\n", ""⟩

/-- A run of the configurator's command. -/
def configuratorCommand (environment : Configuration.Environment) (args : List String) :
    m Outcome :=
  match ConfiguratorOptions.read args with
  | .error fault => return .ofUsage fault
  | .ok o => performAction environment o

end

end PropertySets.CommandLine
