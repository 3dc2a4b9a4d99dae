import PropertySets.CommandLine.Configurator
import PropertySets.CommandLine.Generator

/-!
# The program

The two commands on the disk of this machine. The first argument names the command, `pset-config`
or `pset-codegen`; without a name the arguments are those of the generator.
-/

namespace PropertySets.Program

/-- The disk error of a failed operation. -/
def errorOf (e : IO.Error) : DiskError :=
  let ofCode (code : UInt32) (text : String) : DiskError :=
    -- some operations report the negative of the system's code
    match if code < 0x80000000 then code else 0 - code with
    | 2 => .notFound
    | 17 => .alreadyExists
    | 20 => .notADirectory
    | 21 => .isADirectory
    | 36 => .nameTooLong
    | 40 => .tooManyLinks
    | code => .other (text ++ " (os error " ++ toString code.toNat ++ ")")
  match e with
  | .noFileOrDirectory _ code text | .interrupted _ code text => ofCode code text
  | .alreadyExists _ code text | .inappropriateType _ code text | .permissionDenied _ code text
  | .resourceExhausted _ code text | .invalidArgument _ code text | .noSuchThing _ code text =>
    ofCode code text
  | .otherError code text | .resourceBusy code text | .unsatisfiedConstraints code text =>
    ofCode code text
  | e => .other (toString e)

/-- The result of an operation, its error as a disk error. -/
def attempt {α : Type} (action : IO α) : IO (Except DiskError α) := do
  match ← action.toBaseIO with
  | .ok a => return .ok a
  | .error e => return .error (errorOf e)

/-- A path as the place of an entry. -/
def placeOf (p : Path) : IO.FS.DirEntry := ⟨⟨p.text⟩, ""⟩

/-- The kind of what a path leads to, links followed. -/
def typeOf? (p : Path) : IO (Option IO.FS.FileType) := do
  match ← attempt (placeOf p).root.metadata with
  | .ok data => return some data.type
  | .error _ => return none

/-- The kind of an entry itself. -/
def kindOf (e : IO.FS.DirEntry) : IO EntryKind := do
  match ← attempt e.path.symlinkMetadata with
  | .ok data =>
    return match data.type with
      | .dir => .directory
      | .file => .file
      | .symlink | .other => .link
  | .error _ => return .link

/-- The entries below a directory, without order. -/
partial def gather (names : List String) (directory : Path) : IO (List Entry) := do
  let found ← match ← attempt (placeOf directory).root.readDir with
    | .ok entries => pure entries.toList
    | .error _ => pure []
  let below ← found.mapM fun e => do
    let kind ← kindOf e
    let here : Entry := ⟨names ++ [e.fileName], kind⟩
    let inside ← match kind with
      | .directory => gather here.names (directory.join ⟨e.fileName⟩)
      | _ => pure []
    return here :: inside
  return below.flatten

/-- Remove a file or a link, never a directory. -/
def removeFile (p : Path) : IO (Except DiskError Unit) := do
  -- a link with a slash behind it is no directory here
  let bare := String.ofList (p.text.toList.reverse.dropWhile (· == '/')).reverse
  match ← attempt (placeOf (if bare.isEmpty then p else ⟨bare⟩)).root.symlinkMetadata with
  | .error e => return .error e
  | .ok data =>
    if data.type == .dir then return .error .isADirectory
    else attempt (IO.FS.removeFile p.text)

instance : Disk IO where
  Handle := IO.FS.Handle
  workingDirectory := do return ⟨(← IO.currentDir).toString⟩
  read p := do
    if (← typeOf? p) == some .dir then return .error .isADirectory
    else attempt (IO.FS.readBinFile p.text)
  present p := do return (← typeOf? p).isSome
  isDirectory p := do return (← typeOf? p) == some .dir
  isFile p := do return (← typeOf? p) == some .file
  survey p := do
    let entries := (← gather [] p).mergeSort Entry.le
    let kind ← match ← attempt (placeOf p).root.symlinkMetadata with
      | .ok data => pure (if data.type == .dir then EntryKind.directory else EntryKind.link)
      | .error _ => pure EntryKind.directory
    return ⟨[], kind⟩ :: entries
  remove := removeFile
  create p := attempt (IO.FS.Handle.mk p.text .write)
  append h content := do
    h.write content
    -- the file may be read while the handle is open
    h.flush
  makeDirectory p := attempt (IO.FS.createDir p.text)

/-- The environment variables of this process. -/
def environmentOfProcess : IO Configuration.Environment := do
  match ← attempt (IO.FS.readBinFile "/proc/self/environ") with
  | .error _ => return []
  | .ok bytes =>
    let entries := Text.splitAt '\x00' (Text.Utf8.decodeLossy bytes).toList
    return entries.filterMap fun e =>
      (Text.cutAt? ['='] e).map fun (name, value) => (String.ofList name, String.ofList value)

/-- Carry out the command that the arguments name. -/
def outcomeOf (args : List String) : IO CommandLine.Outcome := do
  let environment ← environmentOfProcess
  match args with
  | "pset-config" :: rest => CommandLine.configuratorCommand environment rest
  | "pset-codegen" :: rest => CommandLine.generatorCommand environment rest
  | args => CommandLine.generatorCommand environment args

end PropertySets.Program

def main (args : List String) : IO UInt32 := do
  let outcome ← PropertySets.Program.outcomeOf args
  let output ← IO.getStdout
  output.putStr outcome.output
  output.flush
  let errors ← IO.getStderr
  errors.putStr outcome.errors
  errors.flush
  return UInt32.ofNat outcome.code
