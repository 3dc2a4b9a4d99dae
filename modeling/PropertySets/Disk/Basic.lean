import PropertySets.Path

/-!
# Disks

What the generator does with files is written for any disk: a real one, or a tree of files that is
a plain value. A disk reads and replaces files, makes directories, and lists what is in a directory.

* `Disk` — the operations of a disk.
* `DiskError`, `Failure` — why an operation fails, and why a run does.
* `Disk.makeDirectories`, `Disk.replace` — operations composed from these.
-/

namespace PropertySets

/-- Why an operation of a disk fails. -/
inductive DiskError where
  | notFound
  | alreadyExists
  | notADirectory
  | isADirectory
  | nameTooLong
  | tooManyLinks
  /-- The path holds a character that no file name can hold. -/
  | badName
  /-- No directory above the path could be made. -/
  | noWholeTree
  /-- The operation is not reached, since what comes before it goes on for ever. -/
  | unreached
  /-- Something else, as the system words it. -/
  | other (text : String)
  deriving DecidableEq, Repr

/-- The wording of the system. -/
def DiskError.message : DiskError → String
  | notFound => "No such file or directory (os error 2)"
  | alreadyExists => "File exists (os error 17)"
  | notADirectory => "Not a directory (os error 20)"
  | isADirectory => "Is a directory (os error 21)"
  | nameTooLong => "File name too long (os error 36)"
  | tooManyLinks => "Too many levels of symbolic links (os error 40)"
  | badName => "file name contained an unexpected NUL byte"
  | noWholeTree => "failed to create whole tree"
  | unreached => "operation not reached"
  | other text => text

/-- Why a run fails. Flaws of documents are no failures. -/
inductive Failure where
  /-- An operation on a path failed. -/
  | onDisk (path : Path) (error : DiskError)
  /-- The directory to search is missing. -/
  | missingSourceRoot (path : Path)
  /-- A path lacks the name it has to have. -/
  | invalidPath (path : Path)
  deriving DecidableEq, Repr

/-- The wording of a failure. -/
def Failure.message : Failure → String
  | onDisk path error => "IO error at " ++ path.text ++ ": " ++ error.message
  | missingSourceRoot path => "Source root does not exist: " ++ path.text
  | invalidPath path => "Invalid output path: " ++ path.text

/-- Does a run that is said to fail in this way go on for ever? -/
def Failure.isEndless : Failure → Bool
  | onDisk _ .unreached => true
  | _ => false

/-- What an entry of a directory is; a symbolic link is neither a file nor a directory. -/
inductive EntryKind where
  | file
  | directory
  | link
  deriving DecidableEq, Repr

/-- An entry found below a directory. -/
structure Entry where
  /-- The names from the directory down to the entry. -/
  names : List String
  kind : EntryKind
  deriving DecidableEq, Repr

/-- Is one list of names before another, a directory being before what is in it? -/
def namesLe : List String → List String → Bool
  | [], _ => true
  | _ :: _, [] => false
  | a :: as, b :: bs => if a = b then namesLe as bs else decide (a < b)

/-- Is one entry before another? -/
def Entry.le (a b : Entry) : Bool := namesLe a.names b.names

/-- The operations of a disk. -/
class Disk (m : Type → Type) where
  /-- A file that was created and stays writable, whatever becomes of its path. -/
  Handle : Type
  /-- The directory that relative paths start from, as an absolute path. -/
  workingDirectory : m Path
  /-- The bytes of a file. -/
  read : Path → m (Except DiskError ByteArray)
  /-- Does the path lead to anything? -/
  present : Path → m Bool
  /-- Does the path lead to a directory? -/
  isDirectory : Path → m Bool
  /-- Does the path lead to a file? -/
  isFile : Path → m Bool
  /-- The directory itself and everything below it, links not followed, in ascending order of the
  names from the directory down. -/
  survey : Path → m (List Entry)
  /-- Remove a file or a link. -/
  remove : Path → m (Except DiskError Unit)
  /-- Create a file, or empty the one that is there. -/
  create : Path → m (Except DiskError Handle)
  /-- Write behind what is in a file. -/
  append : Handle → ByteArray → m Unit
  /-- Make one directory. -/
  makeDirectory : Path → m (Except DiskError Unit)

namespace Path

/-- A path and what it is in, innermost first. -/
def ancestors (p : Path) : List Path :=
  match p.parent? with
  | none => [p]
  | some q => if q.text.length < p.text.length then p :: q.ancestors else [p]
termination_by p.text.length

end Path

namespace Disk

variable {m : Type → Type} [Monad m] [Disk m]

/-- An operation on a path, its error being a failure of the run. -/
def attempt {α : Type} (path : Path) (action : m (Except DiskError α)) : ExceptT Failure m α :=
  ExceptT.mk do
    match ← action with
    | .ok a => return .ok a
    | .error e => return .error (.onDisk path e)

/-- Make the first path of the list, and if the directory around it is missing, those after it
first. A directory that is there already is fine. -/
def makeChain : List Path → m (Except DiskError Unit)
  | [] => return .error .noWholeTree
  | p :: up => do
    if p.text.isEmpty then return .ok ()
    let settle (e : DiskError) : m (Except DiskError Unit) := do
      if ← isDirectory p then return .ok () else return .error e
    -- the innermost directory is tried first, so nothing above is touched if that succeeds
    match ← makeDirectory p with
    | .ok () => return .ok ()
    | .error .notFound =>
      match ← makeChain up with
      | .error e => return .error e
      | .ok () =>
        match ← makeDirectory p with
        | .ok () => return .ok ()
        | .error e => settle e
    | .error e => settle e

/-- Make a directory and what is missing around it. -/
def makeDirectories (path : Path) : m (Except DiskError Unit) := makeChain path.ancestors

/-- Write a file anew. -/
def write (path : Path) (content : ByteArray) : m (Except DiskError Unit) := do
  match ← create path with
  | .error e => return .error e
  | .ok handle =>
    append handle content
    return .ok ()

/-- Remove what a path leads to, if it leads to anything. -/
def clear (path : Path) : m (Except DiskError Unit) := do
  if ← present path then remove path else return .ok ()

/-- Write a file in place of what the path leads to. -/
def replace (path : Path) (content : ByteArray) : m (Except DiskError Unit) := do
  match ← clear path with
  | .error e => return .error e
  | .ok () => write path content

end Disk

end PropertySets
