import PropertySets.Disk.Basic

/-!
# File trees

A file tree is a disk as a value: what is at each location. A location is the list of names from the
root directory down, without links; a path leads to a location by following its segments and the
links on the way. All names are texts in UTF-8. Every file has a serial number of its own, so that a
handle stays with the file it was made for when another file takes its place.

* `FileTree.resolve` — where a path leads.
* `FileTree.read`, `FileTree.remove`, `FileTree.create`, … — the operations.
* the instance of `Disk` for computations with a file tree as their state.
-/

namespace PropertySets

/-- The names from the root directory down. -/
abbrev Location := List String

/-- What is at a location. -/
inductive TreeNode where
  | file (serial : Nat) (content : ByteArray)
  | directory
  | link (target : Path)

/-- A disk as a value. -/
structure FileTree where
  /-- What is at each location; the root directory is not listed. -/
  nodes : List (Location × TreeNode)
  /-- The serial number of the next file. -/
  nextSerial : Nat
  /-- The directory that relative paths start from. -/
  workingDirectory : Location

/-- Where a path leads: to something, or to a free name in a directory. -/
inductive Spot where
  | occupied (location : Location)
  | vacant (directory : Location) (name : String)
  deriving DecidableEq, Repr

/-- How the last name of a path is taken. -/
inductive LastName where
  /-- A link is followed. A slash behind the name asks for a directory. -/
  | followed
  /-- The same with a slash behind the name; without one a link is not followed. -/
  | shown
  /-- The entry of this name is meant, be it a link or not. -/
  | itself
  /-- A link is followed, and no slash may stand behind the name. -/
  | created
  deriving DecidableEq, Repr

/-- Is a link at the end of a path taken as the link it is? -/
def LastName.isLink (last : LastName) (slash : Bool) : Bool :=
  match last with
  | followed | created => false
  | shown => !slash
  | itself => true

namespace FileTree

/-! ## Looking up -/

/-- What is at a location. -/
def node? (t : FileTree) (location : Location) : Option TreeNode :=
  if location = [] then some .directory else t.nodes.lookup location

/-- How many links may be followed on the way. -/
def linkLimit : Nat := 40

/-- The segments of a path that count. -/
def route (p : Path) : List String := p.segments.filter (· ≠ "")

/-- Does a path end in a slash behind a name? -/
def endsInSlash (p : Path) : Bool :=
  p.segments.getLast? == some "" && p.segments.any (· ≠ "")

/-- Follow segments from a directory; `slash` tells that a slash stands behind the last one, and at
most `links` links are followed. -/
def walk (t : FileTree) (last : LastName) :
    Nat → Bool → Location → List String → Except DiskError Spot
  | _, _, here, [] => .ok (.occupied here)
  | links, slash, here, name :: rest =>
    if name = "." then walk t last links slash here rest
    else if name = ".." then walk t last links slash here.dropLast rest
    else if last = .created && slash && rest.isEmpty then .error .isADirectory
    else if 255 < name.utf8ByteSize then .error .nameTooLong
    else
      let there := here ++ [name]
      match t.node? there with
      -- only the last name may be missing
      | none => if rest.isEmpty then .ok (.vacant here name) else .error .notFound
      | some .directory => walk t last links slash there rest
      | some (.file _ _) =>
        if !rest.isEmpty || slash && last ≠ .itself then .error .notADirectory
        else .ok (.occupied there)
      | some (.link target) =>
        if rest.isEmpty && last.isLink slash then .ok (.occupied there)
        else match links with
          | 0 => .error .tooManyLinks
          | links + 1 =>
            -- the link stands for its target, as seen from the directory it is in
            walk t last links (slash || rest.isEmpty && endsInSlash target)
              (if target.isAbsolute then [] else here) (route target ++ rest)
termination_by links _ _ segments => (links, segments.length)

/-- Where a path leads. -/
def resolve (t : FileTree) (last : LastName) (p : Path) : Except DiskError Spot :=
  if p.text.toList.contains '\x00' then .error .badName
  else if p.text.isEmpty then .error .notFound
  else if 4095 < p.text.utf8ByteSize then .error .nameTooLong
  else
    walk t last linkLimit (endsInSlash p) (if p.isAbsolute then [] else t.workingDirectory)
      (route p)

/-- What a path leads to, links followed. -/
def target (t : FileTree) (p : Path) : Except DiskError (Location × TreeNode) := do
  match ← t.resolve .followed p with
  | .vacant _ _ => throw .notFound
  | .occupied location =>
    match t.node? location with
    | none => throw .notFound
    | some node => return (location, node)

/-- Does a path lead to anything? -/
def present (t : FileTree) (p : Path) : Bool := (t.target p).isOk

/-- Does a path lead to a directory? -/
def isDirectory (t : FileTree) (p : Path) : Bool :=
  match t.target p with
  | .ok (_, .directory) => true
  | _ => false

/-- Does a path lead to a file? -/
def isFile (t : FileTree) (p : Path) : Bool :=
  match t.target p with
  | .ok (_, .file _ _) => true
  | _ => false

/-- The bytes of the file that a path leads to. -/
def read (t : FileTree) (p : Path) : Except DiskError ByteArray := do
  match ← t.target p with
  | (_, .file _ content) => return content
  | _ => throw .isADirectory

/-! ## Changing -/

/-- The tree with a node at a location. -/
def put (t : FileTree) (location : Location) (node : TreeNode) : FileTree :=
  ⟨(location, node) :: t.nodes.filter (·.1 ≠ location), t.nextSerial, t.workingDirectory⟩

/-- The tree without the node at a location. -/
def erase (t : FileTree) (location : Location) : FileTree :=
  ⟨t.nodes.filter (·.1 ≠ location), t.nextSerial, t.workingDirectory⟩

/-- The tree with a new file at a location. -/
def putFile (t : FileTree) (location : Location) (content : ByteArray) : FileTree :=
  let placed := t.put location (.file t.nextSerial content)
  ⟨placed.nodes, t.nextSerial + 1, t.workingDirectory⟩

/-- Remove the file or link at a path. -/
def remove (t : FileTree) (p : Path) : Except DiskError FileTree := do
  match ← t.resolve .itself p with
  | .vacant _ _ => throw .notFound
  | .occupied location =>
    match t.node? location with
    | none => throw .notFound
    | some .directory => throw .isADirectory
    | some (.file _ _) | some (.link _) =>
      if endsInSlash p then throw .notADirectory else return t.erase location

/-- A file that was created. -/
structure Handle where
  location : Location
  serial : Nat
  deriving DecidableEq, Repr

/-- Create a file, or empty the one that is there. -/
def create (t : FileTree) (p : Path) : Except DiskError (Handle × FileTree) := do
  match ← t.resolve .created p with
  | .vacant directory name =>
    let location := directory ++ [name]
    return (⟨location, t.nextSerial⟩, t.putFile location ByteArray.empty)
  | .occupied location =>
    match t.node? location with
    | some (.file serial _) =>
      return (⟨location, serial⟩, t.put location (.file serial ByteArray.empty))
    | _ => throw .isADirectory

/-- Write behind what is in a file; nothing happens when it is no longer at its location. -/
def append (t : FileTree) (h : Handle) (content : ByteArray) : FileTree :=
  match t.node? h.location with
  | some (.file serial before) =>
    if serial = h.serial then t.put h.location (.file serial (before ++ content)) else t
  | _ => t

/-- Make a directory. -/
def makeDirectory (t : FileTree) (p : Path) : Except DiskError FileTree := do
  match ← t.resolve .itself p with
  | .occupied _ => throw .alreadyExists
  | .vacant directory name => return t.put (directory ++ [name]) .directory

/-! ## Surveying -/

/-- What kind of entry a node is. -/
def kindOf : TreeNode → EntryKind
  | .file _ _ => .file
  | .directory => .directory
  | .link _ => .link

/-- The names from one location down to another. -/
def below? : Location → Location → Option (List String)
  | [], rest => some rest
  | _ :: _, [] => none
  | a :: as, b :: bs => if a = b then below? as bs else none

/-- The kind of what is at a path, a link at its end not being followed. -/
def kindAt (t : FileTree) (p : Path) : EntryKind :=
  match t.resolve .shown p with
  | .ok (.occupied location) => ((t.node? location).map kindOf).getD .directory
  | _ => .directory

/-- The directory that a path leads to and everything below it. -/
def survey (t : FileTree) (p : Path) : List Entry :=
  match t.target p with
  | .ok (location, .directory) =>
    let entries := t.nodes.filterMap fun (other, node) =>
      match below? location other with
      | some (name :: names) => some ⟨name :: names, kindOf node⟩
      | _ => none
    ⟨[], t.kindAt p⟩ :: entries.mergeSort Entry.le
  | _ => []

/-- A location as an absolute path. -/
def pathOf (location : Location) : Path := ⟨"/" ++ "/".intercalate location⟩

end FileTree

/-- Carry out a change that can fail on the state. -/
def changeTree (change : FileTree → Except DiskError FileTree) :
    StateM FileTree (Except DiskError Unit) :=
  fun t =>
    match change t with
    | .ok after => (.ok (), after)
    | .error e => (.error e, t)

instance : Disk (StateM FileTree) where
  Handle := FileTree.Handle
  workingDirectory := fun t => (FileTree.pathOf t.workingDirectory, t)
  read p := fun t => (t.read p, t)
  present p := fun t => (t.present p, t)
  isDirectory p := fun t => (t.isDirectory p, t)
  isFile p := fun t => (t.isFile p, t)
  survey p := fun t => (t.survey p, t)
  remove p := changeTree (·.remove p)
  create p := fun t =>
    match t.create p with
    | .ok (handle, after) => (.ok handle, after)
    | .error e => (.error e, t)
  append h content := fun t => ((), t.append h content)
  makeDirectory p := changeTree (·.makeDirectory p)

end PropertySets
