import PropertySets.Diagnostic
import PropertySets.Disk.Basic
import PropertySets.Enumeration.Discriminant
import PropertySets.Enumeration.Ledger
import PropertySets.Enumeration.Sheet
import PropertySets.Schema.Definition
import PropertySets.Version

/-!
# Reconciling enumerations

The same enumeration comes up in many definitions. The first one under a version tag and a name is
written to the file of the tag; a later one is dropped, and reported if its literals differ. The
file of a tag is created when its first enumeration comes, in place of whatever was there, and its
text is written when the run ends.

* `Reconciler.filingTag?` — the tag that an enumeration is filed under, if it is filed at all.
* `Reconciler.reconcile` — deal with one enumeration.
* `Reconciler.finish`, `Reconciler.flush` — write the files, complete or as far as they got.
-/

namespace PropertySets.Enumeration

/-- An enumeration that comes up: its name and items, and where it comes from. -/
structure Request where
  version : String
  folder : String
  name : String
  items : List EnumItem
  /-- What flaws are reported about. -/
  source : String
  deriving DecidableEq, Repr

/-- The tag that a request is filed under; none when version, name or items are missing. -/
def Request.filingTag? (q : Request) : Option String :=
  if q.version.isEmpty || q.name.isEmpty || q.items.isEmpty then none
  else some (enumerationTag q.version q.folder)

/-- The literals of a request as variant declarations. -/
def Request.literals (q : Request) : List String :=
  q.items.map fun item => Naming.sanitizeLiteral item.literal

/-- The file of a tag while it is being filled. -/
structure Sheet (H : Type) where
  tag : String
  path : Path
  handle : H
  /-- The text that it will hold. -/
  text : String

/-- The enumerations filed in a run and the files they go to. -/
structure Reconciler (H : Type) where
  ledger : Ledger
  /-- The directory of the files. -/
  directory : Path
  /-- How the names of the files start. -/
  stem : String
  /-- The files, in ascending order of their tags. -/
  sheets : List (Sheet H)

/-- What a flaw of two enumerations under one key says. -/
def conflictFlaw (source : String) (key : Key) (kept dropped : List String) : Diagnostic :=
  ⟨source, .conflictingEnumDefinition,
    key.tag ++ "." ++ key.name ++ " is already defined with different items",
    ["kept: " ++ ", ".intercalate kept, "dropped: " ++ ", ".intercalate dropped]⟩

/-- What a flaw of moved variants says; nothing when none was moved. -/
def collisionFlaws (source : String) (key : Key) (moved : List String) : Diagnostics :=
  if moved.isEmpty then []
  else [.of source .discriminantCollision (key.tag ++ "." ++ key.name ++ ": " ++
    ", ".intercalate moved ++ " moved to the next free discriminant")]

/-- What came of a request: the tag it is filed under, or the failure to open the tag's file. That
the file is never reached stands for a request that is never dealt with. -/
structure Outcome where
  result : Except Failure (Option String)
  flaws : Diagnostics

namespace Reconciler

variable {H : Type}

/-- Nothing filed yet; the files will be placed beside `output` and named after its stem. -/
def beside (output : Path) : Except Failure (Reconciler H) :=
  match output.stem? with
  | none => .error (.invalidPath output)
  | some stem => .ok ⟨.empty, output.parent?.getD ⟨""⟩, stem, []⟩

/-- The path of the file of a tag. -/
def pathFor (r : Reconciler H) (tag : String) : Path :=
  r.directory.join ⟨r.stem ++ tag ++ "Enum.rs"⟩

/-- Put a sheet among others by its tag. -/
def insertSheet (s : Sheet H) : List (Sheet H) → List (Sheet H)
  | [] => [s]
  | t :: rest => if s.tag < t.tag then s :: t :: rest else t :: insertSheet s rest

/-- Does the tag have a file? -/
def hasSheet (r : Reconciler H) (tag : String) : Bool := r.sheets.any (·.tag == tag)

/-- Write an enumeration behind the others of its tag. -/
def addBody (r : Reconciler H) (tag body : String) : Reconciler H :=
  ⟨r.ledger, r.directory, r.stem, r.sheets.map fun s =>
    if s.tag = tag then ⟨s.tag, s.path, s.handle, s.text ++ body⟩ else s⟩

/-- How many enumerations are filed. -/
def size (r : Reconciler H) : Nat := r.ledger.size

section

variable {m : Type → Type} [Monad m] [Disk m]

/-- Create the file of a tag, unless it has one. -/
def openSheet (r : Reconciler (Disk.Handle m)) (tag : String) :
    m (Except Failure (Reconciler (Disk.Handle m))) := do
  if r.hasSheet tag then return .ok r
  let path := r.pathFor tag
  match ← Disk.clear path with
  | .error e => return .error (.onDisk path e)
  | .ok () =>
    match ← Disk.create path with
    | .error e => return .error (.onDisk path e)
    | .ok handle =>
      let sheet : Sheet (Disk.Handle m) := ⟨tag, path, handle, sheetHead tag⟩
      return .ok ⟨r.ledger, r.directory, r.stem, insertSheet sheet r.sheets⟩

/-- Deal with one enumeration. It is entered in the ledger before it is numbered and its file is
opened. -/
def reconcile (r : Reconciler (Disk.Handle m)) (q : Request) :
    m (Outcome × Reconciler (Disk.Handle m)) := do
  match q.filingTag? with
  | none => return (⟨.ok none, []⟩, r)
  | some tag =>
    let key : Key := ⟨tag, q.name⟩
    let (registration, ledger) := r.ledger.register key q.literals
    -- from here on the ledger holds the key, even when the file cannot be opened
    let r : Reconciler (Disk.Handle m) := ⟨ledger, r.directory, r.stem, r.sheets⟩
    match registration with
    | .duplicate => return (⟨.ok (some tag), []⟩, r)
    | .conflict =>
      let kept := (ledger.find? key).getD []
      return (⟨.ok (some tag), [conflictFlaw q.source key kept q.literals]⟩, r)
    | .first =>
      match assign? q.literals with
      | none => return (⟨.error (.onDisk (r.pathFor tag) .unreached), []⟩, r)
      | some numbering =>
        let flaws := collisionFlaws q.source key numbering.moved
        match ← r.openSheet tag with
        | .error failure => return (⟨.error failure, flaws⟩, r)
        | .ok opened =>
          return (⟨.ok (some tag), flaws⟩,
            opened.addBody tag (sheetBody q.name numbering.declarations))

/-- Write the files as far as they got. -/
def flush (r : Reconciler (Disk.Handle m)) : m Unit :=
  r.sheets.forM fun s => Disk.append s.handle s.text.toUTF8

/-- Complete and write the files; their paths, in ascending order of the tags. -/
def finish (r : Reconciler (Disk.Handle m)) : m (List Path) := do
  r.sheets.forM fun s => Disk.append s.handle (s.text ++ sheetFoot).toUTF8
  return r.sheets.map (·.path)

end

end Reconciler

end PropertySets.Enumeration
