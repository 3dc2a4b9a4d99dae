import PropertySets.Configuration.Load
import PropertySets.Disk.FileTree
import PropertySets.Scan

/-!
# What only reads leaves the tree as it is

Loading a configuration and reading the documents look at many files and write none. Whatever they
find, and whether or not they succeed, the tree after them is the tree before.

* `ReadOnly` — an action that leaves every tree as it is; `ReadOnly.bind`, `ReadOnly.andThen`.
* `readOnly_load`, `readOnly_discover` — the two searches.
-/

namespace PropertySets

/-- An action that leaves every tree as it is. -/
def ReadOnly {α : Type} (action : StateM FileTree α) : Prop := ∀ t, (action t).2 = t

namespace ReadOnly

variable {α β ε : Type}

theorem pure (a : α) : ReadOnly (Pure.pure a) := fun _ => rfl

theorem bind {x : StateM FileTree α} {f : α → StateM FileTree β} (hFirst : ReadOnly x)
    (hNext : ∀ a, ReadOnly (f a)) : ReadOnly (x >>= f) := fun t =>
  (hNext (x t).1 (x t).2).trans (hFirst t)

/-- Two steps that can fail: the second one is left out when the first one fails. -/
theorem andThen {x : ExceptT ε (StateM FileTree) α} {f : α → ExceptT ε (StateM FileTree) β}
    (hFirst : ReadOnly x.run) (hNext : ∀ a, ReadOnly (f a).run) : ReadOnly (x >>= f).run := by
  refine bind (f := ExceptT.bindCont f) hFirst fun result => ?_
  cases result with
  | error failure => exact pure _
  | ok a => exact hNext a

/-- An action that cannot fail as a step that can. -/
theorem lift {action : StateM FileTree α} (h : ReadOnly action) :
    ReadOnly (liftM action : ExceptT ε (StateM FileTree) α).run := fun t => h t

theorem mapM {f : α → ExceptT ε (StateM FileTree) β} (h : ∀ a, ReadOnly (f a).run) (l : List α) :
    ReadOnly (l.mapM f).run := by
  induction l with
  | nil => exact pure _
  | cons a rest ih =>
    rw [List.mapM_cons]
    exact andThen (h a) fun _ => andThen ih fun _ => pure _

theorem attempt {path : Path} {action : StateM FileTree (Except DiskError α)}
    (h : ReadOnly action) : ReadOnly (Disk.attempt path action).run := by
  refine bind h fun result => ?_
  cases result <;> exact pure _

theorem tree_eq {action : StateM FileTree α} {a : α} {t t' : FileTree} (h : ReadOnly action)
    (hRun : action t = (a, t')) : t = t' := by
  have hTree := h t
  rw [hRun] at hTree
  exact hTree.symm

end ReadOnly

/-! ## Looking at the disk -/

theorem readOnly_workingDirectory : ReadOnly (Disk.workingDirectory : StateM FileTree Path) :=
  fun _ => rfl

theorem readOnly_read (p : Path) : ReadOnly (Disk.read p) := fun _ => rfl

theorem readOnly_present (p : Path) : ReadOnly (Disk.present p) := fun _ => rfl

theorem readOnly_isDirectory (p : Path) : ReadOnly (Disk.isDirectory p) := fun _ => rfl

theorem readOnly_isFile (p : Path) : ReadOnly (Disk.isFile p) := fun _ => rfl

theorem readOnly_survey (p : Path) : ReadOnly (Disk.survey p) := fun _ => rfl

/-! ## Loading a configuration -/

namespace Configuration

theorem readOnly_firstPresent (path : Path) (formats : List FileFormat) :
    ReadOnly (firstPresent path formats : StateM FileTree _) := by
  induction formats with
  | nil => exact .pure _
  | cons format rest ih =>
    rw [firstPresent]
    split
    · exact ih
    · refine .bind (readOnly_isFile _) fun isThere => ?_
      split
      · exact .pure _
      · exact ih

theorem readOnly_locate (name : Path) : ReadOnly (locate name : StateM FileTree _) := by
  refine .bind readOnly_workingDirectory fun w => .bind (readOnly_isFile _) fun isThere => ?_
  split
  · split <;> exact .pure _
  · refine .bind (readOnly_firstPresent _ _) fun found? => ?_
    split <;> exact .pure _

theorem readOnly_fileLayer (required : Bool) (name : Path) :
    ReadOnly (fileLayer required name : ExceptT LoadFault (StateM FileTree) Layer).run := by
  refine .bind (readOnly_locate name) fun located => ?_
  split
  · exact .pure _
  · refine .bind (readOnly_read _) fun content => ?_
    split
    · exact .pure _
    · split
      · exact .pure _
      · split <;> exact .pure _

theorem readOnly_userLayer (environment : Environment) :
    ReadOnly (userLayer environment : ExceptT LoadFault (StateM FileTree) Layer).run := by
  rw [userLayer]
  split
  · exact .pure _
  · refine .andThen (.lift (readOnly_present _)) fun isThere => ?_
    split
    · exact readOnly_fileLayer false _
    · exact .pure _

theorem readOnly_layers (environment : Environment) (asked? : Option Path) :
    ReadOnly (layers environment asked? : ExceptT LoadFault (StateM FileTree) _).run :=
  .andThen (.mapM (readOnly_fileLayer false) _) fun _ =>
    .andThen (readOnly_userLayer environment) fun _ =>
      .andThen (.mapM (readOnly_fileLayer true) _) fun _ => .pure _

/-- Loading a configuration writes nothing. -/
theorem readOnly_load (environment : Environment) (asked? : Option Path) :
    ReadOnly (load environment asked? : ExceptT LoadFault (StateM FileTree) _).run := by
  refine .andThen (readOnly_layers environment asked?) fun all => ?_
  split <;> exact .pure _

end Configuration

/-! ## Reading the documents -/

/-- Searching the documents writes nothing. -/
theorem readOnly_discover (rules : ScanRules) (root : Path) :
    ReadOnly (discover rules root : ExceptT Failure (StateM FileTree) _).run := by
  refine .bind (readOnly_isDirectory root) fun isThere => ?_
  split
  · exact .bind (readOnly_survey root) fun _ => .pure _
  · exact .pure _

theorem readOnly_parseFile (path : Path) (folder : String) :
    ReadOnly (parseFile path folder : ExceptT Failure (StateM FileTree) _).run :=
  .andThen (.attempt (readOnly_read path)) fun _ => .pure _

/-- Reading the documents writes nothing. -/
theorem readOnly_loadRegistry (c : Configuration) :
    ReadOnly (loadRegistry c : ExceptT Failure (StateM FileTree) _).run :=
  .andThen (.lift readOnly_workingDirectory) fun _ => .andThen (readOnly_discover _ _) fun _ =>
    .andThen (.mapM (fun _ => .andThen (readOnly_parseFile _ _) fun _ => .pure _) _) fun _ =>
      .pure _

end PropertySets
