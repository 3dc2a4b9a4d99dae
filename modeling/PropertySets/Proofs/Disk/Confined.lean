import PropertySets.Proofs.Disk.Down

/-!
# Changes that stay with their paths

A file that is removed or created at a path is at the location that the path leads to, a link at its
end being taken as it is or followed. Whatever was removed and created before at other paths, the
path led there already in the tree that it all began with; else it leads to where one of the others
led. The tree may hold any links, and the operations may fail: nothing is said here of their
success.

* `Designates` — a path and the locations that files can be removed from and created at by it.
* `InDirectory`, `inDirectory_of_designates` — the entry of a directory that a path ends in.
* `settled_of_create`, `settled_of_append` — what an operation does, whether it fails or not.
* `Confined` — the changes made at some paths, and what they leave as it was.
* `FurnishedBy`, `furnishedBy_of_makeDirectories` — the directories that are made for a path.
-/

namespace PropertySets.FileTree

variable {t t' base : FileTree} {p : Path} {l : Location}

/-! ## Single operations -/

/-- The path leads to the location, a link at its end being taken as it is or followed. -/
def Designates (t : FileTree) (p : Path) (l : Location) : Prop :=
  ∃ last spot, (last = .itself ∨ last = .created) ∧ t.resolve last p = .ok spot ∧ spot.location = l

/-- The location is the one of that name in the directory, or a link has the name there. -/
def InDirectory (t : FileTree) (dir : Path) (name : String) (l : Location) : Prop :=
  ∃ d, t.target dir = .ok (d, .directory) ∧
    (l = d ++ [name] ∨ ∃ target, t.node? (d ++ [name]) = some (.link target))

/-- Whatever a way from the root directory leads to lies in directories. -/
theorem directory_of_walk {last : LastName} {links : Nat} {slash : Bool} {here : Location}
    {names : List String} {spot : Spot} (hHere : ∀ l, l <+: here → t.node? l = some .directory)
    (hWalk : t.walk last links slash here names = .ok spot) (hAbove : l <+: spot.location)
    (hProper : l ≠ spot.location) : t.node? l = some .directory := by
  -- of what an entry lies in, everything but the entry lies on the way
  have hEntry : ∀ {here : Location} {name : String},
      (∀ l, l <+: here → t.node? l = some .directory) → l <+: here ++ [name] →
      l ≠ here ++ [name] → t.node? l = some .directory := by
    intro here name hHere hAbove hProper
    exact hHere l ((List.prefix_concat_iff.1 hAbove).resolve_left hProper)
  -- a way stands in a directory at each step, with directories above it
  rw [walk_eq_ok_iff] at hWalk
  induction hWalk with
  | here => exact hHere l hAbove
  | dot _ ih => exact ih hHere hAbove hProper
  | @up links slash here rest spot _ ih =>
    exact ih (fun l' hPrefix => hHere l' (hPrefix.trans (List.dropLast_prefix here))) hAbove hProper
  | free | file | link => exact hEntry hHere hAbove hProper
  | @directory links slash here name rest spot _ hNode _ ih =>
    refine ih (fun l' hPrefix => ?_) hAbove hProper
    by_cases hThere : l' = here ++ [name]
    · rw [hThere, hNode]
    · exact hHere l' ((List.prefix_concat_iff.1 hPrefix).resolve_left hThere)
  | followed _ _ _ _ ih =>
    refine ih (fun l' hPrefix => ?_) hAbove hProper
    split at hPrefix
    · rw [List.prefix_nil.1 hPrefix]
      rfl
    · exact hHere l' hPrefix

/-- What a directory lies in is a directory. -/
theorem directory_above {d : Location} (hAbsolute : p.isAbsolute = true)
    (hTarget : t.target p = .ok (d, .directory)) : t.node? d.dropLast = some .directory := by
  obtain ⟨hResolve, hNode⟩ := target_eq_ok_iff.1 hTarget
  rw [resolve_eq_walk hResolve, startOf, if_pos hAbsolute] at hResolve
  by_cases hTop : d.dropLast = d
  · rw [hTop, hNode]
  · refine directory_of_walk (fun l hPrefix => ?_) hResolve (List.dropLast_prefix d) hTop
    rw [List.prefix_nil.1 hPrefix]
    rfl

/-- A path that ends in a name behind a directory leads to the entry of that name in the directory,
or past a link there, unless it leads to a directory. -/
theorem inDirectory_of_designates {dir : Path} {name : String} (hEnds : p.EndsIn dir name)
    (hNamed : Path.isFiller name = false) (hAbsolute : dir.isAbsolute = true)
    (hThere : t.isDirectory dir = true) (hLeads : t.Designates p l)
    (hEntry : t.node? l ≠ some .directory) : name ≠ ".." ∧ t.InDirectory dir name l := by
  obtain ⟨d, hTarget⟩ : ∃ d, t.target dir = .ok (d, .directory) := by
    rw [isDirectory] at hThere
    split at hThere
    · exact ⟨_, ‹_›⟩
    · cases hThere
  obtain ⟨hDirectory, hNode⟩ := target_eq_ok_iff.1 hTarget
  have hDir := leadsTo_of_resolve hDirectory
  obtain ⟨last, spot, -, hResolve, rfl⟩ := hLeads
  have hUp : name ≠ ".." := by
    rintro rfl
    rw [hDir.spot_of_up hNode hEnds hResolve] at hEntry
    exact hEntry (directory_above hAbsolute hTarget)
  refine ⟨hUp, d, hTarget, ?_⟩
  obtain ⟨left, after, hWalk⟩ := hDir.walk_endsIn hNode hEnds
  have hDot := (Path.ne_of_not_filler hNamed).2
  rw [resolve_eq_walk hResolve, hWalk t (.refl t)] at hResolve
  generalize hDots : List.replicate after "." = dots at hResolve
  cases walk_eq_ok_iff.1 hResolve with
  | dot => exact absurd rfl hDot
  | up => exact absurd rfl hUp
  | free | file => exact .inl rfl
  | directory _ _ hOnward =>
    -- behind the name stand only dots
    rw [← walk_eq_ok_iff, ← hDots, ← List.append_nil (List.replicate after "."), walk_dots,
      walk_nil] at hOnward
    cases hOnward
    exact .inl rfl
  | link _ hLink _ | followed _ hLink _ _ => exact .inr ⟨_, hLink⟩

/-- A file that is created at a path is an empty one where the path leads to, and nothing but a file
was there before. -/
theorem created_of_create {handle : Handle}
    (h : (Disk.create p : StateM FileTree _) t = (.ok handle, t')) :
    ∃ spot, t.resolve .created p = .ok spot ∧ spot.location = handle.location ∧
      t.FileOrFree handle.location ∧ Settled t t' handle.location ∧
      t'.node? handle.location = some (.file handle.serial ByteArray.empty) := by
  rcases create_cases h with
    ⟨⟨e, hFailed⟩, -⟩ | ⟨d, name, hVacant, hHandle, rfl⟩ |
      ⟨l, serial, content, hResolve, hNode, hHandle, rfl⟩
  · cases hFailed
  · cases hHandle
    -- nothing was there, and now there is the new file
    have hFree := node?_of_resolve_vacant hVacant
    have hBelow : d ++ [name] ≠ [] := by simp
    refine ⟨_, hVacant, rfl, fun node hNode => ?_, settled_putFile hBelow t _, ?_⟩
    · rw [hFree] at hNode
      cases hNode
    · exact (node?_putFile hBelow _ _).trans (if_pos rfl)
  · cases hHandle
    -- a file was there, and it is empty now
    have hBelow : l ≠ [] := ne_nil_of_node? (t := t) (by simp [hNode])
    refine ⟨_, hResolve, rfl, fun node hThere => ?_, settled_put hBelow t serial _, ?_⟩
    · exact ⟨serial, content, Option.some.inj (hThere.symm.trans hNode)⟩
    · exact (node?_put hBelow _ _).trans (if_pos rfl)

/-- To create a file at a path is to put an empty one where the path leads to, or to do nothing. -/
theorem settled_of_create {result : Except DiskError Handle}
    (h : (Disk.create p : StateM FileTree _) t = (result, t')) :
    (t' = t ∧ ∃ e, result = .error e) ∨
      ∃ handle spot, result = .ok handle ∧ t.resolve .created p = .ok spot ∧
        spot.location = handle.location ∧ t.node? handle.location ≠ some .directory ∧
        Settled t t' handle.location := by
  cases result with
  | error e =>
    rcases create_cases h with ⟨-, hSame⟩ | ⟨_, _, _, hOk, _⟩ | ⟨_, _, _, _, _, hOk, _⟩
    · exact .inl ⟨hSame, e, rfl⟩
    · cases hOk
    · cases hOk
  | ok handle =>
    obtain ⟨spot, hResolve, hSpot, hBefore, hSettled, -⟩ := created_of_create h
    refine .inr ⟨handle, spot, rfl, hResolve, hSpot, fun hDirectory => ?_, hSettled⟩
    obtain ⟨serial, content, hFile⟩ := hBefore _ hDirectory
    cases hFile

/-- To write into a file changes nothing but that file. -/
theorem settled_of_append (t : FileTree) (h : Handle) (more : ByteArray) :
    t.append h more = t ∨
      t.node? h.location ≠ some .directory ∧ Settled t (t.append h more) h.location := by
  rcases append_cases t h more with ⟨held, hBelow, hNode, hAppend⟩ | ⟨-, hAppend⟩
  · rw [hAppend]
    exact .inr ⟨by simp [hNode], settled_put hBelow t _ _⟩
  · exact .inl hAppend

/-! ## Changes at several paths -/

/-- The location is one that a path of some kind leads to. -/
def DesignatedBy (base : FileTree) (written : Path → Prop) (l : Location) : Prop :=
  ∃ p, written p ∧ base.Designates p l

/-- Files were removed, created and written at paths of some kind only: everything else is as it was
in `base`, no directory is gone, and a path leads to where it led or to one of the changes. -/
structure Confined (base : FileTree) (written : Path → Prop) (t : FileTree) : Prop where
  workingDirectory : t.workingDirectory = base.workingDirectory
  node : ∀ l, t.node? l = base.node? l ∨
    (t.FileOrFree l ∧ base.node? l ≠ some .directory ∧ base.DesignatedBy written l)
  leads : ∀ last p spot, t.resolve last p = .ok spot →
    base.resolve last p = .ok spot ∨ base.DesignatedBy written spot.location

namespace Confined

variable {written : Path → Prop}

theorem refl (base : FileTree) (written : Path → Prop) : Confined base written base :=
  ⟨rfl, fun _ => .inl rfl, fun _ _ _ hResolve => .inl hResolve⟩

/-- Where a path leads after the changes, one of the paths led before. -/
theorem designated (h : Confined base written t) (hWritten : written p)
    (hLeads : t.Designates p l) : base.DesignatedBy written l := by
  obtain ⟨last, spot, hLast, hResolve, rfl⟩ := hLeads
  rcases h.leads last p spot hResolve with hBefore | hPlace
  · exact ⟨p, hWritten, last, spot, hLast, hBefore, rfl⟩
  · exact hPlace

/-- One more change, at a location that was led to at the beginning. -/
theorem settle (h : Confined base written t) (hPlace : base.DesignatedBy written l)
    (hEntry : t.node? l ≠ some .directory) (hStep : Settled t t' l) :
    Confined base written t' := by
  refine ⟨hStep.workingDirectory.trans h.workingDirectory, fun l' => ?_,
    fun last p spot hResolve => ?_⟩
  · by_cases hHere : l' = l
    · subst hHere
      refine .inr ⟨hStep.after, ?_, hPlace⟩
      rcases h.node l' with hSame | ⟨-, hBase, -⟩
      · rwa [hSame] at hEntry
      · exact hBase
    · rw [FileOrFree, hStep.elsewhere l' hHere]
      exact h.node l'
  · -- a path leads to the change now, or it leads where it led before the change
    rcases resolve_of_settled hStep hResolve with rfl | hBefore
    · exact .inr hPlace
    · exact h.leads last p spot hBefore

theorem clear (h : Confined base written t) (hWritten : written p)
    {result : Except DiskError Unit}
    (hClear : (Disk.clear p : StateM FileTree _) t = (result, t')) :
    Confined base written t' := by
  rcases clear_cases hClear with ⟨rfl, -⟩ | ⟨-, l, hEntry, rfl, hResolve⟩
  · exact h
  · exact h.settle (h.designated hWritten ⟨_, _, .inl rfl, hResolve, rfl⟩) hEntry
      (settled_erase (ne_nil_of_node? hEntry) t)

/-- The handle of a file that is created stays with one of the paths. -/
theorem create (h : Confined base written t) (hWritten : written p)
    {result : Except DiskError Handle}
    (hCreate : (Disk.create p : StateM FileTree _) t = (result, t')) :
    Confined base written t' ∧
      ∀ handle, result = .ok handle → base.DesignatedBy written handle.location := by
  rcases settled_of_create hCreate with
    ⟨rfl, e, rfl⟩ | ⟨handle, spot, rfl, hResolve, hSpot, hEntry, hStep⟩
  · exact ⟨h, nofun⟩
  · have hPlace := h.designated hWritten ⟨_, spot, .inr rfl, hResolve, hSpot⟩
    refine ⟨h.settle hPlace hEntry hStep, fun handle' hSame => ?_⟩
    cases hSame
    exact hPlace

theorem append (h : Confined base written t) {handle : Handle}
    (hPlace : base.DesignatedBy written handle.location) (more : ByteArray) :
    Confined base written (t.append handle more) := by
  rcases settled_of_append t handle more with hNothing | ⟨hEntry, hStep⟩
  · rwa [hNothing]
  · exact h.settle hPlace hEntry hStep

theorem replace (h : Confined base written t) (hWritten : written p) {content : ByteArray}
    {result : Except DiskError Unit}
    (hReplace : (Disk.replace p content : StateM FileTree _) t = (result, t')) :
    Confined base written t' := by
  rcases hClear : (Disk.clear p : StateM FileTree _) t with ⟨cleared, t₁⟩
  -- whatever comes of it, clearing keeps to the path
  have hCleared := h.clear hWritten hClear
  rw [Disk.replace, bind_apply hClear] at hReplace
  cases cleared with
  | error e =>
    cases hReplace
    exact hCleared
  | ok =>
    rcases hCreate : (Disk.create p : StateM FileTree _) t₁ with ⟨created, t₂⟩
    -- and so do creating the file, which the path leads to then, and writing into it
    obtain ⟨hCreated, hPlace⟩ := hCleared.create hWritten hCreate
    have hWrite : (Disk.write p content : StateM FileTree _) t₁ = (result, t') := hReplace
    rw [Disk.write, bind_apply hCreate] at hWrite
    cases created with
    | error e =>
      cases hWrite
      exact hCreated
    | ok handle =>
      cases hWrite
      exact hCreated.append (hPlace handle rfl) content

end Confined

/-! ## Directories that are made -/

section

variable {last : LastName} {links : Nat} {slash : Bool} {here d : Location} {names : List String}
  {name : String}

/-- A way to something is not changed by a directory that is made elsewhere. -/
theorem walk_of_put (hFree : t.node? l = none) {l' : Location}
    (hWalk : t.walk last links slash here names = .ok (.occupied l')) :
    (t.put l .directory).walk last links slash here names = .ok (.occupied l') := by
  -- the way finds at each step the entry that it found before
  rw [walk_eq_ok_iff] at hWalk ⊢
  generalize hSpot : Spot.occupied l' = spot at hWalk ⊢
  induction hWalk with
  | here => exact .here
  | dot _ ih => exact .dot (ih hSpot)
  | up _ ih => exact .up (ih hSpot)
  | free => cases hSpot
  | directory hFollow hNode _ ih =>
    exact .directory hFollow (node?_put_of_some hFree hNode) (ih hSpot)
  | file hFollow hNode hAsked => exact .file hFollow (node?_put_of_some hFree hNode) hAsked
  | link hFollow hNode hAsked => exact .link hFollow (node?_put_of_some hFree hNode) hAsked
  | followed hFollow hNode hPassed _ ih =>
    exact .followed hFollow (node?_put_of_some hFree hNode) hPassed (ih hSpot)

theorem target_of_put (hFree : t.node? l = none) {l' : Location} {node : TreeNode}
    (hTarget : t.target p = .ok (l', node)) : (t.put l .directory).target p = .ok (l', node) := by
  obtain ⟨hResolve, hNode⟩ := target_eq_ok_iff.1 hTarget
  refine target_eq_ok_iff.2 ⟨?_, node?_put_of_some hFree hNode⟩
  rw [resolve_eq_walk hResolve]
  exact walk_of_put hFree (walk_of_resolve hResolve)

end

/-- Nothing but directories has come in, and each of them is one that a path of the list leads
to. -/
structure FurnishedBy (base : FileTree) (paths : List Path) (t : FileTree) : Prop where
  workingDirectory : t.workingDirectory = base.workingDirectory
  node : ∀ l, t.node? l = base.node? l ∨
    (base.node? l = none ∧ ∃ p ∈ paths, t.target p = .ok (l, .directory))

namespace FurnishedBy

variable {paths : List Path}

theorem refl (base : FileTree) (paths : List Path) : FurnishedBy base paths base :=
  ⟨rfl, fun _ => .inl rfl⟩

/-- One more directory. -/
theorem make (h : FurnishedBy base paths t) (hMem : p ∈ paths) {result : Except DiskError Unit}
    (hMake : (Disk.makeDirectory p : StateM FileTree _) t = (result, t')) :
    FurnishedBy base paths t' := by
  rcases made_of_makeDirectory hMake with ⟨-, d, name, hVacant, rfl⟩ | ⟨-, rfl⟩
  · have hFree := node?_of_resolve_vacant hVacant
    refine ⟨h.workingDirectory, fun l => ?_⟩
    rcases h.node l with hSame | ⟨hNone, q, hListed, hTarget⟩
    · rw [node?_put (by simp)]
      by_cases hHere : l = d ++ [name]
      · subst hHere
        exact .inr ⟨hSame.symm.trans hFree, p, hMem, target_of_made hVacant⟩
      · exact .inl ((if_neg hHere).trans hSame)
    · exact .inr ⟨hNone, q, hListed, target_of_put hFree hTarget⟩
  · exact h

end FurnishedBy

theorem furnishedBy_of_makeChain {paths all : List Path} (hListed : ∀ p ∈ paths, p ∈ all)
    {result : Except DiskError Unit} (hFurnished : FurnishedBy base all t)
    (hMake : (Disk.makeChain paths : StateM FileTree _) t = (result, t')) :
    FurnishedBy base all t' := by
  -- whatever the outcome further out, what was made there is on the list
  induction paths generalizing result t' with
  | nil =>
    cases hMake
    exact hFurnished
  | cons p up ih =>
    rw [List.forall_mem_cons] at hListed
    by_cases hText : p.text = ""
    · rw [Disk.makeChain, if_pos (String.isEmpty_iff.2 hText)] at hMake
      cases hMake
      exact hFurnished
    obtain ⟨around, hAround, hEnd⟩ := makeChain_cases hText hMake
    have hUp : FurnishedBy base all around := by
      rcases hAround with rfl | ⟨upper, hUpper⟩
      · exact hFurnished
      · exact ih hListed.2 hUpper
    rcases hEnd with ⟨rfl, -⟩ | hMade
    · exact hUp
    · exact hUp.make hListed.1 hMade

/-- Making a directory brings in nothing but directories that ancestors of the path lead to; when
that succeeds, the path leads to one. -/
theorem furnishedBy_of_makeDirectories {result : Except DiskError Unit} (hText : p.text ≠ "")
    (hMake : (Disk.makeDirectories p : StateM FileTree _) t = (result, t')) :
    FurnishedBy t p.ancestors t' ∧ (result = .ok () → t'.isDirectory p = true) := by
  refine ⟨furnishedBy_of_makeChain (fun _ hMem => hMem) (.refl t _) hMake, fun hOk => ?_⟩
  exact isDirectory_of_makeDirectories hText (hOk ▸ hMake)

end PropertySets.FileTree
