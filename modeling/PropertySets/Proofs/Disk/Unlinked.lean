import PropertySets.Proofs.Disk.OwnedFiles

/-!
# Trees without symbolic links

Without links the spelling of a path tells where it leads, if it leads anywhere: the tree only
decides whether the way is there. So a file that is created where its path was cleared comes to the
same location in every such tree, and a path that could be used once can be used again for as long
as the directories stay.

* `Unlinked`, `place` — trees without links, and the location that a path spells.
* `Renewed`, `renewed_of_create` — a new file in place of whatever file was there.
* `exists_create_of_frame` — a path that was cleared and written to can be so again.
* `Furnished`, `makeDirectories_of_frame` — directories that were made are there for good.
-/

namespace PropertySets.FileTree

/-- No symbolic link is in the tree. -/
def Unlinked (t : FileTree) : Prop := ∀ l target, t.node? l ≠ some (.link target)

/-- One segment further on the way. -/
def descend (here : Location) (segment : String) : Location :=
  if segment = "." then here
  else if segment = ".." then here.dropLast
  else here ++ [segment]

/-- The location that a path spells, relative paths starting from `start`. -/
def place (start : Location) (p : Path) : Location :=
  (route p).foldl descend (if p.isAbsolute then [] else start)

theorem place_of_isAbsolute {p : Path} (hAbsolute : p.isAbsolute = true) (start : Location) :
    place start p = place [] p := by
  rw [place, place, hAbsolute, if_pos rfl, if_pos rfl]

variable {t t' t'' : FileTree} {p : Path} {l : Location}

theorem SameFrame.symm (h : SameFrame t t') : SameFrame t' t :=
  ⟨h.workingDirectory.symm, fun l => (h.directory l).symm, fun l target => (h.link l target).symm⟩

/-- Trees of one frame have one frame after changes that leave it to both. -/
theorem SameFrame.after {s s' : FileTree} (h : SameFrame t s) (hChange : SameFrame t t')
    (hChange' : SameFrame s s') : SameFrame t' s' :=
  (hChange.symm.trans h).trans hChange'

theorem Unlinked.ofFrame (h : t.Unlinked) (hFrame : SameFrame t t') : t'.Unlinked :=
  fun l target hLink => h l target ((hFrame.link l target).1 hLink)

/-- What is no directory is a file. -/
theorem Unlinked.fileOrFree (h : t.Unlinked) (hOther : t.node? l ≠ some .directory) :
    t.FileOrFree l := by
  intro node hNode
  cases node with
  | file serial content => exact ⟨serial, content, rfl⟩
  | directory => exact absurd hNode hOther
  | link target => exact absurd hNode (h l target)

/-- A tree is without links if no link is listed for it. -/
theorem unlinked_of_nodes (hNodes : ∀ entry ∈ t.nodes, kindOf entry.2 ≠ .link) : t.Unlinked := by
  intro l target hLink
  rw [node?] at hLink
  split at hLink
  · cases hLink
  · obtain ⟨before, after, hListed, -⟩ := List.lookup_eq_some_iff.1 hLink
    exact hNodes (l, .link target) (by rw [hListed]; simp) rfl

/-! ## Where paths lead -/

section

variable {last : LastName} {links : Nat} {slash : Bool} {here d : Location} {names : List String}
  {name : String} {spot : Spot}

theorem descend_entry (hDot : name ≠ ".") (hUp : name ≠ "..") :
    descend here name = here ++ [name] := by
  rw [descend, if_neg hDot, if_neg hUp]

/-- A walk that leads anywhere leads to the location that its segments spell. -/
theorem Unlinked.location_of_walk (h : t.Unlinked)
    (hWalk : t.walk last links slash here names = .ok spot) :
    spot.location = names.foldl descend here := by
  rw [walk_eq_ok_iff] at hWalk
  induction hWalk with
  | here => rfl
  | dot _ ih => exact ih
  | up _ ih => exact ih
  | free hFollow _ | file hFollow _ _ =>
    exact (descend_entry hFollow.notDot hFollow.notUp).symm
  | directory hFollow _ _ ih =>
    rw [List.foldl_cons, descend_entry hFollow.notDot hFollow.notUp]
    exact ih
  | link _ hNode _ | followed _ hNode _ _ _ => exact absurd hNode (h _ _)

theorem Unlinked.location_of_resolve (h : t.Unlinked) (hResolve : t.resolve last p = .ok spot) :
    spot.location = place t.workingDirectory p :=
  h.location_of_walk (walk_of_resolve hResolve)

theorem node?_of_resolve_vacant (hResolve : t.resolve last p = .ok (.vacant d name)) :
    t.node? (d ++ [name]) = none :=
  node?_of_walk_vacant (walk_of_resolve hResolve)

/-- A name that a file can be created under has no slash behind it, and is free for any use. -/
theorem Unlinked.walk_itself_of_created (h : t.Unlinked)
    (hWalk : t.walk .created links slash here names = .ok (.vacant d name)) :
    slash = false ∧ t.walk .itself links slash here names = .ok (.vacant d name) := by
  refine ⟨unslashed_of_walk_created hWalk, (FileTree.walk_itself_of_created hWalk).resolve_right ?_⟩
  rintro ⟨l, target, -, hLink⟩
  exact h l target hLink

/-- A walk to something that is still there goes the same way in every tree of the frame. -/
theorem Unlinked.walk_of_frame (h : t.Unlinked) (hFrame : SameFrame t t')
    (hWalk : t.walk last links slash here names = .ok (.occupied l)) (hThere : t'.node? l ≠ none) :
    t'.walk last links slash here names = .ok (.occupied l) := by
  rw [walk_eq_ok_iff] at hWalk ⊢
  generalize hSpot : Spot.occupied l = spot at hWalk ⊢
  induction hWalk with
  | here => exact .here
  | dot _ ih => exact .dot (ih hSpot)
  | up _ ih => exact .up (ih hSpot)
  | free => cases hSpot
  | directory hFollow hNode _ ih =>
    exact .directory hFollow ((hFrame.directory _).2 hNode) (ih hSpot)
  | @file links slash here name serial content hFollow hNode hAsked =>
    obtain rfl := Spot.occupied.inj hSpot
    -- at the end there is a file in both trees
    have hOther : t'.node? (here ++ [name]) ≠ some .directory := by
      rw [Ne, hFrame.directory, hNode]
      exact nofun
    obtain ⟨node, hNode'⟩ := Option.ne_none_iff_exists'.1 hThere
    obtain ⟨serial', content', rfl⟩ := (h.ofFrame hFrame).fileOrFree hOther node hNode'
    exact .file hFollow hNode' hAsked
  | link _ hNode _ | followed _ hNode _ _ _ => exact absurd hNode (h _ _)

theorem Unlinked.resolve_of_frame (h : t.Unlinked) (hFrame : SameFrame t t')
    (hResolve : t.resolve last p = .ok (.occupied l)) (hThere : t'.node? l ≠ none) :
    t'.resolve last p = .ok (.occupied l) := by
  rw [resolve_eq_walk hResolve, hFrame.startOf]
  exact h.walk_of_frame hFrame (walk_of_resolve hResolve) hThere

end

/-! ## Reading -/

theorem Unlinked.location_of_target (h : t.Unlinked) {node : TreeNode}
    (hTarget : t.target p = .ok (l, node)) : l = place t.workingDirectory p :=
  h.location_of_resolve (target_eq_ok_iff.1 hTarget).1

/-- A path is that of no file when nothing is at the place that it spells. -/
theorem Unlinked.isFile_of_none (h : t.Unlinked)
    (hNone : t.node? (place t.workingDirectory p) = none) : t.isFile p = false := by
  rw [isFile]
  split
  · rename_i found serial content hTarget
    have hNode := (target_eq_ok_iff.1 hTarget).2
    rw [h.location_of_target hTarget, hNone] at hNode
    cases hNode
  · rfl

/-- What is read is the content of the file at the place of the path. -/
theorem Unlinked.node?_of_read (h : t.Unlinked) {content : ByteArray}
    (hRead : t.read p = .ok content) :
    ∃ serial, t.node? (place t.workingDirectory p) = some (.file serial content) := by
  obtain ⟨l, serial, hTarget⟩ := read_eq_ok_iff.1 hRead
  rw [← h.location_of_target hTarget]
  exact ⟨serial, (target_eq_ok_iff.1 hTarget).2⟩

/-- A path that leads to something leads there for as long as there is anything. -/
theorem Unlinked.target_of_frame (h : t.Unlinked) (hFrame : SameFrame t t')
    {before after : TreeNode} (hTarget : t.target p = .ok (l, before))
    (hNode : t'.node? l = some after) :
    t'.target p = .ok (l, after) := by
  have hThere : t'.node? l ≠ none := by
    rw [hNode]
    exact Option.some_ne_none _
  exact target_eq_ok_iff.2
    ⟨h.resolve_of_frame hFrame (target_eq_ok_iff.1 hTarget).1 hThere, hNode⟩

/-- A file that could be read can be read again for as long as there is one. -/
theorem Unlinked.read_of_frame (h : t.Unlinked) (hFrame : SameFrame t t') {before : ByteArray}
    (hRead : t.read p = .ok before) {serial : Nat} {content : ByteArray}
    (hNode : t'.node? (place t.workingDirectory p) = some (.file serial content)) :
    t'.read p = .ok content := by
  obtain ⟨l, other, hTarget⟩ := read_eq_ok_iff.1 hRead
  rw [← h.location_of_target hTarget] at hNode
  exact read_eq_ok_iff.2 ⟨l, serial, h.target_of_frame hFrame hTarget hNode⟩

/-! ## New files -/

/-- There is a new, empty file at the location, in place of the file that was there or of nothing;
everything else is as it was. -/
structure Renewed (t : FileTree) (l : Location) (handle : Handle) (t' : FileTree) : Prop where
  handle_eq : handle = ⟨l, t.nextSerial⟩
  below : l ≠ []
  change : FileChange t t' l
  node : t'.node? l = some (.file t.nextSerial ByteArray.empty)
  nextSerial : t'.nextSerial = t.nextSerial + 1

section

variable {handle : Handle} {t₁ t₂ : FileTree}

theorem Unlinked.ofClear (h : t.Unlinked)
    (hClear : (Disk.clear p : StateM FileTree _) t = (.ok (), t₁)) : t₁.Unlinked :=
  fun l target hLink => h l target (node?_of_clear hClear hLink)

theorem workingDirectory_of_clear
    (hClear : (Disk.clear p : StateM FileTree _) t = (.ok (), t₁)) :
    t₁.workingDirectory = t.workingDirectory := by
  rcases exists_erased_of_clear hClear with ⟨rfl, -⟩ | ⟨l', -, rfl, -⟩
  · rfl
  · rfl

/-- Clearing a path and creating a file at it touches the place of the path only. -/
theorem Unlinked.renewed_of_create (h : t.Unlinked)
    (hClear : (Disk.clear p : StateM FileTree _) t = (.ok (), t₁))
    (hCreate : (Disk.create p : StateM FileTree _) t₁ = (.ok handle, t₂)) :
    Renewed t (place t.workingDirectory p) handle t₂ := by
  obtain ⟨d, name, hVacant, rfl, rfl⟩ := exists_vacant_of_create hClear hCreate
  have hBelow : d ++ [name] ≠ [] := by simp
  have hFree := node?_of_resolve_vacant hVacant
  have hPlace : d ++ [name] = place t.workingDirectory p := by
    rw [← workingDirectory_of_clear hClear]
    exact (h.ofClear hClear).location_of_resolve hVacant
  have hSerial := nextSerial_of_clear hClear
  rw [← hPlace]
  -- whatever the path was cleared of, it was at this place
  have hCleared : FileChange t t₁ (d ++ [name]) := by
    have hNothing : t₁.FileOrFree (d ++ [name]) := fun node hNode => by
      rw [hFree] at hNode
      cases hNode
    rcases exists_erased_of_clear hClear with ⟨rfl, -⟩ | ⟨l, hEntry, rfl, hItself⟩
    · exact .refl hNothing
    · obtain rfl : l = d ++ [name] := (h.location_of_resolve hItself).trans hPlace.symm
      refine ⟨rfl, fun l' hOther => ?_, h.fileOrFree hEntry, hNothing⟩
      rw [node?_erase hBelow, if_neg hOther]
  refine ⟨by rw [hSerial], hBelow, hCleared.trans (putFile_change hFree _), ?_, ?_⟩
  · rw [node?_putFile hBelow, if_pos rfl, hSerial]
  · show t₁.nextSerial + 1 = _
    rw [hSerial]

/-- A path at which a file was created means a file in every tree of the frame. -/
theorem Unlinked.fileAt_of_create (h : t.Unlinked)
    (hClear : (Disk.clear p : StateM FileTree _) t = (.ok (), t₁))
    (hCreate : (Disk.create p : StateM FileTree _) t₁ = (.ok handle, t₂)) :
    ∃ d name, ∀ t', SameFrame t t' → t'.FileAt p d name := by
  have hRenewed := h.renewed_of_create hClear hCreate
  obtain ⟨d, name, hVacant, rfl, rfl⟩ := exists_vacant_of_create hClear hCreate
  have hBelow : d ++ [name] ≠ [] := by simp
  have hFree := node?_of_resolve_vacant hVacant
  have hLocation : d ++ [name] = place t.workingDirectory p :=
    congrArg Handle.location hRenewed.handle_eq
  -- between clearing and creating the frame is the same too
  have hFrame₁ : SameFrame t₁ t := by
    have hPut := (putFile_change hFree ByteArray.empty).sameFrame
    exact hPut.trans hRenewed.change.sameFrame.symm
  obtain ⟨hSlash, hItself⟩ :=
    (h.ofClear hClear).walk_itself_of_created (walk_of_resolve hVacant)
  obtain ⟨hName, left, hLeft⟩ := walk_vacant hItself hSlash
  refine ⟨d, name, fun t' hFrame => ?_⟩
  have hFile : t'.FileOrFree (d ++ [name]) := by
    refine (h.ofFrame hFrame).fileOrFree fun hDirectory => ?_
    rw [(hFrame₁.trans hFrame).directory, hFree] at hDirectory
    cases hDirectory
  refine ⟨hSlash, fun last => ?_, hFile⟩
  rw [resolve_eq_walk hVacant, (hFrame₁.trans hFrame).startOf, hLeft t' (hFrame₁.trans hFrame) last,
    walk_entry hName (fun _ => .inl rfl), spotAt]
  cases hNode : t'.node? (d ++ [name]) with
  | none => rfl
  | some node =>
    obtain ⟨serial, content, rfl⟩ := hFile node hNode
    rfl

/-- So it can be cleared and written to again. -/
theorem Unlinked.exists_create_of_frame (h : t.Unlinked)
    (hClear : (Disk.clear p : StateM FileTree _) t = (.ok (), t₁))
    (hCreate : (Disk.create p : StateM FileTree _) t₁ = (.ok handle, t₂))
    (hFrame : SameFrame t t') :
    ∃ t₁' handle' t₂', (Disk.clear p : StateM FileTree _) t' = (.ok (), t₁') ∧
      (Disk.create p : StateM FileTree _) t₁' = (.ok handle', t₂') := by
  obtain ⟨d, name, hMeans⟩ := h.fileAt_of_create hClear hCreate
  obtain ⟨t₁', hClear', hChange, hFree, -⟩ := clear_of_fileAt (hMeans t' hFrame)
  exact ⟨t₁', _, _, hClear',
    create_of_fileAt (hMeans t₁' (hFrame.trans hChange.sameFrame)) hFree⟩

/-- The path leads to the new file. -/
theorem Unlinked.target_of_create (h : t.Unlinked)
    (hClear : (Disk.clear p : StateM FileTree _) t = (.ok (), t₁))
    (hCreate : (Disk.create p : StateM FileTree _) t₁ = (.ok handle, t₂)) :
    t₂.target p =
      .ok (place t.workingDirectory p, .file t.nextSerial ByteArray.empty) := by
  have hRenewed := h.renewed_of_create hClear hCreate
  obtain ⟨d, name, hMeans⟩ := h.fileAt_of_create hClear hCreate
  have hFrame := hRenewed.change.sameFrame
  have hThere := hMeans t₂ hFrame
  have hPlace : d ++ [name] = place t.workingDirectory p := by
    have hSpot := (h.ofFrame hFrame).location_of_resolve (hThere.resolve .followed)
    rw [hFrame.workingDirectory] at hSpot
    rw [← hSpot, spotAt]
    cases t₂.node? (d ++ [name]) <;> rfl
  rw [target_of_fileAt hThere, hPlace, hRenewed.node]

/-- Where a file was removed a file can be created, if the path ends in a name. -/
theorem Unlinked.walk_created_of_erased (h : t.Unlinked) (hEntry : t.node? l ≠ some .directory)
    {links : Nat} {slash : Bool} {here : Location} {names : List String} {last : String}
    (hSlash : slash = false) (hLast : names.getLast? = some last)
    (hDotted : last ≠ "." ∧ last ≠ "..")
    (hWalk : t.walk .itself links slash here names = .ok (.occupied l)) :
    ∃ d name, (t.erase l).walk .created links slash here names = .ok (.vacant d name) := by
  have hBelow := ne_nil_of_node? hEntry
  have hTail : ∀ {first : String} {rest : List String}, (first :: rest).getLast? = some last →
      first = "." ∨ first = ".." → rest.getLast? = some last := by
    intro first rest hLast hFirst
    cases rest with
    | nil =>
      obtain rfl : first = last := by simpa using hLast
      exact absurd hFirst (not_or.2 hDotted)
    | cons second others => rwa [List.getLast?_cons_cons] at hLast
  rw [walk_eq_ok_iff] at hWalk
  generalize hSpot : Spot.occupied l = spot at hWalk
  induction hWalk with
  | here => cases hLast
  | dot _ ih =>
    rw [walk_dot]
    exact ih hSlash (hTail hLast (.inl rfl)) hSpot
  | up _ ih =>
    rw [walk_up]
    exact ih hSlash (hTail hLast (.inr rfl)) hSpot
  | free => cases hSpot
  | @directory links slash here name rest spot hFollow hNode hOnward ih =>
    cases rest with
    | nil =>
      -- the path led to something else than a directory
      cases hOnward
      cases hSpot
      exact absurd hNode hEntry
    | cons second others =>
      have hStill : (t.erase l).node? (here ++ [name]) = some .directory := by
        rw [node?_erase hBelow, if_neg (by rintro rfl; exact hEntry hNode), hNode]
      rw [walk_directory hFollow.toIsEntryName hStill fun _ => .inl hSlash]
      exact ih hSlash (by rwa [List.getLast?_cons_cons] at hLast) hSpot
  | @file links slash here name serial content hFollow _ _ =>
    cases hSpot
    refine ⟨here, name, walk_eq_ok_iff.2 (.free ⟨hFollow.toIsEntryName, fun _ => .inl hSlash⟩ ?_)⟩
    rw [node?_erase hBelow, if_pos rfl]
  | link _ hNode _ | followed _ hNode _ _ _ => exact absurd hNode (h _ _)

theorem Unlinked.exists_create_of_erased (h : t.Unlinked) {last : String}
    (hSlash : endsInSlash p = false) (hLast : (route p).getLast? = some last)
    (hDotted : last ≠ "." ∧ last ≠ "..") (hEntry : t.node? l ≠ some .directory)
    (hItself : t.resolve .itself p = .ok (.occupied l)) :
    ∃ handle t₂, (Disk.create p : StateM FileTree _) (t.erase l) = (.ok handle, t₂) := by
  obtain ⟨d, name, hVacant⟩ :=
    h.walk_created_of_erased hEntry hSlash hLast hDotted (walk_of_resolve hItself)
  have hResolve : (t.erase l).resolve .created p = .ok (.vacant d name) :=
    (resolve_eq_walk hItself _ _).trans hVacant
  have hCreate : (t.erase l).create p = .ok (⟨d ++ [name], t.nextSerial⟩,
      (t.erase l).putFile (d ++ [name]) ByteArray.empty) := by
    rw [create, hResolve]
    rfl
  refine ⟨⟨d ++ [name], t.nextSerial⟩, (t.erase l).putFile (d ++ [name]) ByteArray.empty, ?_⟩
  simp only [Disk.create, hCreate]

/-- A file that is written anew is a matter of the place of its path only. -/
theorem Unlinked.sameFrame_of_replace (h : t.Unlinked) {content : ByteArray}
    (hReplace : (Disk.replace p content : StateM FileTree _) t = (.ok (), t')) :
    SameFrame t t' := by
  obtain ⟨cleared, handle, created, hClear, hCreate, rfl⟩ := exists_of_replace hReplace
  have hRenewed := h.renewed_of_create hClear hCreate
  exact hRenewed.change.sameFrame.trans (append_keepsFiles created handle content).frame

theorem Unlinked.exists_replace_of_frame (h : t.Unlinked) {content : ByteArray} {t₁ : FileTree}
    (hReplace : (Disk.replace p content : StateM FileTree _) t = (.ok (), t₁))
    (hFrame : SameFrame t t') (other : ByteArray) :
    ∃ t₂, (Disk.replace p other : StateM FileTree _) t' = (.ok (), t₂) := by
  obtain ⟨cleared, handle, created, hClear, hCreate, -⟩ := exists_of_replace hReplace
  obtain ⟨cleared', handle', created', hClear', hCreate'⟩ :=
    h.exists_create_of_frame hClear hCreate hFrame
  refine ⟨created'.append handle' other, ?_⟩
  rw [Disk.replace, bind_apply hClear']
  show (Disk.write p other : StateM FileTree _) cleared' = _
  rw [Disk.write, bind_apply hCreate']
  rfl

end

/-! ## Directories that are made -/

/-- Nothing but directories has come in. -/
structure Furnished (t t' : FileTree) : Prop where
  workingDirectory : t'.workingDirectory = t.workingDirectory
  node : ∀ l, t'.node? l = t.node? l ∨ t'.node? l = some .directory

namespace Furnished

theorem refl (t : FileTree) : Furnished t t := ⟨rfl, fun _ => .inl rfl⟩

theorem trans (h : Furnished t t') (h' : Furnished t' t'') : Furnished t t'' := by
  refine ⟨h'.workingDirectory.trans h.workingDirectory, fun l => ?_⟩
  rcases h'.node l with hSame | hMade
  · exact (h.node l).imp hSame.trans hSame.trans
  · exact .inr hMade

theorem unlinked (h : Furnished t t') (hUnlinked : t.Unlinked) : t'.Unlinked := by
  intro l target hLink
  rcases h.node l with hSame | hMade
  · exact hUnlinked l target (hSame.symm.trans hLink)
  · rw [hMade] at hLink
    cases hLink

theorem ofPut (hFree : t.node? l = none) : Furnished t (t.put l .directory) := by
  have hBelow : l ≠ [] := ne_nil_of_node? (t := t) (by simp [hFree])
  refine ⟨rfl, fun l' => ?_⟩
  rw [node?_put hBelow]
  by_cases hHere : l' = l
  · exact .inr (if_pos hHere)
  · exact .inl (if_neg hHere)

end Furnished

/-- A directory is made where nothing was, or nothing happens. -/
theorem made_of_makeDirectory {result : Except DiskError Unit}
    (h : (Disk.makeDirectory p : StateM FileTree _) t = (result, t')) :
    (result = .ok () ∧ ∃ d name, t.resolve .itself p = .ok (.vacant d name) ∧
        t' = t.put (d ++ [name]) .directory) ∨
      ((∃ e, result = .error e) ∧ t' = t) := by
  have hChange : changeTree (·.makeDirectory p) t = (result, t') := h
  rw [changeTree, makeDirectory] at hChange
  -- a directory is made only where the path leads to a free name
  cases hResolve : t.resolve .itself p with
  | error e =>
    rw [hResolve] at hChange
    cases hChange
    exact .inr ⟨⟨e, rfl⟩, rfl⟩
  | ok spot =>
    rw [hResolve] at hChange
    cases spot with
    | occupied l =>
      cases hChange
      exact .inr ⟨⟨_, rfl⟩, rfl⟩
    | vacant d name =>
      cases hChange
      exact .inl ⟨rfl, d, name, rfl, rfl⟩

/-- A directory that is made takes the place of nothing. -/
theorem node?_put_of_some (hFree : t.node? l = none) {there : Location} {node : TreeNode}
    (hNode : t.node? there = some node) : (t.put l .directory).node? there = some node := by
  rw [node?_put (ne_nil_of_node? (t := t) (by simp [hFree])),
    if_neg (by rintro rfl; simp [hFree] at hNode), hNode]

/-- Whoever made a directory comes to it on the same way, past whatever links there are. -/
theorem walk_of_made {links : Nat} {slash : Bool} {here d : Location} {names : List String}
    {name : String} (hWalk : t.walk .itself links slash here names = .ok (.vacant d name)) :
    (t.put (d ++ [name]) .directory).walk .followed links slash here names =
      .ok (.occupied (d ++ [name])) := by
  have hFree := node?_of_walk_vacant hWalk
  rw [walk_eq_ok_iff] at hWalk ⊢
  generalize hSpot : Spot.vacant d name = spot at hWalk
  -- the way is the same up to the name that was free, which is now a directory
  induction hWalk with
  | here | file | link => cases hSpot
  | dot _ ih => exact .dot (ih hSpot)
  | up _ ih => exact .up (ih hSpot)
  | free hFollow _ =>
    cases hSpot
    refine .directory (hFollow.as nofun) ?_ .here
    rw [node?_put (by simp), if_pos rfl]
  | directory hFollow hNode _ ih =>
    exact .directory (hFollow.as nofun) (node?_put_of_some hFree hNode) (ih hSpot)
  | followed hFollow hNode _ _ ih =>
    exact .followed (hFollow.as nofun) (node?_put_of_some hFree hNode) (fun _ => rfl) (ih hSpot)

theorem target_of_made {d : Location} {name : String}
    (hVacant : t.resolve .itself p = .ok (.vacant d name)) :
    (t.put (d ++ [name]) .directory).target p = .ok (d ++ [name], .directory) := by
  refine target_eq_ok_iff.2 ⟨?_, ?_⟩
  · rw [resolve_eq_walk hVacant]
    exact walk_of_made (walk_of_resolve hVacant)
  · rw [node?_put (by simp), if_pos rfl]

/-- A directory that cannot be made leaves the tree as it is. -/
theorem unchanged_of_makeDirectory_error {e : DiskError}
    (h : (Disk.makeDirectory p : StateM FileTree _) t = (.error e, t')) : t' = t := by
  rcases made_of_makeDirectory h with ⟨hOk, -⟩ | ⟨-, hSame⟩
  · cases hOk
  · exact hSame

/-- An error is none where the directory is there already. -/
theorem isDirectory_of_settled {e : DiskError} {result : Except DiskError Unit}
    (h : (do if ← Disk.isDirectory p then return .ok () else return .error e :
      StateM FileTree (Except DiskError Unit)) t = (result, t')) :
    t' = t ∧ (result = .ok () → t'.isDirectory p = true) := by
  have hAsk : (Disk.isDirectory p : StateM FileTree Bool) t = (t.isDirectory p, t) := rfl
  rw [bind_apply hAsk] at h
  split at h
  · cases h
    exact ⟨rfl, fun _ => ‹_›⟩
  · cases h
    exact ⟨rfl, by rintro ⟨⟩⟩

/-- To make the first directory of a chain is to make those around it, if need be, and then to make
it or to find it there. -/
theorem makeChain_cases {up : List Path} {result : Except DiskError Unit} (hText : p.text ≠ "")
    (h : (Disk.makeChain (p :: up) : StateM FileTree _) t = (result, t')) :
    ∃ around, (around = t ∨
        ∃ upper, (Disk.makeChain up : StateM FileTree _) t = (upper, around)) ∧
      ((t' = around ∧ (result = .ok () → t'.isDirectory p = true)) ∨
        (Disk.makeDirectory p : StateM FileTree _) around = (.ok (), t')) := by
  have hNamed : ¬ p.text.isEmpty = true := by rwa [String.isEmpty_iff]
  rcases hMade : (Disk.makeDirectory p : StateM FileTree _) t with ⟨made, t₁⟩
  rw [Disk.makeChain, if_neg hNamed, bind_apply hMade] at h
  cases made with
  | ok =>
    cases h
    exact ⟨t, .inl rfl, .inr hMade⟩
  | error e =>
    obtain rfl := unchanged_of_makeDirectory_error hMade
    cases e with
    | notFound =>
      rcases hUp : (Disk.makeChain up : StateM FileTree _) t₁ with ⟨upper, t₂⟩
      -- those around it are made, and then there is a second attempt
      have hRest : ((Disk.makeChain up : StateM FileTree _) >>= _) t₁ = _ := h
      rw [bind_apply hUp] at hRest
      refine ⟨t₂, .inr ⟨upper, rfl⟩, ?_⟩
      cases upper with
      | error e =>
        cases hRest
        exact .inl ⟨rfl, by rintro ⟨⟩⟩
      | ok =>
        rcases hAgain : (Disk.makeDirectory p : StateM FileTree _) t₂ with ⟨again, t₃⟩
        have hEnd : ((Disk.makeDirectory p : StateM FileTree _) >>= _) t₂ = _ := hRest
        rw [bind_apply hAgain] at hEnd
        cases again with
        | ok =>
          cases hEnd
          exact .inr rfl
        | error e =>
          obtain rfl := unchanged_of_makeDirectory_error hAgain
          exact .inl (isDirectory_of_settled hEnd)
    | _ => exact ⟨t₁, .inl rfl, .inl (isDirectory_of_settled h)⟩

/-- Making directories brings in nothing but directories, whether it succeeds or not. -/
theorem furnished_of_makeChain {paths : List Path} {result : Except DiskError Unit}
    (hMake : (Disk.makeChain paths : StateM FileTree _) t = (result, t')) : Furnished t t' := by
  -- the rest of the list is what lies around its first path, and is made before it
  induction paths generalizing result t' with
  | nil =>
    cases hMake
    exact .refl t
  | cons p up ih =>
    by_cases hText : p.text = ""
    · rw [Disk.makeChain, if_pos (String.isEmpty_iff.2 hText)] at hMake
      cases hMake
      exact .refl t
    obtain ⟨around, hAround, hEnd⟩ := makeChain_cases hText hMake
    have hUp : Furnished t around := by
      rcases hAround with rfl | ⟨upper, hUpper⟩
      · exact .refl _
      · exact ih hUpper
    rcases hEnd with ⟨rfl, -⟩ | hMade
    · exact hUp
    · rcases made_of_makeDirectory hMade with ⟨-, d, name, hVacant, rfl⟩ | ⟨-, rfl⟩
      · exact hUp.trans (.ofPut (node?_of_resolve_vacant hVacant))
      · exact hUp

theorem furnished_of_makeDirectories {result : Except DiskError Unit}
    (hMake : (Disk.makeDirectories p : StateM FileTree _) t = (result, t')) : Furnished t t' :=
  furnished_of_makeChain hMake

/-- Where the directories of a path were made, the path leads to one. -/
theorem isDirectory_of_makeDirectories (hText : p.text ≠ "")
    (hMake : (Disk.makeDirectories p : StateM FileTree _) t = (.ok (), t')) :
    t'.isDirectory p = true := by
  obtain ⟨up, hAncestors⟩ := exists_ancestors p
  rw [Disk.makeDirectories, hAncestors] at hMake
  obtain ⟨around, -, ⟨rfl, hThere⟩ | hMade⟩ := makeChain_cases hText hMake
  · exact hThere rfl
  · rcases made_of_makeDirectory hMade with ⟨-, d, name, hVacant, rfl⟩ | ⟨⟨e, hFailed⟩, -⟩
    · rw [isDirectory, target_of_made hVacant]
    · cases hFailed

/-- Directories that were made need not be made again. -/
theorem Unlinked.makeDirectories_of_frame (h : t.Unlinked) {t₁ : FileTree}
    (hMake : (Disk.makeDirectories p : StateM FileTree _) t = (.ok (), t₁))
    (hFrame : SameFrame t₁ t') :
    (Disk.makeDirectories p : StateM FileTree _) t' = (.ok (), t') := by
  have hFurnished := furnished_of_makeDirectories hMake
  by_cases hEmpty : p.text = ""
  · obtain ⟨up, hAncestors⟩ := exists_ancestors p
    rw [Disk.makeDirectories, hAncestors, Disk.makeChain, if_pos (String.isEmpty_iff.2 hEmpty)]
    rfl
  · have hThere := isDirectory_of_makeDirectories hEmpty hMake
    rw [isDirectory] at hThere
    split at hThere
    · rename_i l hTarget
      obtain ⟨hResolve, hNode⟩ := target_eq_ok_iff.1 hTarget
      have hNode' := (hFrame.directory l).2 hNode
      refine makeDirectories_of_directory ?_ hNode'
      -- the directory that is there now is where it is found in every tree of the frame
      exact (hFurnished.unlinked h).resolve_of_frame hFrame hResolve (by simp [hNode'])
    · cases hThere

end PropertySets.FileTree
