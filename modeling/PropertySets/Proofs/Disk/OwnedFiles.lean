import PropertySets.Proofs.Disk.FlatDirectory

/-!
# The files that a program has created

Nothing is known here about the tree: there may be links on the way to a file, links that lead
nowhere until a file is made behind them, and two paths may mean one file. Still a path that was
cleared and at which a file was then created leads to that file, and later changes can only make it
lead to another file that was created, or nowhere. A file that was replaced keeps its handle, but
what is written through that handle is lost.

* `Settled`, `walk_of_settled` — trees that differ at one location, and where paths lead in them.
* `clear_cases`, `create_cases` — what clearing a path and creating a file at it can do.
* `exists_vacant_of_create` — a file that is created where a path was cleared is a new one.
* `Holds`, `Owned` — what a created file holds; the created files and the paths that lead to them.
* `owned_of_create`, `owned_of_replace`, `Owned.append` — what the operations do to them.
-/

namespace PropertySets

/-- The location that a spot is at. -/
def Spot.location : Spot → Location
  | .occupied l => l
  | .vacant d name => d ++ [name]

namespace FileTree

variable {t t' : FileTree} {l : Location} {p : Path}

/-! ## Trees that differ at one location -/

/-- The trees differ at one location at most, and there the second one has a file or nothing. -/
structure Settled (t t' : FileTree) (l : Location) : Prop where
  workingDirectory : t'.workingDirectory = t.workingDirectory
  elsewhere : ∀ l', l' ≠ l → t'.node? l' = t.node? l'
  after : t'.FileOrFree l

/-- A directory or a link of the second tree is in the first one too. -/
theorem Settled.before (h : Settled t t' l) {l' : Location} {node : TreeNode}
    (hNode : t'.node? l' = some node) (hOther : ∀ serial content, node ≠ .file serial content) :
    t.node? l' = some node := by
  have hElsewhere : l' ≠ l := by
    rintro rfl
    obtain ⟨serial, content, hFile⟩ := h.after node hNode
    exact hOther serial content hFile
  rw [← h.elsewhere l' hElsewhere, hNode]

theorem settled_erase (hBelow : l ≠ []) (t : FileTree) : Settled t (t.erase l) l := by
  refine ⟨rfl, fun l' hOther => ?_, fun node hNode => ?_⟩
  · rw [node?_erase hBelow, if_neg hOther]
  · rw [node?_erase hBelow, if_pos rfl] at hNode
    cases hNode

theorem settled_put (hBelow : l ≠ []) (t : FileTree) (serial : Nat) (content : ByteArray) :
    Settled t (t.put l (.file serial content)) l := by
  refine ⟨rfl, fun l' hOther => ?_, fun node hNode => ?_⟩
  · rw [node?_put hBelow, if_neg hOther]
  · rw [node?_put hBelow, if_pos rfl] at hNode
    exact ⟨serial, content, (Option.some.inj hNode).symm⟩

theorem settled_putFile (hBelow : l ≠ []) (t : FileTree) (content : ByteArray) :
    Settled t (t.putFile l content) l := by
  have hPut := settled_put hBelow t t.nextSerial content
  exact ⟨hPut.workingDirectory, hPut.elsewhere, hPut.after⟩

section

variable {last : LastName} {links : Nat} {slash : Bool} {here : Location} {names : List String}
  {spot : Spot}

/-- A walk ends where the trees differ, or it goes the same way in both. -/
theorem walk_of_settled (h : Settled t t' l)
    (hWalk : t'.walk last links slash here names = .ok spot) :
    spot.location = l ∨ t.walk last links slash here names = .ok spot := by
  -- the induction follows the way in `t'`: at `l` it cannot go on
  rw [walk_eq_ok_iff] at hWalk ⊢
  induction hWalk with
  | here => exact .inr .here
  | dot _ ih => exact ih.imp_right .dot
  | up _ ih => exact ih.imp_right .up
  | @free links slash here name hFollow hNode =>
    by_cases hHere : here ++ [name] = l
    · exact .inl hHere
    · exact .inr (.free hFollow (h.elsewhere _ hHere ▸ hNode))
  | directory hFollow hNode _ ih =>
    exact ih.imp_right (.directory hFollow (h.before hNode (by simp)))
  | @file links slash here name serial content hFollow hNode hAsked =>
    by_cases hHere : here ++ [name] = l
    · exact .inl hHere
    · exact .inr (.file hFollow (h.elsewhere _ hHere ▸ hNode) hAsked)
  | link hFollow hNode hAsked => exact .inr (.link hFollow (h.before hNode (by simp)) hAsked)
  | followed hFollow hNode hPassed _ ih =>
    exact ih.imp_right (.followed hFollow (h.before hNode (by simp)) hPassed)

/-- Without its entry a path ends where the entry was, if it leads anywhere. -/
theorem location_of_walk_erased (h : Settled t t' l) (hFree : t'.node? l = none)
    (hWalk : t.walk .itself links slash here names = .ok (.occupied l))
    (hAfter : t'.walk last links slash here names = .ok spot) : spot.location = l := by
  have hAt : ∀ {name rest links slash here}, here ++ [name] = l → IsEntryName name →
      Way t' last links slash here (name :: rest) spot → spot.location = l := by
    rintro name rest links slash here rfl hName hStep
    rw [hStep.stop hName hFree]
    rfl
  -- the way in `t'` keeps to that in `t` until it comes to `l`
  rw [walk_eq_ok_iff] at hWalk hAfter
  generalize hSpot : Spot.occupied l = found at hWalk
  induction hWalk with
  | here =>
    cases hSpot
    cases hAfter
    rfl
  | dot _ ih => exact ih (Way.dot_iff.1 hAfter) hSpot
  | up _ ih => exact ih (Way.up_iff.1 hAfter) hSpot
  | free => cases hSpot
  | @directory links slash here name rest found hFollow hNode _ ih =>
    by_cases hHere : here ++ [name] = l
    · exact hAt hHere hFollow.toIsEntryName hAfter
    · rw [← h.elsewhere _ hHere] at hNode
      exact ih (hAfter.enter hFollow.toIsEntryName hNode) hSpot
  | file hFollow _ _ | link hFollow _ _ =>
    exact hAt (Spot.occupied.inj hSpot).symm hFollow.toIsEntryName hAfter
  | @followed links slash here name rest target found hFollow hNode hPassed _ ih =>
    by_cases hHere : here ++ [name] = l
    · exact hAt hHere hFollow.toIsEntryName hAfter
    · -- a link that is followed here is not the last name
      have hRest := ne_nil_of_passed hPassed
      rw [← h.elsewhere _ hHere] at hNode
      rw [List.isEmpty_eq_false_iff.2 hRest, Bool.false_and, Bool.or_false] at ih
      exact ih (hAfter.pass hFollow.toIsEntryName hNode hRest) hSpot

theorem resolve_of_settled (h : Settled t t' l) (hResolve : t'.resolve last p = .ok spot) :
    spot.location = l ∨ t.resolve last p = .ok spot := by
  have hWalk := walk_of_resolve hResolve
  rw [startOf_congr h.workingDirectory] at hWalk
  rw [resolve_eq_walk hResolve]
  exact walk_of_settled h hWalk

theorem resolve_followed_of_created (hResolve : t.resolve .created p = .ok spot) :
    t.resolve .followed p = .ok spot := by
  rw [resolve_eq_walk hResolve]
  exact walk_followed_of_created (walk_of_resolve hResolve)

theorem location_of_resolve_erased (h : Settled t t' l) (hFree : t'.node? l = none)
    (hResolve : t.resolve .itself p = .ok (.occupied l)) (hAfter : t'.resolve last p = .ok spot) :
    spot.location = l := by
  have hWalk := walk_of_resolve hAfter
  rw [startOf_congr h.workingDirectory] at hWalk
  exact location_of_walk_erased h hFree (walk_of_resolve hResolve) hWalk

end

/-! ## What a path leads to -/

theorem target_eq_ok_iff {node : TreeNode} :
    t.target p = .ok (l, node) ↔
      t.resolve .followed p = .ok (.occupied l) ∧ t.node? l = some node := by
  rw [target]
  cases hResolve : t.resolve .followed p with
  | error e => simp [bind, Except.bind]
  | ok spot =>
    cases spot with
    | vacant d name => simp [bind, Except.bind, throw, throwThe, MonadExceptOf.throw]
    | occupied l' =>
      cases hNode : t.node? l' with
      | none =>
        simp only [bind, Except.bind, hNode, throw, throwThe, MonadExceptOf.throw, reduceCtorEq,
          false_iff, not_and, Except.ok.injEq, Spot.occupied.injEq]
        -- a location without an entry is no target
        rintro rfl
        simp [hNode]
      | some node' =>
        simp only [bind, Except.bind, hNode, pure, Except.pure, Except.ok.injEq, Prod.mk.injEq,
          Spot.occupied.injEq]
        constructor
        · rintro ⟨rfl, rfl⟩
          exact ⟨rfl, hNode⟩
        · rintro ⟨rfl, hSame⟩
          exact ⟨rfl, Option.some.inj (hNode.symm.trans hSame)⟩

theorem read_eq_ok_iff {content : ByteArray} :
    t.read p = .ok content ↔ ∃ l serial, t.target p = .ok (l, .file serial content) := by
  rw [read]
  cases hTarget : t.target p with
  | error e => simp [bind, Except.bind]
  | ok found =>
    obtain ⟨l, node⟩ := found
    cases node with
    | directory | link target => simp [bind, Except.bind, throw, throwThe, MonadExceptOf.throw]
    | file serial held => simp [bind, Except.bind, pure, Except.pure]

theorem target_of_settled (h : Settled t t' l) {l' : Location} {node : TreeNode}
    (hTarget : t'.target p = .ok (l', node)) : l' = l ∨ t.target p = .ok (l', node) := by
  obtain ⟨hResolve, hNode⟩ := target_eq_ok_iff.1 hTarget
  by_cases hHere : l' = l
  · exact .inl hHere
  · have hBefore := (resolve_of_settled h hResolve).resolve_left hHere
    rw [h.elsewhere l' hHere] at hNode
    exact .inr (target_eq_ok_iff.2 ⟨hBefore, hNode⟩)

/-! ## Clearing a path and creating a file at it -/

/-- The root directory is one. -/
theorem ne_nil_of_node? (h : t.node? l ≠ some .directory) : l ≠ [] := by
  rintro rfl
  exact h rfl

theorem exists_of_remove (h : t.remove p = .ok t') :
    ∃ l, t.node? l ≠ some .directory ∧ t' = t.erase l ∧
      t.resolve .itself p = .ok (.occupied l) := by
  rw [remove] at h
  cases hResolve : t.resolve .itself p with
  | error e =>
    rw [hResolve] at h
    cases h
  | ok spot =>
    rw [hResolve] at h
    cases spot with
    | vacant d name => cases h
    | occupied l =>
      cases hNode : t.node? l with
      | none =>
        simp only [bind, Except.bind, hNode] at h
        cases h
      | some node =>
        simp only [bind, Except.bind, hNode] at h
        -- a directory is not removed, and neither is anything with a slash behind it
        cases node with
        | directory => cases h
        | file serial content =>
          simp only at h
          split at h
          · cases h
          · cases h
            exact ⟨l, by simp [hNode], rfl, rfl⟩
        | link target =>
          simp only at h
          split at h
          · cases h
          · cases h
            exact ⟨l, by simp [hNode], rfl, rfl⟩

/-- To clear a path is to remove its entry, or to do nothing. -/
theorem clear_cases {result : Except DiskError Unit}
    (h : (Disk.clear p : StateM FileTree _) t = (result, t')) :
    (t' = t ∧ (result = .ok () → t.present p = false)) ∨
      (result = .ok () ∧ ∃ l, t.node? l ≠ some .directory ∧ t' = t.erase l ∧
        t.resolve .itself p = .ok (.occupied l)) := by
  rw [clear_apply] at h
  split at h
  · rw [changeTree] at h
    cases hRemove : t.remove p with
    | error e =>
      -- a removal that fails has removed nothing
      rw [hRemove] at h
      cases h
      exact .inl ⟨rfl, by rintro ⟨⟩⟩
    | ok t₁ =>
      rw [hRemove] at h
      cases h
      exact .inr ⟨rfl, exists_of_remove hRemove⟩
  · rename_i hAbsent
    cases h
    exact .inl ⟨rfl, fun _ => by simpa using hAbsent⟩

/-- A path that is cleared led nowhere, or its entry is removed. -/
theorem exists_erased_of_clear (h : (Disk.clear p : StateM FileTree _) t = (.ok (), t')) :
    (t' = t ∧ t.present p = false) ∨
      ∃ l, t.node? l ≠ some .directory ∧ t' = t.erase l ∧
        t.resolve .itself p = .ok (.occupied l) := by
  rcases clear_cases h with ⟨hSame, hAbsent⟩ | ⟨-, hErased⟩
  · exact .inl ⟨hSame, hAbsent rfl⟩
  · exact .inr hErased

/-- Where a path was cleared no file is left that could be emptied. -/
theorem node?_ne_file_of_clear (hClear : (Disk.clear p : StateM FileTree _) t = (.ok (), t'))
    (hResolve : t'.resolve .created p = .ok (.occupied l)) (serial : Nat) (content : ByteArray) :
    t'.node? l ≠ some (.file serial content) := by
  intro hNode
  rcases exists_erased_of_clear hClear with ⟨rfl, hAbsent⟩ | ⟨l', hEntry, rfl, hBefore⟩
  · have hTarget := target_eq_ok_iff.2 ⟨resolve_followed_of_created hResolve, hNode⟩
    rw [present, hTarget] at hAbsent
    cases hAbsent
  · have hBelow := ne_nil_of_node? hEntry
    have hFree : (t.erase l').node? l' = none := by rw [node?_erase hBelow, if_pos rfl]
    obtain rfl : l = l' :=
      location_of_resolve_erased (settled_erase hBelow t) hFree hBefore hResolve
    rw [hFree] at hNode
    cases hNode

/-- To create a file at a path is to make one where nothing is, to empty the one that is there, or
to do nothing. -/
theorem create_cases {result : Except DiskError Handle}
    (h : (Disk.create p : StateM FileTree _) t = (result, t')) :
    ((∃ e, result = .error e) ∧ t' = t) ∨
      (∃ d name, t.resolve .created p = .ok (.vacant d name) ∧
        result = .ok ⟨d ++ [name], t.nextSerial⟩ ∧
        t' = t.putFile (d ++ [name]) ByteArray.empty) ∨
      ∃ l serial content, t.resolve .created p = .ok (.occupied l) ∧
        t.node? l = some (.file serial content) ∧ result = .ok ⟨l, serial⟩ ∧
        t' = t.put l (.file serial ByteArray.empty) := by
  cases hCreated : t.create p with
  | error e =>
    simp only [Disk.create, hCreated] at h
    cases h
    exact .inl ⟨⟨e, rfl⟩, rfl⟩
  | ok created =>
    simp only [Disk.create, hCreated] at h
    cases h
    rw [create] at hCreated
    -- only a free name or a file can be what the path leads to
    cases hResolve : t.resolve .created p with
    | error e =>
      rw [hResolve] at hCreated
      cases hCreated
    | ok spot =>
      rw [hResolve] at hCreated
      cases spot with
      | vacant d name =>
        cases hCreated
        exact .inr (.inl ⟨d, name, rfl, rfl, rfl⟩)
      | occupied l =>
        cases hNode : t.node? l with
        | none =>
          simp only [bind, Except.bind, hNode] at hCreated
          cases hCreated
        | some node =>
          simp only [bind, Except.bind, hNode] at hCreated
          cases node with
          | directory | link => cases hCreated
          | file serial content =>
            cases hCreated
            exact .inr (.inr ⟨l, serial, content, rfl, hNode, rfl, rfl⟩)

/-- A file that is created where a path was cleared is a new one. -/
theorem exists_vacant_of_create {t₁ t₂ : FileTree} {handle : Handle}
    (hClear : (Disk.clear p : StateM FileTree _) t = (.ok (), t₁))
    (hCreate : (Disk.create p : StateM FileTree _) t₁ = (.ok handle, t₂)) :
    ∃ d name, t₁.resolve .created p = .ok (.vacant d name) ∧
      handle = ⟨d ++ [name], t₁.nextSerial⟩ ∧
      t₂ = t₁.putFile (d ++ [name]) ByteArray.empty := by
  rcases create_cases hCreate with
    ⟨⟨e, hFailed⟩, -⟩ | ⟨d, name, hVacant, hHandle, hPut⟩ | ⟨l, serial, content, hResolve, hNode, -⟩
  · cases hFailed
  · exact ⟨d, name, hVacant, Except.ok.inj hHandle, hPut⟩
  · exact absurd hNode (node?_ne_file_of_clear hClear hResolve serial content)

theorem node?_of_clear (h : (Disk.clear p : StateM FileTree _) t = (.ok (), t')) {node : TreeNode}
    (hNode : t'.node? l = some node) : t.node? l = some node := by
  rcases exists_erased_of_clear h with ⟨rfl, -⟩ | ⟨l', hEntry, rfl, -⟩
  · exact hNode
  · rw [node?_erase (ne_nil_of_node? hEntry)] at hNode
    split at hNode
    · cases hNode
    · exact hNode

theorem nextSerial_of_clear (h : (Disk.clear p : StateM FileTree _) t = (.ok (), t')) :
    t'.nextSerial = t.nextSerial := by
  rcases exists_erased_of_clear h with ⟨rfl, -⟩ | ⟨l', -, rfl, -⟩
  · rfl
  · rfl

/-- What is written through a handle reaches the file that the handle was given for, or is lost. -/
theorem append_cases (t : FileTree) (h : Handle) (more : ByteArray) :
    (∃ held, h.location ≠ [] ∧ t.node? h.location = some (.file h.serial held) ∧
      t.append h more = t.put h.location (.file h.serial (held ++ more))) ∨
    ((∀ held, t.node? h.location ≠ some (.file h.serial held)) ∧ t.append h more = t) := by
  -- the serial tells whether the file at the location is still the one of the handle
  by_cases hThere : ∃ held, t.node? h.location = some (.file h.serial held)
  · obtain ⟨held, hNode⟩ := hThere
    refine .inl ⟨held, fun hRoot => ?_, hNode, ?_⟩
    · rw [hRoot] at hNode
      cases hNode
    · rw [append, hNode]
      exact if_pos rfl
  · refine .inr ⟨fun held hNode => hThere ⟨held, hNode⟩, ?_⟩
    rw [append]
    split
    · rename_i serial held hNode
      refine if_neg fun hSame => hThere ⟨held, ?_⟩
      rw [hNode, hSame]
    · rfl

/-! ## Created files -/

/-- A file that was created holds this, unless it has been replaced. -/
def Holds (t : FileTree) (h : Handle) (content : ByteArray) : Prop :=
  ∀ held, t.node? h.location = some (.file h.serial held) → held = content

namespace Holds

variable {h h' : Handle} {content : ByteArray}

theorem clear (hHolds : Holds t h content)
    (hClear : (Disk.clear p : StateM FileTree _) t = (.ok (), t')) : Holds t' h content :=
  fun held hNode => hHolds held (node?_of_clear hClear hNode)

theorem putFile (hHolds : Holds t h content) (hOlder : h.serial < t.nextSerial) (hBelow : l ≠ [])
    (other : ByteArray) : Holds (t.putFile l other) h content := by
  intro held hNode
  rw [node?_putFile hBelow] at hNode
  split at hNode
  · -- the new file has another serial
    simp only [Option.some.injEq, TreeNode.file.injEq] at hNode
    omega
  · exact hHolds held hNode

theorem append (hHolds : Holds t h content) (more : ByteArray) :
    Holds (t.append h more) h (content ++ more) := by
  intro held hNode
  rcases append_cases t h more with ⟨before, hBelow, hBefore, hAppend⟩ | ⟨hGone, hAppend⟩
  · rw [hAppend, node?_put hBelow, if_pos rfl] at hNode
    cases hNode
    rw [hHolds before hBefore]
  · rw [hAppend] at hNode
    exact absurd hNode (hGone held)

theorem append_other (hHolds : Holds t h content) (hOther : h'.serial ≠ h.serial)
    (more : ByteArray) : Holds (t.append h' more) h content := by
  intro held hNode
  rcases append_cases t h' more with ⟨before, hBelow, -, hAppend⟩ | ⟨-, hAppend⟩
  · rw [hAppend, node?_put hBelow] at hNode
    split at hNode
    · simp only [Option.some.injEq, TreeNode.file.injEq] at hNode
      exact absurd hNode.1 hOther
    · exact hHolds held hNode
  · rw [hAppend] at hNode
    exact hHolds held hNode

end Holds

/-- Files that were created, and paths each of which leads to one of these files if it leads
anywhere. -/
structure Owned (t : FileTree) (handles : List Handle) (paths : List Path) : Prop where
  older : ∀ h ∈ handles, h.serial < t.nextSerial
  distinct : handles.Pairwise fun h h' => h.serial ≠ h'.serial
  leads : ∀ p ∈ paths, ∀ l node, t.target p = .ok (l, node) →
    ∃ h ∈ handles, h.location = l ∧ ∃ content, node = .file h.serial content

namespace Owned

variable {handles handles' : List Handle} {paths paths' : List Path}

theorem empty (t : FileTree) : Owned t [] [] := ⟨nofun, .nil, nofun⟩

theorem ofPerm (hOwned : Owned t handles paths) (hHandles : handles.Perm handles')
    (hPaths : ∀ p ∈ paths', p ∈ paths) : Owned t handles' paths' where
  older h hMem := hOwned.older h (hHandles.mem_iff.2 hMem)
  distinct := (hHandles.pairwise_iff fun hDistinct => Ne.symm hDistinct).1 hOwned.distinct
  leads p hMem l node hTarget := by
    obtain ⟨h, hHandle, hRest⟩ := hOwned.leads p (hPaths p hMem) l node hTarget
    exact ⟨h, hHandles.mem_iff.1 hHandle, hRest⟩

/-- A path that can be read holds what one of the files holds. -/
theorem read (hOwned : Owned t handles paths) (hMem : p ∈ paths) {content : ByteArray}
    (hRead : t.read p = .ok content) :
    ∃ h ∈ handles, ∀ held, Holds t h held → content = held := by
  obtain ⟨l, serial, hTarget⟩ := read_eq_ok_iff.1 hRead
  obtain ⟨h, hHandle, rfl, content', hSame⟩ := hOwned.leads p hMem l _ hTarget
  cases hSame
  exact ⟨h, hHandle, fun held hHolds => hHolds content (target_eq_ok_iff.1 hTarget).2⟩

theorem clear (hOwned : Owned t handles paths)
    (hClear : (Disk.clear p : StateM FileTree _) t = (.ok (), t')) : Owned t' handles paths := by
  refine ⟨fun h hMem => ?_, hOwned.distinct, fun p' hMem l node hTarget => ?_⟩
  · rw [nextSerial_of_clear hClear]
    exact hOwned.older h hMem
  rcases exists_erased_of_clear hClear with ⟨rfl, -⟩ | ⟨l', hEntry, rfl, -⟩
  · exact hOwned.leads p' hMem l node hTarget
  · have hBelow := ne_nil_of_node? hEntry
    rcases target_of_settled (settled_erase hBelow t) hTarget with rfl | hBefore
    · -- nothing is left where the entry was
      obtain ⟨-, hNode⟩ := target_eq_ok_iff.1 hTarget
      rw [node?_erase hBelow, if_pos rfl] at hNode
      cases hNode
    · exact hOwned.leads p' hMem l node hBefore

/-- A new file at the end of a path that leads to nothing yet. -/
theorem putFile (hOwned : Owned t handles paths) {d : Location} {name : String}
    (hVacant : t.resolve .created p = .ok (.vacant d name)) (content : ByteArray) :
    Owned (t.putFile (d ++ [name]) content) (⟨d ++ [name], t.nextSerial⟩ :: handles)
      (p :: paths) := by
  have hBelow : d ++ [name] ≠ [] := by simp
  refine ⟨fun h hMem => ?_, List.pairwise_cons.2 ⟨fun h hMem => ?_, hOwned.distinct⟩,
    fun p' hMem l node hTarget => ?_⟩
  · rcases List.mem_cons.1 hMem with rfl | hMem
    · exact Nat.lt_succ_self _
    · exact Nat.lt_succ_of_lt (hOwned.older h hMem)
  · exact Ne.symm (Nat.ne_of_lt (hOwned.older h hMem))
  · -- a path that leads elsewhere did so before, and then it is not the new one
    by_cases hHere : l = d ++ [name]
    · obtain ⟨-, hNode⟩ := target_eq_ok_iff.1 hTarget
      rw [node?_putFile hBelow, if_pos hHere] at hNode
      exact ⟨_, List.mem_cons_self, hHere.symm, content, (Option.some.inj hNode).symm⟩
    · have hBefore :=
        (target_of_settled (settled_putFile hBelow t content) hTarget).resolve_left hHere
      rcases List.mem_cons.1 hMem with rfl | hMem
      · obtain ⟨hResolve, -⟩ := target_eq_ok_iff.1 hBefore
        rw [resolve_followed_of_created hVacant] at hResolve
        cases hResolve
      · obtain ⟨h, hHandle, hRest⟩ := hOwned.leads p' hMem l node hBefore
        exact ⟨h, List.mem_cons_of_mem _ hHandle, hRest⟩

theorem append (hOwned : Owned t handles paths) {h : Handle} (hMem : h ∈ handles)
    (more : ByteArray) : Owned (t.append h more) handles paths := by
  rcases append_cases t h more with ⟨held, hBelow, -, hAppend⟩ | ⟨-, hAppend⟩
  · rw [hAppend]
    refine ⟨hOwned.older, hOwned.distinct, fun p hPath l node hTarget => ?_⟩
    rcases target_of_settled (settled_put hBelow t _ _) hTarget with rfl | hBefore
    · obtain ⟨-, hNode⟩ := target_eq_ok_iff.1 hTarget
      rw [node?_put hBelow, if_pos rfl] at hNode
      exact ⟨h, hMem, rfl, _, (Option.some.inj hNode).symm⟩
    · exact hOwned.leads p hPath l node hBefore
  · rw [hAppend]
    exact hOwned

end Owned

/-! ## Creating and replacing -/

section

variable {handles : List Handle} {paths : List Path} {handle : Handle} {t₁ t₂ : FileTree}

/-- A file is created where a path was cleared: it is empty, and the other files hold what they
held. -/
theorem owned_of_create (hOwned : Owned t handles paths)
    (hClear : (Disk.clear p : StateM FileTree _) t = (.ok (), t₁))
    (hCreate : (Disk.create p : StateM FileTree _) t₁ = (.ok handle, t₂)) :
    Owned t₂ (handle :: handles) (p :: paths) ∧ Holds t₂ handle ByteArray.empty ∧
      ∀ h ∈ handles, ∀ content, Holds t h content → Holds t₂ h content := by
  -- nothing was there to be emptied, so the file and its serial are new
  obtain ⟨d, name, hVacant, rfl, rfl⟩ := exists_vacant_of_create hClear hCreate
  have hBelow : d ++ [name] ≠ [] := by simp
  refine ⟨(hOwned.clear hClear).putFile hVacant _, fun held hNode => ?_,
    fun h hMem content hHolds => ?_⟩
  · rw [node?_putFile hBelow, if_pos rfl] at hNode
    cases hNode
    rfl
  · exact (hHolds.clear hClear).putFile ((hOwned.clear hClear).older h hMem) hBelow _

/-- To write to a path is to create a file at it, and to write into that file. -/
theorem exists_of_write {content : ByteArray}
    (hWrite : (Disk.write p content : StateM FileTree _) t = (.ok (), t')) :
    ∃ handle t₁, (Disk.create p : StateM FileTree _) t = (.ok handle, t₁) ∧
      t' = t₁.append handle content := by
  rcases hCreate : (Disk.create p : StateM FileTree _) t with ⟨created, t₁⟩
  rw [Disk.write, bind_apply hCreate] at hWrite
  cases created with
  | error e => cases hWrite
  | ok handle =>
    cases hWrite
    exact ⟨handle, t₁, rfl, rfl⟩

/-- A path that is written anew is cleared, and a file is created at it. -/
theorem exists_of_replace {content : ByteArray}
    (hReplace : (Disk.replace p content : StateM FileTree _) t = (.ok (), t')) :
    ∃ t₁ handle t₂, (Disk.clear p : StateM FileTree _) t = (.ok (), t₁) ∧
      (Disk.create p : StateM FileTree _) t₁ = (.ok handle, t₂) ∧
      t' = t₂.append handle content := by
  rcases hClear : (Disk.clear p : StateM FileTree _) t with ⟨cleared, t₁⟩
  rw [Disk.replace, bind_apply hClear] at hReplace
  cases cleared with
  | error e => cases hReplace
  | ok =>
    obtain ⟨handle, t₂, hCreate, hAppend⟩ := exists_of_write hReplace
    exact ⟨t₁, handle, t₂, rfl, hCreate, hAppend⟩

/-- A file that is written anew holds what is written. -/
theorem owned_of_replace (hOwned : Owned t handles paths) {content : ByteArray}
    (hReplace : (Disk.replace p content : StateM FileTree _) t = (.ok (), t')) :
    ∃ handle, Owned t' (handle :: handles) (p :: paths) ∧ Holds t' handle content ∧
      ∀ h ∈ handles, ∀ content, Holds t h content → Holds t' h content := by
  obtain ⟨t₁, handle, t₂, hClear, hCreate, rfl⟩ := exists_of_replace hReplace
  obtain ⟨hNow, hEmpty, hOthers⟩ := owned_of_create hOwned hClear hCreate
  refine ⟨handle, hNow.append List.mem_cons_self content, ?_, fun h hMem held hHolds => ?_⟩
  · have hWritten := hEmpty.append content
    rwa [ByteArray.empty_append] at hWritten
  · have hSerial := (List.pairwise_cons.1 hNow.distinct).1 h hMem
    exact (hOthers h hMem held hHolds).append_other hSerial content

end

end FileTree

end PropertySets
