import PropertySets.Proofs.Disk.Resolution

/-!
# Working on the files of a flat directory

The operations on a path that names a file of a directory change the tree at the location of that
file only: what is there before and after is a file or nothing. So the directory stays flat, the
frame of the tree stays as it is, and the path keeps its meaning.

* `FileChange` — two trees that differ in at most one file.
* `FileAt` — a path that means a file in one tree.
* `clear_of_fileAt`, `create_of_fileAt`, `append_of_node`, `replace_of_names`, `read_of_node` — what
  the operations do.
* `clear_of_error`, `create_of_error` — the operations on a path that leads nowhere.
-/

namespace PropertySets.FileTree

/-! ## Nodes of changed trees -/

theorem lookup_filter_ne (nodes : List (Location × TreeNode)) (l l' : Location) :
    (nodes.filter (·.1 ≠ l)).lookup l' = if l' = l then none else nodes.lookup l' := by
  induction nodes with
  | nil => simp
  | cons entry rest ih =>
    obtain ⟨k, node⟩ := entry
    -- a node at the location is dropped, so it is not the one that is found
    by_cases hRemoved : k = l
    · rw [List.filter_cons, if_neg (by simpa using hRemoved), ih]
      split
      · rfl
      · rename_i hOther
        rw [List.lookup_cons, beq_eq_false_iff_ne.2 (hRemoved ▸ hOther)]
    · rw [List.filter_cons, if_pos (by simpa using hRemoved), List.lookup_cons, List.lookup_cons,
        ih]
      by_cases hHere : l' = k
      · subst hHere
        simp [hRemoved]
      · rw [beq_eq_false_iff_ne.2 hHere]

variable {t t' t'' : FileTree} {l : Location}

theorem node?_erase (hBelow : l ≠ []) (l' : Location) :
    (t.erase l).node? l' = if l' = l then none else t.node? l' := by
  rw [node?, node?, erase]
  by_cases hRoot : l' = []
  · rw [if_pos hRoot, if_pos hRoot, if_neg (hRoot ▸ Ne.symm hBelow)]
  · rw [if_neg hRoot, if_neg hRoot, lookup_filter_ne]

theorem node?_put (hBelow : l ≠ []) (node : TreeNode) (l' : Location) :
    (t.put l node).node? l' = if l' = l then some node else t.node? l' := by
  rw [node?, node?, put]
  by_cases hRoot : l' = []
  · rw [if_pos hRoot, if_pos hRoot, if_neg (hRoot ▸ Ne.symm hBelow)]
  · rw [if_neg hRoot, if_neg hRoot, List.lookup_cons, lookup_filter_ne]
    by_cases hHere : l' = l
    · subst hHere
      simp
    · rw [beq_eq_false_iff_ne.2 hHere, if_neg hHere, if_neg hHere]

theorem node?_putFile (hBelow : l ≠ []) (content : ByteArray) (l' : Location) :
    (t.putFile l content).node? l' =
      if l' = l then some (.file t.nextSerial content) else t.node? l' :=
  node?_put hBelow _ l'

/-- A directory is flat if all entries listed for it are files. -/
theorem flatDirectory_of_nodes {d : Location} (hDirectory : t.node? d = some .directory)
    (hFiles : ∀ entry ∈ t.nodes, entry.1.dropLast = d → entry.1 ≠ d → kindOf entry.2 = .file) :
    t.FlatDirectory d := by
  refine ⟨hDirectory, fun name node hNode => ?_⟩
  -- what is found at the location is one of the entries listed
  rw [node?, if_neg (by simp)] at hNode
  obtain ⟨before, after, hNodes, -⟩ := List.lookup_eq_some_iff.1 hNode
  have hKind := hFiles (d ++ [name], node) (by rw [hNodes]; simp) (by simp) (by simp)
  cases node with
  | file serial content => exact ⟨serial, content, rfl⟩
  | directory => cases hKind
  | link target => cases hKind

/-! ## Changes of one file -/

/-- Two trees that differ in at most one file. -/
structure FileChange (t t' : FileTree) (l : Location) : Prop where
  workingDirectory : t'.workingDirectory = t.workingDirectory
  elsewhere : ∀ l', l' ≠ l → t'.node? l' = t.node? l'
  before : t.FileOrFree l
  after : t'.FileOrFree l

namespace FileChange

theorem refl (h : t.FileOrFree l) : FileChange t t l := ⟨rfl, fun _ _ => rfl, h, h⟩

theorem trans (h : FileChange t t' l) (h' : FileChange t' t'' l) : FileChange t t'' l :=
  ⟨h'.workingDirectory.trans h.workingDirectory,
    fun l' hOther => (h'.elsewhere l' hOther).trans (h.elsewhere l' hOther), h.before, h'.after⟩

/-- A node that is no file is where it was. -/
theorem node?_eq_some_iff (h : FileChange t t' l) {node : TreeNode}
    (hNode : ∀ serial content, node ≠ .file serial content) (l' : Location) :
    t'.node? l' = some node ↔ t.node? l' = some node := by
  by_cases hHere : l' = l
  · -- at `l` there is a file or nothing, before and after
    subst hHere
    refine ⟨fun hAfter => ?_, fun hBefore => ?_⟩
    · obtain ⟨serial, content, hFile⟩ := h.after node hAfter
      exact absurd hFile (hNode serial content)
    · obtain ⟨serial, content, hFile⟩ := h.before node hBefore
      exact absurd hFile (hNode serial content)
  · rw [h.elsewhere l' hHere]

theorem sameFrame (h : FileChange t t' l) : SameFrame t t' :=
  ⟨h.workingDirectory, h.node?_eq_some_iff (by simp), fun l' _ => h.node?_eq_some_iff (by simp) l'⟩

theorem flat (h : FileChange t t' l) {d : Location} (hFlat : t.FlatDirectory d) :
    t'.FlatDirectory d := by
  refine ⟨(h.node?_eq_some_iff (by simp) d).2 hFlat.directory, fun name => ?_⟩
  by_cases hHere : d ++ [name] = l
  · exact hHere ▸ h.after
  · intro node hNode
    rw [h.elsewhere _ hHere] at hNode
    exact hFlat.files name node hNode

end FileChange

/-! ## Trees that lose no file -/

/-- There is a file at the location. -/
def HasFile (t : FileTree) (l : Location) : Prop :=
  ∃ serial content, t.node? l = some (.file serial content)

/-- Files come and change, but none is lost for good. -/
structure KeepsFiles (t t' : FileTree) : Prop where
  frame : SameFrame t t'
  flat : ∀ d, t.FlatDirectory d → t'.FlatDirectory d
  files : ∀ l, t.HasFile l → t'.HasFile l

namespace KeepsFiles

theorem refl (t : FileTree) : KeepsFiles t t := ⟨.refl t, fun _ h => h, fun _ h => h⟩

theorem trans (h : KeepsFiles t t') (h' : KeepsFiles t' t'') : KeepsFiles t t'' :=
  ⟨h.frame.trans h'.frame, fun d hFlat => h'.flat d (h.flat d hFlat),
    fun l hFile => h'.files l (h.files l hFile)⟩

theorem ofFileChange (h : FileChange t t' l) (hFile : t'.HasFile l) : KeepsFiles t t' := by
  refine ⟨h.sameFrame, fun _ => h.flat, fun l' hBefore => ?_⟩
  by_cases hHere : l' = l
  · exact hHere ▸ hFile
  · rw [HasFile, h.elsewhere l' hHere]
    exact hBefore

end KeepsFiles

/-! ## Operations -/

section

variable {p : Path} {d : Location} {name : String}

theorem bind_apply {α β : Type} {x : StateM FileTree α} {f : α → StateM FileTree β} {a : α}
    (h : x t = (a, t')) : (x >>= f) t = f a t' := by
  show (match x t with | (a, t') => f a t') = f a t'
  rw [h]

theorem spotAt_of_none (h : t.node? (d ++ [name]) = none) : t.spotAt d name = .vacant d name := by
  rw [spotAt, h]

theorem spotAt_of_some {node : TreeNode} (h : t.node? (d ++ [name]) = some node) :
    t.spotAt d name = .occupied (d ++ [name]) := by
  rw [spotAt, h]

/-- In this tree the path means the entry `name` of the directory `d`, a file or nothing. -/
structure FileAt (t : FileTree) (p : Path) (d : Location) (name : String) : Prop where
  unslashed : endsInSlash p = false
  resolve : ∀ last, t.resolve last p = .ok (t.spotAt d name)
  free : t.FileOrFree (d ++ [name])

theorem Names.fileAt (hNames : t.Names p d name) (hFlat : t.FlatDirectory d) : t.FileAt p d name :=
  ⟨hNames.unslashed, hNames.resolve t (.refl t) hFlat, hFlat.files name⟩

theorem target_of_fileAt (h : t.FileAt p d name) :
    t.target p = match t.node? (d ++ [name]) with
      | none => .error .notFound
      | some node => .ok (d ++ [name], node) := by
  rw [target, h.resolve]
  cases hNode : t.node? (d ++ [name]) with
  | none =>
    rw [spotAt_of_none hNode]
    rfl
  | some node =>
    rw [spotAt_of_some hNode]
    simp only [bind, Except.bind, hNode]
    rfl

theorem clear_apply (t : FileTree) (p : Path) :
    (Disk.clear p : StateM FileTree _) t =
      if t.present p then changeTree (·.remove p) t else (.ok (), t) := by
  have hPresent : (Disk.present p : StateM FileTree Bool) t = (t.present p, t) := rfl
  rw [Disk.clear, bind_apply hPresent]
  split <;> rfl

theorem remove_of_fileAt (h : t.FileAt p d name) {serial : Nat} {content : ByteArray}
    (hNode : t.node? (d ++ [name]) = some (.file serial content)) :
    t.remove p = .ok (t.erase (d ++ [name])) := by
  rw [remove, h.resolve, spotAt_of_some hNode]
  simp only [bind, Except.bind, hNode, h.unslashed, Bool.false_eq_true, if_false]
  rfl

/-- What is at a path that means a file is removed, and nothing else. -/
theorem clear_of_fileAt (h : t.FileAt p d name) :
    ∃ t', (Disk.clear p : StateM FileTree _) t = (.ok (), t') ∧ FileChange t t' (d ++ [name]) ∧
      t'.node? (d ++ [name]) = none ∧ t'.nextSerial = t.nextSerial := by
  have hTarget := target_of_fileAt h
  have hBelow : d ++ [name] ≠ [] := by simp
  rw [clear_apply, present]
  -- a path that means a file leads to nothing, or to a file
  cases hNode : t.node? (d ++ [name]) with
  | none =>
    rw [hNode] at hTarget
    rw [hTarget]
    exact ⟨t, rfl, .refl h.free, hNode, rfl⟩
  | some node =>
    obtain ⟨serial, content, rfl⟩ := h.free node hNode
    rw [hNode] at hTarget
    rw [hTarget]
    have hFree : (t.erase (d ++ [name])).node? (d ++ [name]) = none := by
      rw [node?_erase hBelow, if_pos rfl]
    refine ⟨t.erase (d ++ [name]), ?_, ⟨rfl, fun l' hOther => ?_, h.free, ?_⟩, hFree, rfl⟩
    · show changeTree (·.remove p) t = _
      rw [changeTree, remove_of_fileAt h hNode]
    · rw [node?_erase hBelow, if_neg hOther]
    · intro node hAfter
      rw [hFree] at hAfter
      cases hAfter

theorem clear_of_names (hNames : t.Names p d name) (hFlat : t.FlatDirectory d) :
    ∃ t', (Disk.clear p : StateM FileTree _) t = (.ok (), t') ∧ FileChange t t' (d ++ [name]) ∧
      t'.node? (d ++ [name]) = none ∧ t'.nextSerial = t.nextSerial :=
  clear_of_fileAt (hNames.fileAt hFlat)

theorem create_of_fileAt (h : t.FileAt p d name) (hFree : t.node? (d ++ [name]) = none) :
    (Disk.create p : StateM FileTree _) t =
      (.ok ⟨d ++ [name], t.nextSerial⟩, t.putFile (d ++ [name]) ByteArray.empty) := by
  have hCreate : t.create p =
      .ok (⟨d ++ [name], t.nextSerial⟩, t.putFile (d ++ [name]) ByteArray.empty) := by
    rw [create, h.resolve, spotAt_of_none hFree]
    rfl
  simp only [Disk.create, hCreate]

theorem create_of_free (hNames : t.Names p d name) (hFlat : t.FlatDirectory d)
    (hFree : t.node? (d ++ [name]) = none) :
    (Disk.create p : StateM FileTree _) t =
      (.ok ⟨d ++ [name], t.nextSerial⟩, t.putFile (d ++ [name]) ByteArray.empty) :=
  create_of_fileAt (hNames.fileAt hFlat) hFree

theorem putFile_change (hFree : t.node? (d ++ [name]) = none) (content : ByteArray) :
    FileChange t (t.putFile (d ++ [name]) content) (d ++ [name]) := by
  have hBelow : d ++ [name] ≠ [] := by simp
  refine ⟨rfl, fun l' hOther => ?_, fun node hNode => ?_, fun node hNode => ?_⟩
  · rw [node?_putFile hBelow, if_neg hOther]
  · rw [hFree] at hNode
    cases hNode
  · rw [node?_putFile hBelow, if_pos rfl] at hNode
    exact ⟨_, _, (Option.some.inj hNode).symm⟩

/-- What is written behind the content of a file whose handle is held. -/
theorem append_of_node {h : Handle} {content : ByteArray} (hBelow : h.location ≠ [])
    (hNode : t.node? h.location = some (.file h.serial content)) (more : ByteArray) :
    ∃ t', (Disk.append h more : StateM FileTree Unit) t = ((), t') ∧
      FileChange t t' h.location ∧
      t'.node? h.location = some (.file h.serial (content ++ more)) := by
  -- the file still has the serial of the handle
  have hAppend : t.append h more = t.put h.location (.file h.serial (content ++ more)) := by
    rw [append, hNode]
    exact if_pos rfl
  have hAfter : (t.append h more).node? h.location =
      some (.file h.serial (content ++ more)) := by
    rw [hAppend, node?_put hBelow, if_pos rfl]
  refine ⟨t.append h more, rfl, ⟨?_, fun l' hOther => ?_, fun node hHere => ?_,
    fun node hHere => ?_⟩, hAfter⟩
  · rw [hAppend]
    rfl
  · rw [hAppend, node?_put hBelow, if_neg hOther]
  · rw [hNode] at hHere
    exact ⟨_, _, (Option.some.inj hHere).symm⟩
  · rw [hAfter] at hHere
    exact ⟨_, _, (Option.some.inj hHere).symm⟩

/-- Nothing is written when another file has taken the place of the one that was created. -/
theorem append_of_other {h : Handle} {serial : Nat} {content : ByteArray}
    (hNode : t.node? h.location = some (.file serial content)) (hOther : serial ≠ h.serial)
    (more : ByteArray) : (Disk.append h more : StateM FileTree Unit) t = ((), t) := by
  have hAppend : t.append h more = t := by
    rw [append, hNode]
    exact if_neg hOther
  show ((), t.append h more) = _
  rw [hAppend]

theorem append_keepsFiles (t : FileTree) (h : Handle) (more : ByteArray) :
    KeepsFiles t (t.append h more) := by
  cases hNode : t.node? h.location with
  | none =>
    rw [append, hNode]
    exact .refl t
  | some node =>
    cases node with
    | directory | link =>
      rw [append, hNode]
      exact .refl t
    | file serial content =>
      -- a handle writes only into the file it was given for
      by_cases hSame : serial = h.serial
      · have hBelow : h.location ≠ [] := by
          intro hRoot
          rw [hRoot] at hNode
          cases hNode
        obtain ⟨t', hAppend, hChange, hAfter⟩ := append_of_node hBelow (hSame ▸ hNode) more
        obtain rfl : t.append h more = t' := congrArg Prod.snd hAppend
        exact .ofFileChange hChange ⟨_, _, hAfter⟩
      · have hStays : t.append h more = t := congrArg Prod.snd (append_of_other hNode hSame more)
        rw [hStays]
        exact .refl t

/-- A path that names a file is written anew. -/
theorem replace_of_names (hNames : t.Names p d name) (hFlat : t.FlatDirectory d)
    (content : ByteArray) :
    ∃ t' serial, (Disk.replace p content : StateM FileTree _) t = (.ok (), t') ∧
      FileChange t t' (d ++ [name]) ∧ t'.node? (d ++ [name]) = some (.file serial content) := by
  have hBelow : d ++ [name] ≠ [] := by simp
  -- the old file goes, a new one is made, and the content is put behind nothing
  obtain ⟨t₁, hClear, hChange, hFree, -⟩ := clear_of_names hNames hFlat
  have hCreate := create_of_free (hNames.ofFrame hChange.sameFrame) (hChange.flat hFlat) hFree
  have hCreated : (t₁.putFile (d ++ [name]) ByteArray.empty).node? (d ++ [name]) =
      some (.file t₁.nextSerial ByteArray.empty) := by
    rw [node?_putFile hBelow, if_pos rfl]
  obtain ⟨t₂, hAppend, hWritten, hNode⟩ := append_of_node
    (h := ⟨d ++ [name], t₁.nextSerial⟩) hBelow hCreated content
  refine ⟨t₂, t₁.nextSerial, ?_, (hChange.trans (putFile_change hFree _)).trans hWritten, ?_⟩
  · rw [Disk.replace, bind_apply hClear]
    show (Disk.write p content : StateM FileTree _) t₁ = _
    rw [Disk.write, bind_apply hCreate]
    show ((Disk.append _ content : StateM FileTree Unit) >>= fun _ => _) _ = _
    rw [bind_apply hAppend]
    rfl
  · rw [hNode, ByteArray.empty_append]

theorem read_of_node (hNames : t.Names p d name) (hFlat : t.FlatDirectory d) {serial : Nat}
    {content : ByteArray} (hNode : t.node? (d ++ [name]) = some (.file serial content)) :
    t.read p = .ok content := by
  rw [read, target_of_fileAt (hNames.fileAt hFlat), hNode]
  rfl

theorem read_of_hasFile (hNames : t.Names p d name) (hFlat : t.FlatDirectory d)
    (hFile : t.HasFile (d ++ [name])) : ∃ content, t.read p = .ok content := by
  obtain ⟨serial, content, hNode⟩ := hFile
  exact ⟨content, read_of_node hNames hFlat hNode⟩

/-- The first of the ancestors of a path is the path itself. -/
theorem exists_ancestors (p : Path) : ∃ up, p.ancestors = p :: up := by
  rw [Path.ancestors]
  split
  · exact ⟨[], rfl⟩
  · split
    · exact ⟨_, rfl⟩
    · exact ⟨[], rfl⟩

/-- A directory that is there is not made again. -/
theorem makeDirectories_of_directory (hResolve : t.resolve .followed p = .ok (.occupied d))
    (hDirectory : t.node? d = some .directory) :
    (Disk.makeDirectories p : StateM FileTree _) t = (.ok (), t) := by
  obtain ⟨l, hItself⟩ := exists_resolve_itself hResolve
  have hText : ¬ p.text.isEmpty = true := by
    rw [String.isEmpty_iff]
    exact (text_of_resolve hResolve).1
  have hMake : (Disk.makeDirectory p : StateM FileTree _) t = (.error .alreadyExists, t) := by
    have hExists : t.makeDirectory p = .error .alreadyExists := by
      rw [makeDirectory, hItself]
      rfl
    show changeTree (·.makeDirectory p) t = _
    rw [changeTree, hExists]
  have hThere : (Disk.isDirectory p : StateM FileTree Bool) t = (true, t) := by
    show (t.isDirectory p, t) = _
    rw [isDirectory, target, hResolve]
    simp only [bind, Except.bind, hDirectory]
    rfl
  -- no other path is looked at
  obtain ⟨up, hAncestors⟩ := exists_ancestors p
  rw [Disk.makeDirectories, hAncestors, Disk.makeChain, if_neg hText, bind_apply hMake]
  exact bind_apply hThere

/-! ## Paths that lead nowhere -/

theorem clear_of_error {e : DiskError} (h : t.resolve .followed p = .error e) :
    (Disk.clear p : StateM FileTree _) t = (.ok (), t) := by
  have hPresent : t.present p = false := by
    rw [present, target, h]
    rfl
  rw [clear_apply, hPresent]
  rfl

theorem create_of_error {e : DiskError} (h : t.resolve .created p = .error e) :
    (Disk.create p : StateM FileTree _) t = (.error e, t) := by
  have hCreate : t.create p = .error e := by
    rw [create, h]
    rfl
  simp only [Disk.create, hCreate]

end

end PropertySets.FileTree
