import PropertySets.Proofs.Scan.Folders

/-!
# The folders of a search, depth first

What a search finds can be told without a survey, directory by directory: from the root on, each
directory comes before the directories in it, which are taken in ascending order, each with all that
is below it. This order and the one in which a survey lists names are the same, since both put a
directory before what is in it and names in ascending order. So a search in a tree without links
returns the schema directories in this order, with their documents. This takes names: those of the
tree are texts, and the path of the root has to tell its own where it is asked for.

* `FileTree.namesIn`, `FileTree.directoriesFrom`, `FileTree.documentNames` — the names in a
  directory, the directories below one depth first, the documents of one.
* `Surveyed.directories_eq`, `Surveyed.documentsOf_eq_documentNames` — a survey lists the same.
* `discover_depthFirst` — the folders that a search returns.
* `not_depthFirst_behind_dots` — a root without a name in its path, where the search ends.
-/

namespace PropertySets

namespace FileTree

variable {t : FileTree} {d l : Location} {kind : EntryKind} {name : String} {node : TreeNode}

/-! ## Names in a directory -/

/-- The name of a node, if it is an entry of the kind in the directory. -/
def nameIn? (d : Location) (kind : EntryKind) (listed : Location × TreeNode) : Option String :=
  match below? d listed.1 with
  | some [name] => if kindOf listed.2 = kind then some name else none
  | _ => none

/-- The names of the entries of a kind in a directory, in ascending order. -/
def namesIn (t : FileTree) (d : Location) (kind : EntryKind) : List String :=
  (t.nodes.filterMap (nameIn? d kind)).mergeSort fun a b => !decide (b < a)

theorem nameIn?_eq_some_iff :
    nameIn? d kind (l, node) = some name ↔ l = d ++ [name] ∧ kindOf node = kind := by
  unfold nameIn?
  rw [← below?_eq_some_iff]
  split
  · rename_i other hBelow
    rw [hBelow]
    by_cases hKind : kindOf node = kind
    · simp [hKind]
    · simp [hKind]
  · rename_i hNone
    constructor
    · nofun
    · rintro ⟨hBelow, -⟩
      exact absurd hBelow (hNone name)

theorem WellFormed.mem_namesIn (h : t.WellFormed) :
    name ∈ t.namesIn d kind ↔ ∃ node, t.node? (d ++ [name]) = some node ∧ kindOf node = kind := by
  rw [namesIn, List.mem_mergeSort, List.mem_filterMap]
  constructor
  · rintro ⟨⟨l, node⟩, hMem, hName⟩
    obtain ⟨rfl, hKind⟩ := nameIn?_eq_some_iff.1 hName
    exact ⟨node, (h.mem_nodes_iff.1 hMem).2, hKind⟩
  · rintro ⟨node, hNode, hKind⟩
    exact ⟨(d ++ [name], node), h.mem_nodes_iff.2 ⟨by simp, hNode⟩,
      nameIn?_eq_some_iff.2 ⟨rfl, hKind⟩⟩

theorem WellFormed.namesIn_ascending (h : t.WellFormed) (d : Location) (kind : EntryKind) :
    (t.namesIn d kind).Pairwise (· < ·) := by
  have hSorted : (t.namesIn d kind).Pairwise fun a b => (!decide (b < a)) = true := by
    refine List.pairwise_mergeSort ?_ ?_ _
    · intro a b c hab hbc
      simp only [Bool.not_eq_true', decide_eq_false_iff_not, String.not_lt] at hab hbc ⊢
      exact String.le_trans hab hbc
    · intro a b
      simp only [Bool.or_eq_true, Bool.not_eq_true', decide_eq_false_iff_not, String.not_lt]
      exact String.le_total a b
  -- two nodes of one name would be at one location
  have hDistinct : (t.nodes.filterMap (nameIn? d kind)).Pairwise (· ≠ ·) := by
    rw [List.pairwise_filterMap]
    refine (List.pairwise_map.1 h.distinct).imp fun {x y} hOther a ha b hb hSame => hOther ?_
    rw [(nameIn?_eq_some_iff.1 ha).1, (nameIn?_eq_some_iff.1 hb).1, hSame]
  have hDistinct : (t.namesIn d kind).Pairwise (· ≠ ·) :=
    hDistinct.perm (List.mergeSort_perm _ _).symm Ne.symm
  refine hSorted.imp₂ ?_ hDistinct
  intro a b hLe hOther
  have hLe : ¬ b < a := by simpa using hLe
  exact (lt_or_eq_or_gt a b).resolve_right (not_or.2 ⟨hOther, hLe⟩)

/-! ## Directories, depth first -/

/-- How many nodes are below a location. -/
def countBelow (t : FileTree) (d : Location) : Nat :=
  (t.nodes.filter fun listed => (below? d listed.1).any (· ≠ [])).length

/-- Below an entry there is less than below the directory that it is in. -/
theorem countBelow_lt (hMem : name ∈ t.namesIn d kind) :
    t.countBelow (d ++ [name]) < t.countBelow d := by
  rw [namesIn, List.mem_mergeSort, List.mem_filterMap] at hMem
  obtain ⟨⟨l, node⟩, hListed, hName⟩ := hMem
  obtain ⟨rfl, -⟩ := nameIn?_eq_some_iff.1 hName
  have hIff : ∀ {d l : Location}, (below? d l).any (· ≠ []) = true ↔
      ∃ names, names ≠ [] ∧ l = d ++ names := by
    intro d l
    simp only [Option.any_eq_true, below?_eq_some_iff, decide_eq_true_eq, and_comm]
  -- what is below the entry is below the directory, and so is the entry itself
  have hNarrow : (t.nodes.filter fun listed => (below? (d ++ [name]) listed.1).any (· ≠ [])) =
      (t.nodes.filter fun listed => (below? d listed.1).any (· ≠ [])).filter
        fun listed => (below? (d ++ [name]) listed.1).any (· ≠ []) := by
    rw [List.filter_filter]
    apply List.filter_congr
    intro listed _
    rw [Bool.eq_iff_iff, Bool.and_eq_true, hIff, hIff]
    constructor
    · rintro ⟨names, hNames, hBelow⟩
      refine ⟨⟨names, hNames, hBelow⟩, name :: names, by simp, ?_⟩
      rw [hBelow, List.append_assoc]
      rfl
    · exact And.left
  rw [countBelow, countBelow, hNarrow, List.length_filter_lt_length_iff_exists]
  refine ⟨(d ++ [name], node), List.mem_filter.2 ⟨hListed, hIff.2 ⟨[name], by simp, rfl⟩⟩, ?_⟩
  rw [hIff]
  rintro ⟨names, hNames, hSame⟩
  rw [List.self_eq_append_right] at hSame
  exact hNames hSame

/-- The directories from one on, depth first: the directory itself, then one after the other those
in it, each with all that is below it. Each is given by the names on the way down to it. -/
def directoriesFrom (t : FileTree) (d : Location) : List (List String) :=
  [] :: (t.namesIn d .directory).attach.flatMap fun name =>
    (t.directoriesFrom (d ++ [name.1])).map (name.1 :: ·)
termination_by t.countBelow d
decreasing_by exact countBelow_lt name.2

theorem directoriesFrom_eq (t : FileTree) (d : Location) :
    t.directoriesFrom d = [] :: (t.namesIn d .directory).flatMap fun name =>
      (t.directoriesFrom (d ++ [name])).map (name :: ·) := by
  rw [directoriesFrom]
  simp

/-- A directory comes before those in it, and these are in ascending order. -/
theorem WellFormed.directoriesFrom_ascending (h : t.WellFormed) (d : Location) :
    (t.directoriesFrom d).Pairwise Before := by
  induction d using directoriesFrom.induct t with
  | case1 d ih =>
    rw [directoriesFrom_eq, List.pairwise_cons]
    constructor
    · intro names hMem
      obtain ⟨name, -, hMem⟩ := List.mem_flatMap.1 hMem
      obtain ⟨rest, -, rfl⟩ := List.mem_map.1 hMem
      exact before_nil_cons name rest
    rw [List.pairwise_flatMap]
    constructor
    · intro name hMem
      exact List.pairwise_map.2 ((ih ⟨name, hMem⟩).imp fun hBefore => before_cons hBefore name)
    · -- what is below one entry is before what is below a later one
      refine (h.namesIn_ascending d .directory).imp ?_
      intro a b hLess x hx y hy
      obtain ⟨names, -, rfl⟩ := List.mem_map.1 hx
      obtain ⟨names', -, rfl⟩ := List.mem_map.1 hy
      exact before_of_lt hLess names names'

theorem WellFormed.mem_directoriesFrom (h : t.WellFormed) (hDirectory : t.node? d = some .directory)
    {names : List String} :
    names ∈ t.directoriesFrom d ↔ t.node? (d ++ names) = some .directory := by
  induction names generalizing d with
  | nil => simp [directoriesFrom_eq t d, hDirectory]
  | cons name rest ih =>
    rw [directoriesFrom_eq, List.mem_cons, or_iff_right (List.cons_ne_nil name rest),
      List.mem_flatMap, List.append_cons]
    constructor
    · rintro ⟨other, hOther, hMem⟩
      obtain ⟨rest', hRest, hSame⟩ := List.mem_map.1 hMem
      obtain ⟨rfl, rfl⟩ := List.cons.inj hSame
      obtain ⟨node, hNode, hKind⟩ := h.mem_namesIn.1 hOther
      obtain rfl := eq_directory_of_kindOf hKind
      exact (ih hNode).1 hRest
    · intro hNode
      -- the first name on the way down is that of a directory
      have hFirst : t.node? (d ++ [name]) = some .directory := by
        cases rest with
        | nil => rwa [List.append_nil] at hNode
        | cons second others =>
          rw [← List.append_cons] at hNode
          exact (h.above_of_node? hNode).2 [name] (by simp) (by simp)
      exact ⟨name, h.mem_namesIn.2 ⟨_, hFirst, rfl⟩,
        List.mem_map.2 ⟨rest, (ih hFirst).2 hNode, rfl⟩⟩

/-! ## Documents of a directory -/

/-- The fitting files in a directory. -/
def fittingIn (t : FileTree) (rules : ScanRules) (d : Location) : List String :=
  (t.namesIn d .file).filter fun name => rules.accepts ⟨name⟩

/-- The documents of a directory: the fitting files of the directories in it, one directory after
the other, then its own. -/
def documentNames (t : FileTree) (rules : ScanRules) (d : Location) : List (List String) :=
  ((t.namesIn d .directory).flatMap fun sub =>
    (t.fittingIn rules (d ++ [sub])).map fun name => [sub, name]) ++
  (t.fittingIn rules d).map fun name => [name]

/-- The schema folder of a directory below a root that is at `d`: there is one if the directory goes
by the right name and has documents, and it goes by the name of what the directory is in. -/
def schemaFolderAt? (t : FileTree) (rules : ScanRules) (root : Path) (d : Location)
    (names : List String) : Option SchemaFolder :=
  match (d ++ names).reverse with
  | name :: tag :: _ =>
    if name = rules.folderName then
      let files := (t.documentNames rules (d ++ names)).map fun more => root.down (names ++ more)
      if files.isEmpty then none else some ⟨tag, root.down names, files⟩
    else none
  | _ => none

theorem WellFormed.fittingIn_ascending (h : t.WellFormed) (rules : ScanRules) (d : Location) :
    (t.fittingIn rules d).Pairwise (· < ·) :=
  (h.namesIn_ascending d .file).filter _

theorem WellFormed.mem_fittingIn (h : t.WellFormed) {rules : ScanRules} :
    name ∈ t.fittingIn rules d ↔
      (∃ node, t.node? (d ++ [name]) = some node ∧ kindOf node = .file) ∧
        rules.accepts ⟨name⟩ = true := by
  rw [fittingIn, List.mem_filter, h.mem_namesIn]

end FileTree

open FileTree

/-! ## Fitting names -/

section

variable {rules : ScanRules} {root p q : Path} {name : String}

theorem fileName?_mk (hName : IsFileName name) : (Path.mk name).fileName? = some name := by
  rw [Path.fileName?_eq, hName.headedBy.route, List.filter_nil]
  exact Path.routeName?_concat hName []

/-- Whether a file fits is a matter of its name. -/
theorem accepts_eq (hSame : p.fileName? = q.fileName?) : rules.accepts p = rules.accepts q := by
  rw [ScanRules.accepts, ScanRules.accepts, Path.extension?, Path.extension?, hSame]

theorem accepts_down (rules : ScanRules) (root : Path) (hName : IsFileName name)
    (names : List String) : rules.accepts (root.down (names ++ [name])) = rules.accepts ⟨name⟩ := by
  refine accepts_eq ?_
  rw [Path.down_concat, Path.fileName?_join hName, fileName?_mk hName]

end

/-! ## Roots -/

/-- The path of a root tells the names that are asked for. -/
structure NamedWhereAsked (rules : ScanRules) (root : Path) (t : FileTree) (d : Location) :
    Prop where
  /-- Around a root that is a schema directory there is a name. -/
  parent : root.fileName? = some rules.folderName →
    ∃ outer, root.parent?.bind Path.fileName? = some outer
  /-- If the path does not end in a name, then the root is no schema directory and none is directly
  in it. -/
  self : root.fileName? = none → root.text ≠ rules.folderName ∧
    d.getLast? ≠ some rules.folderName ∧ t.node? (d ++ [rules.folderName]) ≠ some .directory

/-! ## What a survey lists -/

namespace Surveyed

variable {rules : ScanRules} {root : Path} {t : FileTree} {d : Location} {entries : List Entry}

/-- The directories of a survey are in depth-first order. -/
theorem directories_eq (h : Surveyed root t d entries) (hTree : t.WellFormed)
    (hKind : t.kindAt root = .directory) :
    ((t.survey root).filter (·.kind == .directory)).map (·.names) = t.directoriesFrom d := by
  have hAscending : (((t.survey root).filter (·.kind == .directory)).map (·.names)).Pairwise
      Before := List.pairwise_map.2 (h.ascending.filter _)
  have hDirectory := (target_eq_ok_iff.1 h.target).2
  -- both lists are ascending, so it is enough that they have the same members
  refine hAscending.eq_of_mem_iff (hTree.directoriesFrom_ascending d) ?_
  intro names
  rw [hTree.mem_directoriesFrom hDirectory]
  have hMem : names ∈ ((t.survey root).filter (·.kind == .directory)).map (·.names) ↔
      ∃ x ∈ t.survey root, x.names = names ∧ x.kind = .directory := by
    simp only [List.mem_map, List.mem_filter, beq_iff_eq, and_assoc, and_comm, and_left_comm]
  rw [hMem]
  by_cases hBelow : names = []
  · subst hBelow
    rw [List.append_nil, h.survey, hKind]
    exact ⟨fun _ => hDirectory, fun _ => ⟨_, List.mem_cons_self, rfl, rfl⟩⟩
  · rw [h.exists_entry_iff hBelow]
    constructor
    · rintro ⟨node, hNode, hKind⟩
      rwa [eq_directory_of_kindOf hKind] at hNode
    · exact fun hNode => ⟨_, hNode, rfl⟩

theorem fileNames_ascending (h : Surveyed root t d entries) (directory : List String)
    (depth : Nat) : (fileNames rules root (t.survey root) directory depth).Pairwise Before :=
  List.pairwise_map.2 (h.ascending.filter _)

/-- The files of a directory itself. -/
theorem fileNames_one (h : Surveyed root t d entries) (hTree : t.WellFormed)
    (directory : List String) :
    fileNames rules root (t.survey root) directory 1 =
      (t.fittingIn rules (d ++ directory)).map fun name => directory ++ [name] := by
  -- both lists ascend, so it is enough that they have the same members
  have hAscending : ((t.fittingIn rules (d ++ directory)).map fun name =>
      directory ++ [name]).Pairwise Before :=
    List.pairwise_map.2 ((hTree.fittingIn_ascending rules _).imp fun hLess =>
      before_append (before_of_lt hLess [] []) directory)
  refine (h.fileNames_ascending directory 1).eq_of_mem_iff hAscending ?_
  intro names
  simp only [mem_fileNames, List.mem_map, hTree.mem_fittingIn, List.length_eq_one_iff]
  constructor
  · -- a survey lists the files at their locations below the root, one name down
    rintro ⟨hFile, hAccepts, _, rfl, name, rfl⟩
    obtain ⟨node, hNode, hKind⟩ := (h.exists_entry_iff (by simp)).1 hFile
    rw [← List.append_assoc] at hNode
    rw [accepts_down rules root (hTree.placed_of_node? hNode).1] at hAccepts
    exact ⟨name, ⟨⟨node, hNode, hKind⟩, hAccepts⟩, rfl⟩
  · rintro ⟨name, ⟨⟨node, hNode, hKind⟩, hAccepts⟩, rfl⟩
    rw [← accepts_down rules root (hTree.placed_of_node? hNode).1 directory] at hAccepts
    rw [List.append_assoc] at hNode
    exact ⟨(h.exists_entry_iff (by simp)).2 ⟨node, hNode, hKind⟩, hAccepts, [name], rfl, name, rfl⟩

/-- The files of the directories in a directory. -/
theorem fileNames_two (h : Surveyed root t d entries) (hTree : t.WellFormed)
    (directory : List String) :
    fileNames rules root (t.survey root) directory 2 =
      ((t.namesIn (d ++ directory) .directory).flatMap fun sub =>
        (t.fittingIn rules (d ++ directory ++ [sub])).map fun name => [sub, name]).map
          (directory ++ ·) := by
  have hAscending : (((t.namesIn (d ++ directory) .directory).flatMap fun sub =>
      (t.fittingIn rules (d ++ directory ++ [sub])).map fun name => [sub, name]).map
        (directory ++ ·)).Pairwise Before := by
    refine List.pairwise_map.2 ((List.Pairwise.imp (R := Before))
      (fun hBefore => before_append hBefore directory) ?_)
    rw [List.pairwise_flatMap]
    constructor
    · intro sub _
      exact List.pairwise_map.2 ((hTree.fittingIn_ascending rules _).imp fun hLess =>
        before_cons (before_of_lt hLess [] []) sub)
    · -- the directories come one after the other
      refine (hTree.namesIn_ascending _ _).imp ?_
      intro a b hLess x hx y hy
      obtain ⟨name, -, rfl⟩ := List.mem_map.1 hx
      obtain ⟨name', -, rfl⟩ := List.mem_map.1 hy
      exact before_of_lt hLess [name] [name']
  refine (h.fileNames_ascending directory 2).eq_of_mem_iff hAscending ?_
  intro names
  simp only [mem_fileNames, List.mem_map, List.mem_flatMap, hTree.mem_fittingIn,
    hTree.mem_namesIn, List.length_eq_two]
  constructor
  · rintro ⟨hFile, hAccepts, _, rfl, sub, name, rfl⟩
    obtain ⟨node, hNode, hKind⟩ := (h.exists_entry_iff (by simp)).1 hFile
    have hSplit : d ++ (directory ++ [sub, name]) = d ++ directory ++ [sub] ++ [name] := by simp
    rw [hSplit] at hNode
    obtain ⟨hName, hAround⟩ := hTree.placed_of_node? hNode
    rw [List.append_cons directory, accepts_down rules root hName] at hAccepts
    exact ⟨[sub, name], ⟨sub, ⟨_, hAround, rfl⟩, name, ⟨⟨node, hNode, hKind⟩, hAccepts⟩, rfl⟩, rfl⟩
  · rintro ⟨_, ⟨sub, -, name, ⟨⟨node, hNode, hKind⟩, hAccepts⟩, rfl⟩, rfl⟩
    have hSplit : d ++ directory ++ [sub] ++ [name] = d ++ (directory ++ [sub, name]) := by simp
    rw [← accepts_down rules root (hTree.placed_of_node? hNode).1 (directory ++ [sub]),
      ← List.append_cons] at hAccepts
    rw [hSplit] at hNode
    exact ⟨(h.exists_entry_iff (by simp)).2 ⟨node, hNode, hKind⟩, hAccepts, [sub, name], rfl, sub,
      name, rfl⟩

/-- The documents of a directory are listed directory by directory. -/
theorem documentsOf_eq_documentNames (h : Surveyed root t d entries) (hTree : t.WellFormed)
    (directory : List String) :
    documentsOf rules root (t.survey root) directory =
      (t.documentNames rules (d ++ directory)).map fun more => root.down (directory ++ more) := by
  rw [documentsOf_eq, h.fileNames_one hTree, h.fileNames_two hTree, documentNames]
  simp only [List.map_append, List.map_map]
  rfl

/-! ## Names of schema folders -/

/-- The name of a directory is that of its location. -/
theorem nameFrom_iff (h : Surveyed root t d entries) (hUnlinked : t.Unlinked)
    (hNamed : NamedWhereAsked rules root t d) (e : Entry) :
    e.nameFrom root = rules.folderName ↔ (d ++ e.names).getLast? = some rules.folderName := by
  rw [Entry.nameFrom]
  rcases List.eq_nil_or_concat' e.names with hNil | ⟨before, name, hNames⟩
  · rw [hNil, List.append_nil, List.getLast?_nil, Option.getD_none]
    cases hName : root.fileName? with
    | none =>
      obtain ⟨hText, hLast, -⟩ := hNamed.self hName
      exact ⟨fun hSame => absurd hSame hText, fun hSame => absurd hSame hLast⟩
    | some name =>
      obtain ⟨around, rfl, -⟩ := hUnlinked.exists_location h.target hName
      rw [List.getLast?_concat, Option.getD_some, Option.some.injEq]
  · rw [hNames, ← List.append_assoc, List.getLast?_concat, List.getLast?_concat, Option.getD_some,
      Option.some.injEq]

/-- A root that is a schema directory is named after its location, and so is what it is in. -/
theorem exists_tag_of_root (h : Surveyed root t d entries) (hUnlinked : t.Unlinked)
    (hNamed : NamedWhereAsked rules root t d) (hName : d.getLast? = some rules.folderName) :
    ∃ front tag, d = front ++ [tag, rules.folderName] ∧ tagOf? root = some tag := by
  cases hRootName : root.fileName? with
  | none => exact absurd hName (hNamed.self hRootName).2.1
  | some name =>
    obtain ⟨around, rfl, hAround⟩ := hUnlinked.exists_location h.target hRootName
    rw [List.getLast?_concat, Option.some.injEq] at hName
    subst hName
    obtain ⟨outer, hParent⟩ := hNamed.parent hRootName
    obtain ⟨front, rfl⟩ := List.getLast?_eq_some_iff.1 (hAround outer hParent)
    exact ⟨front, outer, List.append_assoc _ _ _, hParent⟩

/-- The name around a schema directory is that of the directory it is in. -/
theorem exists_tag (h : Surveyed root t d entries) (hTree : t.WellFormed) (hUnlinked : t.Unlinked)
    (hNamed : NamedWhereAsked rules root t d) {e : Entry} (hMem : e ∈ t.survey root)
    (hKind : e.kind = .directory)
    (hName : (d ++ e.names).getLast? = some rules.folderName) :
    ∃ front tag, d ++ e.names = front ++ [tag, rules.folderName] ∧
      tagOf? (e.pathFrom root) = some tag := by
  have hFileNames := h.isFileName hTree hMem
  rcases List.eq_nil_or_concat' e.names with hNil | ⟨before, name, hNames⟩
  · rw [hNil, List.append_nil] at hName ⊢
    obtain ⟨front, tag, hSplit, hTag⟩ := h.exists_tag_of_root hUnlinked hNamed hName
    refine ⟨front, tag, hSplit, ?_⟩
    rw [Entry.pathFrom, hNil]
    exact hTag
  rw [hNames] at hFileNames
  have hLast : IsFileName name := hFileNames name (by simp)
  have hTag : tagOf? (e.pathFrom root) = (root.down before).fileName? := by
    show tagOf? (root.down e.names) = _
    rw [hNames, Path.down_concat, tagOf?, Path.parentName_join hLast]
  rw [hNames, ← List.append_assoc, List.getLast?_concat, Option.some.injEq] at hName
  subst hName
  rcases List.eq_nil_or_concat' before with rfl | ⟨front, tag, rfl⟩
  · -- what is directly in the root takes the name of the root
    cases hRootName : root.fileName? with
    | none =>
      obtain ⟨node, hNode, hNodeKind⟩ := h.exists_node hMem (by simp [hNames])
      rw [hNames, eq_directory_of_kindOf (hNodeKind.symm.trans hKind)] at hNode
      exact absurd hNode (hNamed.self hRootName).2.2
    | some rootName =>
      obtain ⟨around, rfl, -⟩ := hUnlinked.exists_location h.target hRootName
      refine ⟨around, rootName, by rw [hNames, List.append_assoc]; rfl, ?_⟩
      rw [hTag]
      exact hRootName
  · refine ⟨d ++ front, tag, by simp [hNames], ?_⟩
    rw [hTag, Path.fileName?_down (fun name hMem => hFileNames name (List.mem_append_left _ hMem))
      (by simp), List.getLast?_concat]

/-- The schema folder of a directory is the one at its location. -/
theorem schemaFolderAt?_eq (h : Surveyed root t d entries) (hTree : t.WellFormed)
    (hUnlinked : t.Unlinked) (hNamed : NamedWhereAsked rules root t d) {e : Entry}
    (hMem : e ∈ t.survey root) (hKind : e.kind = .directory) :
    t.schemaFolderAt? rules root d e.names =
      if e.nameFrom root == rules.folderName then folderIn? rules root (t.survey root) e
      else none := by
  by_cases hName : e.nameFrom root = rules.folderName
  · rw [if_pos (beq_iff_eq.2 hName)]
    rw [h.nameFrom_iff hUnlinked hNamed] at hName
    -- the tag is the name of what the folder lies in, wherever the root ends
    obtain ⟨front, tag, hSplit, hTag⟩ := h.exists_tag hTree hUnlinked hNamed hMem hKind hName
    have hReverse : (d ++ e.names).reverse = rules.folderName :: tag :: front.reverse := by
      rw [hSplit, List.reverse_append]
      rfl
    rw [folderIn?, hTag, Option.bind_some, h.documentsOf_eq_documentNames hTree, schemaFolderAt?]
    simp only [hReverse, if_true]
    rfl
  · rw [if_neg (by simpa using hName)]
    rw [h.nameFrom_iff hUnlinked hNamed] at hName
    rw [schemaFolderAt?]
    split
    · rename_i name tag front hReverse
      -- the last name of the location is not that of a schema folder
      refine if_neg fun hSame => hName ?_
      rw [← List.head?_reverse, hReverse, hSame]
      rfl
    · rfl

end Surveyed

/-! ## Searches -/

/--
**A search goes depth first.** In a tree without links, all names of which are texts, from a root
whose path tells the names that are asked for, a search returns one folder for each schema directory
with documents, depth first and with siblings in ascending order. Each folder goes by the name of
what its directory is in, and lists the fitting files of the directories in it, one directory after
the other, then its own.
-/
theorem discover_depthFirst {t : FileTree} {rules : ScanRules} {root : Path} {d : Location}
    (hTree : t.WellFormed) (hUnlinked : t.Unlinked)
    (hTarget : t.target root = .ok (d, .directory)) (hNamed : NamedWhereAsked rules root t d) :
    (discover rules root : ExceptT Failure (StateM FileTree) _).run t =
      (.ok ((t.directoriesFrom d).filterMap (t.schemaFolderAt? rules root d)), t) := by
  obtain ⟨entries, h⟩ := exists_surveyed hTree hTarget
  refine run_discover_iff.2 ⟨rfl, ⟨d, hTarget⟩, foldersAmong_iff.2 ⟨?_, ?_⟩⟩
  · -- a name stands around every schema directory, so the search succeeds
    intro e hMem
    obtain ⟨hListed, hSchema⟩ := List.mem_filter.1 hMem
    simp only [isSchemaDirectory, Bool.and_eq_true, beq_iff_eq] at hSchema
    obtain ⟨front, tag, -, hTag⟩ := h.exists_tag hTree hUnlinked hNamed hListed hSchema.1
      ((h.nameFrom_iff hUnlinked hNamed e).1 hSchema.2)
    rw [hTag]
    rfl
  · have hDirectories : schemaDirectories rules root (t.survey root) =
        ((t.survey root).filter (·.kind == .directory)).filter
          fun e => e.nameFrom root == rules.folderName := by
      rw [List.filter_filter, schemaDirectories]
      exact List.filter_congr fun e _ => Bool.and_comm _ _
    rw [← h.directories_eq hTree (hUnlinked.kindAt_directory hTarget), hDirectories,
      List.filterMap_map]
    refine Eq.trans (List.filterMap_congr ?_) List.filterMap_filter.symm
    intro e hMem
    obtain ⟨hListed, hKind⟩ := List.mem_filter.1 hMem
    exact h.schemaFolderAt?_eq hTree hUnlinked hNamed hListed (beq_iff_eq.1 hKind)

/-- In the archive the outer schema directory comes first, and its folder lists the file of the
inner one before its own document. -/
theorem archive_depthFirst :
    archive.WellFormed ∧ archive.Unlinked ∧
      archive.target ⟨"/home/archive"⟩ = .ok (["home", "archive"], .directory) ∧
      NamedWhereAsked {} ⟨"/home/archive"⟩ archive ["home", "archive"] ∧
      (archive.directoriesFrom ["home", "archive"]).filterMap
        (archive.schemaFolderAt? {} ⟨"/home/archive"⟩ ["home", "archive"]) = archiveFolders := by
  have hNamed : NamedWhereAsked {} ⟨"/home/archive"⟩ archive ["home", "archive"] :=
    ⟨fun hSchema => absurd hSchema (by decide), fun hNone => absurd hNone (by decide)⟩
  refine ⟨wellFormed_archive, unlinked_archive, target_archiveRoot, hNamed, ?_⟩
  have hRun := discover_depthFirst wellFormed_archive unlinked_archive target_archiveRoot hNamed
  exact Except.ok.inj (Prod.mk.inj (hRun.symm.trans discover_archive)).1

/-- A path to a directory of the archive that ends in two dots. -/
def dottedRoot : Path := ⟨"/home/archive/IFC4/psd/.."⟩

theorem target_dottedRoot :
    archive.target dottedRoot = .ok (["home", "archive", "IFC4"], .directory) := by
  have hRoute : route dottedRoot = ["home", "archive", "IFC4", "psd", ".."] := by decide
  refine target_eq_ok_iff.2 ⟨?_, rfl⟩
  rw [resolve_of_text (by decide) (by decide) (by decide), hRoute,
    walk_directory ⟨by decide, by decide, by decide⟩ rfl fun _ => .inr (List.cons_ne_nil _ _),
    walk_directory ⟨by decide, by decide, by decide⟩ rfl fun _ => .inr (List.cons_ne_nil _ _),
    walk_directory ⟨by decide, by decide, by decide⟩ rfl fun _ => .inr (List.cons_ne_nil _ _),
    walk_directory ⟨by decide, by decide, by decide⟩ rfl fun _ => .inr (List.cons_ne_nil _ _),
    walk_up, walk_nil]
  rfl

theorem discover_dottedRoot :
    (discover {} dottedRoot : ExceptT Failure (StateM FileTree) _).run archive =
      (.error (.invalidPath ⟨"/home/archive/IFC4/psd/../psd"⟩), archive) := by
  have hDirectory : archive.isDirectory dottedRoot = true :=
    isDirectory_iff.2 ⟨_, target_dottedRoot⟩
  rw [run_discover, if_pos hDirectory, survey_of_target target_dottedRoot,
    unlinked_archive.kindAt_directory target_dottedRoot, List.mergeSort_of_pairwise (by decide)]
  rfl

/-- A named parent is not enough: where the path of the root ends in two dots, a search can fail. -/
theorem not_depthFirst_behind_dots :
    ¬ ∀ (t : FileTree) (rules : ScanRules) (root : Path) (d : Location) (outer : String),
      t.WellFormed → t.Unlinked → t.target root = .ok (d, .directory) →
      root.parent?.bind Path.fileName? = some outer → d.dropLast.getLast?.isSome = true →
      (discover rules root : ExceptT Failure (StateM FileTree) _).run t =
        (.ok ((t.directoriesFrom d).filterMap (t.schemaFolderAt? rules root d)), t) := by
  intro h
  have hFound := h archive {} dottedRoot _ "psd" wellFormed_archive unlinked_archive
    target_dottedRoot (by decide) rfl
  cases discover_dottedRoot.symm.trans hFound

end PropertySets
