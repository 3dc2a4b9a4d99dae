import PropertySets.Proofs.Disk.Listing
import PropertySets.Proofs.Disk.Siblings
import PropertySets.Proofs.Disk.Unlinked

/-!
# Paths down from a directory

What is found below a directory goes by the path of the directory with the names on the way down
joined to it. However the directory's path is spelled, such a path tells all of these names, so
different entries have different paths; and in a well-formed tree it leads to the entry.

* `Path.down` — the path of what is below a root; `Path.down_injective`.
* `Path.fileName?_down`, `Path.parentName_join` — the names that such a path ends in.
* `FileTree.target_down` — where it leads; `FileTree.target_erase` — other files do not matter.
* `FileTree.Unlinked.exists_location` — without links the name of a path is that of its location.
-/

namespace PropertySets

open FileTree

/-! ## Names of entries -/

namespace FileTree.IsFileName

variable {name : String}

theorem headedBy (h : IsFileName name) : HeadedBy name name [] := by
  refine ⟨?_, h.ne_empty, h.notDot, h.notUp, ?_⟩
  · show (Text.splitAt '/' name.toList).map String.ofList = [name]
    rw [Text.splitAt_of_notMem h.unslashed, List.map_singleton, String.ofList_toList]
  · intro last hLast
    obtain rfl : name = last := by simpa using hLast
    exact h.ne_empty

end FileTree.IsFileName

/-! ## Spellings -/

namespace Path

/-- The path of what is below a root, the names on the way down being joined to it. -/
def down (root : Path) (names : List String) : Path :=
  names.foldl (fun p name => p.join ⟨name⟩) root

theorem down_concat (root : Path) (names : List String) (name : String) :
    root.down (names ++ [name]) = (root.down names).join ⟨name⟩ :=
  List.foldl_concat _ _ _ _

variable {p root : Path} {name : String} {names names' : List String}

theorem route_join_name (hName : IsFileName name) :
    route (p.join ⟨name⟩) = route p ++ [name] := by
  rw [route_join hName.headedBy.relative, hName.headedBy.route, List.filter_nil]

theorem route_down (hNames : ∀ name ∈ names, IsFileName name) :
    route (root.down names) = route root ++ names := by
  induction names using List.reverseRec with
  | nil => rw [List.append_nil]; rfl
  | append_singleton names name ih =>
    rw [List.forall_mem_append] at hNames
    rw [down_concat, route_join_name (hNames.2 name (List.mem_singleton_self _)), ih hNames.1,
      List.append_assoc]

/-- Different entries have different paths. -/
theorem down_injective (root : Path) (hNames : ∀ name ∈ names, IsFileName name)
    (hNames' : ∀ name ∈ names', IsFileName name) (hSame : root.down names = root.down names') :
    names = names' := by
  have hRoute := congrArg route hSame
  rwa [route_down hNames, route_down hNames', List.append_cancel_left_eq] at hRoute

/-- The name that a route ends in: dots at its end are no names, and neither are two dots. -/
def routeName? (route : List String) : Option String :=
  (route.reverse.dropWhile (· == ".")).head?.filter (· ≠ "..")

theorem head?_dropWhile_filter (segments : List String) :
    ((segments.filter (· ≠ "")).dropWhile (· == ".")).head? =
      (segments.dropWhile isFiller).head? := by
  -- empty segments and dots in front are dropped in both, in one step or in two
  induction segments with
  | nil => rfl
  | cons first rest ih =>
    by_cases hEmpty : first = ""
    · subst hEmpty
      exact ih
    rw [List.filter_cons_of_pos (by simpa using hEmpty)]
    by_cases hDot : first = "."
    · subst hDot
      exact ih
    · rw [List.dropWhile_cons_of_neg (by simpa using hDot),
        List.dropWhile_cons_of_neg (by simp [isFiller, hEmpty, hDot])]
      rfl

/-- The name of a path is a matter of its route. -/
theorem fileName?_eq (p : Path) : p.fileName? = routeName? (route p) := by
  rw [routeName?, route, ← List.filter_reverse, head?_dropWhile_filter, ← significant, fileName?]
  cases p.significant with
  | nil => rfl
  | cons first rest =>
    rw [List.head?_cons, Option.filter_some]
    by_cases hUp : first = ".."
    · simp [hUp]
    · simp [hUp]

theorem routeName?_concat (hName : IsFileName name) (before : List String) :
    routeName? (before ++ [name]) = some name := by
  rw [routeName?, List.reverse_concat, List.dropWhile_cons_of_neg (by simpa using hName.notDot)]
  simp [hName.notUp]

theorem routeName?_dots (before : List String) (n : Nat) :
    routeName? (before ++ List.replicate n ".") = routeName? before := by
  rw [routeName?, List.reverse_append, List.reverse_replicate,
    List.dropWhile_append_of_pos fun s hMem => by simp [List.eq_of_mem_replicate hMem]]
  rfl

/-- A name behind a directory is the name of the path. -/
theorem EndsIn.fileName? {dir : Path} (h : p.EndsIn dir name) (hNamed : isFiller name = false)
    (hUp : name ≠ "..") : p.fileName? = some name := by
  obtain ⟨before, after, hRoute⟩ := h.route
  have hDot := (ne_of_not_filler hNamed).2
  rw [fileName?_eq, hRoute, ← List.singleton_append, ← List.append_assoc, ← List.append_assoc,
    routeName?_dots, routeName?, List.reverse_concat,
    List.dropWhile_cons_of_neg (by simpa using hDot)]
  simp [hUp]

theorem fileName?_join (hName : IsFileName name) : (p.join ⟨name⟩).fileName? = some name := by
  rw [fileName?_eq, route_join_name hName, routeName?_concat hName]

theorem fileName?_down (hNames : ∀ name ∈ names, IsFileName name) (hBelow : names ≠ []) :
    (root.down names).fileName? = names.getLast? := by
  obtain ⟨before, name, rfl⟩ := (List.eq_nil_or_concat' names).resolve_left hBelow
  rw [down_concat, List.getLast?_concat]
  exact fileName?_join (hNames name (by simp))

/-- What a joined path is in goes by the name of the path that was joined to. -/
theorem parentName_join (hName : IsFileName name) :
    (p.join ⟨name⟩).parent?.bind fileName? = p.fileName? := by
  have hJoined := fileName?_join (p := p) hName
  have hStem : (p.join ⟨name⟩).stem? = some (splitName name).1 := by
    rw [stem?, hJoined]
    rfl
  obtain ⟨dir, hParent⟩ := exists_parent hStem
  obtain ⟨before, after, hRoute⟩ := (endsIn_parent hJoined hParent).route
  rw [route_join_name hName] at hRoute
  -- the name is the last of the route, so nothing stands behind it
  obtain rfl : after = 0 := by
    cases after with
    | zero => rfl
    | succ n =>
      have hLast := congrArg List.getLast? hRoute
      rw [List.replicate_succ', ← List.cons_append, ← List.append_assoc, ← List.append_assoc,
        List.getLast?_concat, List.getLast?_concat] at hLast
      exact absurd (Option.some.inj hLast) hName.notDot
  rw [List.replicate_zero, ← List.append_assoc] at hRoute
  rw [hParent, Option.bind_some, fileName?_eq, fileName?_eq p,
    (List.append_singleton_inj.1 hRoute).1, routeName?_dots]

end Path

/-! ## Where the paths lead -/

namespace FileTree

variable {t : FileTree} {root p : Path} {d l : Location} {names : List String} {node : TreeNode}

/-- A slash leads to where every absolute path starts. -/
theorem target_slash (t : FileTree) : t.target ⟨"/"⟩ = .ok ([], .directory) := by
  refine target_eq_ok_iff.2 ⟨?_, rfl⟩
  rw [resolve_of_text (by decide) (by decide) (by decide)]
  exact walk_nil

/-- From a directory the names lead down to the entry. -/
theorem walk_down (h : t.WellFormed) {links : Nat} (hNode : t.node? (d ++ names) = some node)
    (hLink : ∀ target, node ≠ .link target) :
    t.walk .followed links false d names = .ok (.occupied (d ++ names)) := by
  induction names generalizing d with
  | nil => rw [List.append_nil, walk_nil]
  | cons name rest ih =>
    obtain ⟨hNames, hAbove⟩ := h.above_of_node? hNode
    have hName := (hNames name List.mem_cons_self).toIsEntryName
    rw [List.append_cons] at hNode ⊢
    -- the last name may be a file; all names before it are directories
    cases rest with
    | nil =>
      rw [List.append_nil] at hNode ⊢
      rw [walk_entry hName fun _ => .inl rfl, hNode]
      cases node with
      | file serial content => rfl
      | directory => exact walk_nil
      | link target => exact absurd rfl (hLink target)
    | cons second others =>
      have hDirectory := hAbove [name] (by simp) (by simp)
      rw [walk_directory hName hDirectory fun _ => .inl rfl]
      exact ih hNode

/-- The path of an entry leads to it, if the system can use the path at all. -/
theorem target_down (h : t.WellFormed) (hRoot : t.target root = .ok (d, .directory))
    (hNode : t.node? (d ++ names) = some node) (hLink : ∀ target, node ≠ .link target)
    (hTerminator : '\x00' ∉ (root.down names).text.toList)
    (hLength : (root.down names).text.utf8ByteSize ≤ 4095) :
    t.target (root.down names) = .ok (d ++ names, node) := by
  obtain ⟨hResolve, hDirectory⟩ := target_eq_ok_iff.1 hRoot
  rcases List.eq_nil_or_concat' names with rfl | ⟨before, name, rfl⟩
  · rw [List.append_nil] at hNode ⊢
    exact target_eq_ok_iff.2 ⟨hResolve, hNode⟩
  have hNames := h.isFileName hNode
  have hName := (hNames name (by simp)).headedBy
  obtain ⟨left, hLeft⟩ := walk_append hDirectory (leadsTo_of_resolve hResolve)
  -- the path begins as the root does, however far down it goes
  have hStart : ∀ names, (∀ name ∈ names, IsFileName name) →
      t.startOf (root.down names) = t.startOf root := by
    intro names hNames
    induction names using List.reverseRec with
    | nil => rfl
    | append_singleton before name ih =>
      rw [List.forall_mem_append] at hNames
      rw [Path.down_concat, startOf_join t (hNames.2 name (by simp)).headedBy.relative,
        ih hNames.1]
  refine target_eq_ok_iff.2 ⟨?_, hNode⟩
  have hText : (root.down (before ++ [name])).text ≠ "" := by
    rw [Path.down_concat]
    exact hName.text_join_ne_empty _
  have hSlash : endsInSlash (root.down (before ++ [name])) = false := by
    rw [Path.down_concat]
    exact hName.endsInSlash_join _
  rw [resolve_of_text hText hTerminator hLength, hSlash, hStart _ hNames, Path.route_down hNames,
    hLeft t (.refl t) _ _ _ (by simp)]
  exact walk_down h hNode hLink

/-- What can be read at the path of a file is the file. -/
theorem target_of_read (h : t.WellFormed) (hRoot : t.target root = .ok (d, .directory))
    {serial : Nat} {content read : ByteArray}
    (hNode : t.node? (d ++ names) = some (.file serial content))
    (hRead : t.read (root.down names) = .ok read) :
    t.target (root.down names) = .ok (d ++ names, .file serial content) := by
  obtain ⟨l, other, hTarget⟩ := read_eq_ok_iff.1 hRead
  obtain ⟨-, hTerminator, hLength⟩ := text_of_resolve (target_eq_ok_iff.1 hTarget).1
  exact target_down h hRoot hNode (by rintro _ ⟨⟩) hTerminator hLength

/-! ## Without a file -/

/-- Away from a file, the tree with it and the tree without it are one. -/
theorem settled_of_file {serial : Nat} {content : ByteArray}
    (hFile : t.node? l = some (.file serial content)) : Settled (t.erase l) t l := by
  have hBelow := ne_nil_of_file hFile
  refine ⟨rfl, ?_, ?_⟩
  · intro l' hOther
    rw [node?_erase hBelow, if_neg hOther]
  · intro node hNode
    exact ⟨serial, content, Option.some.inj (hNode.symm.trans hFile)⟩

/-- What leads elsewhere than to a file leads there without the file. -/
theorem target_erase {serial : Nat} {content : ByteArray}
    (hFile : t.node? l = some (.file serial content)) {l' : Location}
    (hTarget : t.target p = .ok (l', node)) (hOther : l' ≠ l) :
    (t.erase l).target p = .ok (l', node) :=
  (target_of_settled (settled_of_file hFile) hTarget).resolve_left hOther

/-- A path to a directory is at its end a directory or a link. -/
theorem exists_walk_shown {links : Nat} {slash : Bool} {here : Location}
    (hDirectory : t.node? d = some .directory)
    (hWalk : t.walk .followed links slash here names = .ok (.occupied d)) :
    ∃ l, t.walk .shown links slash here names = .ok (.occupied l) ∧
      ((∃ target, t.node? l = some (.link target)) ∨ l = d) := by
  simp only [walk_eq_ok_iff] at hWalk ⊢
  generalize hSpot : Spot.occupied d = spot at hWalk
  induction hWalk with
  | @here links slash here =>
    obtain rfl := Spot.occupied.inj hSpot
    exact ⟨d, .here, .inr rfl⟩
  | dot _ ih => exact (ih hSpot).imp fun _ => .imp_left .dot
  | up _ ih => exact (ih hSpot).imp fun _ => .imp_left .up
  | free => cases hSpot
  | directory hFollow hNode _ ih =>
    exact (ih hSpot).imp fun _ => .imp_left (.directory (hFollow.as nofun) hNode)
  | file _ hNode _ =>
    obtain rfl := Spot.occupied.inj hSpot
    cases hNode.symm.trans hDirectory
  | link _ _ hAsked => cases hAsked
  | @followed links slash here name rest target spot hFollow hNode _ _ ih =>
    -- a link at the end is shown as what it is, unless a slash stands behind it
    by_cases hShown : rest = [] ∧ slash = false
    · obtain ⟨rfl, rfl⟩ := hShown
      exact ⟨_, .link (hFollow.as nofun) hNode rfl, .inl ⟨target, hNode⟩⟩
    · refine (ih hSpot).imp fun _ => .imp_left (.followed (hFollow.as nofun) hNode fun hRest => ?_)
      have hSlash : slash = true := Bool.eq_true_of_not_eq_false fun h => hShown ⟨hRest, h⟩
      rw [hSlash]
      rfl

/-- The kind that the directory itself is listed under is that of a directory or a link. -/
theorem exists_resolve_shown (hRoot : t.target root = .ok (d, .directory)) :
    ∃ l, t.resolve .shown root = .ok (.occupied l) ∧
      ((∃ target, t.node? l = some (.link target)) ∨ l = d) := by
  obtain ⟨hResolve, hDirectory⟩ := target_eq_ok_iff.1 hRoot
  simp only [resolve_eq_walk hResolve]
  exact exists_walk_shown hDirectory (walk_of_resolve hResolve)

theorem kindAt_erase {serial : Nat} {content : ByteArray}
    (hFile : t.node? l = some (.file serial content))
    (hRoot : t.target root = .ok (d, .directory)) : (t.erase l).kindAt root = t.kindAt root := by
  obtain ⟨l', hShown, hEnd⟩ := exists_resolve_shown hRoot
  have hOther : l' ≠ l := by
    rintro rfl
    rcases hEnd with ⟨target, hLink⟩ | rfl
    · rw [hFile] at hLink
      cases hLink
    · rw [(target_eq_ok_iff.1 hRoot).2] at hFile
      cases hFile
  have hAfter := (resolve_of_settled (settled_of_file hFile) hShown).resolve_left hOther
  rw [kindAt, kindAt, hShown, hAfter]
  show (((t.erase l).node? l').map kindOf).getD _ = _
  rw [node?_erase (ne_nil_of_file hFile), if_neg hOther]

theorem Unlinked.kindAt_directory (h : t.Unlinked) (hRoot : t.target root = .ok (d, .directory)) :
    t.kindAt root = .directory := by
  obtain ⟨l, hShown, ⟨target, hLink⟩ | rfl⟩ := exists_resolve_shown hRoot
  · exact absurd hLink (h l target)
  · rw [kindAt, hShown]
    show ((t.node? l).map kindOf).getD _ = _
    rw [(target_eq_ok_iff.1 hRoot).2]
    rfl

/-! ## Names of locations -/

/-- A path that ends in a name spells a location of that name, in the location of its parent. -/
theorem exists_place {name : String} (hName : p.fileName? = some name) (start : Location) :
    ∃ dir, p.parent? = some dir ∧ place start p = place start dir ++ [name] := by
  have hStem : p.stem? = some (Path.splitName name).1 := by
    rw [Path.stem?, hName]
    rfl
  obtain ⟨dir, hParent⟩ := Path.exists_parent hStem
  have hEnds := Path.endsIn_parent hName hParent
  obtain ⟨before, after, hRoute⟩ := hEnds.route
  obtain ⟨hFiller, hUp⟩ := Path.plain_of_fileName? hName
  -- what stands around the name are dots, which lead nowhere
  have hDots : ∀ (n : Nat) (l : Location), (List.replicate n ".").foldl descend l = l := by
    intro n l
    induction n with
    | zero => rfl
    | succ n ih => exact ih
  refine ⟨dir, hParent, ?_⟩
  rw [place, place, hRoute, hEnds.absolute, List.foldl_append, List.foldl_append, hDots,
    List.foldl_cons, hDots, descend_entry (Path.ne_of_not_filler hFiller).2 hUp]

/-- Without links a path that ends in a name leads to a location of that name, and so does its
parent. -/
theorem Unlinked.exists_location (h : t.Unlinked) {name : String}
    (hTarget : t.target p = .ok (l, node)) (hName : p.fileName? = some name) :
    ∃ around, l = around ++ [name] ∧
      ∀ outer, p.parent?.bind Path.fileName? = some outer → around.getLast? = some outer := by
  obtain ⟨dir, hParent, hPlace⟩ := exists_place hName t.workingDirectory
  refine ⟨_, (h.location_of_target hTarget).trans hPlace, ?_⟩
  intro outer hOuter
  rw [hParent, Option.bind_some] at hOuter
  obtain ⟨dir', -, hPlace'⟩ := exists_place hOuter t.workingDirectory
  rw [hPlace', List.getLast?_concat]

end FileTree

end PropertySets
