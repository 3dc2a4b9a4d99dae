import Mathlib.Data.List.Basic
import PropertySets.Proofs.Disk.Twins

/-!
# Files that stay beside other names

To follow a path is to come to its last name in the end, whatever links are on the way. So a file at
the end of one path is not touched when files are removed and created at paths with other last
names; and while no directory and no link comes in, the path of the file leads to it or nowhere. A
link at the end of the path that leads nowhere is the exception: the file is made behind the link
then, and can have any name.

* `getLast?_of_walk_itself`, `exists_getLast?_of_walk_vacant` — the last name of a way.
* `location_of_walk_thinned` — a way in a tree with fewer directories and links.
* `Dangles`, `FileStays` — a link that leads nowhere, and a file that has stayed since it was made.
* `fileStays_of_replace`, `FileStays.create`, `FileStays.read_eq` — how it begins, what it
  outlasts, and what is read in the end.
* `target_append_of_other` — what is written into other files does not touch a file.
-/

namespace PropertySets.FileTree

variable {t t' t₁ t₂ base : FileTree} {p : Path} {l : Location}

/-! ## The last name of a way -/

section

variable {last : LastName} {links : Nat} {slash : Bool} {here d : Location} {names : List String}
  {name : String} {spot : Spot}

/-- A way to a free name ends in a name that is no dots. -/
theorem exists_getLast?_of_walk_vacant
    (hWalk : t.walk last links slash here names = .ok (.vacant d name)) :
    ∃ n, names.getLast? = some n ∧ n ≠ "." ∧ n ≠ ".." := by
  rw [walk_eq_ok_iff] at hWalk
  generalize hSpot : Spot.vacant d name = spot at hWalk
  induction hWalk with
  | here | file | link => cases hSpot
  | dot _ ih | up _ ih | directory _ _ _ ih =>
    obtain ⟨n, hLast, hPlain⟩ := ih hSpot
    exact ⟨n, getLast?_cons_of_some _ hLast, hPlain⟩
  | free hFollow _ => exact ⟨_, rfl, hFollow.notDot, hFollow.notUp⟩
  | @followed links slash here step rest target spot hFollow _ _ _ ih =>
    -- a link that is followed is the last name, or has the last name behind it
    by_cases hRest : rest = []
    · rw [hRest]
      exact ⟨step, rfl, hFollow.notDot, hFollow.notUp⟩
    · obtain ⟨n, hLast, hPlain⟩ := ih hSpot
      rw [List.getLast?_append_of_ne_nil _ hRest] at hLast
      exact ⟨n, getLast?_cons_of_some _ hLast, hPlain⟩

/-- The entry that a way leads to has the last name of the way. -/
theorem getLast?_of_walk_itself
    (hWalk : t.walk .itself links slash here names = .ok (.occupied l))
    (hLast : names.getLast? = some name) (hDotted : name ≠ "." ∧ name ≠ "..") :
    l.getLast? = some name := by
  have hTail : ∀ {first : String} {rest : List String}, rest ≠ [] →
      (first :: rest).getLast? = some name → rest.getLast? = some name := by
    intro first rest hRest hLast
    rwa [List.getLast?_cons_of_ne_nil hRest] at hLast
  -- a way ends at the last name, or goes on with it still to come
  rw [walk_eq_ok_iff] at hWalk
  generalize hSpot : Spot.occupied l = spot at hWalk
  induction hWalk with
  | here => cases hLast
  | dot _ ih =>
    refine ih (hTail ?_ hLast) hSpot
    rintro rfl
    exact hDotted.1 (Option.some.inj hLast).symm
  | up _ ih =>
    refine ih (hTail ?_ hLast) hSpot
    rintro rfl
    exact hDotted.2 (Option.some.inj hLast).symm
  | free => cases hSpot
  | @directory links slash here step rest spot _ _ hOnward ih =>
    by_cases hRest : rest = []
    · subst hRest
      cases hOnward
      rw [Spot.occupied.inj hSpot, List.getLast?_concat]
      exact hLast
    · exact ih (hTail hRest hLast) hSpot
  | file | link =>
    rw [Spot.occupied.inj hSpot, List.getLast?_concat]
    exact hLast
  | followed _ _ hPassed _ ih =>
    have hRest := ne_nil_of_passed hPassed
    refine ih ?_ hSpot
    rw [List.getLast?_append_of_ne_nil _ hRest]
    exact hTail hRest hLast

/-- In a tree with no other directories and links the way to a free name leads to that name, if it
leads anywhere. -/
theorem location_of_walk_thinned
    (hBefore : ∀ l node, t'.node? l = some node →
      (∀ serial content, node ≠ .file serial content) → t.node? l = some node)
    (hWalk : t.walk .itself links slash here names = .ok (.vacant d name))
    (hAfter : t'.walk last links slash here names = .ok spot) : spot.location = d ++ [name] := by
  -- both ways are followed at once: what the one comes through the other finds, or it ends there
  rw [walk_eq_ok_iff] at hWalk hAfter
  generalize hSpot : Spot.vacant d name = found at hWalk
  induction hWalk with
  | here | file | link => cases hSpot
  | dot _ ih => exact ih (Way.dot_iff.1 hAfter) hSpot
  | up _ ih => exact ih (Way.up_iff.1 hAfter) hSpot
  | free hFollow hNode =>
    cases hSpot
    cases hAfter with
    | dot => exact absurd rfl hFollow.notDot
    | up => exact absurd rfl hFollow.notUp
    | free | file => rfl
    | directory _ hThere | link _ hThere | followed _ hThere =>
      cases hNode.symm.trans (hBefore _ _ hThere (by simp))
  | @directory links slash here step rest found hFollow hNode hOnward ih =>
    cases hAfter with
    | dot => exact absurd rfl hFollow.notDot
    | up => exact absurd rfl hFollow.notUp
    | directory _ _ hOnward' => exact ih hOnward' hSpot
    | free | file => cases hOnward; cases hSpot
    | link _ hThere | followed _ hThere => cases hNode.symm.trans (hBefore _ _ hThere (by simp))
  | @followed links slash here step rest target found hFollow hNode hPassed _ ih =>
    -- a link that is followed here is not the last name
    have hRest := ne_nil_of_passed hPassed
    cases hAfter with
    | dot => exact absurd rfl hFollow.notDot
    | up => exact absurd rfl hFollow.notUp
    | free | file | link => exact absurd rfl hRest
    | directory _ hThere => cases hNode.symm.trans (hBefore _ _ hThere (by simp))
    | followed _ hThere _ hOnward' =>
      cases hNode.symm.trans (hBefore _ _ hThere (by simp))
      exact ih hOnward' hSpot

end

/-! ## The last name of a path -/

theorem resolve_itself_of_created {d : Location} {name : String}
    (hVacant : t.resolve .created p = .ok (.vacant d name)) :
    t.resolve .itself p = .ok (.vacant d name) ∨
      ∃ l target, t.resolve .itself p = .ok (.occupied l) ∧ t.node? l = some (.link target) := by
  simp only [resolve_eq_walk hVacant]
  exact walk_itself_of_created (walk_of_resolve hVacant)

/-- Where a file was created the path ends in a name, with nothing behind it. -/
theorem plain_of_create {handle : Handle}
    (hClear : (Disk.clear p : StateM FileTree _) t = (.ok (), t₁))
    (hCreate : (Disk.create p : StateM FileTree _) t₁ = (.ok handle, t₂)) :
    endsInSlash p = false ∧ ∃ n, (route p).getLast? = some n ∧ n ≠ "." ∧ n ≠ ".." := by
  obtain ⟨d, name, hVacant, -⟩ := exists_vacant_of_create hClear hCreate
  have hWalk := walk_of_resolve hVacant
  exact ⟨unslashed_of_walk_created hWalk, exists_getLast?_of_walk_vacant hWalk⟩

/-! ## A file that stays -/

/-- A link that leads nowhere is what the path ends in. -/
def Dangles (t : FileTree) (p : Path) : Prop :=
  t.present p = false ∧
    ∃ l target, t.resolve .itself p = .ok (.occupied l) ∧ t.node? l = some (.link target)

theorem Unlinked.not_dangles (h : t.Unlinked) (p : Path) : ¬ t.Dangles p := by
  rintro ⟨-, l, target, -, hLink⟩
  exact h l target hLink

/-- Since the tree was `base` a file has come to the location and stayed there as it is. Other files
may have come and gone; no directory and no link has come. -/
structure FileStays (base : FileTree) (l : Location) (serial : Nat) (content : ByteArray)
    (t : FileTree) : Prop where
  workingDirectory : t.workingDirectory = base.workingDirectory
  older : serial < t.nextSerial
  file : t.node? l = some (.file serial content)
  before : ∀ l node, t.node? l = some node → (∀ serial content, node ≠ .file serial content) →
    base.node? l = some node

namespace FileStays

variable {serial : Nat} {content : ByteArray} {handle : Handle}

/-- A change elsewhere that brings in nothing but a file. -/
theorem settle (h : FileStays base l serial content t) {l' : Location} (hElsewhere : l ≠ l')
    (hStep : Settled t t' l') (hSerial : t.nextSerial ≤ t'.nextSerial) :
    FileStays base l serial content t' := by
  refine ⟨hStep.workingDirectory.trans h.workingDirectory, Nat.lt_of_lt_of_le h.older hSerial,
    ?_, fun l node hNode hOther => h.before l node (hStep.before hNode hOther) hOther⟩
  rw [hStep.elsewhere l hElsewhere]
  exact h.file

/-- A file with another last name is created, and what was in its place is removed. -/
theorem create (h : FileStays base l serial content t)
    (hClear : (Disk.clear p : StateM FileTree _) t = (.ok (), t₁))
    (hCreate : (Disk.create p : StateM FileTree _) t₁ = (.ok handle, t₂))
    (hOther : (route p).getLast? ≠ l.getLast?) :
    FileStays base l serial content t₂ ∧ handle.serial ≠ serial := by
  obtain ⟨-, n, hLast, hDotted⟩ := plain_of_create hClear hCreate
  have hCleared : FileStays base l serial content t₁ := by
    rcases exists_erased_of_clear hClear with ⟨rfl, -⟩ | ⟨l', hEntry, rfl, hResolve⟩
    · exact h
    · refine h.settle ?_ (settled_erase (ne_nil_of_node? hEntry) t) (Nat.le_refl _)
      -- what is removed has the last name of the path, so it is another file
      rintro rfl
      exact hOther (hLast.trans
        (getLast?_of_walk_itself (walk_of_resolve hResolve) hLast hDotted).symm)
  obtain ⟨d, name, hVacant, rfl, rfl⟩ := exists_vacant_of_create hClear hCreate
  refine ⟨hCleared.settle ?_ (settled_putFile (by simp) t₁ _) (Nat.le_succ _),
    Ne.symm (Nat.ne_of_lt hCleared.older)⟩
  rintro rfl
  cases (node?_of_resolve_vacant hVacant).symm.trans hCleared.file

theorem append (h : FileStays base l serial content t) (hSerial : handle.serial ≠ serial)
    (more : ByteArray) : FileStays base l serial content (t.append handle more) := by
  rcases append_cases t handle more with ⟨held, hBelow, hNode, hAppend⟩ | ⟨-, hAppend⟩
  · rw [hAppend]
    refine h.settle ?_ (settled_put hBelow t _ _) (Nat.le_refl _)
    rintro rfl
    cases hNode.symm.trans h.file
    exact hSerial rfl
  · rwa [hAppend]

theorem replace (h : FileStays base l serial content t) {more : ByteArray}
    (hReplace : (Disk.replace p more : StateM FileTree _) t = (.ok (), t'))
    (hOther : (route p).getLast? ≠ l.getLast?) : FileStays base l serial content t' := by
  obtain ⟨t₁, handle, t₂, hClear, hCreate, rfl⟩ := exists_of_replace hReplace
  obtain ⟨hCreated, hSerial⟩ := h.create hClear hCreate hOther
  exact hCreated.append hSerial more

/-- What is read at the path that the file was made at is what the file holds. -/
theorem read_eq {d : Location} {name : String}
    (h : FileStays base (d ++ [name]) serial content t)
    (hVacant : base.resolve .itself p = .ok (.vacant d name)) {found : ByteArray}
    (hRead : t.read p = .ok found) : found = content := by
  obtain ⟨l, other, hTarget⟩ := read_eq_ok_iff.1 hRead
  obtain ⟨hResolve, hNode⟩ := target_eq_ok_iff.1 hTarget
  -- the path leads to the file, for no directory and no link has come in
  have hThere : l = d ++ [name] := by
    have hWalk := walk_of_resolve hResolve
    rw [startOf_congr h.workingDirectory] at hWalk
    exact location_of_walk_thinned h.before (walk_of_resolve hVacant) hWalk
  rw [hThere, h.file] at hNode
  cases hNode
  rfl

end FileStays

/-- A file that is written anew is the newest one of the tree, and it stays until something comes to
its place. -/
theorem fileStays_of_replace {content : ByteArray}
    (hReplace : (Disk.replace p content : StateM FileTree _) t = (.ok (), t'))
    (hDangles : ¬ t.Dangles p) :
    ∃ base d name, base.resolve .itself p = .ok (.vacant d name) ∧
      (route p).getLast? = some name ∧
      FileStays base (d ++ [name]) t.nextSerial content t' := by
  obtain ⟨t₁, handle, t₂, hClear, hCreate, rfl⟩ := exists_of_replace hReplace
  obtain ⟨hSlash, -⟩ := plain_of_create hClear hCreate
  obtain ⟨d, name, hVacant, rfl, rfl⟩ := exists_vacant_of_create hClear hCreate
  -- the name itself is free, so the file is not made behind a link
  have hItself : t₁.resolve .itself p = .ok (.vacant d name) := by
    refine (resolve_itself_of_created hVacant).resolve_right ?_
    rintro ⟨l, target, hResolve, hLink⟩
    rcases exists_erased_of_clear hClear with ⟨rfl, hAbsent⟩ | ⟨l', hEntry, rfl, hBefore⟩
    · exact hDangles ⟨hAbsent, l, target, hResolve, hLink⟩
    · have hBelow := ne_nil_of_node? hEntry
      have hFree : (t.erase l').node? l' = none := by rw [node?_erase hBelow, if_pos rfl]
      obtain rfl : l = l' :=
        location_of_resolve_erased (settled_erase hBelow t) hFree hBefore hResolve
      cases hFree.symm.trans hLink
  have hBelow : d ++ [name] ≠ [] := by simp
  refine ⟨t₁, d, name, hItself, getLast?_of_walk_vacant (walk_of_resolve hItself) hSlash, ?_⟩
  rw [← nextSerial_of_clear hClear]
  -- the file is empty first, and then holds the content
  have hMade : FileStays t₁ (d ++ [name]) t₁.nextSerial ByteArray.empty
      (t₁.putFile (d ++ [name]) ByteArray.empty) := by
    refine ⟨rfl, Nat.lt_succ_self _, by rw [node?_putFile hBelow, if_pos rfl], ?_⟩
    exact fun l node hNode hOther => (settled_putFile hBelow t₁ _).before hNode hOther
  rcases append_cases (t₁.putFile (d ++ [name]) ByteArray.empty) ⟨d ++ [name], t₁.nextSerial⟩
    content with ⟨held, -, hNode, hAppend⟩ | ⟨hGone, -⟩
  · cases hNode.symm.trans hMade.file
    rw [hAppend, ByteArray.empty_append]
    refine ⟨rfl, hMade.older, by rw [node?_put hBelow, if_pos rfl], fun l node hNode hOther => ?_⟩
    exact hMade.before l node ((settled_put hBelow _ _ _).before hNode hOther) hOther
  · exact absurd hMade.file (hGone _)

/-! ## The newest file -/

/-- A path that was written anew leads to the newest file of the tree, if it leads anywhere. -/
theorem node_of_replace {content : ByteArray} {node : TreeNode}
    (hReplace : (Disk.replace p content : StateM FileTree _) t = (.ok (), t'))
    (hTarget : t'.target p = .ok (l, node)) : node = .file t.nextSerial content := by
  obtain ⟨t₁, handle, t₂, hClear, hCreate, rfl⟩ := exists_of_replace hReplace
  obtain ⟨hOwned, hEmpty, -⟩ := owned_of_create (.empty t) hClear hCreate
  obtain ⟨h, hMem, rfl, held, rfl⟩ := (hOwned.append List.mem_cons_self content).leads p
    List.mem_cons_self l node hTarget
  obtain rfl := List.mem_singleton.1 hMem
  have hHeld := hEmpty.append content held (target_eq_ok_iff.1 hTarget).2
  obtain ⟨d, name, -, rfl, -⟩ := exists_vacant_of_create hClear hCreate
  rw [hHeld, ByteArray.empty_append, nextSerial_of_clear hClear]

/-- What is written into other files makes no difference to where a path leads that leads to a
file. -/
theorem target_append_of_other {serial : Nat} {content : ByteArray} {h : Handle}
    (hTarget : t.target p = .ok (l, .file serial content)) (hOther : h.serial ≠ serial)
    (more : ByteArray) : (t.append h more).target p = .ok (l, .file serial content) := by
  obtain ⟨hResolve, hNode⟩ := target_eq_ok_iff.1 hTarget
  rcases append_cases t h more with ⟨held, hBelow, hHeld, hAppend⟩ | ⟨-, hAppend⟩
  · have hElsewhere : l ≠ h.location := by
      rintro rfl
      cases hHeld.symm.trans hNode
      exact hOther rfl
    -- seen from the other side, the step back changes nothing but a file either
    have hBack : Settled (t.append h more) t h.location := by
      refine ⟨by rw [hAppend]; rfl, fun l' hThere => ?_, fun node hBefore => ?_⟩
      · rw [hAppend, node?_put hBelow, if_neg hThere]
      · exact ⟨_, _, (Option.some.inj (hBefore.symm.trans hHeld))⟩
    refine target_eq_ok_iff.2 ⟨(resolve_of_settled hBack hResolve).resolve_left hElsewhere, ?_⟩
    exact node?_append_of_other hNode hOther more
  · rw [hAppend]
    exact hTarget

end PropertySets.FileTree
