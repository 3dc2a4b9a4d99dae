import PropertySets.Disk.FileTree

/-!
# Ways

Following the segments of a path means to go from entry to entry, with an error wherever that is not
possible. What a path leads to is reached by a way: dots, directories that are entered and links
that are followed, up to a free name, a file, or a link that is taken as it is. A walk leads
somewhere exactly if there is a way to it, so facts about walks that succeed are proved by induction
on ways, which have no failures, and a walk in another tree is found by building its way.

* `IsEntryName` — a name that a directory can hold an entry under.
* `walk_nil`, `walk_dot`, `walk_up`, `walk_entry` — the steps of a walk.
* `Way`, `walk_eq_ok_iff` — what a walk goes through that leads somewhere.
* `walk_followed_of_created`, `walk_itself_of_created`, `exists_walk_itself` — what a way says of
  the same names when the last one is taken otherwise.
* `Way.stop`, `Way.enter`, `Way.pass` — how a way goes on from a name.
-/

namespace PropertySets.FileTree

/-- A name that a directory can hold an entry under. -/
structure IsEntryName (name : String) : Prop where
  notDot : name ≠ "."
  notUp : name ≠ ".."
  short : name.utf8ByteSize ≤ 255

variable {t : FileTree} {last : LastName} {links : Nat} {slash : Bool} {here : Location}
  {names : List String} {spot : Spot}

/-! ## Steps of a walk -/

theorem walk_nil : t.walk last links slash here [] = .ok (.occupied here) := by
  rw [walk]

theorem walk_dot (rest : List String) :
    t.walk last links slash here ("." :: rest) = t.walk last links slash here rest := by
  rw [walk, if_pos rfl]

theorem walk_up (rest : List String) :
    t.walk last links slash here (".." :: rest) =
      t.walk last links slash here.dropLast rest := by
  rw [walk, if_neg (by decide), if_pos rfl]

theorem walk_entry {name : String} {rest : List String} (hName : IsEntryName name)
    (hSlash : last = .created → slash = false ∨ rest ≠ []) :
    t.walk last links slash here (name :: rest) =
      match t.node? (here ++ [name]) with
      | none => if rest.isEmpty then .ok (.vacant here name) else .error .notFound
      | some .directory => t.walk last links slash (here ++ [name]) rest
      | some (.file _ _) =>
        if !rest.isEmpty || slash && last ≠ .itself then .error .notADirectory
        else .ok (.occupied (here ++ [name]))
      | some (.link target) =>
        if rest.isEmpty && last.isLink slash then .ok (.occupied (here ++ [name]))
        else match links with
          | 0 => .error .tooManyLinks
          | links + 1 =>
            t.walk last links (slash || rest.isEmpty && endsInSlash target)
              (if target.isAbsolute then [] else here) (route target ++ rest) := by
  -- a file cannot be made under a name with a slash behind it
  have hCreated : ¬ (decide (last = .created) && slash && rest.isEmpty) = true := by
    by_cases hLast : last = .created
    · rcases hSlash hLast with rfl | hRest
      · simp
      · simp [hRest]
    · simp [hLast]
  rw [walk, if_neg hName.notDot, if_neg hName.notUp, if_neg hCreated]
  exact if_neg (Nat.not_lt.2 hName.short)

/-- A directory on the way is entered. -/
theorem walk_directory {name : String} {rest : List String} (hName : IsEntryName name)
    (hNode : t.node? (here ++ [name]) = some .directory)
    (hSlash : last = .created → slash = false ∨ rest ≠ []) :
    t.walk last links slash here (name :: rest) =
      t.walk last links slash (here ++ [name]) rest := by
  rw [walk_entry hName hSlash, hNode]

/-! ## Ways -/

/-- A name can be followed: it is that of an entry, and no file is to be made where a slash stands
behind it. -/
structure CanFollow (last : LastName) (slash : Bool) (name : String) (rest : List String) : Prop
    extends IsEntryName name where
  unslashed : last = .created → slash = false ∨ rest ≠ []

/-- A way along the names, on which no more than `links` links are followed. -/
inductive Way (t : FileTree) (last : LastName) :
    Nat → Bool → Location → List String → Spot → Prop
  | here {links : Nat} {slash : Bool} {here : Location} :
    Way t last links slash here [] (.occupied here)
  | dot {links : Nat} {slash : Bool} {here : Location} {rest : List String} {spot : Spot}
    (onward : Way t last links slash here rest spot) :
    Way t last links slash here ("." :: rest) spot
  | up {links : Nat} {slash : Bool} {here : Location} {rest : List String} {spot : Spot}
    (onward : Way t last links slash here.dropLast rest spot) :
    Way t last links slash here (".." :: rest) spot
  | free {links : Nat} {slash : Bool} {here : Location} {name : String}
    (follow : CanFollow last slash name []) (nothing : t.node? (here ++ [name]) = none) :
    Way t last links slash here [name] (.vacant here name)
  | directory {links : Nat} {slash : Bool} {here : Location} {name : String} {rest : List String}
    {spot : Spot} (follow : CanFollow last slash name rest)
    (entered : t.node? (here ++ [name]) = some .directory)
    (onward : Way t last links slash (here ++ [name]) rest spot) :
    Way t last links slash here (name :: rest) spot
  | file {links : Nat} {slash : Bool} {here : Location} {name : String} {serial : Nat}
    {content : ByteArray} (follow : CanFollow last slash name [])
    (found : t.node? (here ++ [name]) = some (.file serial content))
    (asked : slash = true → last = .itself) :
    Way t last links slash here [name] (.occupied (here ++ [name]))
  | link {links : Nat} {slash : Bool} {here : Location} {name : String} {target : Path}
    (follow : CanFollow last slash name [])
    (found : t.node? (here ++ [name]) = some (.link target)) (asked : last.isLink slash = true) :
    Way t last links slash here [name] (.occupied (here ++ [name]))
  | followed {links : Nat} {slash : Bool} {here : Location} {name : String} {rest : List String}
    {target : Path} {spot : Spot} (follow : CanFollow last slash name rest)
    (found : t.node? (here ++ [name]) = some (.link target))
    (passed : rest = [] → last.isLink slash = false)
    (onward : Way t last links (slash || rest.isEmpty && endsInSlash target)
      (if target.isAbsolute then [] else here) (route target ++ rest) spot) :
    Way t last (links + 1) slash here (name :: rest) spot

/-- The checks of a walk at a name. -/
theorem CanFollow.of_checks {name : String} {rest : List String} (hDot : name ≠ ".")
    (hUp : name ≠ "..")
    (hCreated : ¬ (decide (last = .created) && slash && rest.isEmpty) = true)
    (hShort : ¬ 255 < name.utf8ByteSize) : CanFollow last slash name rest := by
  refine ⟨⟨hDot, hUp, Nat.not_lt.1 hShort⟩, ?_⟩
  rintro rfl
  by_cases hRest : rest = []
  · exact .inl (by simpa [hRest] using hCreated)
  · exact .inr hRest

theorem CanFollow.slash_eq_false {name : String} (h : CanFollow .created slash name []) :
    slash = false :=
  (h.unslashed rfl).resolve_right fun hRest => hRest rfl

/-- Only where a file is to be made a slash is in the way. -/
theorem CanFollow.as {last' : LastName} {name : String} {rest : List String}
    (h : CanFollow last slash name rest) (hLast : last' ≠ .created) :
    CanFollow last' slash name rest :=
  ⟨h.toIsEntryName, fun hCreated => absurd hCreated hLast⟩

/-- What is taken as it is at the end of a way is followed only with names behind it. -/
theorem ne_nil_of_passed {rest : List String}
    (h : rest = [] → LastName.isLink .itself slash = false) : rest ≠ [] :=
  fun hNil => Bool.noConfusion (h hNil)

theorem Way.of_walk (h : t.walk last links slash here names = .ok spot) :
    Way t last links slash here names spot := by
  -- a case for each way to go on; in the others the walk fails
  fun_induction FileTree.walk t last links slash here names with
  | case1 links slash here => exact Except.ok.inj h ▸ .here
  | case2 links slash here rest ih => exact .dot (ih h)
  | case3 links slash here rest _ ih => exact .up (ih h)
  | case4 | case5 | case7 | case9 | case12 => cases h
  | case6 links slash here name rest hDot hUp hCreated hShort there hNode hRest =>
    obtain rfl := List.isEmpty_iff.1 hRest
    exact Except.ok.inj h ▸ .free (.of_checks hDot hUp hCreated hShort) hNode
  | case8 links slash here name rest hDot hUp hCreated hShort there hNode ih =>
    exact .directory (.of_checks hDot hUp hCreated hShort) hNode (ih h)
  | case10 links slash here name rest hDot hUp hCreated hShort there serial content hNode hEnd =>
    obtain ⟨rfl, hAsked⟩ : rest = [] ∧ (slash = true → last = .itself) := by simpa using hEnd
    exact Except.ok.inj h ▸ .file (.of_checks hDot hUp hCreated hShort) hNode hAsked
  | case11 links slash here name rest hDot hUp hCreated hShort there target hNode hTaken =>
    obtain ⟨hRest, hAsked⟩ := Bool.and_eq_true_iff.1 hTaken
    obtain rfl := List.isEmpty_iff.1 hRest
    exact Except.ok.inj h ▸ .link (.of_checks hDot hUp hCreated hShort) hNode hAsked
  | case13 slash here name rest hDot hUp hCreated hShort there target hNode hTaken links ih =>
    refine .followed (.of_checks hDot hUp hCreated hShort) hNode ?_ (ih h)
    rintro rfl
    simpa using hTaken

theorem Way.walk (h : Way t last links slash here names spot) :
    t.walk last links slash here names = .ok spot := by
  -- each step of a way is the step that a walk takes there
  induction h with
  | here => exact walk_nil
  | dot _ ih => rw [walk_dot, ih]
  | up _ ih => rw [walk_up, ih]
  | free hFollow hNode =>
    rw [walk_entry hFollow.toIsEntryName hFollow.unslashed, hNode]
    rfl
  | directory hFollow hNode _ ih =>
    rw [walk_directory hFollow.toIsEntryName hNode hFollow.unslashed, ih]
  | file hFollow hNode hAsked =>
    rw [walk_entry hFollow.toIsEntryName hFollow.unslashed, hNode]
    exact if_neg (by simpa using hAsked)
  | link hFollow hNode hAsked =>
    rw [walk_entry hFollow.toIsEntryName hFollow.unslashed, hNode]
    exact if_pos hAsked
  | @followed links slash here name rest target spot hFollow hNode hPassed _ ih =>
    rw [walk_entry hFollow.toIsEntryName hFollow.unslashed, hNode]
    refine (if_neg ?_).trans ih
    rw [Bool.and_eq_true, List.isEmpty_iff]
    rintro ⟨hRest, hLink⟩
    rw [hPassed hRest] at hLink
    cases hLink

/-- A walk leads to something exactly if there is a way to it. -/
theorem walk_eq_ok_iff :
    t.walk last links slash here names = .ok spot ↔ Way t last links slash here names spot :=
  ⟨.of_walk, Way.walk⟩

/-- Every walk comes to its end, whether it fails or not. -/
theorem ne_unreached_of_walk {e : DiskError}
    (h : t.walk last links slash here names = .error e) : e ≠ .unreached := by
  fun_induction FileTree.walk t last links slash here names with
  | case1 | case6 | case10 | case11 => cases h
  | case2 links slash here rest ih => exact ih h
  | case3 links slash here rest _ ih => exact ih h
  | case8 links slash here name rest hDot hUp hCreated hShort there hNode ih => exact ih h
  | case13 slash here name rest hDot hUp hCreated hShort there target hNode hTaken links ih =>
    exact ih h
  | case4 | case5 | case7 | case9 | case12 =>
    cases h
    rintro ⟨⟩

theorem ne_unreached_of_resolve {p : Path} {e : DiskError} (h : t.resolve last p = .error e) :
    e ≠ .unreached := by
  rw [resolve] at h
  split at h
  · cases h
    rintro ⟨⟩
  split at h
  · cases h
    rintro ⟨⟩
  split at h
  · cases h
    rintro ⟨⟩
  exact ne_unreached_of_walk h

/-! ## How the last name is taken -/

section

variable {d : Location} {name : String}

theorem node?_of_walk_vacant (hWalk : t.walk last links slash here names = .ok (.vacant d name)) :
    t.node? (d ++ [name]) = none := by
  rw [walk_eq_ok_iff] at hWalk
  generalize hSpot : Spot.vacant d name = spot at hWalk
  induction hWalk with
  | here | file | link => cases hSpot
  | dot _ ih | up _ ih | directory _ _ _ ih | followed _ _ _ _ ih => exact ih hSpot
  | free _ hNode =>
    cases hSpot
    exact hNode

/-- A path that leads to something is occupied, a link at its end or not. -/
theorem exists_walk_itself {l : Location}
    (hWalk : t.walk .followed links slash here names = .ok (.occupied l)) :
    ∃ l', t.walk .itself links slash here names = .ok (.occupied l') := by
  simp only [walk_eq_ok_iff] at hWalk ⊢
  generalize hSpot : Spot.occupied l = spot at hWalk
  induction hWalk with
  | @here links slash here => exact ⟨here, .here⟩
  | dot _ ih => exact (ih hSpot).imp fun _ => .dot
  | up _ ih => exact (ih hSpot).imp fun _ => .up
  | free => cases hSpot
  | directory hFollow hNode _ ih =>
    exact (ih hSpot).imp fun _ => .directory (hFollow.as nofun) hNode
  | file hFollow hNode => exact ⟨_, .file (hFollow.as nofun) hNode fun _ => rfl⟩
  | link _ _ hAsked => cases hAsked
  | @followed links slash here step rest target spot hFollow hNode _ _ ih =>
    -- a link at the end is taken as it is
    by_cases hRest : rest = []
    · subst hRest
      exact ⟨_, .link (hFollow.as nofun) hNode rfl⟩
    · refine (ih hSpot).imp fun _ => .followed (hFollow.as nofun) hNode fun hNil => ?_
      exact absurd hNil hRest

/-- What a path is created at is what it leads to. -/
theorem walk_followed_of_created (hWalk : t.walk .created links slash here names = .ok spot) :
    t.walk .followed links slash here names = .ok spot := by
  rw [walk_eq_ok_iff] at hWalk ⊢
  induction hWalk with
  | here => exact .here
  | dot _ ih => exact .dot ih
  | up _ ih => exact .up ih
  | free hFollow hNode => exact .free (hFollow.as nofun) hNode
  | directory hFollow hNode _ ih => exact .directory (hFollow.as nofun) hNode ih
  | file hFollow hNode hAsked =>
    exact .file (hFollow.as nofun) hNode fun hSlash => by cases hAsked hSlash
  | link _ _ hAsked => cases hAsked
  | followed hFollow hNode _ _ ih =>
    exact .followed (hFollow.as nofun) hNode (fun _ => rfl) ih

/-- No file is made at a path that ends in a slash. -/
theorem unslashed_of_walk_created
    (hWalk : t.walk .created links slash here names = .ok (.vacant d name)) : slash = false := by
  rw [walk_eq_ok_iff] at hWalk
  generalize hSpot : Spot.vacant d name = spot at hWalk
  induction hWalk with
  | here | file | link => cases hSpot
  | dot _ ih | up _ ih | directory _ _ _ ih => exact ih hSpot
  | free hFollow _ => exact hFollow.slash_eq_false
  | followed _ _ _ _ ih => exact (Bool.or_eq_false_iff.1 (ih hSpot)).1

/-- Where a file is made there is a free name, or a link to it at the end of the way. -/
theorem walk_itself_of_created
    (hWalk : t.walk .created links slash here names = .ok (.vacant d name)) :
    t.walk .itself links slash here names = .ok (.vacant d name) ∨
      ∃ l target, t.walk .itself links slash here names = .ok (.occupied l) ∧
        t.node? l = some (.link target) := by
  simp only [walk_eq_ok_iff] at hWalk ⊢
  generalize hSpot : Spot.vacant d name = spot at hWalk
  induction hWalk with
  | here | file | link => cases hSpot
  | dot _ ih =>
    exact (ih hSpot).imp .dot fun ⟨l, target, hWay, hLink⟩ => ⟨l, target, .dot hWay, hLink⟩
  | up _ ih =>
    exact (ih hSpot).imp .up fun ⟨l, target, hWay, hLink⟩ => ⟨l, target, .up hWay, hLink⟩
  | free hFollow hNode => exact .inl (.free (hFollow.as nofun) hNode)
  | directory hFollow hNode _ ih =>
    exact (ih hSpot).imp (.directory (hFollow.as nofun) hNode) fun ⟨l, target, hWay, hLink⟩ =>
      ⟨l, target, .directory (hFollow.as nofun) hNode hWay, hLink⟩
  | @followed links slash here step rest target spot hFollow hNode _ _ ih =>
    -- a link at the end is taken as it is; other links are followed either way
    by_cases hRest : rest = []
    · subst hRest
      exact .inr ⟨_, target, .link (hFollow.as nofun) hNode rfl, hNode⟩
    · exact (ih hSpot).imp (.followed (hFollow.as nofun) hNode (absurd · hRest))
        fun ⟨l, target, hWay, hLink⟩ =>
          ⟨l, target, .followed (hFollow.as nofun) hNode (absurd · hRest) hWay, hLink⟩

end

/-! ## Ways from a name -/

section

variable {name : String} {rest : List String}

theorem Way.dot_iff :
    Way t last links slash here ("." :: rest) spot ↔ Way t last links slash here rest spot := by
  rw [← walk_eq_ok_iff, walk_dot, walk_eq_ok_iff]

theorem Way.up_iff :
    Way t last links slash here (".." :: rest) spot ↔
      Way t last links slash here.dropLast rest spot := by
  rw [← walk_eq_ok_iff, walk_up, walk_eq_ok_iff]

/-- From a name that is free a way does not go on. -/
theorem Way.stop (hName : IsEntryName name) (hNode : t.node? (here ++ [name]) = none)
    (h : Way t last links slash here (name :: rest) spot) : spot = .vacant here name := by
  cases h with
  | dot => exact absurd rfl hName.notDot
  | up => exact absurd rfl hName.notUp
  | free => rfl
  | directory _ hOther | file _ hOther | link _ hOther | followed _ hOther =>
    cases hNode.symm.trans hOther

/-- From a directory a way goes on in it. -/
theorem Way.enter (hName : IsEntryName name) (hNode : t.node? (here ++ [name]) = some .directory)
    (h : Way t last links slash here (name :: rest) spot) :
    Way t last links slash (here ++ [name]) rest spot := by
  cases h with
  | dot => exact absurd rfl hName.notDot
  | up => exact absurd rfl hName.notUp
  | directory _ _ onward => exact onward
  | free _ hOther | file _ hOther | link _ hOther | followed _ hOther =>
    cases hNode.symm.trans hOther

/-- From a link with names behind it a way goes on where the link leads. -/
theorem Way.pass {target : Path} (hName : IsEntryName name)
    (hNode : t.node? (here ++ [name]) = some (.link target)) (hRest : rest ≠ [])
    (h : Way t last (links + 1) slash here (name :: rest) spot) :
    Way t last links slash (if target.isAbsolute then [] else here) (route target ++ rest)
      spot := by
  cases h with
  | dot => exact absurd rfl hName.notDot
  | up => exact absurd rfl hName.notUp
  | free | file | link => exact absurd rfl hRest
  | directory _ hOther => cases hNode.symm.trans hOther
  | followed _ hSame _ onward =>
    cases hNode.symm.trans hSame
    rwa [List.isEmpty_eq_false_iff.2 hRest, Bool.false_and, Bool.or_false] at onward

end

end PropertySets.FileTree
