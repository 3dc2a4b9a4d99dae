import PropertySets.Proofs.Disk.Ways

/-!
# Where the paths of files in one directory lead

A path that is joined from a directory's path and a file name is followed segment by segment, and
the tree may hold links on the way to the directory. While files come and go, the directories and
links of the tree stay as they are, so the directory is reached in the same way every time; only
the last name decides what the path leads to.

* `SameFrame` — trees that differ in their files only; `walk_append` — the way to a directory is
  the same in both.
* `LeadsTo`, `FlatDirectory` — a path leads to a directory, and the directory holds files only.
* `Names` — a path names a file of a directory, whatever files there are (`LeadsTo.names_join`,
  `names_of_vacant`).
* `FitsName` — the file names that lead into the directory; all others lead nowhere
  (`LeadsTo.error_join`).
-/

namespace PropertySets

/-! ## Pieces of joined texts -/

namespace Text

theorem splitAt_append_cons (separator : Char) (s rest : List Char) :
    splitAt separator (s ++ separator :: rest) = splitAt separator s ++ splitAt separator rest := by
  induction s with
  | nil => simp [splitAt]
  | cons c cs ih =>
    rw [List.cons_append, splitAt, splitAt]
    split
    · rw [ih, List.cons_append]
    · rw [ih]
      obtain ⟨piece, pieces, hPieces⟩ := List.exists_cons_of_ne_nil (splitAt_ne_nil separator cs)
      rw [hPieces]
      rfl

theorem splitAt_append_of_notMem {separator : Char} {s rest piece : List Char}
    {pieces : List (List Char)} (hFree : separator ∉ s)
    (hRest : splitAt separator rest = piece :: pieces) :
    splitAt separator (s ++ rest) = (s ++ piece) :: pieces := by
  induction s with
  | nil => exact hRest
  | cons c cs ih =>
    obtain ⟨hFirst, hFree⟩ := List.ne_and_not_mem_of_not_mem_cons hFree
    rw [List.cons_append, splitAt, if_neg (Ne.symm hFirst), ih hFree]
    rfl

theorem splitAt_of_notMem {separator : Char} {s : List Char} (hFree : separator ∉ s) :
    splitAt separator s = [s] := by
  simpa using splitAt_append_of_notMem hFree (show splitAt separator [] = [[]] from rfl)

/-- What follows the last separator is in the last piece. -/
theorem exists_splitAt_append {separator : Char} {rest : List Char} (hFree : separator ∉ rest)
    (s : List Char) :
    ∃ front piece, splitAt separator (s ++ rest) = front ++ [piece ++ rest] := by
  induction s with
  | nil => exact ⟨[], [], by simp [splitAt_of_notMem hFree]⟩
  | cons c cs ih =>
    obtain ⟨front, piece, hPieces⟩ := ih
    rw [List.cons_append, splitAt, hPieces]
    split
    · exact ⟨[] :: front, piece, rfl⟩
    · cases front with
      | nil => exact ⟨[], c :: piece, rfl⟩
      | cons first others => exact ⟨(c :: first) :: others, piece, rfl⟩

end Text

/-! ## Segments of joined paths -/

namespace FileTree

/-- Where a path starts. -/
def startOf (t : FileTree) (p : Path) : Location :=
  if p.isAbsolute then [] else t.workingDirectory

/-- A joined path has the segments of both sides; only fillers come and go where they meet. -/
theorem exists_segments_join {p q : Path} (hRelative : q.isAbsolute = false) :
    ∃ front, (p.join q).segments = front ++ q.segments ∧
      front.filter (· ≠ "") = route p ∧ (p.join q).isAbsolute = p.isAbsolute := by
  by_cases hEmpty : p.text.isEmpty = true
  · -- the empty path leaves the other as it is
    have hJoin : p.join q = q := by
      rw [Path.join, hEmpty, Bool.or_true, if_pos rfl]
    refine ⟨[], by rw [hJoin]; rfl, ?_, ?_⟩
    · rw [route, Path.segments, String.isEmpty_iff.1 hEmpty]
      rfl
    · rw [hJoin, hRelative, Path.isAbsolute, String.isEmpty_iff.1 hEmpty]
      rfl
  have hJoin : p.join q =
      if p.text.toList.getLast? == some '/' then ⟨p.text ++ q.text⟩
      else ⟨p.text ++ "/" ++ q.text⟩ := by
    rw [Path.join, hRelative, Bool.false_or, if_neg hEmpty]
  by_cases hSlash : p.text.toList.getLast? = some '/'
  · -- `p` brings the slash, behind which it has an empty segment
    obtain ⟨before, hBefore⟩ := List.getLast?_eq_some_iff.1 hSlash
    rw [hJoin, if_pos (beq_iff_eq.2 hSlash)]
    have hText : (p.text ++ q.text).toList = before ++ '/' :: q.text.toList := by
      rw [String.toList_append, hBefore, List.append_assoc]
      rfl
    refine ⟨(Text.splitAt '/' before).map String.ofList, ?_, ?_, ?_⟩
    · rw [Path.segments, hText, Text.splitAt_append_cons, List.map_append]
      rfl
    · rw [route, Path.segments, hBefore, Text.splitAt_append_cons, List.map_append,
        List.filter_append]
      simp [Text.splitAt]
    · rw [Path.isAbsolute, Path.isAbsolute, hText, hBefore]
      simp [List.head?_append]
  · -- a slash is put between
    have hText : (p.text ++ "/" ++ q.text).toList = p.text.toList ++ '/' :: q.text.toList := by
      simp
    rw [hJoin, if_neg (by rw [beq_iff_eq]; exact hSlash)]
    refine ⟨p.segments, ?_, rfl, ?_⟩
    · rw [Path.segments, hText, Text.splitAt_append_cons, List.map_append]
      rfl
    · rw [Path.isAbsolute, Path.isAbsolute, hText]
      obtain ⟨c, cs, hFirst⟩ : ∃ c cs, p.text.toList = c :: cs :=
        List.exists_cons_of_ne_nil fun hNil => hEmpty (by simp [String.toList_eq_nil_iff.1 hNil])
      rw [hFirst]
      rfl

theorem route_join {p q : Path} (hRelative : q.isAbsolute = false) :
    route (p.join q) = route p ++ route q := by
  obtain ⟨front, hSegments, hFront, -⟩ := exists_segments_join (p := p) hRelative
  rw [route, hSegments, List.filter_append, hFront]
  rfl

theorem startOf_join (t : FileTree) {p q : Path} (hRelative : q.isAbsolute = false) :
    t.startOf (p.join q) = t.startOf p := by
  obtain ⟨front, -, -, hAbsolute⟩ := exists_segments_join (p := p) hRelative
  rw [startOf, startOf, hAbsolute]

theorem endsInSlash_join {p q : Path} {last : String} (hRelative : q.isAbsolute = false)
    (hLast : q.segments.getLast? = some last) (hNamed : last ≠ "") :
    endsInSlash (p.join q) = false := by
  obtain ⟨front, hSegments, -, -⟩ := exists_segments_join (p := p) hRelative
  rw [endsInSlash, hSegments, List.getLast?_append, hLast]
  simp [hNamed]

/-! ## Walks -/

/-- Two trees with the same directories and links; only files were made, changed or removed. -/
structure SameFrame (t t' : FileTree) : Prop where
  workingDirectory : t'.workingDirectory = t.workingDirectory
  directory : ∀ l, t'.node? l = some .directory ↔ t.node? l = some .directory
  link : ∀ l target, t'.node? l = some (.link target) ↔ t.node? l = some (.link target)

theorem SameFrame.refl (t : FileTree) : SameFrame t t :=
  ⟨rfl, fun _ => Iff.rfl, fun _ _ => Iff.rfl⟩

theorem SameFrame.trans {t t' t'' : FileTree} (h : SameFrame t t') (h' : SameFrame t' t'') :
    SameFrame t t'' :=
  ⟨h'.workingDirectory.trans h.workingDirectory, fun l => (h'.directory l).trans (h.directory l),
    fun l target => (h'.link l target).trans (h.link l target)⟩

theorem startOf_congr {t t' : FileTree} (h : t'.workingDirectory = t.workingDirectory) (p : Path) :
    t'.startOf p = t.startOf p := by
  rw [startOf, startOf, h]

theorem SameFrame.startOf {t t' : FileTree} (h : SameFrame t t') (p : Path) :
    t'.startOf p = t.startOf p :=
  startOf_congr h.workingDirectory p

variable {t : FileTree} {last : LastName} {links : Nat} {slash : Bool} {here : Location}

/-- The way to a directory is the same in every tree of the frame. Following it uses up some of the
links, and leaves the same number of them for what comes behind. -/
theorem walk_append {d : Location} {names : List String} (hDirectory : t.node? d = some .directory)
    (hWalk : t.walk .followed links slash here names = .ok (.occupied d)) :
    ∃ left, ∀ t', SameFrame t t' → ∀ last slash' more, more ≠ [] →
      t'.walk last links slash' here (names ++ more) = t'.walk last left slash' d more := by
  -- the induction follows the way in `t`; the frame sends `t'` the same way at every step
  rw [walk_eq_ok_iff] at hWalk
  generalize hSpot : Spot.occupied d = spot at hWalk
  induction hWalk with
  | @here links slash here =>
    cases hSpot
    exact ⟨links, fun _ _ _ _ _ _ => rfl⟩
  | dot _ ih =>
    obtain ⟨left, hLeft⟩ := ih hSpot
    refine ⟨left, fun t' hFrame last slash' more hMore => ?_⟩
    rw [List.cons_append, walk_dot]
    exact hLeft t' hFrame last slash' more hMore
  | up _ ih =>
    obtain ⟨left, hLeft⟩ := ih hSpot
    refine ⟨left, fun t' hFrame last slash' more hMore => ?_⟩
    rw [List.cons_append, walk_up]
    exact hLeft t' hFrame last slash' more hMore
  | free => cases hSpot
  | directory hFollow hNode _ ih =>
    obtain ⟨left, hLeft⟩ := ih hSpot
    refine ⟨left, fun t' hFrame last slash' more hMore => ?_⟩
    rw [List.cons_append, walk_directory hFollow.toIsEntryName ((hFrame.directory _).2 hNode)
      fun _ => .inr (by simp [hMore])]
    exact hLeft t' hFrame last slash' more hMore
  | file _ hNode =>
    -- `d` is a directory, so the way cannot have ended at a file
    cases hSpot
    cases hDirectory.symm.trans hNode
  | link _ _ hAsked => cases hAsked
  | @followed links slash here name rest target spot hFollow hNode _ _ ih =>
    -- with `more` behind it, the link is not the last name, so it is followed in any mode
    obtain ⟨left, hLeft⟩ := ih hSpot
    refine ⟨left, fun t' hFrame last slash' more hMore => ?_⟩
    have hRest : (rest ++ more).isEmpty = false := by simp [hMore]
    rw [List.cons_append, walk_entry hFollow.toIsEntryName (fun _ => .inr (by simp [hMore])),
      (hFrame.link _ _).2 hNode]
    simp only [hRest, Bool.false_and, Bool.or_false, Bool.false_eq_true, if_false]
    rw [← List.append_assoc]
    exact hLeft t' hFrame last slash' more hMore

/-! ## Flat directories -/

/-- Nothing but a file is at the location. -/
def FileOrFree (t : FileTree) (l : Location) : Prop :=
  ∀ node, t.node? l = some node → ∃ serial content, node = .file serial content

/-- A directory that holds files only. -/
structure FlatDirectory (t : FileTree) (d : Location) : Prop where
  directory : t.node? d = some .directory
  files : ∀ name, t.FileOrFree (d ++ [name])

/-- What a name in a directory leads to. -/
def spotAt (t : FileTree) (d : Location) (name : String) : Spot :=
  match t.node? (d ++ [name]) with
  | none => .vacant d name
  | some _ => .occupied (d ++ [name])

theorem walk_flat {d : Location} {name : String} (hFlat : t.FlatDirectory d)
    (hName : IsEntryName name) :
    t.walk last links false d [name] = .ok (t.spotAt d name) := by
  rw [walk_entry hName (fun _ => .inl rfl), spotAt]
  cases hNode : t.node? (d ++ [name]) with
  | none => rfl
  | some node =>
    obtain ⟨serial, content, rfl⟩ := hFlat.files name node hNode
    rfl

/-! ## Paths of files in a directory -/

/-- The segments of the path lead to `d`; the empty path stays where paths start. -/
def LeadsTo (t : FileTree) (p : Path) (d : Location) : Prop :=
  t.walk .followed linkLimit (endsInSlash p) (t.startOf p) (route p) = .ok (.occupied d)

/-- A path that names a file of the directory `d`, whatever files the tree holds. -/
structure Names (t : FileTree) (p : Path) (d : Location) (name : String) : Prop where
  unslashed : endsInSlash p = false
  resolve : ∀ t', SameFrame t t' → FlatDirectory t' d → ∀ last,
    t'.resolve last p = .ok (t'.spotAt d name)

theorem Names.ofFrame {t t' : FileTree} {p : Path} {d : Location} {name : String}
    (h : t.Names p d name) (hFrame : SameFrame t t') : t'.Names p d name :=
  ⟨h.unslashed, fun t'' hFrame' => h.resolve t'' (hFrame.trans hFrame')⟩

/-- A usable text is followed from where the path starts. -/
theorem resolve_of_text {p : Path} (hText : p.text ≠ "") (hTerminator : '\x00' ∉ p.text.toList)
    (hLength : p.text.utf8ByteSize ≤ 4095) (t : FileTree) (last : LastName) :
    t.resolve last p = t.walk last linkLimit (endsInSlash p) (t.startOf p) (route p) := by
  rw [resolve, if_neg (by simpa using hTerminator), if_neg (by simpa using hText),
    if_neg (Nat.not_lt.2 hLength)]
  rfl

/-- A path that leads anywhere has a usable text. -/
theorem text_of_resolve {p : Path} {spot : Spot} (hResolve : t.resolve last p = .ok spot) :
    p.text ≠ "" ∧ '\x00' ∉ p.text.toList ∧ p.text.utf8ByteSize ≤ 4095 := by
  rw [resolve] at hResolve
  split at hResolve
  · cases hResolve
  split at hResolve
  · cases hResolve
  split at hResolve
  · cases hResolve
  rename_i hTerminator hText hLength
  exact ⟨by simpa using hText, by simpa using hTerminator, Nat.not_lt.1 hLength⟩

/-- A path that leads anywhere has a text that is followed in every tree, however its last name is
taken. -/
theorem resolve_eq_walk {p : Path} {spot : Spot} (hResolve : t.resolve last p = .ok spot)
    (t' : FileTree) (last' : LastName) :
    t'.resolve last' p = t'.walk last' linkLimit (endsInSlash p) (t'.startOf p) (route p) := by
  obtain ⟨hText, hTerminator, hLength⟩ := text_of_resolve hResolve
  exact resolve_of_text hText hTerminator hLength t' last'

/-- A path that leads anywhere leads there by a walk from where it starts. -/
theorem walk_of_resolve {p : Path} {spot : Spot} (hResolve : t.resolve last p = .ok spot) :
    t.walk last linkLimit (endsInSlash p) (t.startOf p) (route p) = .ok spot :=
  (resolve_eq_walk hResolve t last).symm.trans hResolve

/-- A text put where a file name belongs: it starts with a segment that can name an entry, and a
slash in it has something behind it. -/
structure HeadedBy (name first : String) (others : List String) : Prop where
  segments : (Path.mk name).segments = first :: others
  first_ne_empty : first ≠ ""
  first_ne_dot : first ≠ "."
  first_ne_up : first ≠ ".."
  last_ne_empty : ∀ last, (first :: others).getLast? = some last → last ≠ ""

/-- A file name that leads into the directory of `p`. -/
structure FitsName (p : Path) (name : String) : Prop where
  unslashed : '/' ∉ name.toList
  short : name.utf8ByteSize ≤ 255
  unterminated : '\x00' ∉ (p.join ⟨name⟩).text.toList
  pathShort : (p.join ⟨name⟩).text.utf8ByteSize ≤ 4095

instance (p : Path) (name : String) : Decidable (FitsName p name) :=
  decidable_of_iff ('/' ∉ name.toList ∧ name.utf8ByteSize ≤ 255 ∧
      '\x00' ∉ (p.join ⟨name⟩).text.toList ∧ (p.join ⟨name⟩).text.utf8ByteSize ≤ 4095)
    ⟨fun ⟨hSlash, hShort, hTerminator, hPath⟩ => ⟨hSlash, hShort, hTerminator, hPath⟩,
      fun h => ⟨h.unslashed, h.short, h.unterminated, h.pathShort⟩⟩

namespace HeadedBy

variable {name first : String} {others : List String}

theorem relative (h : HeadedBy name first others) : (Path.mk name).isAbsolute = false := by
  rw [Path.isAbsolute]
  cases hText : name.toList with
  | nil => rfl
  | cons c cs =>
    have hHead := h.segments
    rw [Path.segments, hText, Text.splitAt] at hHead
    refine beq_eq_false_iff_ne.2 fun hSlash => ?_
    obtain rfl : c = '/' := by simpa using hSlash
    rw [if_pos rfl, List.map_cons, List.cons.injEq] at hHead
    exact h.first_ne_empty hHead.1.symm

theorem route (h : HeadedBy name first others) :
    route ⟨name⟩ = first :: others.filter (· ≠ "") := by
  rw [FileTree.route, h.segments, List.filter_cons, if_pos (by simpa using h.first_ne_empty)]

theorem endsInSlash_join (h : HeadedBy name first others) (p : Path) :
    endsInSlash (p.join ⟨name⟩) = false := by
  have hLast := List.getLast?_eq_some_getLast (List.cons_ne_nil first others)
  refine FileTree.endsInSlash_join h.relative ?_ (h.last_ne_empty _ hLast)
  rw [h.segments]
  exact hLast

theorem text_join_ne_empty (h : HeadedBy name first others) (p : Path) :
    (p.join ⟨name⟩).text ≠ "" := by
  intro hEmpty
  have hRoute := route_join (p := p) h.relative
  rw [h.route, FileTree.route, Path.segments, hEmpty] at hRoute
  simp [Text.splitAt] at hRoute

/-- Without a slash the name is all there is. -/
theorem eq_of_notMem (h : HeadedBy name first others) (hSlash : '/' ∉ name.toList) :
    first = name ∧ others = [] := by
  have hSegments := h.segments
  rw [Path.segments, Text.splitAt_of_notMem hSlash] at hSegments
  simpa [eq_comm] using hSegments

/-- With a slash something follows the first segment. -/
theorem filter_others_ne_nil (h : HeadedBy name first others) (hSlash : '/' ∈ name.toList) :
    others.filter (· ≠ "") ≠ [] := by
  have hOthers : others ≠ [] := by
    rintro rfl
    obtain ⟨before, after, hText⟩ := List.append_of_mem hSlash
    have hSegments := congrArg List.length h.segments
    rw [Path.segments, hText, Text.splitAt_append_cons] at hSegments
    have hBefore := List.length_pos_iff.2 (Text.splitAt_ne_nil '/' before)
    have hAfter := List.length_pos_iff.2 (Text.splitAt_ne_nil '/' after)
    simp only [List.length_map, List.length_append, List.length_singleton] at hSegments
    omega
  -- the last of them is not empty, and stays
  intro hNone
  have hLast := List.getLast_mem hOthers
  have hEmpty := List.filter_eq_nil_iff.1 hNone _ hLast
  refine h.last_ne_empty (others.getLast hOthers) ?_ (by simpa using hEmpty)
  rw [List.getLast?_cons, List.getLast?_eq_some_getLast hOthers]
  rfl

end HeadedBy

/-! ## Which paths are names -/

variable {p : Path} {d : Location} {name first : String} {others names : List String}

/-- The path of a fitting name leads into the directory. -/
theorem LeadsTo.names_join (hLeads : t.LeadsTo p d) (hDirectory : t.node? d = some .directory)
    (hHead : HeadedBy name first others) (hFits : FitsName p name) :
    t.Names (p.join ⟨name⟩) d name := by
  refine ⟨hHead.endsInSlash_join p, fun t' hFrame hFlat last => ?_⟩
  obtain ⟨left, hLeft⟩ := walk_append hDirectory hLeads
  obtain ⟨rfl, rfl⟩ := hHead.eq_of_notMem hFits.unslashed
  rw [resolve_of_text (hHead.text_join_ne_empty p) hFits.unterminated hFits.pathShort,
    hHead.endsInSlash_join, hFrame.startOf, startOf_join t hHead.relative,
    route_join hHead.relative, hHead.route, List.filter_nil,
    hLeft t' hFrame last false [first] (List.cons_ne_nil _ _)]
  exact walk_flat hFlat ⟨hHead.first_ne_dot, hHead.first_ne_up, hFits.short⟩

/-- The path of any other name leads nowhere. -/
theorem LeadsTo.error_join (hLeads : t.LeadsTo p d) (hDirectory : t.node? d = some .directory)
    (hHead : HeadedBy name first others) (hFits : ¬ FitsName p name) {t' : FileTree}
    (hFrame : SameFrame t t') (hFlat : t'.FlatDirectory d) (last : LastName) :
    ∃ e, t'.resolve last (p.join ⟨name⟩) = .error e := by
  by_cases hTerminator : '\x00' ∈ (p.join ⟨name⟩).text.toList
  · exact ⟨_, by rw [resolve, if_pos (by simpa using hTerminator)]⟩
  by_cases hLength : 4095 < (p.join ⟨name⟩).text.utf8ByteSize
  · refine ⟨.nameTooLong, ?_⟩
    rw [resolve, if_neg (by simpa using hTerminator),
      if_neg (by simpa using hHead.text_join_ne_empty p), if_pos hLength]
  obtain ⟨left, hLeft⟩ := walk_append hDirectory hLeads
  rw [resolve_of_text (hHead.text_join_ne_empty p) hTerminator (Nat.not_lt.1 hLength),
    hHead.endsInSlash_join, hFrame.startOf, startOf_join t hHead.relative,
    route_join hHead.relative, hHead.route, hLeft t' hFrame last false _ (List.cons_ne_nil _ _)]
  by_cases hShort : first.utf8ByteSize ≤ 255
  · -- a short first segment is not the whole name, so it would have to be a directory
    have hSlash : '/' ∈ name.toList := by
      refine Decidable.byContradiction fun hSlash => ?_
      obtain ⟨rfl, rfl⟩ := hHead.eq_of_notMem hSlash
      exact hFits ⟨hSlash, hShort, hTerminator, Nat.not_lt.1 hLength⟩
    have hRest := List.isEmpty_eq_false_iff.2 (hHead.filter_others_ne_nil hSlash)
    rw [walk_entry ⟨hHead.first_ne_dot, hHead.first_ne_up, hShort⟩ (fun _ => .inl rfl)]
    cases hNode : t'.node? (d ++ [first]) with
    | none => exact ⟨.notFound, by simp only [hRest, Bool.false_eq_true, if_false]⟩
    | some node =>
      obtain ⟨serial, content, rfl⟩ := hFlat.files first node hNode
      exact ⟨.notADirectory, by simp only [hRest, Bool.not_false, Bool.true_or, if_true]⟩
  · refine ⟨.nameTooLong, ?_⟩
    rw [walk, if_neg hHead.first_ne_dot, if_neg hHead.first_ne_up, if_neg (by simp),
      if_pos (Nat.not_le.1 hShort)]

/-- A walk to a free name takes no link at the end, so it goes the same way in every tree of the
frame. -/
theorem walk_vacant (hWalk : t.walk .itself links slash here names = .ok (.vacant d name))
    (hSlash : slash = false) :
    IsEntryName name ∧ ∃ left, ∀ t', SameFrame t t' → ∀ last,
      t'.walk last links slash here names = t'.walk last left false d [name] := by
  rw [walk_eq_ok_iff] at hWalk
  generalize hSpot : Spot.vacant d name = spot at hWalk
  induction hWalk with
  | dot _ ih =>
    obtain ⟨hName, left, hLeft⟩ := ih hSlash hSpot
    exact ⟨hName, left, fun t' hFrame last => by rw [walk_dot, hLeft t' hFrame last]⟩
  | up _ ih =>
    obtain ⟨hName, left, hLeft⟩ := ih hSlash hSpot
    exact ⟨hName, left, fun t' hFrame last => by rw [walk_up, hLeft t' hFrame last]⟩
  | @free links slash here name hFollow _ =>
    cases hSpot
    exact ⟨hFollow.toIsEntryName, links, fun t' _ last => by rw [hSlash]⟩
  | directory hFollow hNode _ ih =>
    obtain ⟨hName, left, hLeft⟩ := ih hSlash hSpot
    refine ⟨hName, left, fun t' hFrame last => ?_⟩
    rw [walk_directory hFollow.toIsEntryName ((hFrame.directory _).2 hNode) fun _ => .inl hSlash]
    exact hLeft t' hFrame last
  -- only a free name at the end is vacant
  | here | file | link => cases hSpot
  | @followed links slash here step rest target spot hFollow hNode hPassed _ ih =>
    -- a link that is followed is not the last name here, so it adds no slash
    have hRest := List.isEmpty_eq_false_iff.2 (ne_nil_of_passed hPassed)
    obtain ⟨hName, left, hLeft⟩ := ih (by rw [hSlash, hRest]; rfl) hSpot
    refine ⟨hName, left, fun t' hFrame last => ?_⟩
    rw [walk_entry hFollow.toIsEntryName (fun _ => .inl hSlash), (hFrame.link _ _).2 hNode]
    simp only [hRest, Bool.false_and, Bool.or_false, Bool.false_eq_true, if_false] at hLeft ⊢
    exact hLeft t' hFrame last

/-- In front of further names one more makes no difference to the last one. -/
theorem getLast?_cons_of_some {rest : List String} (first : String)
    (hLast : rest.getLast? = some name) : (first :: rest).getLast? = some name := by
  rw [List.getLast?_cons, hLast, Option.getD_some]

/-- The free name that a walk leads to is the last one of the way: the target of a link is never the
end of it. -/
theorem getLast?_of_walk_vacant
    (hWalk : t.walk .itself links slash here names = .ok (.vacant d name))
    (hSlash : slash = false) : names.getLast? = some name := by
  rw [walk_eq_ok_iff] at hWalk
  generalize hSpot : Spot.vacant d name = spot at hWalk
  induction hWalk with
  | dot _ ih => exact getLast?_cons_of_some _ (ih hSlash hSpot)
  | up _ ih => exact getLast?_cons_of_some _ (ih hSlash hSpot)
  | free =>
    cases hSpot
    rfl
  | directory _ _ _ ih => exact getLast?_cons_of_some _ (ih hSlash hSpot)
  | here | file | link => cases hSpot
  | @followed links slash here step rest target spot _ _ hPassed _ ih =>
    have hRest := List.isEmpty_eq_false_iff.2 (ne_nil_of_passed hPassed)
    have hTarget := ih (by rw [hSlash, hRest]; rfl) hSpot
    -- what is left behind the link is not empty, so it has the last name
    have hLastName := List.getLast?_eq_some_getLast (ne_nil_of_passed hPassed)
    rw [List.getLast?_append, hLastName] at hTarget
    exact getLast?_cons_of_some _ (hLastName.trans hTarget)

/-- A free name in a directory stays a name in it, whatever files come. -/
theorem names_of_vacant (hVacant : t.resolve .itself p = .ok (.vacant d name))
    (hSlash : endsInSlash p = false) : t.Names p d name := by
  obtain ⟨hName, left, hLeft⟩ := walk_vacant (walk_of_resolve hVacant) hSlash
  refine ⟨hSlash, fun t' hFrame hFlat last => ?_⟩
  rw [resolve_eq_walk hVacant, hFrame.startOf, hLeft t' hFrame last]
  exact walk_flat hFlat hName

theorem leadsTo_of_resolve {d : Location} (hResolve : t.resolve .followed p = .ok (.occupied d)) :
    t.LeadsTo p d :=
  walk_of_resolve hResolve

/-- What a path leads to is there as an entry too. -/
theorem exists_resolve_itself {l : Location}
    (hResolve : t.resolve .followed p = .ok (.occupied l)) :
    ∃ l', t.resolve .itself p = .ok (.occupied l') := by
  simp only [resolve_eq_walk hResolve]
  exact exists_walk_itself (walk_of_resolve hResolve)

end FileTree

end PropertySets
