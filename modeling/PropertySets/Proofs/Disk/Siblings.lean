import PropertySets.Proofs.Disk.OwnedFiles
import PropertySets.Proofs.Enumeration.FileNames

/-!
# Paths with one parent

The parent of a path is found in its spelling, without a look at the disk, and so is the path with
another extension. Both keep what stands before the name: whoever follows the path comes past the
parent, whatever dots and slashes are between them and behind the name. So the parent decides in
which directory a path names a file, if files can be written to it at all.

* `Path.EndsIn` — the way of a path is that of a directory with a name behind it.
* `Path.endsIn_parent`, `Path.endsIn_withExtension` — a path and the one with another extension end
  in names behind the parent.
* `FileTree.LeadsTo.names_of_replace` — a path behind a directory that a file was written to names a
  file of the directory.
-/

namespace PropertySets

/-! ## Pieces of a text -/

namespace Text

theorem splitAt_eq_splitOn (separator : Char) (s : List Char) :
    splitAt separator s = s.splitOn separator := by
  induction s with
  | nil => rfl
  | cons c cs ih =>
    rw [List.splitOn] at ih
    rw [splitAt, ih, List.splitOn, List.splitOnP_cons_eq_if_modifyHead]
    by_cases hHere : c = separator
    · rw [if_pos hHere, if_pos (beq_iff_eq.2 hHere)]
    · rw [if_neg hHere, if_neg (by simpa using hHere)]
      obtain ⟨piece, pieces, hPieces⟩ := List.exists_cons_of_ne_nil
        (List.splitOnP_ne_nil (· == separator) cs)
      rw [hPieces]
      rfl

/-- Each piece has a separator behind it, and then comes what is left. -/
theorem splitAt_flatten_append {separator : Char} {pieces : List (List Char)}
    (hFree : ∀ piece ∈ pieces, separator ∉ piece) (rest : List Char) :
    splitAt separator ((pieces.map (· ++ [separator])).flatten ++ rest) =
      pieces ++ splitAt separator rest := by
  induction pieces with
  | nil => rfl
  | cons piece others ih =>
    rw [List.forall_mem_cons] at hFree
    rw [List.map_cons, List.flatten_cons, List.append_assoc, List.append_assoc,
      List.singleton_append, splitAt_append_cons, splitAt_of_notMem hFree.1, ih hFree.2]
    rfl

/-- A text around one of its pieces. -/
theorem eq_of_splitAt {separator : Char} {s piece : List Char} {front back : List (List Char)}
    (hPieces : splitAt separator s = front ++ piece :: back) :
    s = (front.map (· ++ [separator])).flatten ++
      (piece ++ (back.map (separator :: ·)).flatten) := by
  -- the text is its pieces with separators in between
  have hWhole : [separator].intercalate (s.splitOn separator) = s :=
    List.intercalate_splitOn separator
  rw [← splitAt_eq_splitOn, hPieces] at hWhole
  rw [← hWhole]
  clear hWhole hPieces
  -- the pieces in front carry their separator behind them, those behind carry it in front
  induction front with
  | nil =>
    induction back generalizing piece with
    | nil => simp
    | cons next others ih =>
      have hRest : List.intercalate [separator] (next :: others) = _ := ih
      rw [List.nil_append, List.intercalate_cons_cons, hRest]
      simp
  | cons first others ih =>
    obtain ⟨next, more, hMore⟩ := List.exists_cons_of_ne_nil
      (show others ++ piece :: back ≠ [] by simp)
    rw [hMore] at ih
    rw [List.cons_append, hMore, List.intercalate_cons_cons, ih]
    simp

end Text

namespace Path

open FileTree

/-! ## The segments around a name -/

/-- Behind the name of a path are fillers. -/
theorem exists_segments {p : Path} {name : String} {before : List String}
    (hSignificant : p.significant = name :: before) :
    ∃ fillers, p.segments = before.reverse ++ name :: fillers ∧ ∀ s ∈ fillers, isFiller s := by
  refine ⟨(p.segments.reverse.takeWhile isFiller).reverse, ?_, fun s hMem => ?_⟩
  · have hAll := List.takeWhile_append_dropWhile (p := isFiller) (l := p.segments.reverse)
    rw [← significant, hSignificant] at hAll
    have hReversed := congrArg List.reverse hAll
    rw [List.reverse_reverse, List.reverse_append, List.reverse_cons, List.append_assoc]
      at hReversed
    exact hReversed.symm
  · exact List.mem_takeWhile_imp (List.mem_reverse.1 hMem)

theorem significant_of_segments {p : Path} {name : String} {before fillers : List String}
    (hSegments : p.segments = before.reverse ++ name :: fillers)
    (hName : isFiller name = false) (hFillers : ∀ s ∈ fillers, isFiller s) :
    p.significant = name :: before := by
  rw [significant, hSegments, List.reverse_append, List.reverse_cons, List.append_assoc,
    List.reverse_reverse, List.dropWhile_append_of_pos fun s hMem =>
      hFillers s (List.mem_reverse.1 hMem)]
  rw [List.singleton_append, List.dropWhile_cons_of_neg (by simp [hName])]

theorem ne_of_not_filler {name : String} (hName : isFiller name = false) :
    name ≠ "" ∧ name ≠ "." := by
  simpa [isFiller] using hName

/-- A path is absolute if nothing stands before its first slash. -/
theorem isAbsolute_iff {p : Path} {name : String} {front back : List String}
    (hSegments : p.segments = front ++ name :: back) (hName : name ≠ "") :
    p.isAbsolute = true ↔ front.head? = some "" := by
  rw [segments] at hSegments
  rw [isAbsolute]
  cases hText : p.text.toList with
  | nil =>
    -- the only segment of the empty path is empty
    exfalso
    rw [hText, Text.splitAt] at hSegments
    cases front with
    | nil => exact hName (List.cons.inj hSegments).1.symm
    | cons first others => simp at hSegments
  | cons c cs =>
    obtain ⟨piece, pieces, hPieces⟩ := List.exists_cons_of_ne_nil (Text.splitAt_ne_nil '/' cs)
    rw [hText, Text.splitAt, hPieces] at hSegments
    by_cases hSlash : c = '/'
    · subst hSlash
      rw [if_pos rfl] at hSegments
      cases front with
      | nil => exact absurd (List.cons.inj hSegments).1.symm hName
      | cons first others =>
        obtain ⟨rfl, -⟩ := List.cons.inj hSegments
        simp
    · rw [if_neg hSlash] at hSegments
      cases front with
      | nil => simp [hSlash]
      | cons first others =>
        obtain ⟨rfl, -⟩ := List.cons.inj hSegments
        simp [hSlash, String.ofList_eq_empty_iff]

theorem filter_fillers {fillers : List String} (hFillers : ∀ s ∈ fillers, isFiller s) :
    ∃ n, fillers.filter (· ≠ "") = List.replicate n "." := by
  refine ⟨_, List.eq_replicate_iff.2 ⟨rfl, fun s hMem => ?_⟩⟩
  obtain ⟨hListed, hNamed⟩ := List.mem_filter.1 hMem
  have hFiller := hFillers s hListed
  simp only [isFiller, Bool.or_eq_true, beq_iff_eq] at hFiller
  exact hFiller.resolve_left (by simpa using hNamed)

/-! ## Names behind a directory -/

/-- The way of a path is the way of `dir`, and `name` behind it; between them and behind the name
stand only dots. -/
structure EndsIn (p dir : Path) (name : String) : Prop where
  absolute : p.isAbsolute = dir.isAbsolute
  route : ∃ before after, route p =
    route dir ++ (List.replicate before "." ++ name :: List.replicate after ".")

theorem unslashed_of_mem_segments {p : Path} {s : String} (hMem : s ∈ p.segments) :
    '/' ∉ s.toList := by
  obtain ⟨piece, hPiece, rfl⟩ := List.mem_map.1 hMem
  rw [String.toList_ofList]
  exact Text.notMem_of_mem_splitAt hPiece

/-- A path that is spelled from segments has these segments. -/
theorem segments_intercalate {spelled : List String} (hFree : ∀ s ∈ spelled, '/' ∉ s.toList)
    (hSome : spelled ≠ []) : segments ⟨"/".intercalate spelled⟩ = spelled := by
  have hPieces : (['/'].intercalate (spelled.map String.toList)).splitOn '/' =
      spelled.map String.toList := by
    refine List.splitOn_intercalate '/' (fun piece hMem => ?_) (by simpa using hSome)
    obtain ⟨s, hSpelled, rfl⟩ := List.mem_map.1 hMem
    exact hFree s hSpelled
  rw [segments, String.toList_intercalate, Text.splitAt_eq_splitOn]
  show List.map _ (List.splitOn '/' (['/'].intercalate _)) = _
  rw [hPieces, List.map_map]
  simp [Function.comp_def]

/-- The spelling of a parent has the segments that it is made from. -/
theorem segments_parent {p : Path} {name last : String} {before others : List String}
    (hSignificant : p.significant = name :: before)
    (hRest : before.dropWhile isFiller = last :: others) :
    segments ⟨"/".intercalate (last :: others).reverse⟩ = others.reverse ++ [last] := by
  rw [← List.reverse_cons]
  refine segments_intercalate (fun s hMem => unslashed_of_mem_segments (p := p) ?_) (by simp)
  obtain ⟨fillers, hSegments, -⟩ := exists_segments hSignificant
  have hBefore : s ∈ before :=
    (List.dropWhile_sublist isFiller).subset (hRest ▸ List.mem_reverse.1 hMem)
  rw [hSegments]
  exact List.mem_append_left _ (List.mem_reverse.2 hBefore)

/-- The fillers right before a name are dots in a way. -/
theorem exists_dots_between (before : List String) :
    ∃ dots, (before.takeWhile isFiller).reverse.filter (· ≠ "") = List.replicate dots "." :=
  filter_fillers fun _ hMem => List.mem_takeWhile_imp (List.mem_reverse.1 hMem)

/-- Where nothing else stands before the name, the parent tells where the path starts. -/
theorem parent?_of_fillers {p dir : Path} {name : String} {before : List String}
    (hSignificant : p.significant = name :: before) (hRest : before.dropWhile isFiller = [])
    (hParent : p.parent? = some dir) :
    dir.isAbsolute = p.isAbsolute ∧
      ∃ dots, before.reverse.filter (· ≠ "") = FileTree.route dir ++ List.replicate dots "." := by
  obtain ⟨fillers, hSegments, -⟩ := exists_segments hSignificant
  obtain ⟨dots, hDots⟩ := exists_dots_between before
  have hSplit := List.takeWhile_append_dropWhile (p := isFiller) (l := before)
  rw [hRest, List.append_nil] at hSplit
  rw [hSplit] at hDots
  rw [parent?, hSignificant] at hParent
  simp only [hRest] at hParent
  split at hParent
  · rename_i hRoot
    cases hParent
    exact ⟨hRoot.symm, dots, hDots⟩
  rename_i hRelative
  rw [Bool.not_eq_true] at hRelative
  split at hParent
  · rename_i hDot
    cases hParent
    refine ⟨hRelative.symm, ?_⟩
    -- the first of the fillers is a dot, which the parent keeps
    simp only [Bool.and_eq_true, beq_iff_eq, Bool.not_eq_true', List.isEmpty_eq_false_iff] at hDot
    obtain ⟨first, others, hBefore⟩ := List.exists_cons_of_ne_nil (List.reverse_ne_nil_iff.2 hDot.2)
    rw [hSegments, hBefore] at hDot
    obtain rfl : first = "." := Option.some.inj hDot.1
    rw [hBefore, List.filter_cons_of_pos (by decide)] at hDots ⊢
    cases dots with
    | zero => cases hDots
    | succ others => exact ⟨others, hDots⟩
  · cases hParent
    exact ⟨hRelative.symm, dots, hDots⟩

/-- Where something stands before the name, the parent has the segments up to it. -/
theorem parent?_of_segment {p dir : Path} {name last : String} {before others : List String}
    (hSignificant : p.significant = name :: before)
    (hRest : before.dropWhile isFiller = last :: others) (hParent : p.parent? = some dir) :
    dir.isAbsolute = p.isAbsolute ∧
      ∃ dots, before.reverse.filter (· ≠ "") = FileTree.route dir ++ List.replicate dots "." := by
  obtain ⟨fillers, hSegments, -⟩ := exists_segments hSignificant
  have hAbsolute :=
    isAbsolute_iff hSegments (ne_of_not_filler (isFiller_of_significant hSignificant)).1
  obtain ⟨dots, hDots⟩ := exists_dots_between before
  rw [parent?, hSignificant] at hParent
  simp only [hRest] at hParent
  obtain rfl := Option.some.inj hParent
  have hLast : isFiller last = false := by
    have hHead := List.head?_dropWhile_not isFiller before
    rw [hRest] at hHead
    simpa using hHead
  have hBefore : before.reverse =
      others.reverse ++ [last] ++ (before.takeWhile isFiller).reverse := by
    rw [← List.reverse_cons, ← List.reverse_append, ← hRest, List.takeWhile_append_dropWhile]
  have hSpelled := segments_parent hSignificant hRest
  refine ⟨?_, dots, by rw [hBefore, List.filter_append, hDots, route, hSpelled]⟩
  -- the segment that the parent ends in is not empty, so both start alike
  rw [Bool.eq_iff_iff, hAbsolute, isAbsolute_iff hSpelled (ne_of_not_filler hLast).1, hBefore]
  cases others.reverse with
  | nil => simp [(ne_of_not_filler hLast).1]
  | cons first more => simp

/-- What the parent of a path is: it has the segments before the name, without the fillers between
them. -/
theorem parent?_spec {p dir : Path} {name : String} {before : List String}
    (hSignificant : p.significant = name :: before) (hParent : p.parent? = some dir) :
    dir.isAbsolute = p.isAbsolute ∧
      ∃ dots, before.reverse.filter (· ≠ "") = FileTree.route dir ++ List.replicate dots "." := by
  cases hRest : before.dropWhile isFiller with
  | nil => exact parent?_of_fillers hSignificant hRest hParent
  | cons last others => exact parent?_of_segment hSignificant hRest hParent

/-- A path with other segments from the name on ends in a name behind the same parent. -/
theorem endsIn_of_segments {p q dir : Path} {name name' : String} {before fillers : List String}
    (hSignificant : p.significant = name :: before) (hParent : p.parent? = some dir)
    (hSegments : q.segments = before.reverse ++ name' :: fillers) (hName : name' ≠ "")
    (hFillers : ∀ s ∈ fillers, isFiller s) : q.EndsIn dir name' := by
  obtain ⟨hAbsolute, between, hBefore⟩ := parent?_spec hSignificant hParent
  obtain ⟨behind, hBehind⟩ := filter_fillers hFillers
  obtain ⟨fillers', hSegments', -⟩ := exists_segments hSignificant
  have hOld := isFiller_of_significant hSignificant
  constructor
  · rw [hAbsolute, Bool.eq_iff_iff, isAbsolute_iff hSegments hName,
      isAbsolute_iff hSegments' (ne_of_not_filler hOld).1]
  · refine ⟨between, behind, ?_⟩
    rw [route, hSegments, List.filter_append, hBefore,
      List.filter_cons_of_pos (by simpa using hName), hBehind, List.append_assoc]

/-- A file name is no filler and does not lead upwards. -/
theorem plain_of_fileName? {p : Path} {name : String} (hName : p.fileName? = some name) :
    isFiller name = false ∧ name ≠ ".." := by
  obtain ⟨before, hSignificant⟩ := exists_significant hName
  refine ⟨isFiller_of_significant hSignificant, ?_⟩
  rintro rfl
  rw [fileName?, hSignificant] at hName
  simp at hName

/-- A path ends in its file name, behind its parent. -/
theorem endsIn_parent {p dir : Path} {name : String} (hName : p.fileName? = some name)
    (hParent : p.parent? = some dir) : p.EndsIn dir name := by
  obtain ⟨before, hSignificant⟩ := exists_significant hName
  obtain ⟨fillers, hSegments, hFillers⟩ := exists_segments hSignificant
  have hNamed := isFiller_of_significant hSignificant
  exact endsIn_of_segments hSignificant hParent hSegments (ne_of_not_filler hNamed).1 hFillers

/-! ## Other extensions -/

theorem toList_of_isFiller {s : String} (hFiller : isFiller s) :
    s.toList = [] ∨ s.toList = ['.'] := by
  simp only [isFiller, Bool.or_eq_true, beq_iff_eq] at hFiller
  rcases hFiller with rfl | rfl
  · exact .inl rfl
  · exact .inr rfl

theorem isFiller_of_length {cs : List Char} (hLength : 2 ≤ cs.length) :
    isFiller (String.ofList cs) = false := by
  rw [← Bool.not_eq_true]
  intro hFiller
  have hShort := toList_of_isFiller hFiller
  rw [String.toList_ofList] at hShort
  rcases hShort with rfl | rfl
  · exact absurd hLength (by decide)
  · exact absurd hLength (by decide)

/-- The spelling of the segments behind a name. -/
def spellBehind (fillers : List String) : List Char :=
  ((fillers.map String.toList).map ('/' :: ·)).flatten

/-- A cut through a name with fillers behind it leaves a start of the name, and fillers. -/
theorem splitAt_take_fillers {name : List Char} {fillers : List String} (hFree : '/' ∉ name)
    (hFillers : ∀ s ∈ fillers, isFiller s) (n : Nat) :
    ∃ left, (Text.splitAt '/' ((name ++ spellBehind fillers).take n)).map String.ofList =
        String.ofList (name.take n) :: left ∧ ∀ s ∈ left, isFiller s := by
  induction fillers generalizing name n with
  | nil =>
    refine ⟨[], ?_, nofun⟩
    show (Text.splitAt '/' ((name ++ []).take n)).map String.ofList = _
    rw [List.append_nil, Text.splitAt_of_notMem fun hMem => hFree (List.mem_of_mem_take hMem)]
    rfl
  | cons filler others ih =>
    by_cases hShort : n ≤ name.length
    · refine ⟨[], ?_, nofun⟩
      rw [List.take_append_of_le_length hShort,
        Text.splitAt_of_notMem fun hMem => hFree (List.mem_of_mem_take hMem)]
      rfl
    · -- the cut comes behind the name and the slash, in the filler or further on
      obtain ⟨k, rfl⟩ := Nat.exists_eq_add_of_lt (Nat.not_le.1 hShort)
      rw [List.forall_mem_cons] at hFillers
      have hFiller := toList_of_isFiller hFillers.1
      have hUnslashed : '/' ∉ filler.toList := by
        rcases hFiller with hFiller | hFiller
        · simp [hFiller]
        · simp [hFiller]
      obtain ⟨left, hLeft, hAll⟩ := ih hUnslashed hFillers.2 k
      refine ⟨String.ofList (filler.toList.take k) :: left, ?_, List.forall_mem_cons.2 ⟨?_, hAll⟩⟩
      · have hTake : name.take (name.length + k + 1) = name := List.take_of_length_le (by omega)
        have hBehind : name.length + k + 1 - name.length = k + 1 := by omega
        have hSpell : spellBehind (filler :: others) =
            '/' :: (filler.toList ++ spellBehind others) := rfl
        rw [List.take_append, hTake, hBehind, hSpell, List.take_succ_cons,
          Text.splitAt_append_cons, Text.splitAt_of_notMem hFree, List.map_append, hLeft]
        rfl
      · rcases hFiller with hFiller | hFiller
        · rw [hFiller, List.take_nil]
          rfl
        · cases k with
          | zero => rfl
          | succ k =>
            rw [hFiller, List.take_succ_cons, List.take_nil]
            rfl

/-- An extension leaves the dot before it and at least one more character of the name. -/
theorem length_extension (name : String) :
    ((splitName name).2.getD "").length = 0 ∨
      ((splitName name).2.getD "").length + 2 ≤ name.toList.length := by
  cases hSplit : (splitName name).2 with
  | none => exact .inl rfl
  | some extension =>
    right
    obtain ⟨hSame, hStem, -⟩ := eq_of_splitName_some hSplit
    have hPositive := List.length_pos_iff.2 fun hNil => hStem (String.toList_eq_nil_iff.1 hNil)
    have hLength := congrArg String.length hSame
    rw [String.length_append, String.length_append, show ".".length = 1 by decide] at hLength
    rw [String.length_toList] at hPositive
    rw [Option.getD_some, String.length_toList]
    omega

/-- The path with as much cut off its end as its extension is long. -/
def cutEnd (p : Path) : Path :=
  ⟨String.ofList (p.text.toList.reverse.drop ((p.extension?).getD "").length).reverse⟩

theorem unslashed_of_mem_before {p : Path} {name : String} {before : List String}
    (hSignificant : p.significant = name :: before) :
    ∀ piece ∈ before.reverse.map String.toList, '/' ∉ piece := by
  intro piece hMem
  obtain ⟨s, hListed, rfl⟩ := List.mem_map.1 hMem
  obtain ⟨fillers, hSegments, -⟩ := exists_segments hSignificant
  exact unslashed_of_mem_segments (p := p) (hSegments ▸ List.mem_append_left _ hListed)

/-- A path around its name. -/
theorem toList_text {p : Path} {name : String} {before fillers : List String}
    (hSegments : p.segments = before.reverse ++ name :: fillers) :
    p.text.toList = ((before.reverse.map String.toList).map (· ++ ['/'])).flatten ++
      (name.toList ++ spellBehind fillers) := by
  refine Text.eq_of_splitAt ?_
  have hPieces := congrArg (List.map String.toList) hSegments
  rw [segments, List.map_map, List.map_append, List.map_cons] at hPieces
  simpa [Function.comp_def] using hPieces

/-- A path of which the end is cut off still has a name, in the same place. -/
theorem exists_segments_cutEnd {p : Path} {name : String} {before : List String}
    (hName : p.fileName? = some name) (hSignificant : p.significant = name :: before) :
    ∃ name' fillers, p.cutEnd.segments = before.reverse ++ name' :: fillers ∧
      isFiller name' = false ∧ ∀ s ∈ fillers, isFiller s := by
  obtain ⟨fillers, hSegments, hFillers⟩ := exists_segments hSignificant
  have hExtension : p.extension? = (splitName name).2 := by
    rw [extension?, hName]
    rfl
  have hCut := length_extension name
  rw [cutEnd, segments, hExtension, String.toList_ofList, List.reverse_drop, List.reverse_reverse,
    List.length_reverse, toList_text hSegments]
  generalize ((splitName name).2.getD "").length = cut at hCut ⊢
  -- the cut does not reach further than the name
  obtain ⟨n, hLeft⟩ : ∃ n, (name.toList ++ spellBehind fillers).length = n + cut := by
    refine ⟨(name.toList ++ spellBehind fillers).length - cut, (Nat.sub_add_cancel ?_).symm⟩
    rw [List.length_append]
    omega
  obtain ⟨left, hPieces, hAll⟩ := splitAt_take_fillers (fileName?_spec hName).2 hFillers n
  refine ⟨String.ofList (name.toList.take n), left, ?_, ?_, hAll⟩
  · rw [List.length_append, hLeft, ← Nat.add_assoc, Nat.add_sub_cancel,
      List.take_length_add_append,
      Text.splitAt_flatten_append (unslashed_of_mem_before hSignificant), List.map_append, hPieces,
      List.map_map]
    simp [Function.comp_def]
  · rw [List.length_append] at hLeft
    rcases hCut with rfl | hCut
    · rw [List.take_of_length_le (by omega), String.ofList_toList]
      exact isFiller_of_significant hSignificant
    · refine isFiller_of_length ?_
      rw [List.length_take]
      omega

/-- With an extension put behind its stem a name stays behind the same parent. -/
theorem endsIn_putExtension {p q dir : Path} {name name' extension : String}
    {before fillers : List String} (hSignificant : p.significant = name :: before)
    (hParent : p.parent? = some dir) (hSegments : q.segments = before.reverse ++ name' :: fillers)
    (hNamed : isFiller name' = false) (hUp : name' ≠ "..") (hFillers : ∀ s ∈ fillers, isFiller s)
    (hExtension : '/' ∉ extension.toList) :
    (q.putExtension extension).EndsIn dir ((splitName name').1 ++ "." ++ extension) ∧
      isFiller ((splitName name').1 ++ "." ++ extension) = false := by
  have hLast := significant_of_segments hSegments hNamed hFillers
  -- the last significant segment gives the stem
  have hStem : q.stem? = some (splitName name').1 := by
    rw [stem?, fileName?, hLast]
    simp only [if_neg hUp]
    rfl
  obtain ⟨hSome, hUnslashed⟩ := stem?_spec hStem
  have hList : ((splitName name').1 ++ "." ++ extension).toList =
      (splitName name').1.toList ++ '.' :: extension.toList := by simp
  have hFree : '/' ∉ ((splitName name').1 ++ "." ++ extension).toList := by
    rw [hList]
    simp [hUnslashed, hExtension]
  -- the new name is longer than a dot, and without slashes, so it is one plain segment
  have hNew : isFiller ((splitName name').1 ++ "." ++ extension) = false := by
    rw [← String.ofList_toList (s := (splitName name').1 ++ "." ++ extension), hList]
    refine isFiller_of_length ?_
    have hPositive := List.length_pos_iff.2 fun hNil => hSome (String.toList_eq_nil_iff.1 hNil)
    rw [List.length_append, List.length_cons]
    omega
  have hText : (String.join (before.reverse.map (· ++ "/")) ++ (splitName name').1 ++ "." ++
      extension).toList = ((before.reverse.map String.toList).map (· ++ ['/'])).flatten ++
        ((splitName name').1 ++ "." ++ extension).toList := by
    simp [String.toList_join, List.flatMap_def, Function.comp_def]
  -- the text is put together anew from the segments in front
  have hNewSegments : segments ⟨String.join (before.reverse.map (· ++ "/")) ++
      (splitName name').1 ++ "." ++ extension⟩ =
      before.reverse ++ [(splitName name').1 ++ "." ++ extension] := by
    rw [segments, hText, Text.splitAt_flatten_append (unslashed_of_mem_before hSignificant),
      Text.splitAt_of_notMem hFree, List.map_append, List.map_map, List.map_singleton,
      String.ofList_toList]
    simp [Function.comp_def]
  refine ⟨?_, hNew⟩
  rw [putExtension, hLast]
  simp only [if_neg hUp]
  exact endsIn_of_segments hSignificant hParent hNewSegments (ne_of_not_filler hNew).1
    (List.forall_mem_nil _)

/-- With another extension a path ends in a name behind the same parent. Of a path that starts with
two dots this name can be the two dots. -/
theorem endsIn_withExtension {p dir : Path} {name extension : String}
    (hName : p.fileName? = some name) (hParent : p.parent? = some dir)
    (hExtension : '/' ∉ extension.toList) :
    ∃ name', (p.withExtension extension).EndsIn dir name' ∧ isFiller name' = false := by
  obtain ⟨before, hSignificant⟩ := exists_significant hName
  obtain ⟨name', fillers, hSegments, hNamed, hFillers⟩ :=
    exists_segments_cutEnd hName hSignificant
  show ∃ name', (p.cutEnd.putExtension extension).EndsIn dir name' ∧ _
  by_cases hUp : name' = ".."
  · rw [putExtension, significant_of_segments hSegments hNamed hFillers]
    simp only [if_pos hUp]
    exact ⟨name', endsIn_of_segments hSignificant hParent hSegments (ne_of_not_filler hNamed).1
      hFillers, hNamed⟩
  · exact ⟨_, endsIn_putExtension hSignificant hParent hSegments hNamed hUp hFillers hExtension⟩

end Path

/-! ## Files beside each other -/

namespace FileTree

variable {t t' : FileTree} {p dir : Path} {d here : Location} {name : String} {last : LastName}
  {links : Nat} {slash : Bool}

theorem walk_dots (n : Nat) (rest : List String) :
    t.walk last links slash here (List.replicate n "." ++ rest) =
      t.walk last links slash here rest := by
  induction n with
  | zero => rfl
  | succ n ih =>
    rw [List.replicate_succ, List.cons_append, walk_dot, ih]

/-- A flat directory holds no way further down: what a walk makes or finds there is all that is left
of the path. -/
theorem isEntryName_of_walk {rest : List String} {spot : Spot} (hFlat : t.FlatDirectory d)
    (hDot : name ≠ ".") (hUp : name ≠ "..")
    (hWalk : t.walk last links slash d (name :: rest) = .ok spot)
    (hUsed : last = .created ∨ last = .followed ∧ ∃ l, spot = .occupied l) :
    IsEntryName name ∧ rest = [] ∧ slash = false := by
  cases walk_eq_ok_iff.1 hWalk with
  | dot => exact absurd rfl hDot
  | up => exact absurd rfl hUp
  | free hFollow _ =>
    rcases hUsed with rfl | ⟨-, l, hSpot⟩
    · exact ⟨hFollow.toIsEntryName, rfl, hFollow.slash_eq_false⟩
    · cases hSpot
  | file hFollow _ hAsked =>
    refine ⟨hFollow.toIsEntryName, rfl, ?_⟩
    rcases hUsed with rfl | ⟨rfl, -⟩
    · simpa using hAsked
    · simpa using hAsked
  | directory _ hOther | link _ hOther | followed _ hOther =>
    -- a flat directory holds files only
    obtain ⟨serial, content, hFile⟩ := hFlat.files name _ hOther
    cases hFile

namespace LeadsTo

/-- The way of a path that ends in a name behind `dir` comes to the directory and then to the
name. -/
theorem walk_endsIn (hLeads : t.LeadsTo dir d) (hDirectory : t.node? d = some .directory)
    (hEnds : p.EndsIn dir name) :
    ∃ left after, ∀ t', SameFrame t t' → ∀ last slash,
      t'.walk last linkLimit slash (t'.startOf p) (route p) =
        t'.walk last left slash d (name :: List.replicate after ".") := by
  obtain ⟨before, after, hRoute⟩ := hEnds.route
  obtain ⟨left, hLeft⟩ := walk_append hDirectory hLeads
  have hStart : t.startOf p = t.startOf dir := by
    rw [startOf, startOf, hEnds.absolute]
  refine ⟨left, after, fun t' hFrame last slash => ?_⟩
  rw [hFrame.startOf, hStart, hRoute, hLeft t' hFrame last slash _ (by simp), walk_dots]

/-- If a file can be made at a path that ends in a name behind `dir`, or something is found there,
then nothing but the name is behind the directory. -/
theorem names_of_resolve (hLeads : t.LeadsTo dir d) (hDirectory : t.node? d = some .directory)
    (hEnds : p.EndsIn dir name) (hNamed : Path.isFiller name = false) (hUp : name ≠ "..")
    (hFrame : SameFrame t t') (hFlat : t'.FlatDirectory d) {spot : Spot}
    (hResolve : t'.resolve last p = .ok spot)
    (hUsed : last = .created ∨ last = .followed ∧ ∃ l, spot = .occupied l) : t.Names p d name := by
  have hFollow := resolve_eq_walk hResolve
  obtain ⟨left, after, hWalk⟩ := hLeads.walk_endsIn hDirectory hEnds
  have hDot := (Path.ne_of_not_filler hNamed).2
  rw [hFollow, hWalk t' hFrame] at hResolve
  obtain ⟨hName, hNone, hSlash⟩ := isEntryName_of_walk hFlat hDot hUp hResolve hUsed
  refine ⟨hSlash, fun t'' hFrame' hFlat' last' => ?_⟩
  rw [hFollow, hWalk t'' hFrame', hSlash, hNone]
  exact walk_flat hFlat' hName

/-- A file that was written to a path behind a directory is a file of the directory. -/
theorem names_of_replace (hLeads : t.LeadsTo dir d) (hDirectory : t.node? d = some .directory)
    (hEnds : p.EndsIn dir name) (hNamed : Path.isFiller name = false) (hUp : name ≠ "..")
    (hFrame : SameFrame t t') (hFlat : t'.FlatDirectory d) {content : ByteArray} {t'' : FileTree}
    (hReplace : (Disk.replace p content : StateM FileTree _) t' = (.ok (), t'')) :
    t.Names p d name := by
  obtain ⟨t₁, handle, t₂, hClear, hCreate, -⟩ := exists_of_replace hReplace
  cases hPresent : t'.present p with
  | true =>
    -- the file that was there before is found
    cases hTarget : t'.target p with
    | error e =>
      rw [present, hTarget] at hPresent
      cases hPresent
    | ok found =>
      obtain ⟨hResolve, -⟩ := target_eq_ok_iff.1 hTarget
      exact hLeads.names_of_resolve hDirectory hEnds hNamed hUp hFrame hFlat hResolve
        (.inr ⟨rfl, _, rfl⟩)
  | false =>
    obtain ⟨d', name', hVacant, -⟩ := exists_vacant_of_create hClear hCreate
    rw [clear_apply, hPresent] at hClear
    obtain rfl : t' = t₁ := congrArg Prod.snd hClear
    exact hLeads.names_of_resolve hDirectory hEnds hNamed hUp hFrame hFlat hVacant (.inl rfl)

/-- Two dots behind a directory lead out of it. -/
theorem spot_of_up (hLeads : t.LeadsTo dir d) (hDirectory : t.node? d = some .directory)
    (hEnds : p.EndsIn dir "..") {spot : Spot} (hResolve : t.resolve last p = .ok spot) :
    spot = .occupied d.dropLast := by
  obtain ⟨left, after, hWalk⟩ := hLeads.walk_endsIn hDirectory hEnds
  have hDots : t.walk last left (endsInSlash p) d.dropLast (List.replicate after ".") =
      .ok (.occupied d.dropLast) := by
    rw [← List.append_nil (List.replicate after "."), walk_dots, walk_nil]
  rw [resolve_eq_walk hResolve, hWalk t (.refl t), walk_up, hDots] at hResolve
  exact (Except.ok.inj hResolve).symm

/-- There is a directory, so no file can be written there. -/
theorem replace_ne_ok_of_up (hLeads : t.LeadsTo dir d) (hDirectory : t.node? d = some .directory)
    (hAbove : t.node? d.dropLast = some .directory) (hEnds : p.EndsIn dir "..")
    (content : ByteArray) : (Disk.replace p content : StateM FileTree _) t ≠ (.ok (), t') := by
  intro hReplace
  obtain ⟨t₁, handle, t₂, hClear, hCreate, -⟩ := exists_of_replace hReplace
  rcases exists_erased_of_clear hClear with ⟨rfl, -⟩ | ⟨l, hEntry, -, hResolve⟩
  · obtain ⟨d', name', hVacant, -⟩ := exists_vacant_of_create hClear hCreate
    cases hLeads.spot_of_up hDirectory hEnds hVacant
  · cases hLeads.spot_of_up hDirectory hEnds hResolve
    exact hEntry hAbove

end LeadsTo

end FileTree

end PropertySets
