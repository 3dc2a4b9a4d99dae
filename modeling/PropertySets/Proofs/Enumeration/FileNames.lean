import Mathlib.Data.List.TakeWhile
import PropertySets.Enumeration.Reconciler
import PropertySets.Proofs.Disk.Resolution

/-!
# The names of enumeration files

The file of a tag is named after the stem of the output path and the tag. A tag is free text, so it
can hold slashes and the name can turn into several segments. The first of them still names an
entry of the directory unless the stem is a dot or two: then a tag that starts with a slash leaves
nothing but the dots before it.

* `Path.stem?_spec`, `Path.stem?_join` — a stem is not empty and holds no slash, and a joined path
  has the stem of its second part.
* `Reconciler.fileName`, `Reconciler.TagSafe` — the name of a tag's file, and the tags that the stem
  can stand before.
* `Reconciler.exists_headedBy` — such a name starts with a segment that can name an entry.
* `Reconciler.fileName_injective`, `Reconciler.fileName_ne_of_beside` — different tags have
  different names, and none is that of the output.
-/

namespace PropertySets

/-! ## Stems -/

namespace Text

theorem notMem_of_mem_splitAt {separator : Char} {s piece : List Char}
    (hPiece : piece ∈ splitAt separator s) : separator ∉ piece := by
  induction s generalizing piece with
  | nil =>
    obtain rfl : piece = [] := by simpa [splitAt] using hPiece
    exact List.not_mem_nil
  | cons c cs ih =>
    rw [splitAt] at hPiece
    -- a separator ends a piece; any other character is put in front of the first one
    split at hPiece
    · rcases List.mem_cons.1 hPiece with rfl | hLater
      · exact List.not_mem_nil
      · exact ih hLater
    · rename_i hOther
      obtain ⟨first, pieces, hPieces⟩ := List.exists_cons_of_ne_nil (splitAt_ne_nil separator cs)
      rw [hPieces] at hPiece ih
      rcases List.mem_cons.1 hPiece with rfl | hLater
      · rw [List.mem_cons, not_or]
        exact ⟨Ne.symm hOther, ih (List.mem_cons_self)⟩
      · exact ih (List.mem_cons_of_mem _ hLater)

end Text

namespace Path

open FileTree

theorem exists_significant {p : Path} {name : String} (hName : p.fileName? = some name) :
    ∃ before, p.significant = name :: before := by
  rw [fileName?] at hName
  split at hName
  · cases hName
  · rename_i other before hSignificant
    split at hName
    · cases hName
    · obtain rfl := Option.some.inj hName
      exact ⟨before, hSignificant⟩

/-- A filler is never first among the significant segments. -/
theorem isFiller_of_significant {p : Path} {name : String} {before : List String}
    (hSignificant : p.significant = name :: before) : isFiller name = false := by
  have hHead := List.head?_dropWhile_not isFiller p.segments.reverse
  rw [← significant, hSignificant] at hHead
  simpa using hHead

theorem fileName?_spec {p : Path} {name : String} (hName : p.fileName? = some name) :
    name ≠ "" ∧ '/' ∉ name.toList := by
  obtain ⟨before, hSignificant⟩ := exists_significant hName
  constructor
  · rintro rfl
    exact absurd (isFiller_of_significant hSignificant) (by decide)
  · have hMember : name ∈ p.segments.reverse :=
      (List.dropWhile_sublist isFiller).subset
        (show name ∈ p.significant from hSignificant ▸ List.mem_cons_self)
    obtain ⟨piece, hPiece, rfl⟩ := List.mem_map.1 (List.mem_reverse.1 hMember)
    rw [String.toList_ofList]
    exact Text.notMem_of_mem_splitAt hPiece

/-- The last segment of a path ends as the text does. -/
theorem exists_segments_of_text {p : Path} {before ending : String}
    (hText : p.text = before ++ ending) (hFree : '/' ∉ ending.toList) :
    ∃ front piece, p.segments = front ++ [piece ++ ending] := by
  obtain ⟨front, piece, hPieces⟩ := Text.exists_splitAt_append hFree before.toList
  refine ⟨front.map String.ofList, String.ofList piece, ?_⟩
  rw [segments, hText, String.toList_append, hPieces, List.map_append, List.map_singleton,
    String.ofList_append, String.ofList_toList]

/-- Behind its last dot a name has its extension. -/
theorem splitName_of_dot {stem extension : String} (hStem : stem ≠ "")
    (hFree : '.' ∉ extension.toList) :
    splitName (stem ++ "." ++ extension) = (stem, some extension) := by
  -- the name is searched from its end, where no dot comes before that of the extension
  have hBack : (stem ++ "." ++ extension).toList.reverse =
      extension.toList.reverse ++ '.' :: stem.toList.reverse := by simp
  have hExtension : ∀ c ∈ extension.toList.reverse, decide (c ≠ '.') = true := by
    intro c hMem
    simp only [ne_eq, decide_not, Bool.not_eq_true', decide_eq_false_iff_not]
    rintro rfl
    exact hFree (List.mem_reverse.1 hMem)
  obtain ⟨c, cs, hChars⟩ := List.exists_cons_of_ne_nil
    (List.reverse_ne_nil_iff.2 fun hNil => hStem (String.toList_eq_nil_iff.1 hNil))
  rw [splitName, hBack, List.dropWhile_append_of_pos hExtension, hChars,
    List.takeWhile_append_of_pos hExtension]
  simp only [ne_eq, not_true_eq_false, decide_false, Bool.false_eq_true, not_false_eq_true,
    List.dropWhile_cons_of_neg, List.takeWhile_cons_of_neg, List.append_nil, List.reverse_reverse,
    String.ofList_toList]
  rw [← hChars, List.reverse_reverse, String.ofList_toList]

/-- Without an extension a name is all stem. -/
theorem stem_of_splitName_none {name : String} (h : (splitName name).2 = none) :
    (splitName name).1 = name := by
  rw [splitName] at h ⊢
  split at h
  · rfl
  · rfl
  · cases h

/-- A name with an extension is its stem, a dot and the extension. -/
theorem eq_of_splitName_some {name extension : String}
    (h : (splitName name).2 = some extension) :
    name = (splitName name).1 ++ "." ++ extension ∧ (splitName name).1 ≠ "" ∧
      '.' ∉ extension.toList := by
  rw [splitName] at h ⊢
  split at h
  · cases h
  · cases h
  · rename_i dot stem hMore hBack
    obtain rfl := Option.some.inj h
    -- the search stops at a dot, since that is what it looks for
    obtain rfl : dot = '.' := by
      have hHead := List.head?_dropWhile_not (· ≠ '.') name.toList.reverse
      rw [hBack] at hHead
      simpa using hHead
    -- so the name is what was passed, the dot and the rest
    have hSplit := List.takeWhile_append_dropWhile (p := (· ≠ '.')) (l := name.toList.reverse)
    rw [hBack] at hSplit
    have hName := congrArg List.reverse hSplit
    rw [List.reverse_reverse, List.reverse_append, List.reverse_cons, List.append_assoc,
      List.singleton_append] at hName
    refine ⟨?_, fun hEmpty => hMore (by simpa using hEmpty), fun hMem => ?_⟩
    · rw [← String.toList_inj, String.toList_append, String.toList_append, String.toList_ofList,
        String.toList_ofList, String.toList_ofList, List.append_assoc, List.singleton_append]
      exact hName.symm
    · rw [String.toList_ofList] at hMem
      simpa using List.mem_takeWhile_imp (List.mem_reverse.1 hMem)

/-- A stem is not empty and holds no slash. -/
theorem stem?_spec {p : Path} {stem : String} (hStem : p.stem? = some stem) :
    stem ≠ "" ∧ '/' ∉ stem.toList := by
  obtain ⟨name, hName, rfl⟩ := Option.map_eq_some_iff.1 hStem
  obtain ⟨hNamed, hSlash⟩ := fileName?_spec hName
  cases hSplit : (splitName name).2 with
  | none =>
    rw [stem_of_splitName_none hSplit]
    exact ⟨hNamed, hSlash⟩
  | some extension =>
    -- the stem is what stands before the last dot, and part of the name
    obtain ⟨hSame, hFilled, -⟩ := eq_of_splitName_some hSplit
    refine ⟨hFilled, fun hMem => hSlash ?_⟩
    rw [hSame, String.toList_append, String.toList_append, List.append_assoc]
    exact List.mem_append_left _ hMem

theorem significant_join {p q : Path} (hRelative : q.isAbsolute = false)
    (hNamed : q.significant ≠ []) :
    ∃ before, (p.join q).significant = q.significant ++ before := by
  obtain ⟨front, hSegments, -, -⟩ := exists_segments_join (p := p) hRelative
  refine ⟨front.reverse, ?_⟩
  rw [significant, hSegments, List.reverse_append, List.dropWhile_append]
  rw [if_neg]
  · rfl
  · rw [List.isEmpty_iff]
    exact hNamed

/-- A joined path has the stem of the path that is joined to it. -/
theorem stem?_join {p q : Path} {stem : String} (hStem : q.stem? = some stem) :
    (p.join q).stem? = some stem := by
  cases hAbsolute : q.isAbsolute with
  | true =>
    rw [join, hAbsolute, Bool.true_or, if_pos rfl, hStem]
  | false =>
    obtain ⟨name, hName, hSplit⟩ := Option.map_eq_some_iff.1 hStem
    -- the significant segments of `q` come first in the joined path, and one of them is the name
    obtain ⟨before, hSignificant⟩ := exists_significant hName
    obtain ⟨more, hJoined⟩ := significant_join (p := p) hAbsolute (by rw [hSignificant]; simp)
    have hSame : (p.join q).fileName? = q.fileName? := by
      rw [fileName?, fileName?, hJoined, hSignificant]
      rfl
    rw [stem?, hSame]
    exact hStem

theorem exists_parent {p : Path} {stem : String} (hStem : p.stem? = some stem) :
    ∃ dir, p.parent? = some dir := by
  obtain ⟨name, hName, -⟩ := Option.map_eq_some_iff.1 hStem
  obtain ⟨before, hSignificant⟩ := exists_significant hName
  rw [parent?, hSignificant]
  simp only
  split
  · split
    · exact ⟨_, rfl⟩
    · split
      · exact ⟨_, rfl⟩
      · exact ⟨_, rfl⟩
  · exact ⟨_, rfl⟩

/-! ## The name of a new file -/

theorem exists_dropWhile_isFiller {segments : List String} {name : String}
    (hFirst : (segments.filter (· ≠ "")).head? = some name) (hDot : name ≠ ".") :
    ∃ rest, segments.dropWhile isFiller = name :: rest := by
  induction segments with
  | nil => cases hFirst
  | cons first rest ih =>
    by_cases hEmpty : first = ""
    · subst hEmpty
      exact ih hFirst
    · rw [List.filter_cons_of_pos (by simpa using hEmpty)] at hFirst
      obtain rfl := Option.some.inj hFirst
      exact ⟨rest, List.dropWhile_cons_of_neg (by simp [isFiller, hEmpty, hDot])⟩

/-- A path that leads to a free name has that name. -/
theorem fileName?_of_vacant {t : FileTree} {p : Path} {d : Location} {name : String}
    (hVacant : t.resolve .itself p = .ok (.vacant d name)) (hSlash : endsInSlash p = false) :
    p.fileName? = some name := by
  have hWalk := walk_of_resolve hVacant
  obtain ⟨hName, -⟩ := walk_vacant hWalk hSlash
  have hLast := getLast?_of_walk_vacant hWalk hSlash
  rw [route, ← List.head?_reverse, ← List.filter_reverse] at hLast
  obtain ⟨before, hSignificant⟩ := exists_dropWhile_isFiller hLast hName.notDot
  rw [fileName?, significant, hSignificant]
  exact if_neg hName.notUp

/-- What follows the stem of a name is nothing, or a dot and no other: no name is its stem with more
behind it that ends in `Enum.rs`. -/
theorem splitName_append_ne (name tag : String) :
    (splitName name).1 ++ tag ++ "Enum.rs" ≠ name := by
  intro hSame
  cases hSplit : (splitName name).2 with
  | none =>
    rw [stem_of_splitName_none hSplit] at hSame
    have hLength := congrArg String.length hSame
    rw [String.length_append, String.length_append, show "Enum.rs".length = 7 by decide] at hLength
    omega
  | some extension =>
    -- the name is the stem, a dot and an extension without one
    obtain ⟨hName, -, hFree⟩ := eq_of_splitName_some hSplit
    have hBehind := hSame.trans hName
    rw [String.append_assoc, String.append_assoc, String.append_right_inj] at hBehind
    have hList := congrArg String.toList hBehind
    rw [String.toList_append, String.toList_append] at hList
    cases hTag : tag.toList with
    | nil =>
      rw [hTag] at hList
      exact absurd (List.cons.inj hList).1 (by decide)
    | cons c cs =>
      rw [hTag] at hList
      have hRest : cs ++ "Enum.rs".toList = extension.toList := (List.cons.inj hList).2
      rw [← hRest] at hFree
      exact hFree (List.mem_append_right _ (by decide))

end Path

/-! ## The file of a tag -/

namespace Enumeration.Reconciler

variable {H : Type} {r : Reconciler H}

/-- The name of the file of a tag. -/
def fileName (r : Reconciler H) (tag : String) : String := r.stem ++ tag ++ "Enum.rs"

theorem fileName_injective {tag tag' : String} (h : r.fileName tag = r.fileName tag') :
    tag = tag' := by
  rw [fileName, fileName, String.append_left_inj, String.append_right_inj] at h
  exact h

/-- The stem can stand before the tag: the name that they make does not start with a segment that
stands for a directory. -/
def TagSafe (r : Reconciler H) (tag : String) : Prop :=
  ∀ first, (Path.mk (r.fileName tag)).segments.head? = some first → first ≠ "." ∧ first ≠ ".."

/-- A stem as a path has it. -/
structure PlainStem (r : Reconciler H) : Prop where
  ne_empty : r.stem ≠ ""
  unslashed : '/' ∉ r.stem.toList

theorem PlainStem.ofBeside {output : Path} (h : beside output = .ok r) : PlainStem r := by
  rw [beside] at h
  split at h
  · cases h
  · rename_i stem hStem
    obtain rfl := Except.ok.inj h
    obtain ⟨hNamed, hSlash⟩ := Path.stem?_spec hStem
    exact ⟨hNamed, hSlash⟩

/-- No tag's file has the name of the output. -/
theorem fileName_ne_of_beside {output : Path} (h : beside output = .ok r) {name : String}
    (hName : output.fileName? = some name) (tag : String) : r.fileName tag ≠ name := by
  rw [beside, Path.stem?, hName] at h
  obtain rfl := Except.ok.inj h
  exact Path.splitName_append_ne name tag

theorem toList_fileName (r : Reconciler H) (tag : String) :
    (r.fileName tag).toList = r.stem.toList ++ (tag.toList ++ "Enum.rs".toList) := by
  rw [fileName, String.toList_append, String.toList_append, List.append_assoc]

/-- The last segment of the path of a file ends as its name does. -/
theorem exists_segments_pathFor (r : Reconciler H) (tag : String) :
    ∃ front piece, (r.pathFor tag).segments = front ++ [piece ++ "Enum.rs"] := by
  obtain ⟨before, hText⟩ : ∃ before, (r.pathFor tag).text = before ++ "Enum.rs" := by
    rw [pathFor, Path.join]
    split
    · exact ⟨r.stem ++ tag, rfl⟩
    · split
      · exact ⟨r.directory.text ++ (r.stem ++ tag), String.append_assoc.symm⟩
      · exact ⟨r.directory.text ++ "/" ++ (r.stem ++ tag), String.append_assoc.symm⟩
  exact Path.exists_segments_of_text hText (by decide)

/-- A text that starts with the stem and stands for a directory is the stem itself, unless more
than dots follow. -/
theorem eq_nil_of_append_dots {stem piece : List Char} (hStem : stem ≠ [])
    (hDots : stem ++ piece = ['.'] ∨ stem ++ piece = ['.', '.']) :
    (stem = ['.'] ∨ stem = ['.', '.']) ∧ piece.length ≤ 1 := by
  obtain ⟨c, cs, rfl⟩ := List.exists_cons_of_ne_nil hStem
  rcases hDots with hDots | hDots
  · obtain ⟨rfl, hRest⟩ := List.cons.inj hDots
    obtain ⟨rfl, rfl⟩ := List.append_eq_nil_iff.1 hRest
    exact ⟨.inl rfl, Nat.zero_le 1⟩
  · obtain ⟨rfl, hRest⟩ := List.cons.inj hDots
    rcases List.append_eq_singleton_iff.1 hRest with ⟨rfl, rfl⟩ | ⟨rfl, rfl⟩
    · exact ⟨.inl rfl, Nat.le_refl 1⟩
    · exact ⟨.inr rfl, Nat.zero_le 1⟩

/-- The first segment of such a name is the stem with what stands before the first slash of the
rest. -/
theorem exists_segments_fileName (hStem : PlainStem r) (tag : String) :
    ∃ head pieces, Text.splitAt '/' (tag.toList ++ "Enum.rs".toList) = head :: pieces ∧
      (Path.mk (r.fileName tag)).segments =
        String.ofList (r.stem.toList ++ head) :: pieces.map String.ofList := by
  obtain ⟨head, pieces, hHead⟩ := List.exists_cons_of_ne_nil
    (Text.splitAt_ne_nil '/' (tag.toList ++ "Enum.rs".toList))
  refine ⟨head, pieces, hHead, ?_⟩
  rw [Path.segments, toList_fileName, Text.splitAt_append_of_notMem hStem.unslashed hHead]
  rfl

/-- Only a stem that is nothing but dots cannot stand before every tag, and even that one can stand
before a tag without slashes. -/
theorem tagSafe_of_plainStem (hStem : PlainStem r) {tag : String}
    (hDots : r.stem = "." ∨ r.stem = ".." → '/' ∉ tag.toList) : r.TagSafe tag := by
  obtain ⟨head, pieces, hHead, hSegments⟩ := exists_segments_fileName hStem tag
  have hStemList : r.stem.toList ≠ [] := fun hNil =>
    hStem.ne_empty (String.toList_eq_nil_iff.1 hNil)
  have hNotDots : ¬ (r.stem.toList ++ head = ['.'] ∨ r.stem.toList ++ head = ['.', '.']) := by
    intro hDirectory
    obtain ⟨hOnlyDots, hShort⟩ := eq_nil_of_append_dots hStemList hDirectory
    -- then the tag has no slash, so the segment holds the end of the name
    have hFree : '/' ∉ tag.toList ++ "Enum.rs".toList := by
      rw [List.mem_append, not_or]
      refine ⟨hDots ?_, by decide⟩
      exact hOnlyDots.imp (fun hText => String.toList_inj.1 hText) fun hText =>
        String.toList_inj.1 hText
    rw [Text.splitAt_of_notMem hFree] at hHead
    obtain ⟨rfl, rfl⟩ := List.cons.inj hHead
    rw [List.length_append] at hShort
    have hEnd : "Enum.rs".toList.length = 7 := by decide
    omega
  intro first hFirst
  rw [hSegments] at hFirst
  obtain rfl := Option.some.inj hFirst
  exact ⟨fun hDot => hNotDots (.inl (String.ofList_inj.1 hDot)),
    fun hUp => hNotDots (.inr (String.ofList_inj.1 hUp))⟩

/-- The name of a file starts with a segment that can name an entry and does not end in a slash. -/
theorem exists_headedBy (hStem : PlainStem r) {tag : String} (hTag : r.TagSafe tag) :
    ∃ first others, FileTree.HeadedBy (r.fileName tag) first others := by
  obtain ⟨head, pieces, -, hSegments⟩ := exists_segments_fileName hStem tag
  have hFirst : (Path.mk (r.fileName tag)).segments.head? =
      some (String.ofList (r.stem.toList ++ head)) := by
    rw [hSegments]
    rfl
  obtain ⟨hDot, hUp⟩ := hTag _ hFirst
  refine ⟨_, _, hSegments, fun hEmpty => ?_, hDot, hUp, fun last hLast hEmpty => ?_⟩
  · rw [String.ofList_eq_empty_iff] at hEmpty
    exact hStem.ne_empty (String.toList_eq_nil_iff.1 (List.append_eq_nil_iff.1 hEmpty).1)
  · -- no tag can cut off the end of the name, so it is in the last segment
    obtain ⟨front, piece, hEnd⟩ := Path.exists_segments_of_text (p := Path.mk (r.fileName tag))
      rfl (show '/' ∉ "Enum.rs".toList by decide)
    rw [← hSegments, hEnd, List.getLast?_concat, Option.some.injEq] at hLast
    rw [hEmpty, String.append_eq_empty_iff] at hLast
    exact absurd hLast.2 (by decide)

end Enumeration.Reconciler

end PropertySets
