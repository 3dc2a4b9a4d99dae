import PropertySets.Proofs.Disk.Down

/-!
# Names beside each other

Files that lie beside each other have paths that end in different names behind one parent. What
slashes and dots stand between the names is no matter: two paths that start at the root directory
are the same path if they have the same steps. Where the names come from one stem, they differ in
what is behind it.

* `Path.steps` — the names on the way of a path.
* `Path.dotted_splitName_iff` — names with one stem and different extensions.
* `Path.segments_of_plain` — a path that has nothing behind its name.
* `Path.endsIn_withExtension_of_plain` — the name of such a path with another extension.
-/

namespace PropertySets.Path

open FileTree

variable {p q dir : Path} {name extension : String} {before : List String}

/-! ## Steps -/

/-- What a path comes through, step by step: its segments without those that name nothing. -/
def steps (p : Path) : List String := (route p).filter (· ≠ ".")

theorem steps_join (hRelative : q.isAbsolute = false) : (p.join q).steps = p.steps ++ q.steps := by
  rw [steps, route_join hRelative, List.filter_append]
  rfl

theorem steps_eq (p : Path) : p.steps = p.segments.filter (fun s => !isFiller s) := by
  rw [steps, route, List.filter_filter]
  refine List.filter_congr fun s _ => ?_
  rw [Bool.eq_iff_iff]
  simp [isFiller, and_comm]

/-- The last step of a path is the name that it ends in. -/
theorem EndsIn.steps (h : p.EndsIn dir name) (hNamed : name ≠ ".") :
    p.steps = dir.steps ++ [name] := by
  have hDots : ∀ n, (List.replicate n ".").filter (· ≠ ".") = [] := fun n => by simp
  obtain ⟨between, behind, hRoute⟩ := h.route
  rw [Path.steps, hRoute, List.filter_append, List.filter_append, hDots,
    List.filter_cons_of_pos (by simpa using hNamed), hDots]
  rfl

/-- A path that ends in a name has this name behind its parent. -/
theorem EndsIn.eq_of_getLast? (h : p.EndsIn dir name) {last : String}
    (hLast : (FileTree.route p).getLast? = some last) (hDot : last ≠ ".") : last = name := by
  obtain ⟨between, behind, hRoute⟩ := h.route
  cases behind with
  | zero =>
    rw [hRoute, List.replicate_zero, ← List.append_assoc, List.getLast?_concat] at hLast
    exact (Option.some.inj hLast).symm
  | succ n =>
    rw [hRoute, List.replicate_succ', ← List.cons_append, ← List.append_assoc, ← List.append_assoc,
      List.getLast?_concat] at hLast
    exact absurd (Option.some.inj hLast).symm hDot

/-! ## Other extensions -/

/-- With the extension that it has a name is unchanged, and with no other one. -/
theorem dotted_splitName_iff :
    (splitName name).1 ++ "." ++ extension = name ↔ (splitName name).2 = some extension := by
  refine ⟨fun hSame => ?_, fun h => (eq_of_splitName_some h).1.symm⟩
  cases hExtension : (splitName name).2 with
  | none =>
    rw [stem_of_splitName_none hExtension] at hSame
    have hLength := congrArg String.length hSame
    rw [String.length_append, String.length_append, show ".".length = 1 by decide] at hLength
    omega
  | some other =>
    have hOther := (eq_of_splitName_some hExtension).1
    have hStem : (splitName name).1 ++ "." ++ extension = (splitName name).1 ++ "." ++ other :=
      hSame.trans hOther
    rw [String.append_right_inj] at hStem
    rw [hStem]

/-! ## Paths with nothing behind the name -/

/-- A path that ends in a name is spelled with the name at its end, if there is no slash. -/
theorem segments_of_plain (hSlash : endsInSlash p = false) (hLast : (route p).getLast? = some name)
    (hDot : name ≠ ".") (hUp : name ≠ "..") :
    p.fileName? = some name ∧ ∃ before, p.significant = name :: before ∧
      p.segments = before.reverse ++ [name] := by
  have hMem : name ∈ route p := List.mem_of_getLast? hLast
  obtain ⟨hListed, hNamed⟩ := List.mem_filter.1 hMem
  obtain ⟨front, last, hSegments⟩ := (List.eq_nil_or_concat' p.segments).resolve_left
    (List.ne_nil_of_mem hListed)
  -- an empty segment at the end would be a slash
  have hFilled : last ≠ "" := by
    rintro rfl
    rw [endsInSlash, hSegments, List.getLast?_concat, ← hSegments, beq_self_eq_true, Bool.true_and,
      List.any_eq_false] at hSlash
    exact hSlash name hListed hNamed
  obtain rfl : last = name := by
    rw [route, hSegments, List.filter_append, List.filter_cons_of_pos (by simpa using hFilled),
      List.filter_nil, List.getLast?_concat] at hLast
    exact Option.some.inj hLast
  have hSpelled : p.segments = front.reverse.reverse ++ [last] := by
    rw [hSegments, List.reverse_reverse]
  have hSignificant : p.significant = last :: front.reverse :=
    significant_of_segments hSpelled (by simp [isFiller, hFilled, hDot]) (List.forall_mem_nil _)
  refine ⟨?_, front.reverse, hSignificant, hSpelled⟩
  rw [fileName?, hSignificant]
  exact if_neg hUp

/-- The cut takes the extension from the end of the name and leaves the dot. -/
theorem segments_cutEnd (hName : p.fileName? = some name)
    (hSignificant : p.significant = name :: before)
    (hSegments : p.segments = before.reverse ++ [name]) :
    p.cutEnd.segments = before.reverse ++
      [(splitName name).2.elim name fun _ => (splitName name).1 ++ "."] := by
  have hExtension : p.extension? = (splitName name).2 := by
    rw [extension?, hName]
    rfl
  -- the name is the end of the text, so what is cut from the end is cut from the name
  have hText : p.text.toList = ((before.reverse.map String.toList).map (· ++ ['/'])).flatten ++
      name.toList := by
    rw [toList_text hSegments]
    simp [spellBehind]
  rw [cutEnd, hExtension]
  cases hSplit : (splitName name).2 with
  | none =>
    show segments ⟨String.ofList p.text.toList.reverse.reverse⟩ = before.reverse ++ [name]
    rw [List.reverse_reverse, String.ofList_toList]
    exact hSegments
  | some extension =>
    obtain ⟨hSame, -, -⟩ := eq_of_splitName_some hSplit
    -- what is left of the name is still one segment
    have hFree : '/' ∉ ((splitName name).1 ++ ".").toList := by
      intro hMem
      refine (fileName?_spec hName).2 ?_
      rw [hSame, String.toList_append]
      exact List.mem_append_left _ hMem
    have hCut : (p.text.toList.reverse.drop extension.length).reverse =
        ((before.reverse.map String.toList).map (· ++ ['/'])).flatten ++
          ((splitName name).1 ++ ".").toList := by
      rw [hText, congrArg String.toList hSame, String.toList_append, ← List.append_assoc,
        List.reverse_append, ← String.length_toList, ← List.length_reverse, List.drop_left,
        List.reverse_reverse]
    rw [segments, Option.getD_some, hCut, String.toList_ofList,
      Text.splitAt_flatten_append (unslashed_of_mem_before hSignificant),
      Text.splitAt_of_notMem hFree, List.map_append, List.map_singleton, String.ofList_toList,
      List.map_map]
    simp [Function.comp_def]

/-- With another extension a path that ends in a name ends in the stem of it, a dot and the
extension; or in two dots, if the stem is one. -/
theorem endsIn_withExtension_of_plain (hName : p.fileName? = some name)
    (hParent : p.parent? = some dir) (hSignificant : p.significant = name :: before)
    (hSegments : p.segments = before.reverse ++ [name]) (hExtension : '/' ∉ extension.toList) :
    (p.withExtension extension).EndsIn dir ".." ∨
      (p.withExtension extension).EndsIn dir ((splitName name).1 ++ "." ++ extension) := by
  obtain ⟨hNamed, hUp⟩ := plain_of_fileName? hName
  have hCut := segments_cutEnd hName hSignificant hSegments
  show (p.cutEnd.putExtension extension).EndsIn dir ".." ∨
    (p.cutEnd.putExtension extension).EndsIn dir _
  cases hSplit : (splitName name).2 with
  | none =>
    rw [hSplit] at hCut
    exact .inr (endsIn_putExtension hSignificant hParent hCut hNamed hUp (List.forall_mem_nil _)
      hExtension).1
  | some old =>
    rw [hSplit, Option.elim_some] at hCut
    obtain ⟨-, hStem, -⟩ := eq_of_splitName_some hSplit
    have hDotted : isFiller ((splitName name).1 ++ ".") = false := by
      have hPositive := List.length_pos_iff.2 fun hNil => hStem (String.toList_eq_nil_iff.1 hNil)
      rw [← String.ofList_toList (s := (splitName name).1 ++ ".")]
      refine isFiller_of_length ?_
      rw [String.toList_append, List.length_append]
      exact Nat.succ_le_succ hPositive
    -- a stem of one dot would become two dots, which lead up
    by_cases hDots : (splitName name).1 ++ "." = ".."
    · left
      rw [putExtension, significant_of_segments hCut hDotted (List.forall_mem_nil _)]
      simp only [if_pos hDots]
      rw [hDots] at hCut
      exact endsIn_of_segments hSignificant hParent hCut (by decide) (List.forall_mem_nil _)
    · right
      have hEnds := (endsIn_putExtension hSignificant hParent hCut hDotted hDots
        (List.forall_mem_nil _) hExtension).1
      -- behind the dot that was left stands an empty extension, which is replaced
      have hSame : splitName ((splitName name).1 ++ ".") = ((splitName name).1, some "") := by
        have hEmpty := splitName_of_dot hStem (show '.' ∉ "".toList from List.not_mem_nil)
        rwa [String.append_empty] at hEmpty
      rwa [hSame] at hEnds

end PropertySets.Path
