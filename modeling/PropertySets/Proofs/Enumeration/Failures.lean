import PropertySets.Proofs.Disk.Unlinked
import PropertySets.Proofs.Enumeration.Records

/-!
# Calls that fail

The reconciler may be called on after a call has failed, and others may work on the disk meanwhile:
what could not be opened before may be opened later. On a tree without links a call that fails
changes no file, and the files of the sheets stay what they are until the sheets are completed. So
every enumeration whose key is not lost is in the file of its tag in the end.

* `Session`, `Disturbed` — calls one after the other, and what others may do in between.
* `unchanged_of_openSheet_error` — a call that fails changes no file.
* `Placed`, `Placed.call` — the files of the sheets, and that every call keeps them.
* `session_writes` — what stands in the file of a tag when the sheets are completed.
* `failed_key_lost` — a key that is known and never written.
-/

namespace PropertySets.Enumeration

open FileTree Reconciler

/-! ## Sessions -/

/-- Others have changed the tree, but not what the paths of the open sheets lead to. -/
structure Disturbed (r : Reconciler Handle) (t t' : FileTree) : Prop where
  unlinked : t'.Unlinked
  workingDirectory : t'.workingDirectory = t.workingDirectory
  files : ∀ s ∈ r.sheets, t'.target s.path = t.target s.path

/-- Calls of a reconciler one after the other, whether they fail or not, and changes of the tree by
others. -/
inductive Session (r₀ : Reconciler Handle) (t₀ : FileTree) :
    List Call → Reconciler Handle → FileTree → Prop
  | start : Session r₀ t₀ [] r₀ t₀
  | disturbed {calls : List Call} {r : Reconciler Handle} {t t' : FileTree}
      (session : Session r₀ t₀ calls r t) (disturbs : Disturbed r t t') :
      Session r₀ t₀ calls r t'
  | call {calls : List Call} {r r' : Reconciler Handle} {t t' : FileTree} {q : Request}
      {outcome : Outcome} (session : Session r₀ t₀ calls r t)
      (answers : (r.reconcile q : StateM FileTree _) t = ((outcome, r'), t')) :
      Session r₀ t₀ (calls ++ [(q, outcome)]) r' t'

variable {r₀ r r' : Reconciler Handle} {t₀ t t' : FileTree} {tag : String} {q : Request}
  {calls : List Call}

/-! ## Sheets that cannot be opened -/

/-- The path of a sheet ends in a name. -/
theorem exists_getLast?_route_pathFor (r : Reconciler Handle) (tag : String) :
    endsInSlash (r.pathFor tag) = false ∧
      ∃ last, (route (r.pathFor tag)).getLast? = some last ∧ last ≠ "." ∧ last ≠ ".." := by
  obtain ⟨front, piece, hSegments⟩ := exists_segments_pathFor r tag
  -- whatever stands before it, the last segment is longer than dots
  have hLong : ∀ s : String, s.length < 7 → piece ++ "Enum.rs" ≠ s := by
    rintro s hShort rfl
    rw [String.length_append, show "Enum.rs".length = 7 by decide] at hShort
    omega
  constructor
  · rw [endsInSlash, hSegments, List.getLast?_concat]
    simp
  · refine ⟨_, ?_, hLong "." (by decide), hLong ".." (by decide)⟩
    rw [route, hSegments, List.filter_append,
      List.filter_cons_of_pos (by simp), List.filter_nil, List.getLast?_concat]

theorem unchanged_of_clear_error {p : Path} {e : DiskError}
    (h : (Disk.clear p : StateM FileTree _) t = (.error e, t')) : t' = t := by
  rcases clear_cases h with ⟨hSame, -⟩ | ⟨hOk, -⟩
  · exact hSame
  · cases hOk

theorem unchanged_of_create_error {p : Path} {e : DiskError}
    (h : (Disk.create p : StateM FileTree _) t = (.error e, t')) : t' = t := by
  rcases create_cases h with ⟨-, hSame⟩ | ⟨_, _, _, hOk, _⟩ | ⟨_, _, _, _, _, hOk, _⟩
  · exact hSame
  · cases hOk
  · cases hOk

/-- A sheet that cannot be opened leaves no trace on the disk. -/
theorem unchanged_of_openSheet_error (hUnlinked : t.Unlinked) {failure : Failure}
    (h : (r.openSheet tag : StateM FileTree _) t = (.error failure, t')) : t' = t := by
  rcases openSheet_cases h with ⟨_, hOk, -⟩ | ⟨e, -, hClear | ⟨cleared, hClear, hCreate⟩⟩
  · cases hOk
  · exact unchanged_of_clear_error hClear
  · rw [unchanged_of_create_error hCreate]
    rcases exists_erased_of_clear hClear with ⟨hSame, -⟩ | ⟨l, hEntry, rfl, hItself⟩
    · exact hSame
    · -- where a file was removed, another one could have been created
      obtain ⟨hSlash, last, hLast, hDotted⟩ := exists_getLast?_route_pathFor r tag
      obtain ⟨handle, t₂, hCreated⟩ :=
        hUnlinked.exists_create_of_erased hSlash hLast hDotted hEntry hItself
      cases hCreate.symm.trans hCreated

/-- A call that fails changes no file and no sheet; all it does is to enter its key, which was
new. -/
theorem unchanged_of_failed (hUnlinked : t.Unlinked) {outcome : Outcome} {failure : Failure}
    (hStep : Reconciled r q t outcome r' t') (hFails : outcome.result = .error failure) :
    t' = t ∧ r'.sheets = r.sheets ∧ ∃ tag, q.filingTag? = some tag ∧
      r.ledger.find? ⟨tag, q.name⟩ = none ∧ r'.size = r.size + 1 ∧
      ∀ k, r'.ledger.find? k =
        if k = ⟨tag, q.name⟩ then some q.literals else r.ledger.find? k := by
  cases hStep with
  | unfiled | known | opened => cases hFails
  | @endless tag hFiled hNew _ => exact ⟨rfl, rfl, tag, hFiled, hNew, rfl, Ledger.find?_add hNew⟩
  | @failed tag failure t' hFiled hNew _ hFailed =>
    refine ⟨unchanged_of_openSheet_error hUnlinked hFailed, rfl, tag, hFiled, hNew, rfl, ?_⟩
    exact Ledger.find?_add hNew

/-! ## Sheets that are written elsewhere -/

/-- What is written into files at other locations. -/
theorem appends_elsewhere (content : Sheet Handle → ByteArray) {l : Location}
    {sheets : List (Sheet Handle)} (hElsewhere : ∀ s ∈ sheets, s.handle.location ≠ l)
    (t : FileTree) :
    SameFrame t (sheets.foldl (fun t s => t.append s.handle (content s)) t) ∧
      (sheets.foldl (fun t s => t.append s.handle (content s)) t).node? l = t.node? l := by
  induction sheets generalizing t with
  | nil => exact ⟨.refl t, rfl⟩
  | cons s rest ih =>
    obtain ⟨hFrame, hNode⟩ := ih (fun s' hMem => hElsewhere s' (List.mem_cons_of_mem _ hMem))
      (t.append s.handle (content s))
    refine ⟨(append_keepsFiles t s.handle _).frame.trans hFrame, hNode.trans ?_⟩
    rcases append_cases t s.handle (content s) with ⟨held, hBelow, -, hAppend⟩ | ⟨-, hAppend⟩
    · rw [hAppend, node?_put hBelow, if_neg (Ne.symm (hElsewhere s List.mem_cons_self))]
    · rw [hAppend]

/-! ## The files of a session -/

/-- A sheet was created at the place of its path, and the path leads to its file, which is empty,
unless another sheet has the same place. -/
structure SheetPlaced (start : Location) (sheets : List (Sheet Handle)) (t : FileTree)
    (s : Sheet Handle) : Prop where
  location : s.handle.location = place start s.path
  target : (∀ s' ∈ sheets, s'.tag ≠ s.tag → place start s'.path ≠ place start s.path) →
    t.target s.path = .ok (s.handle.location, .file s.handle.serial ByteArray.empty)

/-- The tree with the files of the sheets. -/
structure Placed (start : Location) (r : Reconciler Handle) (t : FileTree) : Prop where
  unlinked : t.Unlinked
  workingDirectory : t.workingDirectory = start
  sheets : ∀ s ∈ r.sheets, SheetPlaced start r.sheets t s

namespace Placed

variable {start : Location} {opened : Reconciler Handle}

theorem ofBeside {output : Path} (hBeside : beside output = .ok r₀) (hUnlinked : t₀.Unlinked) :
    Placed t₀.workingDirectory r₀ t₀ := by
  obtain ⟨stem, dir, -, -, rfl⟩ := exists_of_beside hBeside
  exact ⟨hUnlinked, rfl, nofun⟩

/-- Others leave the open sheets alone. -/
theorem disturbed (h : Placed start r t) (hDisturbs : Disturbed r t t') : Placed start r t' := by
  refine ⟨hDisturbs.unlinked, hDisturbs.workingDirectory.trans h.workingDirectory,
    fun s hMem => ⟨(h.sheets s hMem).location, fun hApart => ?_⟩⟩
  rw [hDisturbs.files s hMem]
  exact (h.sheets s hMem).target hApart

/-- A sheet that is opened has a place of its own, or takes the place of another one. -/
theorem ofSheetOpened (h : Placed start r t) {ledger : Ledger}
    (hOpened : SheetOpened ⟨ledger, r.directory, r.stem, r.sheets⟩ tag t opened t') :
    Placed start opened t' := by
  cases hOpened with
  | there => exact ⟨h.unlinked, h.workingDirectory, h.sheets⟩
  | @created cleared _ handle hNew hClear hCreate =>
    have hOthers : ∀ s ∈ r.sheets, s.tag ≠ tag := fun s hMem hTag =>
      Bool.false_ne_true (hNew.symm.trans (hasSheet_eq_true_iff.2 ⟨s, hMem, hTag⟩))
    let sheet : Sheet Handle := ⟨tag, r.pathFor tag, handle, sheetHead tag⟩
    have hHere : sheet ∈ insertSheet sheet r.sheets := mem_insertSheet.2 (.inl rfl)
    have hRenewed := h.unlinked.renewed_of_create hClear hCreate
    have hTarget := h.unlinked.target_of_create hClear hCreate
    have hFrame := hRenewed.change.sameFrame
    rw [h.workingDirectory] at hRenewed hTarget
    refine ⟨h.unlinked.ofFrame hFrame, hFrame.workingDirectory.trans h.workingDirectory,
      fun s hMem => ?_⟩
    rcases mem_insertSheet.1 hMem with rfl | hOld
    · have hLocation : handle.location = place start (r.pathFor tag) :=
        congrArg Handle.location hRenewed.handle_eq
      refine ⟨hLocation, fun _ => ?_⟩
      show t'.target (r.pathFor tag) = .ok (handle.location, .file handle.serial ByteArray.empty)
      rw [hLocation, congrArg Handle.serial hRenewed.handle_eq]
      exact hTarget
    · have hSheet := h.sheets s hOld
      refine ⟨hSheet.location, fun hApart => ?_⟩
      -- the new file is at another place, so the path leads where it led
      have hBefore := hSheet.target fun s' hMem' => hApart s' (mem_insertSheet.2 (.inr hMem'))
      have hElsewhere : s.handle.location ≠ place start (r.pathFor tag) := by
        rw [hSheet.location]
        exact Ne.symm (hApart sheet hHere (Ne.symm (hOthers s hOld)))
      refine h.unlinked.target_of_frame hFrame hBefore ?_
      rw [hRenewed.change.elsewhere _ hElsewhere]
      exact (target_eq_ok_iff.1 hBefore).2

theorem addBody (h : Placed start r t) (tag body : String) :
    Placed start (r.addBody tag body) t := by
  refine ⟨h.unlinked, h.workingDirectory, ?_⟩
  rw [sheets_addBody]
  refine List.forall_mem_map.2 fun s hMem => ⟨(h.sheets s hMem).location, fun hApart => ?_⟩
  exact (h.sheets s hMem).target (List.forall_mem_map.1 hApart)

/-- **One call.** It opens a sheet, or changes no file. -/
theorem call (h : Placed start r t) {outcome : Outcome} (hStep : Reconciled r q t outcome r' t') :
    Placed start r' t' := by
  cases hStep with
  | unfiled | known => exact h
  | endless => exact ⟨h.unlinked, h.workingDirectory, h.sheets⟩
  | opened hFiled hNew _ hOpened => exact (h.ofSheetOpened hOpened).addBody _ _
  | failed hFiled hNew _ hFails =>
    rw [unchanged_of_openSheet_error h.unlinked hFails]
    exact ⟨h.unlinked, h.workingDirectory, h.sheets⟩

/-- What stands in a file with a place of its own after the sheets were completed. -/
theorem read_of_finish (h : Placed start r t) (hAscending : r.sheets.Pairwise (·.tag < ·.tag))
    {s : Sheet Handle} (hMem : s ∈ r.sheets)
    (hApart : ∀ s' ∈ r.sheets, s'.tag ≠ s.tag → place start s'.path ≠ place start s.path)
    {paths : List Path} (hFinish : (r.finish : StateM FileTree _) t = (paths, t')) :
    s.path ∈ paths ∧ t'.read s.path = .ok (s.text ++ sheetFoot).toUTF8 := by
  have hTarget := (h.sheets s hMem).target hApart
  obtain ⟨before, after, hSplit⟩ := List.append_of_mem hMem
  -- the other sheets are written somewhere else
  have hElsewhere : ∀ s' ∈ before ++ after, s'.handle.location ≠ s.handle.location := by
    intro s' hMem'
    have hListed : s' ∈ r.sheets := by
      rw [hSplit]
      rcases List.mem_append.1 hMem' with hMem' | hMem' <;> simp [hMem']
    have hTag : s'.tag ≠ s.tag := by
      rw [hSplit, List.pairwise_append, List.pairwise_cons] at hAscending
      obtain ⟨-, ⟨hAbove, -⟩, hBelow⟩ := hAscending
      rcases List.mem_append.1 hMem' with hMem' | hMem'
      · exact String.ne_of_lt (hBelow s' hMem' s List.mem_cons_self)
      · exact Ne.symm (String.ne_of_lt (hAbove s' hMem'))
    rw [(h.sheets s hMem).location, (h.sheets s' hListed).location]
    exact hApart s' hListed hTag
  rw [finish_apply, hSplit, List.foldl_append, List.foldl_cons] at hFinish
  obtain ⟨hFrame₁, hNode₁⟩ := appends_elsewhere (fun s => (s.text ++ sheetFoot).toUTF8)
    (fun s' hMem' => hElsewhere s' (List.mem_append_left _ hMem')) t
  generalize before.foldl _ t = t₁ at hFinish hFrame₁ hNode₁
  rw [(target_eq_ok_iff.1 hTarget).2] at hNode₁
  have hBelow : s.handle.location ≠ [] := ne_nil_of_node? (t := t₁) (by simp [hNode₁])
  obtain ⟨t₂, hAppend, hChange, hNode₂⟩ :=
    append_of_node hBelow hNode₁ (s.text ++ sheetFoot).toUTF8
  obtain rfl : t₁.append s.handle (s.text ++ sheetFoot).toUTF8 = t₂ := congrArg Prod.snd hAppend
  obtain ⟨hFrame₃, hNode₃⟩ := appends_elsewhere (fun s => (s.text ++ sheetFoot).toUTF8)
    (fun s' hMem' => hElsewhere s' (List.mem_append_right _ hMem'))
    (t₁.append s.handle (s.text ++ sheetFoot).toUTF8)
  rw [Prod.mk.injEq] at hFinish
  obtain ⟨rfl, hTree⟩ := hFinish
  rw [hTree] at hFrame₃ hNode₃
  rw [hNode₂, ByteArray.empty_append] at hNode₃
  constructor
  · simp
  · have hFrame := (hFrame₁.trans hChange.sameFrame).trans hFrame₃
    rw [FileTree.read, h.unlinked.target_of_frame hFrame hTarget hNode₃]
    rfl

end Placed

/-! ## Sessions on a tree without links -/

/-- **Any number of calls**, and what others do in between. -/
theorem Session.accounted {output : Path} (hBeside : beside output = .ok r₀)
    (hUnlinked : t₀.Unlinked) (hSession : Session r₀ t₀ calls r t) :
    Accounted r₀ (recordOf calls) r ∧ Placed t₀.workingDirectory r t := by
  induction hSession with
  | start => exact ⟨.ofBeside hBeside, .ofBeside hBeside hUnlinked⟩
  | disturbed _ hDisturbs ih => exact ⟨ih.1, ih.2.disturbed hDisturbs⟩
  | call _ hAnswers ih =>
    have hStep := reconciled_of_run hAnswers
    rw [recordOf_concat]
    exact ⟨ih.1.call hStep, ih.2.call hStep⟩

/-- A request that is answered is filed under the tag of the answer. -/
theorem Session.filingTag?_of_answered (hSession : Session r₀ t₀ calls r t) {outcome : Outcome}
    (hMem : (q, outcome) ∈ calls) {filed : Option String} (hAnswer : outcome.result = .ok filed) :
    q.filingTag? = filed := by
  induction hSession with
  | start => cases hMem
  | disturbed _ _ ih => exact ih hMem
  | call _ hAnswers ih =>
    rcases List.mem_append.1 hMem with hMem | hMem
    · exact ih hMem
    · obtain ⟨rfl, rfl⟩ := Prod.mk.inj (List.mem_singleton.1 hMem)
      -- every kind of answer names the tag that the request is filed under
      cases reconciled_of_run hAnswers with
      | unfiled hUnfiled =>
        rw [hUnfiled]
        exact Except.ok.inj hAnswer
      | known hFiled | opened hFiled =>
        rw [hFiled]
        exact Except.ok.inj hAnswer
      | endless | failed => cases hAnswer

/-- An answered call counts, unless a call under its key failed before it. -/
theorem mem_done_of_answered {before after : List (Request × Outcome)} {k : Key} {outcome : Outcome}
    (hOk : outcome.result.isOk = true) (hKey : q.key? = some k)
    (hBefore : ∀ c ∈ before, c.1.key? = some k → c.2.result.isOk = true) :
    q ∈ (recordOf (before ++ (q, outcome) :: after)).done := by
  rw [← List.singleton_append, ← List.append_assoc]
  refine subset_done_append (before ++ [(q, outcome)]) after ?_
  rw [recordOf_concat, (recordOf before).add_of_kept hOk fun k' hSome => ?_]
  · simp
  · obtain rfl := Option.some.inj (hKey.symm.trans hSome)
    rw [mem_lost]
    rintro ⟨c, hMem, hFailed, hSame⟩
    rw [hBefore c hMem hSame] at hFailed
    cases hFailed

/-- The tag of a sheet was the answer to a call. -/
theorem Session.exists_answered_of_sheet (hSession : Session r₀ t₀ calls r t)
    (hAccounted : Accounted r₀ (recordOf calls) r) {s : Sheet Handle} (hMem : s ∈ r.sheets) :
    ∃ c ∈ calls, c.2.result = .ok (some s.tag) := by
  obtain ⟨k, hKeyed, hTag⟩ :=
    (hAccounted.covered s.tag).1 (hasSheet_eq_true_iff.2 ⟨s, hMem, rfl⟩)
  obtain ⟨q, hDone, hKey⟩ := mem_keysOf.1 hKeyed
  obtain ⟨⟨_, outcome⟩, hCall, rfl, hOk⟩ := exists_of_mem_done hDone
  obtain ⟨tag, hFiled, rfl⟩ := Option.map_eq_some_iff.1 hKey
  obtain rfl : tag = s.tag := hTag
  refine ⟨_, hCall, ?_⟩
  cases hAnswer : outcome.result with
  | error failure =>
    rw [hAnswer] at hOk
    cases hOk
  | ok filed => rw [← hFiled, hSession.filingTag?_of_answered hCall hAnswer]

/-- **What a session writes.** Let calls of a new reconciler be made one after the other on a tree
without links, and let any of them fail.

1. A call that fails changes neither the tree nor the sheets. Its key was new, and is the only thing
   that comes into the ledger.
2. When a call is answered with a tag, no call under its key failed before it, and no other tag that
   was answered with has its files at the same place, then the file of the tag is among the files at
   the end, and holds the enumeration with the literals that came first under the key. -/
theorem session_writes {output : Path} (hBeside : beside output = .ok r₀) (hUnlinked : t₀.Unlinked)
    (hSession : Session r₀ t₀ calls r t) :
    (∀ q outcome failure r' t',
      (r.reconcile q : StateM FileTree _) t = ((outcome, r'), t') →
      outcome.result = .error failure →
      t' = t ∧ r'.sheets = r.sheets ∧ ∃ tag, q.filingTag? = some tag ∧
        r.ledger.find? ⟨tag, q.name⟩ = none ∧ r'.size = r.size + 1 ∧
        ∀ k, r'.ledger.find? k =
          if k = ⟨tag, q.name⟩ then some q.literals else r.ledger.find? k) ∧
    ∀ before q outcome after tag paths t', calls = before ++ (q, outcome) :: after →
      outcome.result = .ok (some tag) →
      (∀ c ∈ before, c.1.key? = some ⟨tag, q.name⟩ → c.2.result.isOk = true) →
      (∀ c ∈ calls, ∀ other, c.2.result = .ok (some other) → other ≠ tag →
        place t₀.workingDirectory (r₀.pathFor other) ≠
          place t₀.workingDirectory (r₀.pathFor tag)) →
      (r.finish : StateM FileTree _) t = (paths, t') →
      r₀.pathFor tag ∈ paths ∧ ∃ literals front back,
        firstLiterals? (calls.map (·.1)) ⟨tag, q.name⟩ = some literals ∧
        t'.read (r₀.pathFor tag) =
          .ok (front ++ enumerationText q.name (assign literals).declarations ++ back).toUTF8 := by
  obtain ⟨hAccounted, hPlaced⟩ := hSession.accounted hBeside hUnlinked
  refine ⟨fun q outcome failure r' t' hAnswers hFails =>
    unchanged_of_failed hPlaced.unlinked (reconciled_of_run hAnswers) hFails, ?_⟩
  rintro before q outcome after tag paths t' hCalls hAnswer hBefore hApart hFinish
  have hOk : outcome.result.isOk = true := by rw [hAnswer]; rfl
  have hListed : (q, outcome) ∈ calls := by rw [hCalls]; simp
  have hKey : q.key? = some ⟨tag, q.name⟩ :=
    key?_of_filingTag? (hSession.filingTag?_of_answered hListed hAnswer)
  -- the call is one of those that count, so its key is not lost later either
  have hDone : q ∈ (recordOf calls).done := hCalls ▸ mem_done_of_answered hOk hKey hBefore
  have hFiled : (⟨tag, q.name⟩ : Key) ∈ keysOf (recordOf calls).done :=
    mem_keysOf.2 ⟨q, hDone, hKey⟩
  have hKept : (⟨tag, q.name⟩ : Key) ∉ (recordOf calls).lost := fun hLost =>
    hAccounted.apart _ hLost hFiled
  obtain ⟨s, hMem, rfl⟩ := hasSheet_eq_true_iff.1 ((hAccounted.covered tag).2 ⟨_, hFiled, rfl⟩)
  have hSheetPath : s.path = r₀.pathFor s.tag := hAccounted.shelf.path s hMem
  -- every other sheet has the tag of a call that was answered
  have hPlaces : ∀ s' ∈ r.sheets, s'.tag ≠ s.tag →
      place t₀.workingDirectory s'.path ≠ place t₀.workingDirectory s.path := by
    intro s' hMem' hOther
    obtain ⟨c, hCall, hAnswered⟩ := hSession.exists_answered_of_sheet hAccounted hMem'
    rw [hSheetPath, hAccounted.shelf.path s' hMem']
    exact hApart c hCall s'.tag hAnswered hOther
  obtain ⟨hPath, hRead⟩ := hPlaced.read_of_finish hAccounted.shelf.ascending hMem hPlaces hFinish
  rw [hSheetPath] at hPath hRead
  obtain ⟨front, back, hText⟩ := exists_openText hFiled
  obtain ⟨literals, hFirst⟩ := Option.ne_none_iff_exists'.1
    fun hNone => firstLiterals?_eq_none_iff.1 hNone hFiled
  refine ⟨hPath, literals, front, back ++ sheetFoot, ?_, ?_⟩
  · rw [← firstLiterals?_done hKept, hFirst]
  · rw [hRead, hAccounted.shelf.text s hMem, hText, keyText, hFirst, String.append_assoc]
    rfl

/-! ## A directory in the way -/

theorem openSheet_of_directory {l : Location} (hNew : r.hasSheet tag = false)
    (hLeads : ∀ last, t.resolve last (r.pathFor tag) = .ok (.occupied l))
    (hDirectory : t.node? l = some .directory) :
    (r.openSheet tag : StateM FileTree _) t =
      (.error (.onDisk (r.pathFor tag) .isADirectory), t) := by
  have hPresent : t.present (r.pathFor tag) = true := by
    rw [present, target_eq_ok_iff.2 ⟨hLeads .followed, hDirectory⟩]
    rfl
  have hRemove : t.remove (r.pathFor tag) = .error .isADirectory := by
    simp only [remove, hLeads, hDirectory, bind, Except.bind]
    rfl
  have hClear : (Disk.clear (r.pathFor tag) : StateM FileTree _) t = (.error .isADirectory, t) := by
    rw [clear_apply, if_pos hPresent, changeTree, hRemove]
  rw [openSheet, if_neg (by rw [hNew]; exact Bool.false_ne_true), bind_apply hClear]
  rfl

/-- A directory at the path of a sheet. -/
def blockedTree : FileTree :=
  ⟨[(["project"], .directory), (["project", "GenIFC2X2Enum.rs"], .directory)], 0, ["project"]⟩

def sideRequest : Request :=
  ⟨"IFC2X2", "IFC2X2", "PEnum_Side", [⟨"LEFT", []⟩, ⟨"RIGHT", []⟩], "Pset_A@IFC2X2"⟩

def flowRequest : Request :=
  ⟨"IFC2X2", "IFC2X2", "PEnum_Flow", [⟨"IN", []⟩, ⟨"OUT", []⟩], "Pset_B@IFC2X2"⟩

theorem resolve_blockedTree (last : LastName) :
    blockedTree.resolve last ⟨"GenIFC2X2Enum.rs"⟩ =
      .ok (.occupied ["project", "GenIFC2X2Enum.rs"]) := by
  rw [resolve_of_text (by decide) (by decide) (by decide),
    show endsInSlash ⟨"GenIFC2X2Enum.rs"⟩ = false by decide,
    show route ⟨"GenIFC2X2Enum.rs"⟩ = ["GenIFC2X2Enum.rs"] by decide,
    walk_directory ⟨by decide, by decide, by decide⟩ rfl fun _ => .inl rfl, walk_nil]
  rfl

/-- The first call fails, and its key is known from then on. -/
theorem exists_failed_call : ∃ (failed : Outcome) (r : Reconciler Handle),
    (staleSite.reconciler.reconcile sideRequest : StateM FileTree _) blockedTree =
      ((failed, r), blockedTree) ∧
    failed.result = .error (.onDisk ⟨"GenIFC2X2Enum.rs"⟩ .isADirectory) ∧
    r.ledger.find? ⟨"IFC2X2", "PEnum_Side"⟩ = some sideRequest.literals ∧
    r.ledger.find? ⟨"IFC2X2", "PEnum_Flow"⟩ = none ∧
    r.size = 1 ∧ r.directory = ⟨""⟩ ∧ r.stem = "Gen" ∧ r.sheets = [] := by
  have hFiled : sideRequest.filingTag? = some "IFC2X2" := by decide
  have hNew : staleSite.reconciler.ledger.find? ⟨"IFC2X2", sideRequest.name⟩ = none := rfl
  let r : Reconciler Handle :=
    ⟨staleSite.reconciler.ledger.add _ sideRequest.literals hNew, ⟨""⟩, "Gen", []⟩
  have hPath : r.pathFor "IFC2X2" = ⟨"GenIFC2X2Enum.rs"⟩ := by
    show Path.join ⟨""⟩ ⟨"Gen" ++ "IFC2X2" ++ "Enum.rs"⟩ = _
    decide
  -- a directory has the name of the file
  have hOpen : (r.openSheet "IFC2X2" : StateM FileTree _) blockedTree =
      (.error (.onDisk ⟨"GenIFC2X2Enum.rs"⟩ .isADirectory), blockedTree) := by
    rw [← hPath]
    exact openSheet_of_directory rfl (hPath ▸ resolve_blockedTree) rfl
  have hStep := reconcile_of_failed hFiled hNew (by decide) hOpen
  -- the key was entered before the file was opened
  refine ⟨_, r, hStep, rfl, ?_, ?_, rfl, rfl, rfl, rfl⟩
  · exact (Ledger.find?_add hNew _).trans (if_pos rfl)
  · exact (Ledger.find?_add hNew _).trans (if_neg (by decide))

/-- When the directory is gone, an enumeration under another key is written. -/
theorem session_writes_around_failure : ∃ failed written r t paths t' front back,
    Session staleSite.reconciler blockedTree [(sideRequest, failed), (flowRequest, written)] r t ∧
    failed.result = .error (.onDisk ⟨"GenIFC2X2Enum.rs"⟩ .isADirectory) ∧
    written.result = .ok (some "IFC2X2") ∧
    (r.finish : StateM FileTree _) t = (paths, t') ∧ ⟨"GenIFC2X2Enum.rs"⟩ ∈ paths ∧
    t'.read ⟨"GenIFC2X2Enum.rs"⟩ =
      .ok (front ++ enumerationText "PEnum_Flow" ["IN", "OUT"] ++ back).toUTF8 := by
  obtain ⟨failed, r, hFirst, hFailed, -, hNew, -, hDirectory, hStem, hSheets⟩ := exists_failed_call
  -- nothing is open, so the directory can be taken away without touching a sheet
  have hDisturbed : Disturbed r blockedTree staleTree :=
    ⟨unlinked_of_nodes (by decide), rfl, fun s hMem => by rw [hSheets] at hMem; cases hMem⟩
  have hPath : r.pathFor "IFC2X2" = ⟨"GenIFC2X2Enum.rs"⟩ := by
    rw [Reconciler.pathFor, hDirectory, hStem]
    rfl
  have hNames : staleTree.Names (r.pathFor "IFC2X2") ["project"] "GenIFC2X2Enum.rs" := by
    rw [hPath]
    exact staleSite.names (tagSafe_staleSite "IFC2X2") (by decide)
  have hFiled : flowRequest.filingTag? = some "IFC2X2" := by decide
  obtain ⟨r', t, hSecond, -⟩ := reconcile_of_names hFiled hNew (by decide)
    (by rw [hasSheet, hSheets]; rfl) hNames flat_staleTree
  -- the session: a call that fails, the disturbance, a call that succeeds
  have hSession := ((Session.start.call hFirst).disturbed hDisturbed).call hSecond
  have hBeside : beside ⟨"Gen.rs"⟩ = .ok staleSite.reconciler := rfl
  obtain ⟨-, hWrites⟩ := session_writes hBeside (unlinked_of_nodes (by decide)) hSession
  obtain ⟨hListed, literals, front, back, hLiterals, hRead⟩ :=
    hWrites [(sideRequest, failed)] flowRequest _ [] "IFC2X2" _ _ rfl rfl
      (fun c hMem hKey => by
        obtain rfl := List.mem_singleton.1 hMem
        exact absurd hKey (show sideRequest.key? ≠ some ⟨"IFC2X2", "PEnum_Flow"⟩ by decide))
      (fun c hMem other hAnswer hOther => by
        rcases List.mem_cons.1 hMem with rfl | hMem
        · cases hFailed.symm.trans hAnswer
        · obtain rfl := List.mem_singleton.1 hMem
          exact absurd (Option.some.inj (Except.ok.inj hAnswer)).symm hOther) (finish_apply _ _)
  refine ⟨failed, _, _, _, _, _, front, back, hSession, hFailed, rfl, finish_apply _ _, hListed, ?_⟩
  -- the first call had another key, so the literals are those of the second one
  have hDeclarations : (firstLiterals? [sideRequest, flowRequest] ⟨"IFC2X2", "PEnum_Flow"⟩).map
      (fun literals => (assign literals).declarations) = some ["IN", "OUT"] := by decide
  rw [show firstLiterals? [sideRequest, flowRequest] ⟨"IFC2X2", "PEnum_Flow"⟩ = some literals from
    hLiterals, Option.map_some, Option.some.injEq] at hDeclarations
  rw [hDeclarations] at hRead
  exact hRead

/-- Nothing is ever written under a key whose first call failed, though later calls are answered
with its tag. -/
theorem failed_key_lost : ∃ (failed answered : Outcome) (r : Reconciler Handle),
    beside ⟨"Gen.rs"⟩ = .ok staleSite.reconciler ∧ staleSite.reconciler.size = 0 ∧
    (staleSite.reconciler.reconcile sideRequest : StateM FileTree _) blockedTree =
      ((failed, r), blockedTree) ∧
    failed.result = .error (.onDisk ⟨"GenIFC2X2Enum.rs"⟩ .isADirectory) ∧ r.size = 1 ∧
    (r.reconcile sideRequest : StateM FileTree _) blockedTree = ((answered, r), blockedTree) ∧
    answered.result = .ok (some "IFC2X2") ∧
    (r.finish : StateM FileTree _) blockedTree = ([], blockedTree) ∧
    blockedTree.read ⟨"GenIFC2X2Enum.rs"⟩ = .error .isADirectory := by
  obtain ⟨failed, r, hFirst, hFailed, hKnown, -, hSize, -, -, hSheets⟩ := exists_failed_call
  have hFiled : sideRequest.filingTag? = some "IFC2X2" := by decide
  refine ⟨failed, _, r, rfl, rfl, hFirst, hFailed, hSize, reconcile_of_known hFiled hKnown, rfl, ?_,
    ?_⟩
  · -- no sheet was opened, so there is nothing to complete
    rw [finish_apply, hSheets]
    rfl
  · rw [FileTree.read, target_eq_ok_iff.2 ⟨resolve_blockedTree .followed, rfl⟩]
    rfl

end PropertySets.Enumeration
