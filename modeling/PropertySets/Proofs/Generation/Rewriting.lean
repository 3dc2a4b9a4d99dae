import PropertySets.Proofs.Disk.LastNames
import PropertySets.Proofs.Generation.References

/-!
# Runs over what earlier runs have left

A run writes every file anew, so it comes to the same whatever is in the place of its files:
nothing, the output of an earlier run, or something else. Two runs on trees without links are
followed side by side. The ledger decides what they do, and the ledger knows nothing of the tree; a
file that the one run creates the other creates as well, at the same location.

* `TwinSheets`, `TwinReconcilers`, `TwinEmitted` — what corresponds in the two runs.
* `TwinEmitted.exists_of_emit` — the two emissions, event by event.
* `Course.read_of_artifact` — the checksums of a report are those of the files at the end.
* `Course.agree` — two runs have one report, and leave the same files.
* `Course.exists_rerun` — a run that succeeded succeeds again where it has been.
* `generate_rewrites` — all of this for a run and any number of further ones.
-/

namespace PropertySets

open Enumeration FileTree Registration

/-! ## Absolute paths -/

namespace Path

theorem isAbsolute_join {p : Path} (hAbsolute : p.isAbsolute = true) (q : Path) :
    (p.join q).isAbsolute = true := by
  cases hOther : q.isAbsolute with
  | true =>
    have hJoin : p.join q = q := by rw [join, hOther, Bool.true_or, if_pos rfl]
    rw [hJoin, hOther]
  | false =>
    obtain ⟨front, -, -, hSame⟩ := exists_segments_join (p := p) hOther
    rw [hSame, hAbsolute]

end Path

theorem isAbsolute_pathOf (l : Location) : (pathOf l).isAbsolute = true := by
  have hText : (pathOf l).text.toList = '/' :: ("/".intercalate l).toList := by simp [pathOf]
  rw [Path.isAbsolute, hText]
  rfl

theorem isAbsolute_outputIn (c : Configuration) (t : FileTree) :
    (c.outputIn t).isAbsolute = true :=
  Path.isAbsolute_join (isAbsolute_pathOf _) _

variable {first second : Nat} {made made' : List Location} {t₁ t₂ t₁' t₂' : FileTree}

/-! ## Two reconcilers -/

/-- The sheets of one tag in the two runs. -/
structure TwinSheets (first second : Nat) (made : List Location) (s₁ s₂ : Sheet Handle) :
    Prop where
  tag : s₂.tag = s₁.tag
  path : s₂.path = s₁.path
  text : s₂.text = s₁.text
  absolute : s₁.path.isAbsolute = true
  placed : place [] s₁.path ∈ made
  handles : TwinHandles first second made s₁.handle s₂.handle

/-- The reconcilers of the two runs: only the handles of the sheets are different. -/
structure TwinReconcilers (first second : Nat) (made : List Location)
    (r₁ r₂ : Reconciler Handle) : Prop where
  ledger : r₂.ledger = r₁.ledger
  directory : r₂.directory = r₁.directory
  stem : r₂.stem = r₁.stem
  absolute : r₁.directory.isAbsolute = true
  sheets : List.Forall₂ (TwinSheets first second made) r₁.sheets r₂.sheets

/-- How far the two emissions got. -/
structure TwinEmitted (first second : Nat) (made : List Location) (e₁ e₂ : Emitted Handle) :
    Prop where
  reconciler : TwinReconcilers first second made e₁.reconciler e₂.reconciler
  flaws : e₂.flaws = e₁.flaws
  counts : e₂.counts = e₁.counts

theorem TwinSheets.mono {s₁ s₂ : Sheet Handle} (h : TwinSheets first second made s₁ s₂)
    (hMore : made ⊆ made') : TwinSheets first second made' s₁ s₂ :=
  { h with placed := hMore h.placed, handles := h.handles.mono hMore }

theorem forall₂_insertSheet {s₁ s₂ : Sheet Handle} {ss₁ ss₂ : List (Sheet Handle)}
    (hSheet : TwinSheets first second made s₁ s₂)
    (hSheets : List.Forall₂ (TwinSheets first second made) ss₁ ss₂) :
    List.Forall₂ (TwinSheets first second made) (Reconciler.insertSheet s₁ ss₁)
      (Reconciler.insertSheet s₂ ss₂) := by
  induction hSheets with
  | nil => exact .cons hSheet .nil
  | @cons a b rest₁ rest₂ hHead hRest ih =>
    -- the tags are the same, so both sheets find the same place
    rw [Reconciler.insertSheet, Reconciler.insertSheet, hSheet.tag, hHead.tag]
    split
    · exact .cons hSheet (.cons hHead hRest)
    · exact .cons hHead ih

theorem tags_of_twins {ss₁ ss₂ : List (Sheet Handle)}
    (hSheets : List.Forall₂ (TwinSheets first second made) ss₁ ss₂) :
    ss₂.map (·.tag) = ss₁.map (·.tag) := by
  induction hSheets with
  | nil => rfl
  | cons hHead hRest ih => rw [List.map_cons, List.map_cons, hHead.tag, ih]

theorem paths_of_twins {ss₁ ss₂ : List (Sheet Handle)}
    (hSheets : List.Forall₂ (TwinSheets first second made) ss₁ ss₂) :
    ss₂.map (·.path) = ss₁.map (·.path) := by
  induction hSheets with
  | nil => rfl
  | cons hHead hRest ih => rw [List.map_cons, List.map_cons, hHead.path, ih]

namespace TwinReconcilers

variable {r₁ r₂ r₁' r₂' opened₁ opened₂ : Reconciler Handle} {tag : String}

theorem hasSheet (h : TwinReconcilers first second made r₁ r₂) (tag : String) :
    r₂.hasSheet tag = r₁.hasSheet tag := by
  have hTags : ∀ r : Reconciler Handle,
      r.hasSheet tag = (r.sheets.map (·.tag)).any (· == tag) := fun r => by
    rw [Reconciler.hasSheet, List.any_map]
    rfl
  rw [hTags, hTags, tags_of_twins h.sheets]

theorem pathFor (h : TwinReconcilers first second made r₁ r₂) (tag : String) :
    r₂.pathFor tag = r₁.pathFor tag := by
  rw [Reconciler.pathFor, Reconciler.pathFor, h.directory, h.stem]

/-- A key that is new to the one ledger is new to the other. -/
theorem add (h : TwinReconcilers first second made r₁ r₂) {key : Key} (items : List String)
    (hNew₁ : r₁.ledger.find? key = none) (hNew₂ : r₂.ledger.find? key = none) :
    TwinReconcilers first second made
      ⟨r₁.ledger.add key items hNew₁, r₁.directory, r₁.stem, r₁.sheets⟩
      ⟨r₂.ledger.add key items hNew₂, r₂.directory, r₂.stem, r₂.sheets⟩ := by
  refine { h with ledger := ?_ }
  have hLedger := h.ledger
  generalize r₂.ledger = ledger₂ at hLedger hNew₂ ⊢
  subst hLedger
  rfl

theorem addBody (h : TwinReconcilers first second made r₁ r₂) (tag body : String) :
    TwinReconcilers first second made (r₁.addBody tag body) (r₂.addBody tag body) := by
  refine ⟨h.ledger, h.directory, h.stem, h.absolute, ?_⟩
  rw [Reconciler.sheets_addBody, Reconciler.sheets_addBody, List.forall₂_map_left_iff,
    List.forall₂_map_right_iff]
  refine h.sheets.imp fun s₁ s₂ hSheet => { hSheet with text := ?_ }
  show s₂.text ++ _ = s₁.text ++ _
  rw [hSheet.text, hSheet.tag]

/-- The sheet of a tag is open in both runs, or it is created in both. -/
theorem exists_of_sheetOpened (h : TwinReconcilers first second made r₁ r₂)
    (hTrees : Twins first second made t₁ t₂) (hOpened₁ : SheetOpened r₁ tag t₁ opened₁ t₁')
    (hOpened₂ : SheetOpened r₂ tag t₂ opened₂ t₂') :
    ∃ made', made ⊆ made' ∧ Twins first second made' t₁' t₂' ∧
      TwinReconcilers first second made' opened₁ opened₂ := by
  have hSame := h.hasSheet tag
  -- the same tags are open in both, which excludes the crossed cases
  cases hOpened₁ with
  | there hThere₁ =>
    cases hOpened₂ with
    | there hThere₂ => exact ⟨made, List.Subset.refl made, hTrees, h⟩
    | created hNew₂ hClear₂ hCreate₂ => simp [hThere₁, hNew₂] at hSame
  | created hNew₁ hClear₁ hCreate₁ =>
    cases hOpened₂ with
    | there hThere₂ => simp [hNew₁, hThere₂] at hSame
    | created hNew₂ hClear₂ hCreate₂ =>
      have hAbsolute : (r₁.pathFor tag).isAbsolute = true := Path.isAbsolute_join h.absolute _
      -- the paths agree as well, so the new files correspond
      have hPath := h.pathFor tag
      rw [hPath] at hClear₂ hCreate₂ ⊢
      obtain ⟨hCreated, hHandles⟩ := hTrees.create hAbsolute hClear₁ hCreate₁ hClear₂ hCreate₂
      have hMore : made ⊆ place [] (r₁.pathFor tag) :: made := List.subset_cons_self _ _
      refine ⟨_, hMore, hCreated, h.ledger, h.directory, h.stem, h.absolute, ?_⟩
      exact forall₂_insertSheet
        ⟨rfl, rfl, rfl, hAbsolute, List.mem_cons_self, hHandles⟩
        (h.sheets.imp fun _ _ hSheet => hSheet.mono hMore)

/-- **One request in both runs.** Two answers that are no failures are the same. -/
theorem exists_of_reconciled (h : TwinReconcilers first second made r₁ r₂)
    (hTrees : Twins first second made t₁ t₂) {q : Request} {outcome₁ outcome₂ : Outcome}
    (hStep₁ : Reconciled r₁ q t₁ outcome₁ r₁' t₁') (hOk₁ : outcome₁.result.isOk = true)
    (hStep₂ : Reconciled r₂ q t₂ outcome₂ r₂' t₂') (hOk₂ : outcome₂.result.isOk = true) :
    outcome₂ = outcome₁ ∧ ∃ made', made ⊆ made' ∧ Twins first second made' t₁' t₂' ∧
      TwinReconcilers first second made' r₁' r₂' := by
  have hLedger := h.ledger
  have hStay : ∃ made', made ⊆ made' ∧ Twins first second made' t₁ t₂ ∧
      TwinReconcilers first second made' r₁ r₂ := ⟨made, List.Subset.refl made, hTrees, h⟩
  cases hStep₁ with
  | unfiled hUnfiled₁ =>
    cases hStep₂ with
    | unfiled hUnfiled₂ => exact ⟨rfl, hStay⟩
    | known hFiled₂ | opened hFiled₂ => cases hUnfiled₁.symm.trans hFiled₂
    | endless | failed => cases hOk₂
  | @known tag kept hFiled₁ hKnown₁ =>
    cases hStep₂ with
    | unfiled hUnfiled₂ => cases hFiled₁.symm.trans hUnfiled₂
    | known hFiled₂ hKnown₂ =>
      cases hFiled₁.symm.trans hFiled₂
      -- one ledger, so one list of literals that was kept
      rw [hLedger, hKnown₁] at hKnown₂
      cases hKnown₂
      exact ⟨rfl, hStay⟩
    | opened hFiled₂ hNew₂ =>
      cases hFiled₁.symm.trans hFiled₂
      rw [hLedger, hKnown₁] at hNew₂
      cases hNew₂
    | endless | failed => cases hOk₂
  | @opened tag opened₁ t₁' hFiled₁ hNew₁ _ hOpened₁ =>
    cases hStep₂ with
    | unfiled hUnfiled₂ => cases hFiled₁.symm.trans hUnfiled₂
    | known hFiled₂ hKnown₂ =>
      cases hFiled₁.symm.trans hFiled₂
      rw [hLedger, hNew₁] at hKnown₂
      cases hKnown₂
    | opened hFiled₂ hNew₂ _ hOpened₂ =>
      cases hFiled₁.symm.trans hFiled₂
      obtain ⟨made', hMore, hTrees', hRest⟩ :=
        (h.add q.literals hNew₁ hNew₂).exists_of_sheetOpened hTrees hOpened₁ hOpened₂
      exact ⟨rfl, made', hMore, hTrees', hRest.addBody _ _⟩
    | endless | failed => cases hOk₂
  | endless | failed => cases hOk₁

end TwinReconcilers

/-! ## The emission in both runs -/

section

variable {e₁ e₂ e₁' e₂' : Emitted Handle}

/-- **One event in both runs.** -/
theorem TwinEmitted.exists_of_carried (h : TwinEmitted first second made e₁ e₂)
    (hTrees : Twins first second made t₁ t₂) {event : Event} (hStep₁ : Carried event e₁ t₁ e₁' t₁')
    (hStep₂ : Carried event e₂ t₂ e₂' t₂') :
    ∃ made', made ⊆ made' ∧ Twins first second made' t₁' t₂' ∧
      TwinEmitted first second made' e₁' e₂' := by
  have hAll := List.Subset.refl made
  -- both runs carry out the same event; what it adds depends on the counts and flaws alone
  cases hStep₁ with
  | report flaw =>
    cases hStep₂
    exact ⟨made, hAll, hTrees, h.reconciler, congrArg (· ++ [flaw]) h.flaws, h.counts⟩
  | entry =>
    cases hStep₂
    refine ⟨made, hAll, hTrees, h.reconciler, h.flaws, ?_⟩
    simp only [h.counts]
  | block =>
    cases hStep₂
    refine ⟨made, hAll, hTrees, h.reconciler, h.flaws, ?_⟩
    simp only [h.counts]
  | routine =>
    cases hStep₂
    refine ⟨made, hAll, hTrees, h.reconciler, h.flaws, ?_⟩
    simp only [h.counts]
  | enumeration hAnswer₁ hOk₁ =>
    cases hStep₂ with
    | enumeration hAnswer₂ hOk₂ =>
      obtain ⟨hOutcome, made', hMore, hTrees', hReconciler⟩ :=
        h.reconciler.exists_of_reconciled hTrees (reconciled_of_run hAnswer₁) hOk₁
          (reconciled_of_run hAnswer₂) hOk₂
      refine ⟨made', hMore, hTrees', hReconciler, ?_, h.counts⟩
      simp only [h.flaws, hOutcome]

/-- **The emission in both runs.** -/
theorem TwinEmitted.exists_of_emit {events : List Event} (h : TwinEmitted first second made e₁ e₂)
    (hTrees : Twins first second made t₁ t₂)
    (hEmit₁ : (emit e₁ events : StateM FileTree _) t₁ = ((e₁', none), t₁'))
    (hEmit₂ : (emit e₂ events : StateM FileTree _) t₂ = ((e₂', none), t₂')) :
    ∃ made', made ⊆ made' ∧ Twins first second made' t₁' t₂' ∧
      TwinEmitted first second made' e₁' e₂' := by
  -- event by event; what is made in both trees grows with each
  induction events generalizing made e₁ e₂ t₁ t₂ with
  | nil =>
    cases hEmit₁
    cases hEmit₂
    exact ⟨made, List.Subset.refl made, hTrees, h⟩
  | cons event rest ih =>
    obtain ⟨next₁, tree₁, hStep₁, hRest₁⟩ := carried_of_emit_cons hEmit₁
    obtain ⟨next₂, tree₂, hStep₂, hRest₂⟩ := carried_of_emit_cons hEmit₂
    obtain ⟨made₁, hMore₁, hTrees₁, hNext⟩ := h.exists_of_carried hTrees hStep₁ hStep₂
    obtain ⟨made₂, hMore₂, hTrees₂, hEnd⟩ := ih hNext hTrees₁ hRest₁ hRest₂
    exact ⟨made₂, List.Subset.trans hMore₁ hMore₂, hTrees₂, hEnd⟩

end

/-! ## Completing the sheets -/

/-- The sheets are completed in both runs. -/
theorem TwinReconcilers.finish {r₁ r₂ : Reconciler Handle} {paths₁ paths₂ : List Path}
    (h : TwinReconcilers first second made r₁ r₂) (hTrees : Twins first second made t₁ t₂)
    (hFinish₁ : (r₁.finish : StateM FileTree _) t₁ = (paths₁, t₁'))
    (hFinish₂ : (r₂.finish : StateM FileTree _) t₂ = (paths₂, t₂')) :
    Twins first second made t₁' t₂' := by
  -- corresponding sheets have one text, which is written through corresponding handles
  have hAppends : ∀ {ss₁ ss₂ : List (Sheet Handle)} {t₁ t₂ : FileTree},
      List.Forall₂ (TwinSheets first second made) ss₁ ss₂ → Twins first second made t₁ t₂ →
      Twins first second made
        (ss₁.foldl (fun t s => t.append s.handle (s.text ++ sheetFoot).toUTF8) t₁)
        (ss₂.foldl (fun t s => t.append s.handle (s.text ++ sheetFoot).toUTF8) t₂) := by
    intro ss₁ ss₂ t₁ t₂ hSheets hHere
    induction hSheets generalizing t₁ t₂ with
    | nil => exact hHere
    | @cons s₁ s₂ rest₁ rest₂ hHead hRest ih =>
      rw [List.foldl_cons, List.foldl_cons, hHead.text]
      exact ih (hHere.append hHead.handles _)
  rw [finish_apply] at hFinish₁ hFinish₂
  cases hFinish₁
  cases hFinish₂
  exact hAppends h.sheets hTrees

/-- A path that leads to a file without a sheet leads there still. -/
theorem target_of_finish {r : Reconciler Handle} {t t' : FileTree} {paths : List Path} {p : Path}
    {l : Location} {serial : Nat} {content : ByteArray}
    (hTarget : t.target p = .ok (l, .file serial content))
    (hOther : ∀ s ∈ r.sheets, s.handle.serial ≠ serial)
    (hFinish : (r.finish : StateM FileTree _) t = (paths, t')) :
    t'.target p = .ok (l, .file serial content) := by
  rw [finish_apply] at hFinish
  cases hFinish
  generalize r.sheets = sheets at hOther
  induction sheets generalizing t with
  | nil => exact hTarget
  | cons s rest ih =>
    refine ih ?_ fun s' hMem => hOther s' (List.mem_cons_of_mem _ hMem)
    exact target_append_of_other hTarget (hOther s List.mem_cons_self) _

/-! ## Frames -/

section

variable {t t' : FileTree}

theorem sameFrame_of_sheetOpened (hUnlinked : t.Unlinked) {r opened : Reconciler Handle}
    {tag : String} (h : SheetOpened r tag t opened t') : SameFrame t t' := by
  cases h with
  | there => exact .refl t
  | created new clears creates =>
    exact (hUnlinked.renewed_of_create clears creates).change.sameFrame

/-- An event that is carried out leaves directories as they are. -/
theorem sameFrame_of_carried (hUnlinked : t.Unlinked) {event : Event} {e e' : Emitted Handle}
    (h : Carried event e t e' t') : SameFrame t t' := by
  cases h with
  | report | entry | block | routine => exact .refl t
  | enumeration hAnswers hOk =>
    cases reconciled_of_run hAnswers with
    | unfiled | known => exact .refl t
    | opened hFiled hNew hEnds hOpened => exact sameFrame_of_sheetOpened hUnlinked hOpened
    | endless | failed => cases hOk

theorem sameFrame_of_emit (hUnlinked : t.Unlinked) {events : List Event} {e e' : Emitted Handle}
    (h : (emit e events : StateM FileTree _) t = ((e', none), t')) : SameFrame t t' :=
  emit_preserves (fun _ _ here => SameFrame t here) (.refl t)
    (fun _ _ _ _ _ _ hCarried hHere =>
      hHere.trans (sameFrame_of_carried (hUnlinked.ofFrame hHere) hCarried)) h

end

/-! ## The second run goes through -/

namespace TwinReconcilers

variable {r₁ r₂ r₁' opened₁ : Reconciler Handle} {tag : String}

theorem exists_sheetOpened (h : TwinReconcilers first second made r₁ r₂)
    (hUnlinked : t₁.Unlinked) (hFrame : SameFrame t₁ t₂)
    (hOpened₁ : SheetOpened r₁ tag t₁ opened₁ t₁') :
    ∃ opened₂ t₂', SheetOpened r₂ tag t₂ opened₂ t₂' := by
  have hSame := h.hasSheet tag
  cases hOpened₁ with
  | there hThere => exact ⟨r₂, t₂, .there (hSame.trans hThere)⟩
  | created hNew hClear hCreate =>
    obtain ⟨cleared, handle, t₂', hClear', hCreate'⟩ :=
      hUnlinked.exists_create_of_frame hClear hCreate hFrame
    rw [← h.pathFor tag] at hClear' hCreate'
    exact ⟨_, t₂', .created (hSame.trans hNew) hClear' hCreate'⟩

/-- A request that was answered is answered again. -/
theorem exists_reconcile (h : TwinReconcilers first second made r₁ r₂) (hUnlinked : t₁.Unlinked)
    (hFrame : SameFrame t₁ t₂) {q : Request} {outcome : Outcome}
    (hStep : Reconciled r₁ q t₁ outcome r₁' t₁') (hOk : outcome.result.isOk = true) :
    ∃ outcome' r₂' t₂', (r₂.reconcile q : StateM FileTree _) t₂ = ((outcome', r₂'), t₂') ∧
      outcome'.result.isOk = true := by
  have hLedger := h.ledger
  -- what the second reconciler does is decided by the ledger, which both have
  cases hStep with
  | unfiled hUnfiled =>
    have hRun : (r₂.reconcile q : StateM FileTree _) t₂ = ((⟨.ok none, []⟩, r₂), t₂) := by
      rw [Reconciler.reconcile, hUnfiled]
      rfl
    exact ⟨_, _, _, hRun, rfl⟩
  | known hFiled hKnown =>
    rw [← hLedger] at hKnown
    exact ⟨_, _, _, reconcile_of_known hFiled hKnown, rfl⟩
  | opened hFiled hNew hEnds hOpened =>
    have hNew' := hNew
    rw [← hLedger] at hNew'
    -- a sheet that was opened in the first tree can be opened in every tree of its frame
    obtain ⟨opened₂, t₂', hOpened'⟩ :=
      (h.add q.literals hNew hNew').exists_sheetOpened hUnlinked hFrame hOpened
    have hStep := reconcile_of_opened hFiled hNew' hEnds (openSheet_of_sheetOpened hOpened')
    exact ⟨_, _, _, hStep, rfl⟩
  | endless | failed => cases hOk

end TwinReconcilers

section

variable {e₁ e₂ e₁' : Emitted Handle}

theorem TwinEmitted.exists_carried (h : TwinEmitted first second made e₁ e₂)
    (hUnlinked : t₁.Unlinked) (hFrame : SameFrame t₁ t₂) {event : Event}
    (hStep : Carried event e₁ t₁ e₁' t₁') : ∃ e₂' t₂', Carried event e₂ t₂ e₂' t₂' := by
  cases hStep with
  | report flaw => exact ⟨_, _, .report flaw e₂ t₂⟩
  | entry => exact ⟨_, _, .entry e₂ t₂⟩
  | block => exact ⟨_, _, .block e₂ t₂⟩
  | routine => exact ⟨_, _, .routine e₂ t₂⟩
  | enumeration hAnswers hOk =>
    obtain ⟨outcome, r₂', t₂', hRun, hOk'⟩ :=
      h.reconciler.exists_reconcile hUnlinked hFrame (reconciled_of_run hAnswers) hOk
    exact ⟨_, _, .enumeration hRun hOk'⟩

/-- **The emission again.** Where the directories are the same, the second emission goes to its end
too. -/
theorem TwinEmitted.exists_emit {events : List Event} (h : TwinEmitted first second made e₁ e₂)
    (hTrees : Twins first second made t₁ t₂) (hFrame : SameFrame t₁ t₂)
    (hEmit : (emit e₁ events : StateM FileTree _) t₁ = ((e₁', none), t₁')) :
    ∃ (e₂' : Emitted Handle) (t₂' : FileTree),
      (emit e₂ events : StateM FileTree _) t₂ = ((e₂', none), t₂') := by
  induction events generalizing made e₁ e₂ t₁ t₂ with
  | nil => exact ⟨e₂, t₂, rfl⟩
  | cons event rest ih =>
    obtain ⟨next₁, tree₁, hStep₁, hRest⟩ := carried_of_emit_cons hEmit
    obtain ⟨next₂, tree₂, hStep₂⟩ := h.exists_carried hTrees.unlinked₁ hFrame hStep₁
    obtain ⟨made', -, hTrees', hNext⟩ := h.exists_of_carried hTrees hStep₁ hStep₂
    -- both steps leave the frame of their trees, so the trees still have one frame
    have hFrame₁ := sameFrame_of_carried hTrees.unlinked₁ hStep₁
    have hFrame₂ := sameFrame_of_carried hTrees.unlinked₂ hStep₂
    obtain ⟨e₂', t₂', hEnd⟩ := ih hNext hTrees' (hFrame.after hFrame₁ hFrame₂) hRest
    exact ⟨e₂', t₂', (emit_cons_of_carried hStep₂ rest).trans hEnd⟩

end

/-! ## One run -/

variable {c : Configuration} {r : Registry} {t t' : FileTree} {report : Report}

/-- The dump is written, or none is wanted. -/
theorem dumpStep_cases {output : Path} {dump? : Option Path}
    (h : (dumpStep c r output).run t = (.ok dump?, t')) :
    (c.output.dump = true ∧ dump? = some (Dump.path output c.output.dumpFormat) ∧
        (Disk.replace (Dump.path output c.output.dumpFormat)
          (Dump.render r c.output.dumpFormat).toUTF8 : StateM FileTree _) t = (.ok (), t')) ∨
      (c.output.dump = false ∧ dump? = none ∧ t' = t) := by
  cases hWanted : c.output.dump with
  | true =>
    have hReplace := replace_of_run_dumpStep hWanted h
    refine .inl ⟨rfl, ?_, hReplace⟩
    have hRun : (dumpStep c r output).run t =
        (.ok (some (Dump.path output c.output.dumpFormat)), t') := by
      rw [dumpStep, if_pos hWanted]
      exact run_map_ok ((run_bind_ok (run_attempt_ok hReplace)).trans rfl)
    -- the step is a function of the tree, so this is the run that was given
    cases hRun.symm.trans h
    rfl
  | false =>
    rw [dumpStep, if_neg (by rw [hWanted]; exact Bool.false_ne_true)] at h
    cases h
    exact .inr ⟨rfl, rfl, rfl⟩

theorem sameFrame_of_dumpStep (hUnlinked : t.Unlinked) {output : Path} {dump? : Option Path}
    (h : (dumpStep c r output).run t = (.ok dump?, t')) : SameFrame t t' := by
  rcases dumpStep_cases h with ⟨-, -, hReplace⟩ | ⟨-, -, rfl⟩
  · exact hUnlinked.sameFrame_of_replace hReplace
  · exact .refl t'

namespace Course

theorem isAbsolute_directory (course : Course c r t report t') :
    course.directory.isAbsolute = true := by
  obtain ⟨name, hName⟩ := course.exists_fileName
  have hEnds := Path.endsIn_parent hName course.parent
  rw [← hEnds.absolute]
  exact isAbsolute_outputIn c t

theorem isAbsolute_dump (course : Course c r t report t') :
    (Dump.path (c.outputIn t) c.output.dumpFormat).isAbsolute = true := by
  obtain ⟨name, hName⟩ := course.exists_fileName
  obtain ⟨dumpName, hEnds, -⟩ := Path.endsIn_withExtension hName course.parent
    (show '/' ∉ c.output.dumpFormat.extension.toList by cases c.output.dumpFormat <;> decide)
  rw [Dump.path, hEnds.absolute]
  exact course.isAbsolute_directory

theorem unlinked_readied (course : Course c r t report t') (hUnlinked : t.Unlinked) :
    course.readied.Unlinked :=
  (furnished_of_makeDirectories course.makes).unlinked hUnlinked

/-- Once its directory is there, a run changes nothing but files. -/
theorem sameFrame_begun (course : Course c r t report t') (hUnlinked : t.Unlinked) :
    SameFrame course.readied course.begun :=
  sameFrame_of_dumpStep (course.unlinked_readied hUnlinked) course.dumpStep

theorem sameFrame_filed (course : Course c r t report t') (hUnlinked : t.Unlinked) :
    SameFrame course.readied course.filed := by
  have hBegun := course.sameFrame_begun hUnlinked
  have hUnlinked' := (course.unlinked_readied hUnlinked).ofFrame hBegun
  exact hBegun.trans (sameFrame_of_emit hUnlinked' course.emits)

theorem sameFrame_written (course : Course c r t report t') (hUnlinked : t.Unlinked) :
    SameFrame course.readied course.written := by
  have hFiled := course.sameFrame_filed hUnlinked
  have hUnlinked' := (course.unlinked_readied hUnlinked).ofFrame hFiled
  exact hFiled.trans (hUnlinked'.sameFrame_of_replace course.replaces)

theorem sameFrame_end (course : Course c r t report t') (hUnlinked : t.Unlinked) :
    SameFrame course.readied t' := by
  obtain ⟨t₁, hFinish, hKeeps⟩ := finish_keepsFiles course.emitted.reconciler course.written
  obtain rfl : t₁ = t' := congrArg Prod.snd (hFinish.symm.trans course.finishes)
  exact (course.sameFrame_written hUnlinked).trans hKeeps.frame

/-- Completing the sheets does not touch the module: it was written last, so the files of the sheets
are older. -/
theorem read_output (course : Course c r t report t') :
    t'.read (c.outputIn t) = .ok course.registered := by
  obtain ⟨l, serial, hTarget⟩ := read_eq_ok_iff.1 course.readRegistration
  have hNewest := node_of_replace course.replaces hTarget
  have hOlder : ∀ s ∈ course.emitted.reconciler.sheets, s.handle.serial ≠ serial := by
    intro s hMem
    have hBefore := course.tracked.owned.older s.handle (List.mem_map_of_mem hMem)
    rw [TreeNode.file.injEq] at hNewest
    omega
  exact read_eq_ok_iff.2 ⟨l, serial, target_of_finish hTarget hOlder course.finishes⟩

/-- **Checksums.** Each checksum of a report is that of the bytes at its path when the run ends. -/
theorem read_of_artifact (course : Course c r t report t') {a : Artifact}
    (hMem : a ∈ report.artifacts) :
    ∃ content, t'.read a.path = .ok content ∧ a.checksum = .ofBytes content := by
  have hBack : ∀ {kind paths artifacts}, ReadBack t' kind paths artifacts → a ∈ artifacts →
      ∃ content, t'.read a.path = .ok content ∧ a.checksum = .ofBytes content := by
    intro kind paths artifacts hBack hListed
    obtain ⟨-, content, hRead, hSame⟩ := hBack.ofArtifact a hListed
    exact ⟨content, hRead, congrArg Artifact.checksum hSame⟩
  rw [course.report_eq] at hMem
  rcases List.mem_append.1 hMem with hMem | hMem
  · rcases List.mem_cons.1 hMem with rfl | hMem
    · exact ⟨course.registered, course.read_output, rfl⟩
    · exact hBack course.readEnums hMem
  · exact hBack course.readDumps hMem

end Course

/-- The artifacts of paths are determined by what is read there. -/
theorem ReadBack.eq_map {kind : ArtifactKind} {paths : List Path} {artifacts : List Artifact}
    (h : ReadBack t kind paths artifacts) :
    artifacts = paths.map fun p =>
      ⟨kind, p, .ofBytes ((t.read p).toOption.getD ByteArray.empty)⟩ := by
  rw [← h.listed, List.map_map]
  refine (List.map_id artifacts).symm.trans (List.map_congr_left fun a hMem => ?_)
  obtain ⟨-, content, hRead, hSame⟩ := h.ofArtifact a hMem
  simp only [Function.comp_apply, hRead]
  exact hSame

/-! ## Two runs -/

section

variable {report₁ report₂ : Report}

/-- The paths of sheets lead to files that were created. -/
theorem placed_of_twins {ss₁ ss₂ : List (Sheet Handle)}
    (hSheets : List.Forall₂ (TwinSheets first second made) ss₁ ss₂) :
    ∀ p ∈ ss₁.map (·.path), p.isAbsolute = true ∧ place [] p ∈ made := by
  induction hSheets with
  | nil => exact nofun
  | cons hHead hRest ih =>
    rw [List.map_cons, List.forall_mem_cons]
    exact ⟨⟨hHead.absolute, hHead.placed⟩, ih⟩

theorem ReadBack.eq_of_twins {kind : ArtifactKind} {paths : List Path}
    {artifacts₁ artifacts₂ : List Artifact} (h₁ : ReadBack t₁ kind paths artifacts₁)
    (h₂ : ReadBack t₂ kind paths artifacts₂) (hTrees : Twins first second made t₁ t₂)
    (hPlaced : ∀ p ∈ paths, p.isAbsolute = true ∧ place [] p ∈ made) :
    artifacts₂ = artifacts₁ ∧ ∀ a ∈ artifacts₁, t₂.read a.path = t₁.read a.path := by
  have hReads : ∀ p ∈ paths, t₂.read p = t₁.read p := by
    intro p hMem
    obtain ⟨content₁, hRead₁, -⟩ := h₁.ofPath p hMem
    obtain ⟨content₂, hRead₂, -⟩ := h₂.ofPath p hMem
    exact hTrees.read_eq (hPlaced p hMem).1 (hPlaced p hMem).2 hRead₁ hRead₂
  constructor
  · rw [h₂.eq_map, h₁.eq_map]
    exact List.map_congr_left fun p hMem => by rw [hReads p hMem]
  · exact fun a hMem => hReads a.path (h₁.ofArtifact a hMem).1

/-- The dump is written in both runs, or in none. -/
theorem exists_twins_of_dumpStep {output : Path} {dump₁ dump₂ : Option Path}
    (hTrees : Twins first second made t₁ t₂)
    (hAbsolute : (Dump.path output c.output.dumpFormat).isAbsolute = true)
    (hStep₁ : (dumpStep c r output).run t₁ = (.ok dump₁, t₁'))
    (hStep₂ : (dumpStep c r output).run t₂ = (.ok dump₂, t₂')) :
    dump₂ = dump₁ ∧ ∃ made', Twins first second made' t₁' t₂' ∧
      ∀ p ∈ dump₁.toList, p.isAbsolute = true ∧ place [] p ∈ made' := by
  -- whether a dump is wanted is in the configuration, which both runs have
  rcases dumpStep_cases hStep₁ with ⟨hWanted, hDump₁, hReplace₁⟩ | ⟨hUnwanted, hDump₁, hSame₁⟩
  · rcases dumpStep_cases hStep₂ with ⟨-, hDump₂, hReplace₂⟩ | ⟨hUnwanted, -, -⟩
    · refine ⟨hDump₂.trans hDump₁.symm, _, hTrees.replace hAbsolute hReplace₁ hReplace₂, ?_⟩
      intro p hMem
      rw [hDump₁, Option.mem_toList, Option.some.injEq] at hMem
      rw [← hMem]
      exact ⟨hAbsolute, List.mem_cons_self⟩
    · cases hWanted.symm.trans hUnwanted
  · rcases dumpStep_cases hStep₂ with ⟨hWanted, -, -⟩ | ⟨-, hDump₂, hSame₂⟩
    · cases hWanted.symm.trans hUnwanted
    · rw [hSame₁, hSame₂, hDump₁, hDump₂]
      exact ⟨rfl, made, hTrees, nofun⟩

/-- The reconciler at the start of an emission has no sheets that could differ. -/
theorem Course.twins_start (course : Course c r t report t') :
    TwinEmitted first second made (.start course.reconciler) (.start course.reconciler) := by
  obtain ⟨stem, dir, -, hParent, hReconciler⟩ := exists_of_beside course.beside
  obtain rfl : course.directory = dir := Option.some.inj (course.parent.symm.trans hParent)
  rw [hReconciler]
  exact ⟨⟨rfl, rfl, rfl, course.isAbsolute_directory, .nil⟩, rfl, rfl⟩

theorem TwinReconcilers.mono {r₁ r₂ : Reconciler Handle}
    (h : TwinReconcilers first second made r₁ r₂) (hMore : made ⊆ made') :
    TwinReconcilers first second made' r₁ r₂ :=
  { h with sheets := h.sheets.imp fun _ _ hSheet => hSheet.mono hMore }

/-- **Two runs.** They have one report, and leave the same bytes at every path of it. -/
theorem Course.agree (course₁ : Course c r t₁ report₁ t₁') (course₂ : Course c r t₂ report₂ t₂')
    (hUnlinked₁ : t₁.Unlinked) (hUnlinked₂ : t₂.Unlinked)
    (hOutput : c.outputIn t₂ = c.outputIn t₁) :
    report₂ = report₁ ∧ ∀ a ∈ report₁.artifacts, t₂'.read a.path = t₁'.read a.path := by
  -- dump, emission, module and completion, each carried out in both runs
  have hReadied : Twins _ _ [] course₁.readied course₂.readied :=
    .start (course₁.unlinked_readied hUnlinked₁) (course₂.unlinked_readied hUnlinked₂)
  have hStep₂ := course₂.dumpStep
  have hBeside₂ := course₂.beside
  have hReplaces₂ := course₂.replaces
  rw [hOutput] at hStep₂ hBeside₂ hReplaces₂
  obtain ⟨hDump, made, hBegun, hDumped⟩ :=
    exists_twins_of_dumpStep hReadied course₁.isAbsolute_dump course₁.dumpStep hStep₂
  have hReconciler : course₂.reconciler = course₁.reconciler :=
    Except.ok.inj (hBeside₂.symm.trans course₁.beside)
  have hEmits₂ := course₂.emits
  rw [hReconciler] at hEmits₂
  obtain ⟨made', hMore, hFiled, hEmitted⟩ :=
    course₁.twins_start.exists_of_emit hBegun course₁.emits hEmits₂
  have hWritten := hFiled.replace (isAbsolute_outputIn c t₁) course₁.replaces hReplaces₂
  have hMore' : made' ⊆ place [] (c.outputIn t₁) :: made' := List.subset_cons_self _ _
  have hSheets := hEmitted.reconciler.mono hMore'
  have hEnd := hSheets.finish hWritten course₁.finishes course₂.finishes
  -- what is read back lies at places of created files
  have hReadEnums₂ := course₂.readEnums
  rw [paths_of_twins hSheets.sheets] at hReadEnums₂
  obtain ⟨hEnums, hEnumFiles⟩ :=
    course₁.readEnums.eq_of_twins hReadEnums₂ hEnd (placed_of_twins hSheets.sheets)
  have hReadDumps₂ := course₂.readDumps
  rw [hDump] at hReadDumps₂
  obtain ⟨hDumps, hDumpFiles⟩ := course₁.readDumps.eq_of_twins hReadDumps₂ hEnd fun p hMem =>
    ⟨(hDumped p hMem).1, hMore' (hMore (hDumped p hMem).2)⟩
  have hRegistered : course₂.registered = course₁.registered :=
    course₂.registered_eq.trans course₁.registered_eq.symm
  constructor
  · have hSize : course₂.emitted.reconciler.size = course₁.emitted.reconciler.size := by
      rw [Reconciler.size, Reconciler.size, hEmitted.reconciler.ledger]
    rw [course₂.report_eq, course₁.report_eq, hEmitted.counts, hSize, hOutput, hRegistered, hEnums,
      hDumps, hEmitted.flaws]
  · intro a hMem
    rw [course₁.report_eq] at hMem
    rcases List.mem_append.1 hMem with hMem | hMem
    · rcases List.mem_cons.1 hMem with rfl | hMem
      · show t₂'.read (c.outputIn t₁) = t₁'.read (c.outputIn t₁)
        rw [course₁.read_output, ← hRegistered, ← course₂.read_output,
          hOutput]
      · exact hEnumFiles a hMem
    · exact hDumpFiles a hMem

/-! ## Runs over runs -/

theorem exists_run_of_dumpStep {s begun : FileTree} {dump? : Option Path} {output : Path}
    (hDump : (dumpStep c r output).run t = (.ok dump?, begun)) (hUnlinked : t.Unlinked)
    (hFrame : SameFrame t s) :
    ∃ begun', (dumpStep c r output).run s = (.ok dump?, begun') := by
  rcases dumpStep_cases hDump with ⟨hWanted, hPath, hReplace⟩ | ⟨hUnwanted, hPath, -⟩
  · obtain ⟨begun', hReplace'⟩ := hUnlinked.exists_replace_of_frame hReplace hFrame
      (Dump.render r c.output.dumpFormat).toUTF8
    refine ⟨begun', ?_⟩
    rw [dumpStep, if_pos hWanted, hPath]
    exact run_map_ok ((run_bind_ok (run_attempt_ok hReplace')).trans rfl)
  · refine ⟨s, ?_⟩
    rw [dumpStep, if_neg (by rw [hUnwanted]; exact Bool.false_ne_true), hPath]
    rfl

/-- **A run over a run.** Where the directories of a run are, the run goes through again. -/
theorem Course.exists_rerun (course : Course c r t report t') (hUnlinked : t.Unlinked)
    {s : FileTree} (hFrame : SameFrame course.readied s) :
    ∃ report' s', (generate c r : ExceptT Failure (StateM FileTree) Report).run s =
      (.ok report', s') := by
  have hReadied := course.unlinked_readied hUnlinked
  have hUnlinked' : s.Unlinked := hReadied.ofFrame hFrame
  have hFurnished := furnished_of_makeDirectories course.makes
  have hOutput : c.outputPath (pathOf s.workingDirectory) = c.outputIn t := by
    rw [hFrame.workingDirectory, hFurnished.workingDirectory]
    rfl
  obtain ⟨stem, -, hStem, -, -⟩ := exists_of_beside course.beside
  have hDirectories := hUnlinked.makeDirectories_of_frame course.makes hFrame
  -- each step succeeds as it did, and leaves trees that correspond and have one frame
  obtain ⟨begun, hDump⟩ := exists_run_of_dumpStep course.dumpStep hReadied hFrame
  obtain ⟨-, made, hBegun, hDumped⟩ := exists_twins_of_dumpStep (.start hReadied hUnlinked')
    course.isAbsolute_dump course.dumpStep hDump
  have hBegunFrame : SameFrame course.begun begun :=
    hFrame.after (course.sameFrame_begun hUnlinked) (sameFrame_of_dumpStep hUnlinked' hDump)
  obtain ⟨emitted, filed, hEmit⟩ :=
    course.twins_start.exists_emit hBegun hBegunFrame course.emits
  obtain ⟨made', hMore, hFiled, hEmitted⟩ :=
    course.twins_start.exists_of_emit hBegun course.emits hEmit
  have hFiledFrame : SameFrame course.filed filed :=
    hBegunFrame.after (sameFrame_of_emit hBegun.unlinked₁ course.emits)
      (sameFrame_of_emit hBegun.unlinked₂ hEmit)
  obtain ⟨written, hReplace⟩ := hFiled.unlinked₁.exists_replace_of_frame course.replaces hFiledFrame
    (Module.ofRegistry c r).render.toUTF8
  have hWritten := hFiled.replace (isAbsolute_outputIn c t) course.replaces hReplace
  have hWrittenFrame : SameFrame course.written written :=
    hFiledFrame.after (hFiled.unlinked₁.sameFrame_of_replace course.replaces)
      (hFiled.unlinked₂.sameFrame_of_replace hReplace)
  have hMore' : made' ⊆ place [] (c.outputIn t) :: made' := List.subset_cons_self _ _
  have hSheets := hEmitted.reconciler.mono hMore'
  obtain ⟨s', hFinish, hKeeps⟩ := finish_keepsFiles emitted.reconciler written
  have hEnd := hSheets.finish hWritten course.finishes hFinish
  have hEndFrame : SameFrame t' s' := hWrittenFrame.after
    ((course.sameFrame_written hUnlinked).symm.trans (course.sameFrame_end hUnlinked)) hKeeps.frame
  -- and what could be read at the end can be read again
  have hOutputRead := hWritten.exists_read hWrittenFrame (isAbsolute_outputIn c t)
    List.mem_cons_self course.readRegistration
  have hEnumReads : ∀ p ∈ emitted.reconciler.sheets.map (·.path),
      ∃ content, s'.read p = .ok content := by
    rw [paths_of_twins hSheets.sheets]
    intro p hMem
    obtain ⟨content, hRead, -⟩ := course.readEnums.ofPath p hMem
    obtain ⟨hAbsolute, hPlaced⟩ := placed_of_twins hSheets.sheets p hMem
    exact hEnd.exists_read hEndFrame hAbsolute hPlaced hRead
  have hDumpReads : ∀ p ∈ course.dump?.toList, ∃ content, s'.read p = .ok content := by
    intro p hMem
    obtain ⟨content, hRead, -⟩ := course.readDumps.ofPath p hMem
    obtain ⟨hAbsolute, hPlaced⟩ := hDumped p hMem
    exact hEnd.exists_read hEndFrame hAbsolute (hMore' (hMore hPlaced)) hRead
  obtain ⟨report', hCompletes⟩ := completeRun_of_reads course.beside hEmit hReplace hOutputRead
    hFinish hEnumReads hDumpReads
  refine ⟨report', s', ?_⟩
  rw [generate_run_eq hOutput (by rw [hStem]; rfl) course.parent hDirectories hDump]
  exact hCompletes

end

/-! ## The result -/

/-- The tree after a number of runs. -/
def afterRuns (c : Configuration) (r : Registry) : Nat → FileTree → FileTree
  | 0, t => t
  | k + 1, t =>
    afterRuns c r k ((generate c r : ExceptT Failure (StateM FileTree) Report).run t).2

/-- A run that starts in the frame of an earlier one repeats it. -/
theorem Course.rerun (course : Course c r t report t') (hUnlinked : t.Unlinked) {s : FileTree}
    (hFrame : SameFrame course.readied s) :
    ∃ s', (generate c r : ExceptT Failure (StateM FileTree) Report).run s = (.ok report, s') ∧
      SameFrame course.readied s' ∧ ∀ a ∈ report.artifacts, s'.read a.path = t'.read a.path := by
  obtain ⟨report', s', hRun⟩ := course.exists_rerun hUnlinked hFrame
  obtain ⟨course'⟩ := exists_course hRun
  have hUnlinked' : s.Unlinked := (course.unlinked_readied hUnlinked).ofFrame hFrame
  have hFurnished := furnished_of_makeDirectories course.makes
  have hOutput : c.outputIn s = c.outputIn t := by
    rw [Configuration.outputIn, Configuration.outputIn, hFrame.workingDirectory,
      hFurnished.workingDirectory]
  obtain ⟨rfl, hFiles⟩ := course.agree course' hUnlinked hUnlinked' hOutput
  -- its directory was there, so it starts from the tree as it is
  have hReadied : course'.readied = s := by
    have hParent := course'.parent
    rw [hOutput, course.parent] at hParent
    have hMakes := hUnlinked.makeDirectories_of_frame course.makes hFrame
    rw [Option.some.inj hParent] at hMakes
    exact congrArg Prod.snd (course'.makes.symm.trans hMakes)
  refine ⟨s', hRun, ?_, hFiles⟩
  have hAfter := course'.sameFrame_end hUnlinked'
  rw [hReadied] at hAfter
  exact hFrame.trans hAfter

theorem Course.reruns (course : Course c r t report t') (hUnlinked : t.Unlinked) (k : Nat)
    {s : FileTree} (hFrame : SameFrame course.readied s)
    (hFiles : ∀ a ∈ report.artifacts, s.read a.path = t'.read a.path) :
    SameFrame course.readied (afterRuns c r k s) ∧
      ∀ a ∈ report.artifacts, (afterRuns c r k s).read a.path = t'.read a.path := by
  induction k generalizing s with
  | zero => exact ⟨hFrame, hFiles⟩
  | succ k ih =>
    obtain ⟨s', hRun, hFrame', hFiles'⟩ := course.rerun hUnlinked hFrame
    have hAfter : afterRuns c r (k + 1) s = afterRuns c r k s' := by rw [afterRuns, hRun]
    rw [hAfter]
    exact ih hFrame' hFiles'

/-- **Clean rewrites.** Two runs that succeed on trees without links, whatever is in them, have one
report and leave the same bytes at every path of it, and each checksum is that of these bytes. So
it is with any number of runs over the first one: each succeeds with the same report, and leaves the
same files. -/
theorem generate_rewrites (hUnlinked₁ : t₁.Unlinked) (hUnlinked₂ : t₂.Unlinked)
    (hOutput : c.outputIn t₂ = c.outputIn t₁) {report₁ report₂ : Report}
    (hRun₁ : (generate c r : ExceptT Failure (StateM FileTree) Report).run t₁ =
      (.ok report₁, t₁'))
    (hRun₂ : (generate c r : ExceptT Failure (StateM FileTree) Report).run t₂ =
      (.ok report₂, t₂')) :
    report₂ = report₁ ∧
      (∀ a ∈ report₁.artifacts, ∃ content, t₁'.read a.path = .ok content ∧
        t₂'.read a.path = .ok content ∧ a.checksum = .ofBytes content) ∧
      ∀ k, ((generate c r : ExceptT Failure (StateM FileTree) Report).run
          (afterRuns c r k t₁')).1 = .ok report₁ ∧
        ∀ a ∈ report₁.artifacts, (afterRuns c r k t₁').read a.path = t₁'.read a.path := by
  -- two runs that succeed went through the same stages
  obtain ⟨course₁⟩ := exists_course hRun₁
  obtain ⟨course₂⟩ := exists_course hRun₂
  obtain ⟨hReport, hFiles⟩ := course₁.agree course₂ hUnlinked₁ hUnlinked₂ hOutput
  refine ⟨hReport, fun a hMem => ?_, fun k => ?_⟩
  · obtain ⟨content, hRead, hChecksum⟩ := course₁.read_of_artifact hMem
    exact ⟨content, hRead, (hFiles a hMem).trans hRead, hChecksum⟩
  · -- a run leaves the frame that it found, so another one can go over it
    obtain ⟨hFrame, hAgain⟩ := course₁.reruns hUnlinked₁ k (course₁.sameFrame_end hUnlinked₁)
      fun _ _ => rfl
    obtain ⟨s', hRun, -, -⟩ := course₁.rerun hUnlinked₁ hFrame
    exact ⟨congrArg Prod.fst hRun, hAgain⟩

/-! ## A run over stale files -/

theorem unlinked_emptyProject : emptyProject.Unlinked := unlinked_of_nodes (by decide)

/-- The project with an old module and an old enumeration file. -/
def staleProject : FileTree :=
  (emptyProject.putFile ["project", "ExporterInitializer_PsetDef.rs"]
    "fn stale() {}".toUTF8).putFile ["project", "ExporterInitializer_PsetDefXEnum.rs"]
    "pub mod stale".toUTF8

theorem sameFrame_staleProject : SameFrame emptyProject staleProject := by
  have hModule : FileChange emptyProject _ _ := putFile_change
    (empty_emptyProject "ExporterInitializer_PsetDef.rs") "fn stale() {}".toUTF8
  refine hModule.sameFrame.trans (putFile_change (d := ["project"]) ?_ _).sameFrame
  rw [hModule.elsewhere _ (by decide), empty_emptyProject]

/-- The old files make no difference to a run. -/
theorem recurringRegistry_rewritten :
    ∃ report t₁ t₂,
      (generate {} recurringRegistry : ExceptT Failure (StateM FileTree) Report).run emptyProject =
        (.ok report, t₁) ∧
      (generate {} recurringRegistry : ExceptT Failure (StateM FileTree) Report).run staleProject =
        (.ok report, t₂) ∧
      ∀ a ∈ report.artifacts, t₂.read a.path = t₁.read a.path := by
  obtain ⟨report₁, t₁, hRun₁⟩ := exists_run_recurringRegistry
  obtain ⟨course⟩ := exists_course hRun₁
  -- the directory of the output is there in this project, and none has to be made
  have hReadied : course.readied = emptyProject :=
    freshOutput_emptyProject.made_eq course.parent course.makes
  obtain ⟨report₂, t₂, hRun₂⟩ := course.exists_rerun unlinked_emptyProject
    (hReadied ▸ sameFrame_staleProject)
  obtain ⟨rfl, hFiles, -⟩ := generate_rewrites unlinked_emptyProject
    (unlinked_emptyProject.ofFrame sameFrame_staleProject) rfl hRun₁ hRun₂
  refine ⟨report₂, t₁, t₂, hRun₁, hRun₂, fun a hMem => ?_⟩
  obtain ⟨content, hRead₁, hRead₂, -⟩ := hFiles a hMem
  rw [hRead₁, hRead₂]

end PropertySets
