import PropertySets.Proofs.Disk.OwnedFiles
import PropertySets.Proofs.Enumeration.Steps
import PropertySets.Proofs.Generation.Success
import PropertySets.Proofs.Registration.Occurrences

/-!
# What enumeration files hold

The tree that a run starts from can hold anything. Links can make two paths mean one file, and a
sheet whose file was replaced is written in vain. Still no file of a run mixes anything up: what is
read at the path of an enumeration file is the sheet of one tag as its requests have it, or the
registration module if the path leads there.

* `Tracked`, `Tracked.step` — the invariant of a run on any tree, kept by one request.
* `Course.registered_eq`, `Course.read_of_mem` — what is read back at the output and at the path of
  a sheet.
-/

namespace PropertySets

open Enumeration FileTree Registration

namespace Enumeration

open Reconciler

variable {r r' : Reconciler Handle} {done : List Request} {q : Request} {t t' : FileTree}

theorem insertSheet_perm (x : Sheet Handle) (ss : List (Sheet Handle)) :
    (insertSheet x ss).Perm (x :: ss) := by
  induction ss with
  | nil => exact .refl _
  | cons first rest ih =>
    rw [insertSheet]
    split
    · exact .refl _
    · exact (ih.cons first).trans (.swap x first rest)

/-- Reconciler and tree after the requests `done`, whatever else is in the tree: the sheets hold
what the requests come to, and their files, as far as they are still there, are empty. -/
structure Tracked (done : List Request) (r : Reconciler Handle) (t : FileTree) : Prop where
  known : ∀ k, r.ledger.find? k = firstLiterals? done k
  covered : ∀ k ∈ keysOf done, r.hasSheet k.tag = true
  text : ∀ s ∈ r.sheets, s.text = openText done s.tag
  owned : Owned t (r.sheets.map (·.handle)) (r.sheets.map (·.path))
  empty : ∀ s ∈ r.sheets, Holds t s.handle ByteArray.empty

namespace Tracked

theorem start {output : Path} {r₀ : Reconciler Handle} (hBeside : beside output = .ok r₀)
    (t : FileTree) : Tracked [] r₀ t := by
  obtain ⟨stem, dir, -, -, rfl⟩ := exists_of_beside hBeside
  exact ⟨fun k => rfl, nofun, nofun, .empty t, nofun⟩

/-- Without a new key nothing changes but the list of requests. -/
theorem concat_of_known (h : Tracked done r t) (hKnown : ∀ k, q.key? = some k → k ∈ keysOf done) :
    Tracked (done ++ [q]) r t := by
  refine { h with known := fun k => ?_, covered := ?_, text := fun s hMem => ?_ }
  · rw [h.known, firstLiterals?_concat_of_known hKnown]
  · rw [keysOf_concat_of_known hKnown]
    exact h.covered
  · rw [openText_concat_of_known hKnown]
    exact h.text s hMem

/-- When the sheet of a tag is open, the ledger is as it was, and nothing has been written into any
sheet for the request yet. -/
theorem ofSheetOpened (h : Tracked done r t) {ledger : Ledger} {tag : String}
    {opened : Reconciler Handle}
    (hOpened : SheetOpened ⟨ledger, r.directory, r.stem, r.sheets⟩ tag t opened t') :
    opened.ledger = ledger ∧ opened.hasSheet tag = true ∧
      (∀ k ∈ keysOf done, opened.hasSheet k.tag = true) ∧
      (∀ s ∈ opened.sheets, s.text = openText done s.tag) ∧
      Owned t' (opened.sheets.map (·.handle)) (opened.sheets.map (·.path)) ∧
      ∀ s ∈ opened.sheets, Holds t' s.handle ByteArray.empty := by
  cases hOpened with
  | there hThere => exact ⟨rfl, hThere, h.covered, h.text, h.owned, h.empty⟩
  | @created cleared _ handle hNew hClear hCreate =>
    let sheet : Sheet Handle := ⟨tag, r.pathFor tag, handle, sheetHead tag⟩
    -- a tag without a sheet has no key yet
    have hUnseen : ∀ k ∈ keysOf done, k.tag ≠ tag := by
      rintro k hKey rfl
      rw [← Bool.not_eq_true] at hNew
      exact hNew (h.covered k hKey)
    have hPerm : (insertSheet sheet r.sheets).Perm (sheet :: r.sheets) :=
      insertSheet_perm sheet r.sheets
    obtain ⟨hOwned, hEmpty, hOthers⟩ := owned_of_create h.owned hClear hCreate
    refine ⟨rfl, ?_, fun k hKey => ?_, fun s hMem => ?_, ?_, fun s hMem => ?_⟩
    · exact hasSheet_eq_true_iff.2 ⟨sheet, mem_insertSheet.2 (.inl rfl), rfl⟩
    · obtain ⟨s, hMem, hTag⟩ := hasSheet_eq_true_iff.1 (h.covered k hKey)
      exact hasSheet_eq_true_iff.2 ⟨s, mem_insertSheet.2 (.inr hMem), hTag⟩
    · rcases mem_insertSheet.1 hMem with rfl | hMem
      · exact (openText_of_unseen hUnseen).symm
      · exact h.text s hMem
    · have hHandles : (handle :: r.sheets.map (·.handle)).Perm
          ((insertSheet sheet r.sheets).map (·.handle)) := (hPerm.map Sheet.handle).symm
      exact hOwned.ofPerm hHandles fun p hMem => (hPerm.map Sheet.path).mem_iff.1 hMem
    · rcases mem_insertSheet.1 hMem with rfl | hMem
      · exact hEmpty
      · exact hOthers _ (List.mem_map_of_mem hMem) _ (h.empty s hMem)

/-- **One request.** A request that is answered keeps the invariant, whatever the tree is like. -/
theorem step (h : Tracked done r t) {outcome : Outcome} (hStep : Reconciled r q t outcome r' t')
    (hOk : outcome.result.isOk = true) : Tracked (done ++ [q]) r' t' := by
  cases hStep with
  | unfiled hUnfiled =>
    refine h.concat_of_known fun k hKey => ?_
    rw [Request.key?, hUnfiled] at hKey
    cases hKey
  | @known tag kept hFiled hKnown =>
    -- the ledger holds what the requests come to, so the key is not new to them either
    refine h.concat_of_known fun k hKey => ?_
    rw [key?_of_filingTag? hFiled] at hKey
    obtain rfl := Option.some.inj hKey
    rw [h.known] at hKnown
    exact mem_keysOf_of_firstLiterals? hKnown
  | endless | failed => cases hOk
  | @opened tag opened _ hFiled hNew _ hOpened =>
    have hKey := key?_of_filingTag? hFiled
    have hUnfiled : (⟨tag, q.name⟩ : Key) ∉ keysOf done := by
      rw [← firstLiterals?_eq_none_iff, ← h.known, hNew]
    -- once the sheet is open, all that is left is to add the enumeration to its text
    obtain ⟨hLedger, hHere, hCovered, hText, hOwned, hEmpty⟩ := h.ofSheetOpened hOpened
    refine ⟨fun k => ?_, fun k hMem => ?_, fun s hMem => ?_, ?_, fun s hMem => ?_⟩
    · show opened.ledger.find? k = _
      rw [hLedger]
      exact find?_add_of_new (h.known k) hKey hNew
    · rw [keysOf_concat_of_new hKey hUnfiled, List.mem_append, List.mem_singleton] at hMem
      rw [hasSheet_addBody]
      rcases hMem with hMem | rfl
      · exact hCovered k hMem
      · exact hHere
    · rw [sheets_addBody] at hMem
      obtain ⟨s, hOld, rfl⟩ := List.mem_map.1 hMem
      rw [openText_concat_of_new hKey hUnfiled, ← hText s hOld,
        ← sheetBody_eq _ (declarations_ne_nil hFiled)]
    · rw [sheets_addBody, List.map_map, List.map_map]
      exact hOwned
    · rw [sheets_addBody] at hMem
      obtain ⟨s, hOld, rfl⟩ := List.mem_map.1 hMem
      exact hEmpty s hOld

end Tracked

/-! ## Completing the sheets -/

/-- Texts written to created files one after the other: each file has its text behind what it held,
and the others hold what they held. -/
theorem holds_of_appends {handles : List Handle} {paths : List Path}
    (content : Sheet Handle → ByteArray) {sheets : List (Sheet Handle)}
    (hOwned : Owned t handles paths) (hMem : ∀ s ∈ sheets, s.handle ∈ handles)
    (hDistinct : (sheets.map (·.handle)).Pairwise fun h h' => h.serial ≠ h'.serial)
    (hEmpty : ∀ s ∈ sheets, Holds t s.handle ByteArray.empty) :
    ∃ t', (sheets.forM fun s => Disk.append s.handle (content s) : StateM FileTree Unit) t =
        ((), t') ∧
      Owned t' handles paths ∧ (∀ s ∈ sheets, Holds t' s.handle (content s)) ∧
      ∀ h held, (∀ s ∈ sheets, s.handle.serial ≠ h.serial) → Holds t h held → Holds t' h held := by
  induction sheets generalizing t with
  | nil => exact ⟨t, rfl, hOwned, nofun, fun _ _ _ hHolds => hHolds⟩
  | cons s rest ih =>
    rw [List.map_cons] at hDistinct
    obtain ⟨hApart, hDistinct⟩ := List.pairwise_cons.1 hDistinct
    -- the first write goes to a file of its own, or is lost: the others stay empty
    have hOther : ∀ s' ∈ rest, s.handle.serial ≠ s'.handle.serial := fun s' hLater =>
      hApart _ (List.mem_map_of_mem hLater)
    obtain ⟨t', hRest, hNow, hTexts, hOthers⟩ :=
      ih (hOwned.append (hMem s List.mem_cons_self) (content s))
        (fun s' hLater => hMem s' (List.mem_cons_of_mem _ hLater)) hDistinct fun s' hLater =>
          (hEmpty s' (List.mem_cons_of_mem _ hLater)).append_other (hOther s' hLater) _
    refine ⟨t', hRest, hNow, fun s' hListed => ?_, fun h held hApart hHolds => ?_⟩
    · rcases List.mem_cons.1 hListed with rfl | hLater
      · have hWritten := (hEmpty _ List.mem_cons_self).append (content s')
        rw [ByteArray.empty_append] at hWritten
        exact hOthers _ _ (fun s'' hLater => Ne.symm (hOther s'' hLater)) hWritten
      · exact hTexts s' hLater
    · have hFirst := hHolds.append_other (hApart s List.mem_cons_self) (content s)
      exact hOthers h held (fun s' hLater => hApart s' (List.mem_cons_of_mem _ hLater)) hFirst

end Enumeration

/-! ## What is read back -/

variable {c : Configuration} {r : Registry} {t t' : FileTree} {report : Report}

namespace Course

theorem tracked (course : Course c r t report t') :
    Tracked r.requests course.emitted.reconciler course.filed := by
  rw [← requests_emission c r]
  have hStart : Tracked [] (Emitted.start course.reconciler).reconciler course.begun :=
    .start course.beside _
  refine emit_preserves (fun done s t => Tracked (done.filterMap Event.request?) s.reconciler t)
    hStart ?_ course.emits
  intro done event s t s₁ t₁ hCarried hTracked
  -- only enumerations touch the reconciler and the tree
  rw [List.filterMap_append]
  cases hCarried with
  | report | entry | block | routine =>
    show Tracked (done.filterMap Event.request? ++ []) s.reconciler t
    rwa [List.append_nil]
  | enumeration hAnswers hOk => exact hTracked.step (reconciled_of_run hAnswers) hOk

/-- The path of a sheet is among the files of the report. -/
theorem exists_artifact (course : Course c r t report t') {p : Path}
    (hPath : p ∈ course.emitted.reconciler.sheets.map (·.path)) :
    ∃ a ∈ report.artifacts, a.kind = .enumeration ∧ a.path = p := by
  obtain ⟨content, -, hListed⟩ := course.readEnums.ofPath p hPath
  refine ⟨⟨.enumeration, p, .ofBytes content⟩, ?_, rfl, rfl⟩
  rw [course.report_eq]
  exact List.mem_append_left _ (List.mem_cons_of_mem _ hListed)

/-- The output is read back as the module that was written. -/
theorem registered_eq (course : Course c r t report t') :
    course.registered = (Module.ofRegistry c r).render.toUTF8 := by
  obtain ⟨handle, hOwned, hModule, -⟩ := owned_of_replace (.empty course.filed) course.replaces
  obtain ⟨h, hHandle, hHeld⟩ := hOwned.read List.mem_cons_self course.readRegistration
  obtain rfl : h = handle := List.mem_singleton.1 hHandle
  exact hHeld _ hModule

/-- What is read at the path of a sheet is the file of some tag, or the registration module. -/
theorem read_of_mem (course : Course c r t report t') {s : Sheet Handle}
    (hMem : s ∈ course.emitted.reconciler.sheets) {content : ByteArray}
    (hRead : t'.read s.path = .ok content) :
    (∃ tag, content = (fileText r.requests tag).toUTF8) ∨
      content = (Module.ofRegistry c r).render.toUTF8 := by
  have hTracked := course.tracked
  -- the module is one more file that the run created, with a handle apart from those of the sheets
  obtain ⟨handle, hOwned, hModule, hOthers⟩ := owned_of_replace hTracked.owned course.replaces
  obtain ⟨hApart, hDistinct⟩ := List.pairwise_cons.1 hOwned.distinct
  obtain ⟨t₁, hAppends, hDone, hTexts, hKept⟩ := holds_of_appends
    (fun s => (s.text ++ sheetFoot).toUTF8) hOwned
    (fun s hMem => List.mem_cons_of_mem _ (List.mem_map_of_mem hMem)) hDistinct
    fun s hMem => hOthers _ (List.mem_map_of_mem hMem) _ (hTracked.empty s hMem)
  obtain rfl : t₁ = t' := by
    have hFinish := (bind_apply hAppends).symm.trans course.finishes
    exact congrArg Prod.snd hFinish
  -- what is read is what one of these files holds at the end
  obtain ⟨h, hHandle, hHeld⟩ :=
    hDone.read (List.mem_cons_of_mem _ (List.mem_map_of_mem hMem)) hRead
  rcases List.mem_cons.1 hHandle with rfl | hHandle
  · refine .inr (hHeld _ (hKept _ _ (fun s' hMem' => ?_) hModule))
    exact Ne.symm (hApart _ (List.mem_map_of_mem hMem'))
  · obtain ⟨s', hMem', rfl⟩ := List.mem_map.1 hHandle
    refine .inl ⟨s'.tag, (hHeld _ (hTexts s' hMem')).trans ?_⟩
    rw [hTracked.text s' hMem']
    rfl

end Course

end PropertySets
