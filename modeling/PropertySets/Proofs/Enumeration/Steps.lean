import PropertySets.Proofs.Enumeration.Run

/-!
# What one request can do

Whatever the tree is like, a request that the reconciler deals with is not filed, or is filed under
a key that is known, or brings a new key. If the enumeration of a new key can be numbered, the sheet
of its tag is open, or is created where its path was cleared, or cannot be opened. There is one case
for each, with all that is known in it.

* `SheetOpened`, `openSheet_cases` — opening the sheet of a tag.
* `Reconciled`, `reconciled_of_run` — dealing with a request.
* `code_of_reconciled` — the flaws that come of it are of two kinds.
* `finish_apply` — completing the sheets is writing them one after the other.
-/

namespace PropertySets.Enumeration

open FileTree Reconciler

variable {r r' opened : Reconciler Handle} {q : Request} {t t' : FileTree} {tag : String}

/-! ## Opening a sheet -/

/-- The sheet of a tag after it was opened: it was there, or its file is created. -/
inductive SheetOpened (r : Reconciler Handle) (tag : String) (t : FileTree) :
    Reconciler Handle → FileTree → Prop
  | there (known : r.hasSheet tag = true) : SheetOpened r tag t r t
  | created {cleared t' : FileTree} {handle : Handle} (new : r.hasSheet tag = false)
      (clears : (Disk.clear (r.pathFor tag) : StateM FileTree _) t = (.ok (), cleared))
      (creates : (Disk.create (r.pathFor tag) : StateM FileTree _) cleared = (.ok handle, t')) :
    SheetOpened r tag t ⟨r.ledger, r.directory, r.stem,
      insertSheet ⟨tag, r.pathFor tag, handle, sheetHead tag⟩ r.sheets⟩ t'

/-- To open the sheet of a tag is to find it open or to create its file, and to fail is to fail at
clearing its path or at creating the file. -/
theorem openSheet_cases {result : Except Failure (Reconciler Handle)}
    (h : (r.openSheet tag : StateM FileTree _) t = (result, t')) :
    (∃ opened, result = .ok opened ∧ SheetOpened r tag t opened t') ∨
      ∃ e, result = .error (.onDisk (r.pathFor tag) e) ∧
        ((Disk.clear (r.pathFor tag) : StateM FileTree _) t = (.error e, t') ∨
          ∃ cleared, (Disk.clear (r.pathFor tag) : StateM FileTree _) t = (.ok (), cleared) ∧
            (Disk.create (r.pathFor tag) : StateM FileTree _) cleared = (.error e, t')) := by
  cases hSheet : r.hasSheet tag with
  | true =>
    rw [openSheet_of_hasSheet hSheet] at h
    cases h
    exact .inl ⟨r, rfl, .there hSheet⟩
  | false =>
    rcases hClear : (Disk.clear (r.pathFor tag) : StateM FileTree _) t with ⟨cleared, t₁⟩
    rw [openSheet, if_neg (by rw [hSheet]; exact Bool.false_ne_true), bind_apply hClear] at h
    cases cleared with
    | error e =>
      cases h
      exact .inr ⟨e, rfl, .inl rfl⟩
    | ok =>
      -- only behind a path that was cleared a file is created
      rcases hCreate : (Disk.create (r.pathFor tag) : StateM FileTree _) t₁ with ⟨created, t₂⟩
      have hRest : ((Disk.create (r.pathFor tag) : StateM FileTree _) >>= _) t₁ = _ := h
      rw [bind_apply hCreate] at hRest
      cases created with
      | error e =>
        cases hRest
        exact .inr ⟨e, rfl, .inr ⟨t₁, rfl, hCreate⟩⟩
      | ok handle =>
        cases hRest
        exact .inl ⟨_, rfl, .created hSheet hClear hCreate⟩

theorem sheetOpened_of_run
    (h : (r.openSheet tag : StateM FileTree _) t = (.ok opened, t')) :
    SheetOpened r tag t opened t' := by
  rcases openSheet_cases h with ⟨_, hSame, hOpened⟩ | ⟨e, hFailed, -⟩
  · cases hSame
    exact hOpened
  · cases hFailed

theorem openSheet_of_sheetOpened (h : SheetOpened r tag t opened t') :
    (r.openSheet tag : StateM FileTree _) t = (.ok opened, t') := by
  cases h with
  | there known => exact openSheet_of_hasSheet known
  | created new clears creates =>
    rw [openSheet, if_neg (by rw [new]; exact Bool.false_ne_true), bind_apply clears]
    show ((Disk.create _ : StateM FileTree _) >>= _) _ = _
    rw [bind_apply creates]
    rfl

/-! ## Dealing with a request -/

/-- A request that was dealt with. -/
inductive Reconciled (r : Reconciler Handle) (q : Request) (t : FileTree) :
    Outcome → Reconciler Handle → FileTree → Prop
  | unfiled (hUnfiled : q.filingTag? = none) : Reconciled r q t ⟨.ok none, []⟩ r t
  | known {tag : String} {kept : List String} (hFiled : q.filingTag? = some tag)
      (hKnown : r.ledger.find? ⟨tag, q.name⟩ = some kept) :
    Reconciled r q t ⟨.ok (some tag), if kept = q.literals then []
      else [conflictFlaw q.source ⟨tag, q.name⟩ kept q.literals]⟩ r t
  | endless {tag : String} (hFiled : q.filingTag? = some tag)
      (hNew : r.ledger.find? ⟨tag, q.name⟩ = none) (hEndless : assign? q.literals = none) :
    Reconciled r q t ⟨.error (.onDisk (r.pathFor tag) .unreached), []⟩
      ⟨r.ledger.add _ q.literals hNew, r.directory, r.stem, r.sheets⟩ t
  | opened {tag : String} {opened : Reconciler Handle} {t' : FileTree}
      (hFiled : q.filingTag? = some tag) (hNew : r.ledger.find? ⟨tag, q.name⟩ = none)
      (hEnds : (assign? q.literals).isSome = true)
      (hOpened : SheetOpened ⟨r.ledger.add _ q.literals hNew, r.directory, r.stem, r.sheets⟩ tag t
        opened t') :
    Reconciled r q t
      ⟨.ok (some tag), collisionFlaws q.source ⟨tag, q.name⟩ (assign q.literals).moved⟩
      (opened.addBody tag (sheetBody q.name (assign q.literals).declarations)) t'
  | failed {tag : String} {failure : Failure} {t' : FileTree} (hFiled : q.filingTag? = some tag)
      (hNew : r.ledger.find? ⟨tag, q.name⟩ = none) (hEnds : (assign? q.literals).isSome = true)
      (hFails : (openSheet ⟨r.ledger.add _ q.literals hNew, r.directory, r.stem, r.sheets⟩ tag :
        StateM FileTree _) t = (.error failure, t')) :
    Reconciled r q t
      ⟨.error failure, collisionFlaws q.source ⟨tag, q.name⟩ (assign q.literals).moved⟩
      ⟨r.ledger.add _ q.literals hNew, r.directory, r.stem, r.sheets⟩ t'

theorem reconciled_of_run {outcome : Outcome}
    (h : (r.reconcile q : StateM FileTree _) t = ((outcome, r'), t')) :
    Reconciled r q t outcome r' t' := by
  cases hFiled : q.filingTag? with
  | none =>
    rw [reconcile, hFiled] at h
    cases h
    exact .unfiled hFiled
  | some tag =>
    cases hLedger : r.ledger.find? ⟨tag, q.name⟩ with
    | some kept =>
      rw [reconcile_of_known hFiled hLedger] at h
      cases h
      exact .known hFiled hLedger
    | none =>
      -- a new key is entered first, then the enumeration is numbered, then the sheet is opened
      cases hNumber : assign? q.literals with
      | none =>
        rw [reconcile_of_endless hFiled hLedger hNumber] at h
        cases h
        exact .endless hFiled hLedger hNumber
      | some numbering =>
        have hEnds : (assign? q.literals).isSome = true := by rw [hNumber]; rfl
        rcases hOpen : (openSheet ⟨r.ledger.add _ q.literals hLedger, r.directory, r.stem, r.sheets⟩
          tag : StateM FileTree _) t with ⟨result, t₁⟩
        cases result with
        | ok opened =>
          rw [reconcile_of_opened hFiled hLedger hEnds hOpen] at h
          cases h
          exact .opened hFiled hLedger hEnds (sheetOpened_of_run hOpen)
        | error failure =>
          rw [reconcile_of_failed hFiled hLedger hEnds hOpen] at h
          cases h
          exact .failed hFiled hLedger hEnds hOpen

/-- The flaws of a request tell of a conflict or of moved variants. -/
theorem code_of_reconciled {outcome : Outcome} (h : Reconciled r q t outcome r' t')
    {flaw : Diagnostic} (hMem : flaw ∈ outcome.flaws) :
    flaw.code = .conflictingEnumDefinition ∨ flaw.code = .discriminantCollision := by
  -- variants that were moved are reported in one flaw
  have hMoved : ∀ key moved, flaw ∈ collisionFlaws q.source key moved →
      flaw.code = .discriminantCollision := by
    intro key moved hFlaw
    rw [collisionFlaws] at hFlaw
    split at hFlaw
    · cases hFlaw
    · rw [List.mem_singleton.1 hFlaw]
      rfl
  cases h with
  | unfiled hUnfiled => cases hMem
  | known hFiled hKnown =>
    simp only at hMem
    split at hMem
    · cases hMem
    · rw [List.mem_singleton.1 hMem]
      exact .inl rfl
  | endless hFiled hNew hEndless => cases hMem
  | opened hFiled hNew hEnds hOpened => exact .inr (hMoved _ _ hMem)
  | failed hFiled hNew hEnds hFails => exact .inr (hMoved _ _ hMem)

/-! ## Completing the sheets -/

theorem finish_apply (r : Reconciler Handle) (t : FileTree) :
    (r.finish : StateM FileTree _) t = (r.sheets.map (·.path),
      r.sheets.foldl (fun t s => t.append s.handle (s.text ++ sheetFoot).toUTF8) t) := by
  have hAppends : ∀ (sheets : List (Sheet Handle)) (t : FileTree),
      (sheets.forM fun s => Disk.append s.handle (s.text ++ sheetFoot).toUTF8 :
        StateM FileTree Unit) t =
      ((), sheets.foldl (fun t s => t.append s.handle (s.text ++ sheetFoot).toUTF8) t) := by
    intro sheets
    induction sheets with
    | nil => exact fun t => rfl
    | cons s rest ih => exact fun t => ih (t.append s.handle (s.text ++ sheetFoot).toUTF8)
  exact (bind_apply (hAppends r.sheets t)).trans rfl

end PropertySets.Enumeration
