import PropertySets.Proofs.Disk.FlatDirectory
import PropertySets.Proofs.Enumeration.FileNames
import PropertySets.Proofs.Enumeration.Requests

/-!
# The enumeration files of a run

Requests come in any order, and the files they lead to are filled side by side. This module follows
a run from its start. Its invariant says that the ledger, the sheets and the files hold what the
requests so far come to; one request keeps it unless the file of its tag cannot be opened, or the
enumeration that it brings cannot be numbered.

* `Site`, `Filled` — where a run starts, and the invariant.
* `StepOutcome`, `reconcile_step` — one request.
* `filled_reconcileAll`, `reconcileAll_ok` — a run.
* `run_writes_files` — the files that a run leaves behind.
* `dot_stem_loses_file` — what a stem of dots does to tags with slashes.
-/

namespace PropertySets.Enumeration

/-! ## Sheets -/

namespace Reconciler

variable {H : Type}

theorem mem_insertSheet {s x : Sheet H} {ss : List (Sheet H)} :
    s ∈ insertSheet x ss ↔ s = x ∨ s ∈ ss := by
  induction ss with
  | nil => simp [insertSheet]
  | cons first rest ih =>
    rw [insertSheet]
    split
    · rw [List.mem_cons]
    · rw [List.mem_cons, ih, List.mem_cons]
      exact or_left_comm

theorem ascending_insertSheet {x : Sheet H} {ss : List (Sheet H)}
    (hAscending : ss.Pairwise (·.tag < ·.tag)) (hNew : ∀ s ∈ ss, s.tag ≠ x.tag) :
    (insertSheet x ss).Pairwise (·.tag < ·.tag) := by
  induction ss with
  | nil => exact List.pairwise_singleton _ _
  | cons first rest ih =>
    obtain ⟨hAbove, hRest⟩ := List.pairwise_cons.1 hAscending
    rw [insertSheet]
    split
    · rename_i hLess
      refine List.pairwise_cons.2 ⟨fun s hMem => ?_, hAscending⟩
      rcases List.mem_cons.1 hMem with rfl | hMem
      · exact hLess
      · exact String.lt_trans hLess (hAbove s hMem)
    · rename_i hNotLess
      refine List.pairwise_cons.2 ⟨fun s hMem => ?_,
        ih hRest fun s hMem => hNew s (List.mem_cons_of_mem _ hMem)⟩
      rcases mem_insertSheet.1 hMem with rfl | hMem
      · -- a tag that is neither less nor equal is greater
        refine Decidable.byContradiction fun hNotGreater => hNew first List.mem_cons_self ?_
        exact String.le_antisymm (String.not_lt.1 hNotLess) (String.not_lt.1 hNotGreater)
      · exact hAbove s hMem

/-- A body is added to one sheet; all sheets keep their tags and files. -/
theorem sheets_addBody (r : Reconciler H) (tag body : String) :
    (r.addBody tag body).sheets = r.sheets.map fun s =>
      ⟨s.tag, s.path, s.handle, s.text ++ if tag = s.tag then body else ""⟩ := by
  refine List.map_congr_left fun s _ => ?_
  by_cases hHere : s.tag = tag
  · rw [if_pos hHere, if_pos hHere.symm]
  · rw [if_neg hHere, if_neg (Ne.symm hHere), String.append_empty]

theorem hasSheet_eq_true_iff {r : Reconciler H} {tag : String} :
    r.hasSheet tag = true ↔ ∃ s ∈ r.sheets, s.tag = tag := by
  simp [hasSheet]

theorem hasSheet_addBody (r : Reconciler H) (tag body tag' : String) :
    (r.addBody tag body).hasSheet tag' = r.hasSheet tag' := by
  rw [hasSheet, sheets_addBody, List.any_map]
  rfl

end Reconciler

/-- A reconciler starts with nothing filed. -/
theorem exists_of_beside {H : Type} {output : Path} {r₀ : Reconciler H}
    (hBeside : Reconciler.beside output = .ok r₀) :
    ∃ stem dir, output.stem? = some stem ∧ output.parent? = some dir ∧
      r₀ = ⟨.empty, dir, stem, []⟩ := by
  rw [Reconciler.beside] at hBeside
  split at hBeside
  · cases hBeside
  · rename_i stem hStem
    obtain ⟨dir, hParent⟩ := Path.exists_parent hStem
    rw [hParent] at hBeside
    exact ⟨stem, dir, hStem, hParent, (Except.ok.inj hBeside).symm⟩

/-- A ledger that holds what requests come to under a key does so behind a new key, filed as its
request has it. -/
theorem find?_add_of_new {l : Ledger} {done : List Request} {q : Request} {key k : Key}
    (h : l.find? k = firstLiterals? done k) (hKey : q.key? = some key)
    (hNew : l.find? key = none) :
    (l.add key q.literals hNew).find? k = firstLiterals? (done ++ [q]) k := by
  rw [Ledger.find?_add, firstLiterals?_concat, ← h, hKey]
  by_cases hSame : k = key
  · rw [if_pos hSame, hSame, hNew, if_pos rfl, Option.none_or]
  · rw [if_neg hSame, if_neg fun hOther => hSame (Option.some.inj hOther).symm, Option.or_none]

/-! ## The invariant of a run -/

open FileTree Reconciler

/-- Where a run starts: a reconciler with nothing filed, and a tree in which its path leads to a
directory. -/
structure Site where
  reconciler : Reconciler Handle
  tree : FileTree
  location : Location
  leads : tree.LeadsTo reconciler.directory location
  directory : tree.node? location = some .directory
  stem : PlainStem reconciler

namespace Site

/-- The name of the file of a tag. -/
def fileName (σ : Site) (tag : String) : String := σ.reconciler.fileName tag

/-- The location of the file of a tag. -/
def fileLocation (σ : Site) (tag : String) : Location := σ.location ++ [σ.fileName tag]

/-- The tags whose files can be created. -/
def Fits (σ : Site) (tag : String) : Prop :=
  FitsName σ.reconciler.directory (σ.fileName tag)

instance (σ : Site) : DecidablePred σ.Fits := fun tag =>
  inferInstanceAs (Decidable (FitsName σ.reconciler.directory (σ.fileName tag)))

theorem names (σ : Site) {tag : String} (hTag : σ.reconciler.TagSafe tag) (hFits : σ.Fits tag) :
    σ.tree.Names (σ.reconciler.pathFor tag) σ.location (σ.fileName tag) := by
  obtain ⟨first, others, hHead⟩ := exists_headedBy σ.stem hTag
  exact σ.leads.names_join σ.directory hHead hFits

theorem resolve_error (σ : Site) {tag : String} (hTag : σ.reconciler.TagSafe tag)
    (hFits : ¬ σ.Fits tag) {t : FileTree} (hFrame : SameFrame σ.tree t)
    (hFlat : t.FlatDirectory σ.location) (last : LastName) :
    ∃ e, t.resolve last (σ.reconciler.pathFor tag) = .error e := by
  obtain ⟨first, others, hHead⟩ := exists_headedBy σ.stem hTag
  exact σ.leads.error_join σ.directory hHead hFits hFrame hFlat last

end Site

/-- What a sheet is after the requests `done`: its file is empty, and its text is what they come
to. -/
structure SheetKept (σ : Site) (done : List Request) (t : FileTree) (s : Sheet Handle) : Prop where
  fits : σ.Fits s.tag
  path : s.path = σ.reconciler.pathFor s.tag
  text : s.text = openText done s.tag
  location : s.handle.location = σ.fileLocation s.tag
  node : t.node? s.handle.location = some (.file s.handle.serial ByteArray.empty)

/-- Reconciler and tree hold what the requests `done` come to. -/
structure Filled (σ : Site) (done : List Request) (r : Reconciler Handle) (t : FileTree) :
    Prop where
  directory : r.directory = σ.reconciler.directory
  stem : r.stem = σ.reconciler.stem
  frame : SameFrame σ.tree t
  flat : t.FlatDirectory σ.location
  known : ∀ k, r.ledger.find? k = firstLiterals? done k
  numberable : Numberable done
  keys : r.ledger.entries.map (·.1) = (keysOf done).reverse
  ascending : r.sheets.Pairwise (·.tag < ·.tag)
  covered : ∀ tag, (∃ s ∈ r.sheets, s.tag = tag) ↔ ∃ k ∈ keysOf done, k.tag = tag
  kept : ∀ s ∈ r.sheets, SheetKept σ done t s

namespace Filled

variable {σ : Site} {done : List Request} {r : Reconciler Handle} {t : FileTree}

theorem start (σ : Site) (hLedger : σ.reconciler.ledger = .empty)
    (hSheets : σ.reconciler.sheets = []) (hFrame : SameFrame σ.tree t)
    (hFlat : t.FlatDirectory σ.location) : Filled σ [] σ.reconciler t where
  directory := rfl
  stem := rfl
  frame := hFrame
  flat := hFlat
  known k := by rw [hLedger]; rfl
  numberable := by rintro k literals ⟨⟩
  keys := by rw [hLedger]; rfl
  ascending := by rw [hSheets]; exact .nil
  covered tag := by simp [hSheets, keysOf]
  kept s hMem := by rw [hSheets] at hMem; cases hMem

theorem pathFor (h : Filled σ done r t) (tag : String) :
    r.pathFor tag = σ.reconciler.pathFor tag := by
  rw [Reconciler.pathFor, Reconciler.pathFor, h.directory, h.stem]

/-- The tag of a filed key has a file, so it fits. -/
theorem fits_of_mem (h : Filled σ done r t) {k : Key} (hMem : k ∈ keysOf done) : σ.Fits k.tag := by
  obtain ⟨s, hSheet, hTag⟩ := (h.covered k.tag).2 ⟨k, hMem, rfl⟩
  exact hTag ▸ (h.kept s hSheet).fits

/-- Without a new key nothing changes but the list of requests. -/
theorem concat_of_known (h : Filled σ done r t) {q : Request}
    (hKnown : ∀ k, q.key? = some k → k ∈ keysOf done) : Filled σ (done ++ [q]) r t := by
  have hKeys : keysOf (done ++ [q]) = keysOf done := keysOf_concat_of_known hKnown
  refine { h with
    known := fun k => ?_
    numberable := h.numberable.concat_of_known hKnown
    keys := ?_
    covered := ?_
    kept := fun s hMem => ?_ }
  · rw [h.known, firstLiterals?_concat_of_known hKnown]
  · rw [hKeys]
    exact h.keys
  · rw [hKeys]
    exact h.covered
  · have hSheet := h.kept s hMem
    exact { hSheet with text := by rw [hSheet.text, openText_concat_of_known hKnown] }

/-- Sheets for the tags filed so far and for `tag`, with nothing under a new key yet. -/
structure Opened (σ : Site) (done : List Request) (tag : String) (sheets : List (Sheet Handle))
    (t : FileTree) : Prop where
  frame : SameFrame σ.tree t
  flat : t.FlatDirectory σ.location
  ascending : sheets.Pairwise (·.tag < ·.tag)
  covered : ∀ tag', (∃ s ∈ sheets, s.tag = tag') ↔ (∃ k ∈ keysOf done, k.tag = tag') ∨ tag' = tag
  kept : ∀ s ∈ sheets, SheetKept σ done t s

theorem opened_of_hasSheet (h : Filled σ done r t) {tag : String} (hSheet : r.hasSheet tag = true) :
    Opened σ done tag r.sheets t := by
  refine ⟨h.frame, h.flat, h.ascending, fun tag' => ?_, h.kept⟩
  rw [h.covered]
  refine ⟨.inl, ?_⟩
  rintro (hSeen | rfl)
  · exact hSeen
  · exact (h.covered _).1 (hasSheet_eq_true_iff.1 hSheet)

/-- A new sheet takes a location that no other sheet has, so the other files stay empty. -/
theorem opened_of_fileChange (h : Filled σ done r t) {tag : String}
    (hNew : r.hasSheet tag = false) (hFits : σ.Fits tag) {t' : FileTree} {serial : Nat}
    (hChange : FileChange t t' (σ.fileLocation tag))
    (hNode : t'.node? (σ.fileLocation tag) = some (.file serial ByteArray.empty)) :
    Opened σ done tag (insertSheet ⟨tag, σ.reconciler.pathFor tag, ⟨σ.fileLocation tag, serial⟩,
      sheetHead tag⟩ r.sheets) t' := by
  have hUnseen : ∀ s ∈ r.sheets, s.tag ≠ tag := by
    intro s hMem hTag
    rw [hasSheet_eq_true_iff.2 ⟨s, hMem, hTag⟩] at hNew
    cases hNew
  refine ⟨h.frame.trans hChange.sameFrame, hChange.flat h.flat,
    ascending_insertSheet h.ascending hUnseen, fun tag' => ?_, fun s hMem => ?_⟩
  · rw [← h.covered]
    constructor
    · rintro ⟨s, hMem, rfl⟩
      rcases mem_insertSheet.1 hMem with rfl | hMem
      · exact .inr rfl
      · exact .inl ⟨s, hMem, rfl⟩
    · rintro (⟨s, hMem, hTag⟩ | rfl)
      · exact ⟨s, mem_insertSheet.2 (.inr hMem), hTag⟩
      · exact ⟨_, mem_insertSheet.2 (.inl rfl), rfl⟩
  · rcases mem_insertSheet.1 hMem with rfl | hMem
    · refine ⟨hFits, rfl, (openText_of_unseen fun k hKey hTag => ?_).symm, rfl, hNode⟩
      obtain ⟨s, hSheet, hSame⟩ := (h.covered k.tag).2 ⟨k, hKey, rfl⟩
      exact hUnseen s hSheet (hSame.trans hTag)
    · have hSheet := h.kept s hMem
      refine { hSheet with node := ?_ }
      -- different tags have different names, so the change is not at this location
      rw [hChange.elsewhere, hSheet.node]
      rw [hSheet.location]
      intro hSame
      have hName : σ.fileName s.tag = σ.fileName tag := by simpa [Site.fileLocation] using hSame
      exact hUnseen s hMem (fileName_injective hName)

/-- Once the sheet of its tag is open, a new key is filed and its enumeration written. -/
theorem concat_of_new (h : Filled σ done r t) {q : Request} {k : Key} (hKey : q.key? = some k)
    (hNew : r.ledger.find? k = none) (hEnds : (assign? q.literals).isSome = true)
    {sheets : List (Sheet Handle)} {t' : FileTree} (hOpened : Opened σ done k.tag sheets t') :
    Filled σ (done ++ [q])
      (addBody ⟨r.ledger.add k q.literals hNew, r.directory, r.stem, sheets⟩ k.tag
        (enumerationText k.name (assign q.literals).declarations)) t' := by
  -- the ledger knows the keys of the requests that are done, so this one is not among them
  have hUnfiled : k ∉ keysOf done := by
    rw [← firstLiterals?_eq_none_iff, ← h.known, hNew]
  have hKeys : keysOf (done ++ [q]) = keysOf done ++ [k] := keysOf_concat_of_new hKey hUnfiled
  refine ⟨h.directory, h.stem, hOpened.frame, hOpened.flat, fun k' => ?_,
    h.numberable.concat_of_new hEnds, ?_, ?_, fun tag => ?_, fun s hMem => ?_⟩
  · exact find?_add_of_new (h.known k') hKey hNew
  · show k :: r.ledger.entries.map (·.1) = _
    rw [h.keys, hKeys, List.reverse_append]
    rfl
  · rw [sheets_addBody, List.pairwise_map]
    exact hOpened.ascending
  · rw [sheets_addBody, hKeys]
    -- the sheets that are open have the tags of the keys, the new one included
    have hTags : (∃ s ∈ sheets, s.tag = tag) ↔ ∃ k' ∈ keysOf done ++ [k], k'.tag = tag := by
      rw [hOpened.covered]
      simp only [List.mem_append, List.mem_singleton, or_and_right, exists_or, exists_eq_left]
      exact or_congr_right eq_comm
    rw [← hTags]
    constructor
    · rintro ⟨s, hMem, rfl⟩
      obtain ⟨s', hMem', rfl⟩ := List.mem_map.1 hMem
      exact ⟨s', hMem', rfl⟩
    · rintro ⟨s, hMem, rfl⟩
      exact ⟨_, List.mem_map_of_mem hMem, rfl⟩
  · rw [sheets_addBody] at hMem
    obtain ⟨s, hOld, rfl⟩ := List.mem_map.1 hMem
    have hSheet := hOpened.kept s hOld
    refine { hSheet with text := ?_ }
    -- only the sheet of the tag grows, by the text of the new enumeration
    rw [openText_concat_of_new hKey hUnfiled, ← hSheet.text]

end Filled

/-! ## One step -/

namespace Ledger

theorem register_of_some {l : Ledger} {key : Key} {items kept : List String}
    (h : l.find? key = some kept) :
    l.register key items = (if kept = items then .duplicate else .conflict, l) := by
  rw [register]
  split
  · rename_i found hFound
    rw [h] at hFound
    obtain rfl := Option.some.inj hFound
    rfl
  · rename_i hMissing
    rw [h] at hMissing
    cases hMissing

theorem register_of_none {l : Ledger} {key : Key} {items : List String}
    (h : l.find? key = none) : l.register key items = (.first, l.add key items h) := by
  rw [register]
  split
  · rename_i found hFound
    rw [h] at hFound
    cases hFound
  · rfl

end Ledger

section

variable {σ : Site} {r : Reconciler Handle} {t : FileTree} {tag : String}

theorem openSheet_of_hasSheet (hSheet : r.hasSheet tag = true) :
    (r.openSheet tag : StateM FileTree _) t = (.ok r, t) := by
  rw [openSheet, if_pos hSheet]
  rfl

theorem openSheet_of_names {d : Location} {name : String} (hNew : r.hasSheet tag = false)
    (hNames : t.Names (r.pathFor tag) d name) (hFlat : t.FlatDirectory d) :
    ∃ t', (r.openSheet tag : StateM FileTree _) t =
        (.ok ⟨r.ledger, r.directory, r.stem, insertSheet ⟨tag, r.pathFor tag,
          ⟨d ++ [name], t.nextSerial⟩, sheetHead tag⟩ r.sheets⟩, t') ∧
      FileChange t t' (d ++ [name]) ∧
      t'.node? (d ++ [name]) = some (.file t.nextSerial ByteArray.empty) ∧
      t'.nextSerial = t.nextSerial + 1 := by
  -- whatever file has the name is removed, and another one is created in its place
  obtain ⟨t₁, hClear, hChange, hFree, hSerial⟩ := clear_of_names hNames hFlat
  have hCreate := create_of_free (hNames.ofFrame hChange.sameFrame) (hChange.flat hFlat) hFree
  rw [← hSerial]
  refine ⟨_, ?_, hChange.trans (putFile_change hFree ByteArray.empty), ?_, rfl⟩
  · rw [openSheet, if_neg (by rw [hNew]; exact Bool.false_ne_true), bind_apply hClear]
    show ((Disk.create _ : StateM FileTree _) >>= _) _ = _
    rw [bind_apply hCreate]
    rfl
  · rw [node?_putFile (by simp), if_pos rfl]

theorem openSheet_of_error (hNew : r.hasSheet tag = false)
    (hError : ∀ last, ∃ e, t.resolve last (r.pathFor tag) = .error e) :
    ∃ e, e ≠ .unreached ∧
      (r.openSheet tag : StateM FileTree _) t = (.error (.onDisk (r.pathFor tag) e), t) := by
  obtain ⟨_, hFollowed⟩ := hError .followed
  obtain ⟨e, hCreated⟩ := hError .created
  refine ⟨e, ne_unreached_of_resolve hCreated, ?_⟩
  rw [openSheet, if_neg (by rw [hNew]; exact Bool.false_ne_true),
    bind_apply (clear_of_error hFollowed)]
  show ((Disk.create _ : StateM FileTree _) >>= _) _ = _
  rw [bind_apply (create_of_error hCreated)]
  rfl

theorem declarations_ne_nil {q : Request} (hFiled : q.filingTag? = some tag) :
    (assign q.literals).declarations ≠ [] := by
  have hItems : q.items ≠ [] := by
    intro hNone
    rw [Request.filingTag?, hNone, List.isEmpty_nil, Bool.or_true, if_pos rfl] at hFiled
    cases hFiled
  rw [← List.length_pos_iff, length_assign, Request.literals, List.length_map]
  exact List.length_pos_iff.2 hItems

theorem reconcile_of_known {q : Request} {kept : List String} (hFiled : q.filingTag? = some tag)
    (hKnown : r.ledger.find? ⟨tag, q.name⟩ = some kept) :
    (r.reconcile q : StateM FileTree _) t = ((⟨.ok (some tag), if kept = q.literals then []
      else [conflictFlaw q.source ⟨tag, q.name⟩ kept q.literals]⟩, r), t) := by
  rw [reconcile, hFiled]
  simp only [Ledger.register_of_some hKnown]
  by_cases hSame : kept = q.literals
  · rw [if_pos hSame, if_pos hSame]
    rfl
  · rw [if_neg hSame, if_neg hSame]
    simp only [hKnown]
    rfl

/-- A numbering that goes on for ever keeps the run from opening the file. -/
theorem reconcile_of_endless {q : Request} (hFiled : q.filingTag? = some tag)
    (hNew : r.ledger.find? ⟨tag, q.name⟩ = none) (hEndless : assign? q.literals = none) :
    (r.reconcile q : StateM FileTree _) t =
      ((⟨.error (.onDisk (r.pathFor tag) .unreached), []⟩,
        ⟨r.ledger.add _ q.literals hNew, r.directory, r.stem, r.sheets⟩), t) := by
  rw [reconcile, hFiled]
  simp only [Ledger.register_of_none hNew, hEndless]
  rfl

theorem reconcile_of_opened {q : Request} {opened : Reconciler Handle} {t' : FileTree}
    (hFiled : q.filingTag? = some tag) (hNew : r.ledger.find? ⟨tag, q.name⟩ = none)
    (hEnds : (assign? q.literals).isSome = true)
    (hOpen : (openSheet ⟨r.ledger.add _ q.literals hNew, r.directory, r.stem, r.sheets⟩ tag :
      StateM FileTree _) t = (.ok opened, t')) :
    (r.reconcile q : StateM FileTree _) t =
      ((⟨.ok (some tag), collisionFlaws q.source ⟨tag, q.name⟩ (assign q.literals).moved⟩,
        opened.addBody tag (sheetBody q.name (assign q.literals).declarations)), t') := by
  rw [reconcile, hFiled]
  simp only [Ledger.register_of_none hNew, assign?_of_isSome hEnds]
  rw [bind_apply hOpen]
  rfl

/-- The first request under a tag creates the file of the tag, and is filed. -/
theorem reconcile_of_names {q : Request} {d : Location} {name : String}
    (hFiled : q.filingTag? = some tag) (hNew : r.ledger.find? ⟨tag, q.name⟩ = none)
    (hEnds : (assign? q.literals).isSome = true) (hSheet : r.hasSheet tag = false)
    (hNames : t.Names (r.pathFor tag) d name) (hFlat : t.FlatDirectory d) :
    ∃ r' t', (r.reconcile q : StateM FileTree _) t =
        ((⟨.ok (some tag), collisionFlaws q.source ⟨tag, q.name⟩ (assign q.literals).moved⟩, r'),
          t') ∧
      r'.ledger = r.ledger.add _ q.literals hNew ∧ (∀ other, r'.pathFor other = r.pathFor other) ∧
      r'.sheets = (insertSheet ⟨tag, r.pathFor tag, ⟨d ++ [name], t.nextSerial⟩, sheetHead tag⟩
        r.sheets).map (fun s => ⟨s.tag, s.path, s.handle, s.text ++ if tag = s.tag then
          sheetBody q.name (assign q.literals).declarations else ""⟩) ∧
      FileChange t t' (d ++ [name]) ∧
      t'.node? (d ++ [name]) = some (.file t.nextSerial ByteArray.empty) ∧
      t'.nextSerial = t.nextSerial + 1 := by
  obtain ⟨t', hOpen, hChange, hNode, hSerial⟩ := openSheet_of_names
    (r := ⟨r.ledger.add _ q.literals hNew, r.directory, r.stem, r.sheets⟩) hSheet hNames hFlat
  exact ⟨_, t', reconcile_of_opened hFiled hNew hEnds hOpen, rfl, fun _ => rfl,
    sheets_addBody _ _ _, hChange, hNode, hSerial⟩

theorem reconcile_of_failed {q : Request} {failure : Failure} {t' : FileTree}
    (hFiled : q.filingTag? = some tag) (hNew : r.ledger.find? ⟨tag, q.name⟩ = none)
    (hEnds : (assign? q.literals).isSome = true)
    (hOpen : (openSheet ⟨r.ledger.add _ q.literals hNew, r.directory, r.stem, r.sheets⟩ tag :
      StateM FileTree _) t = (.error failure, t')) :
    (r.reconcile q : StateM FileTree _) t =
      ((⟨.error failure, collisionFlaws q.source ⟨tag, q.name⟩ (assign q.literals).moved⟩,
        ⟨r.ledger.add _ q.literals hNew, r.directory, r.stem, r.sheets⟩), t') := by
  rw [reconcile, hFiled]
  simp only [Ledger.register_of_none hNew, assign?_of_isSome hEnds]
  rw [bind_apply hOpen]
  rfl

/-- What can come of a request after the requests `done`: it is answered as expected and the
invariant goes on; or it stops at the file of its tag, which does not fit; or it goes on for ever,
since its enumeration is new and cannot be numbered. -/
inductive StepOutcome (σ : Site) (done : List Request) (r : Reconciler Handle) (q : Request)
    (t : FileTree) : Prop
  | done (r' : Reconciler Handle) (t' : FileTree)
    (run : (r.reconcile q : StateM FileTree _) t = ((expectedOutcome done q, r'), t'))
    (filled : Filled σ (done ++ [q]) r' t') (keeps : KeepsFiles t t')
  | misfit (tag : String) (e : DiskError) (flaws : Diagnostics) (r' : Reconciler Handle)
    (filed : q.filingTag? = some tag) (unfit : ¬ σ.Fits tag) (reached : e ≠ .unreached)
    (run : (r.reconcile q : StateM FileTree _) t =
      ((⟨.error (.onDisk (σ.reconciler.pathFor tag) e), flaws⟩, r'), t))
  | endless (tag : String) (r' : Reconciler Handle) (filed : q.filingTag? = some tag)
    (new : firstLiterals? done ⟨tag, q.name⟩ = none) (unnumbered : assign? q.literals = none)
    (run : (r.reconcile q : StateM FileTree _) t =
      ((⟨.error (.onDisk (σ.reconciler.pathFor tag) .unreached), []⟩, r'), t))

/-- **One request.** There are three things that can come of it; unless it is answered, the tree
stays as it was. -/
theorem reconcile_step {done : List Request} (h : Filled σ done r t) (q : Request)
    (hSafe : ∀ tag, q.filingTag? = some tag → σ.reconciler.TagSafe tag) :
    StepOutcome σ done r q t := by
  cases hFiled : q.filingTag? with
  | none =>
    have hKey : q.key? = none := by rw [Request.key?, hFiled]; rfl
    refine .done r t ?_ (h.concat_of_known fun k hSome => ?_) (.refl t)
    · rw [reconcile, expectedOutcome, hFiled, hKey]
      rfl
    · rw [hKey] at hSome
      cases hSome
  | some tag =>
    have hKey := key?_of_filingTag? hFiled
    cases hKnown : r.ledger.find? ⟨tag, q.name⟩ with
    | some kept =>
      -- a known key: the ledger answers, and no file is touched
      have hFirst : firstLiterals? done ⟨tag, q.name⟩ = some kept := by rw [← h.known, hKnown]
      refine .done r t ?_ (h.concat_of_known fun k hSome => ?_) (.refl t)
      · rw [reconcile_of_known hFiled hKnown, expectedOutcome_of_known hFiled hFirst]
      · rw [hKey] at hSome
        obtain rfl := Option.some.inj hSome
        exact mem_keysOf_of_firstLiterals? hFirst
    | none =>
      have hFirst : firstLiterals? done ⟨tag, q.name⟩ = none := by rw [← h.known, hKnown]
      let r₁ : Reconciler Handle :=
        ⟨r.ledger.add ⟨tag, q.name⟩ q.literals hKnown, r.directory, r.stem, r.sheets⟩
      have hPath : r₁.pathFor tag = σ.reconciler.pathFor tag := h.pathFor tag
      cases hNumber : assign? q.literals with
      | none =>
        refine .endless tag r₁ hFiled hFirst hNumber ?_
        rw [reconcile_of_endless hFiled hKnown hNumber, h.pathFor tag]
      | some numbering =>
        have hEnds : (assign? q.literals).isSome = true := by rw [hNumber]; rfl
        have hAnswer := expectedOutcome_of_new hFiled hFirst
        have hBody : sheetBody q.name (assign q.literals).declarations =
            enumerationText q.name (assign q.literals).declarations :=
          sheetBody_eq q.name (declarations_ne_nil hFiled)
        by_cases hSheet : r.hasSheet tag = true
        · -- the file of the tag is open
          have hStep := reconcile_of_opened (t := t) hFiled hKnown hEnds
            (openSheet_of_hasSheet hSheet)
          rw [← hAnswer, hBody] at hStep
          exact .done _ t hStep (h.concat_of_new hKey hKnown hEnds (h.opened_of_hasSheet hSheet))
            (.refl t)
        have hNew : r.hasSheet tag = false := by simpa using hSheet
        -- the file has to be opened, and whether that works depends on its name alone
        by_cases hFits : σ.Fits tag
        · have hNames := (σ.names (hSafe tag hFiled) hFits).ofFrame h.frame
          obtain ⟨t', hOpen, hChange, hNode, -⟩ :=
            openSheet_of_names (r := r₁) hNew (hPath ▸ hNames) h.flat
          have hStep := reconcile_of_opened hFiled hKnown hEnds hOpen
          rw [← hAnswer, hBody, hPath] at hStep
          exact .done _ t' hStep (h.concat_of_new hKey hKnown hEnds
            (h.opened_of_fileChange hNew hFits hChange hNode)) (.ofFileChange hChange ⟨_, _, hNode⟩)
        · obtain ⟨e, hReached, hOpen⟩ := openSheet_of_error (r := r₁) hNew
            (hPath ▸ σ.resolve_error (hSafe tag hFiled) hFits h.frame h.flat)
          rw [hPath] at hOpen
          exact .misfit tag e _ r₁ hFiled hFits hReached
            (reconcile_of_failed hFiled hKnown hEnds hOpen)

end

/-! ## A run -/

namespace Reconciler

variable {m : Type → Type} [Monad m] [Disk m]

/-- Deal with requests one after the other. -/
def reconcileAll (r : Reconciler (Disk.Handle m)) :
    List Request → m (List Outcome × Reconciler (Disk.Handle m))
  | [] => return ([], r)
  | q :: rest => do
    let (outcome, r) ← r.reconcile q
    let (outcomes, r) ← r.reconcileAll rest
    return (outcome :: outcomes, r)

end Reconciler

section

variable {σ : Site} {done : List Request} {r r' : Reconciler Handle} {t t' : FileTree}

theorem reconcileAll_cons {q : Request} {rest : List Request} {outcome : Outcome}
    (h : (r.reconcile q : StateM FileTree _) t = ((outcome, r'), t')) :
    (r.reconcileAll (q :: rest) : StateM FileTree _) t =
      ((outcome :: ((r'.reconcileAll rest : StateM FileTree _) t').1.1,
        ((r'.reconcileAll rest : StateM FileTree _) t').1.2),
        ((r'.reconcileAll rest : StateM FileTree _) t').2) := by
  rw [reconcileAll, bind_apply h]
  rfl

/-- **A run.** As long as no file fails to open, every request is answered as expected and the
invariant goes on to the end. -/
theorem filled_reconcileAll (h : Filled σ done r t) {requests : List Request}
    {outcomes : List Outcome}
    (hSafe : ∀ q ∈ requests, ∀ tag, q.filingTag? = some tag → σ.reconciler.TagSafe tag)
    (hRun : (r.reconcileAll requests : StateM FileTree _) t = ((outcomes, r'), t'))
    (hOk : ∀ outcome ∈ outcomes, outcome.result.isOk = true) :
    Filled σ (done ++ requests) r' t' ∧ outcomes = expectedOutcomes done requests := by
  -- the requests done so far grow along the run, and so does what the reconciler holds
  induction requests generalizing done r t outcomes with
  | nil =>
    have hEnd : (([], r), t) = ((outcomes, r'), t') := hRun
    cases hEnd
    rw [List.append_nil]
    exact ⟨h, rfl⟩
  | cons q rest ih =>
    cases reconcile_step h q (hSafe q List.mem_cons_self) with
    | done r₁ t₁ hStep hFilled _ =>
      rw [reconcileAll_cons hStep] at hRun
      cases hRun
      obtain ⟨hEnd, hAnswers⟩ := ih hFilled (fun q' hMem => hSafe q' (List.mem_cons_of_mem _ hMem))
        rfl fun outcome hMem => hOk outcome (List.mem_cons_of_mem _ hMem)
      rw [List.append_assoc] at hEnd
      exact ⟨hEnd, by rw [expectedOutcomes, ← hAnswers]⟩
    | misfit tag e flaws r₁ _ _ _ hStep =>
      -- a failed opening shows in the outcomes
      rw [reconcileAll_cons hStep] at hRun
      cases hRun
      exact absurd (hOk _ List.mem_cons_self) Bool.false_ne_true
    | endless tag r₁ _ _ _ hStep =>
      -- and so does a numbering that goes on for ever
      rw [reconcileAll_cons hStep] at hRun
      cases hRun
      exact absurd (hOk _ List.mem_cons_self) Bool.false_ne_true

/-- If the tags of all requests fit and their enumerations can be numbered, no file of the run fails
to open. -/
theorem reconcileAll_ok (h : Filled σ done r t) {requests : List Request}
    (hSafe : ∀ q ∈ requests, ∀ tag, q.filingTag? = some tag → σ.reconciler.TagSafe tag)
    (hFits : ∀ q ∈ requests, ∀ tag, q.filingTag? = some tag → σ.Fits tag)
    (hEnds : ∀ q ∈ requests, (assign? q.literals).isSome = true) :
    ∀ outcome ∈ ((r.reconcileAll requests : StateM FileTree _) t).1.1,
      outcome.result.isOk = true := by
  -- each step leaves a state of the same form, so the induction is for all of them
  induction requests generalizing done r t with
  | nil => exact fun _ hMem => absurd hMem List.not_mem_nil
  | cons q rest ih =>
    cases reconcile_step h q (hSafe q List.mem_cons_self) with
    | done r₁ t₁ hStep hFilled _ =>
      rw [reconcileAll_cons hStep]
      intro outcome hMem
      rcases List.mem_cons.1 hMem with rfl | hMem
      · exact expectedOutcome_isOk done q
      · exact ih hFilled (fun q' hRest => hSafe q' (List.mem_cons_of_mem _ hRest))
          (fun q' hRest => hFits q' (List.mem_cons_of_mem _ hRest))
          (fun q' hRest => hEnds q' (List.mem_cons_of_mem _ hRest)) outcome hMem
    | misfit tag _ _ _ hFiled hMisfit _ _ =>
      exact absurd (hFits q List.mem_cons_self tag hFiled) hMisfit
    | endless _ _ _ _ hEndless _ =>
      exact absurd hEndless (Option.isSome_iff_ne_none.1 (hEnds q List.mem_cons_self))

/-- Texts written to different files one after the other: every file ends up with its own. -/
theorem append_all (content : Sheet Handle → ByteArray) {sheets : List (Sheet Handle)}
    (hBelow : ∀ s ∈ sheets, s.handle.location ≠ [])
    (hEmpty : ∀ s ∈ sheets,
      t.node? s.handle.location = some (.file s.handle.serial ByteArray.empty))
    (hDistinct : sheets.Pairwise fun s s' => s.handle.location ≠ s'.handle.location) :
    ∃ t', (sheets.forM fun s => Disk.append s.handle (content s) : StateM FileTree Unit) t =
        ((), t') ∧
      SameFrame t t' ∧ (∀ d, t.FlatDirectory d → t'.FlatDirectory d) ∧
      (∀ l, (∀ s ∈ sheets, s.handle.location ≠ l) → t'.node? l = t.node? l) ∧
      ∀ s ∈ sheets, t'.node? s.handle.location = some (.file s.handle.serial (content s)) := by
  induction sheets generalizing t with
  | nil => exact ⟨t, rfl, .refl t, fun _ hFlat => hFlat, fun _ _ => rfl, nofun⟩
  | cons s rest ih =>
    obtain ⟨hApart, hDistinct⟩ := List.pairwise_cons.1 hDistinct
    obtain ⟨t₁, hAppend, hChange, hWritten⟩ := append_of_node (hBelow s List.mem_cons_self)
      (hEmpty s List.mem_cons_self) (content s)
    rw [ByteArray.empty_append] at hWritten
    -- the first write leaves the other files empty, as the rest needs them
    obtain ⟨t₂, hRest, hFrame, hFlat, hElsewhere, hContents⟩ := ih (t := t₁)
      (fun s' hMem => hBelow s' (List.mem_cons_of_mem _ hMem))
      (fun s' hMem => by
        rw [hChange.elsewhere _ (Ne.symm (hApart s' hMem))]
        exact hEmpty s' (List.mem_cons_of_mem _ hMem)) hDistinct
    refine ⟨t₂, ?_, hChange.sameFrame.trans hFrame, fun d h => hFlat d (hChange.flat h),
      fun l hOther => ?_, fun s' hMem => ?_⟩
    · exact (bind_apply hAppend).trans hRest
    · rw [hElsewhere l fun s' hMem => hOther s' (List.mem_cons_of_mem _ hMem),
        hChange.elsewhere l (Ne.symm (hOther s List.mem_cons_self))]
    · rcases List.mem_cons.1 hMem with rfl | hMem
      · rw [hElsewhere _ fun s'' hLater => Ne.symm (hApart s'' hLater), hWritten]
      · exact hContents s' hMem

theorem Filled.distinct (h : Filled σ done r t) :
    r.sheets.Pairwise fun s s' => s.handle.location ≠ s'.handle.location := by
  refine h.ascending.imp_of_mem fun {s s'} hMem hMem' hLess hSame => ?_
  rw [(h.kept s hMem).location, (h.kept s' hMem').location] at hSame
  have hName : σ.fileName s.tag = σ.fileName s'.tag := by simpa [Site.fileLocation] using hSame
  rw [fileName_injective hName] at hLess
  exact String.lt_irrefl _ hLess

/-- The path of a sheet names its file. -/
theorem Filled.names_of_mem (h : Filled σ done r t)
    (hSafe : ∀ q ∈ done, ∀ tag, q.filingTag? = some tag → σ.reconciler.TagSafe tag)
    {s : Sheet Handle} (hMem : s ∈ r.sheets) :
    σ.tree.Names (σ.reconciler.pathFor s.tag) σ.location (σ.fileName s.tag) := by
  obtain ⟨q, hRequest, hFiled⟩ := exists_mem_keysOf_iff.1 ((h.covered s.tag).1 ⟨s, hMem, rfl⟩)
  exact σ.names (hSafe q hRequest s.tag hFiled) (h.kept s hMem).fits

/-- The files at the end of a run. -/
theorem Filled.finish (h : Filled σ done r t)
    (hSafe : ∀ q ∈ done, ∀ tag, q.filingTag? = some tag → σ.reconciler.TagSafe tag) :
    ∃ t', (r.finish : StateM FileTree _) t =
        (r.sheets.map fun s => σ.reconciler.pathFor s.tag, t') ∧
      ∀ s ∈ r.sheets, t'.read (σ.reconciler.pathFor s.tag) = .ok (fileText done s.tag).toUTF8 := by
  -- the files are at different locations, so no footer disturbs another file
  obtain ⟨t', hAppend, hFrame, hFlat, -, hContents⟩ := append_all
    (fun s => (s.text ++ sheetFoot).toUTF8)
    (fun s hMem => by rw [(h.kept s hMem).location]; simp [Site.fileLocation])
    (fun s hMem => (h.kept s hMem).node) h.distinct
  refine ⟨t', ?_, fun s hMem => ?_⟩
  · refine (bind_apply hAppend).trans ?_
    show (r.sheets.map (·.path), t') = _
    rw [List.map_congr_left fun s hMem => (h.kept s hMem).path]
  · have hSheet := h.kept s hMem
    have hNames := h.names_of_mem hSafe hMem
    have hNode := hContents s hMem
    rw [hSheet.location] at hNode
    rw [read_of_node (hNames.ofFrame (h.frame.trans hFrame)) (hFlat _ h.flat) hNode, hSheet.text]
    rfl

end

/-- **The enumeration files of a run.** Let `output` have a stem, let the files be placed in a
directory that holds nothing but files, and let no file of a run of requests fail to open. Then

1. the run ends with one path for each tag that something was filed under, in ascending order;
2. the file of a tag is its head, then one enumeration for each key of the tag in the order of the
   keys' first requests, declared as that first request has it, then one closing line;
3. the number of enumerations is the number of keys;
4. every request is answered by comparing it with the first one under its key.

If the stem is only dots that stand for a directory, the tags have to do without slashes. -/
theorem run_writes_files {output : Path} {r₀ r : Reconciler Handle} {requests : List Request}
    {outcomes : List Outcome} {t t₁ : FileTree} {d : Location}
    (hOutput : beside output = .ok r₀) (hLeads : t.LeadsTo r₀.directory d)
    (hFlat : t.FlatDirectory d)
    (hSafe : ∀ q ∈ requests, ∀ tag, q.filingTag? = some tag → r₀.TagSafe tag)
    (hRun : (r₀.reconcileAll requests : StateM FileTree _) t = ((outcomes, r), t₁))
    (hOk : ∀ outcome ∈ outcomes, outcome.result.isOk = true) :
    ∃ (tags : List String) (t₂ : FileTree),
      (r.finish : StateM FileTree _) t₁ = (tags.map r₀.pathFor, t₂) ∧
      tags.Pairwise (· < ·) ∧
      (∀ tag, tag ∈ tags ↔ ∃ q ∈ requests, q.filingTag? = some tag) ∧
      (∀ tag ∈ tags, t₂.read (r₀.pathFor tag) = .ok (fileText requests tag).toUTF8) ∧
      r.size = (keysOf requests).length ∧
      outcomes = expectedOutcomes [] requests := by
  -- a reconciler starts with nothing filed
  obtain ⟨hLedger, hSheets⟩ : r₀.ledger = .empty ∧ r₀.sheets = [] := by
    rw [beside] at hOutput
    split at hOutput
    · cases hOutput
    · obtain rfl := Except.ok.inj hOutput
      exact ⟨rfl, rfl⟩
  let σ : Site := ⟨r₀, t, d, hLeads, hFlat.directory, .ofBeside hOutput⟩
  obtain ⟨hFilled, hAnswers⟩ :=
    filled_reconcileAll (Filled.start σ hLedger hSheets (.refl t) hFlat) hSafe hRun hOk
  obtain ⟨t₂, hFinish, hRead⟩ := hFilled.finish hSafe
  refine ⟨r.sheets.map (·.tag), t₂, ?_, List.pairwise_map.2 hFilled.ascending, fun tag => ?_,
    fun tag hMem => ?_, ?_, hAnswers⟩
  · rw [hFinish, List.map_map]
    rfl
  · rw [List.mem_map, hFilled.covered]
    exact exists_mem_keysOf_iff
  · obtain ⟨s, hSheet, rfl⟩ := List.mem_map.1 hMem
    exact hRead s hSheet
  · have hLength := congrArg List.length hFilled.keys
    rw [List.length_map, List.length_reverse] at hLength
    exact hLength

/-- A directory with a stale file in it. -/
def staleTree : FileTree :=
  ⟨[(["project"], .directory), (["project", "GenIFC2X2Enum.rs"], .file 0 "stale".toUTF8)], 1,
    ["project"]⟩

/-- An enumeration that comes up twice under one tag, and once under another. -/
def sampleRequests : List Request :=
  [⟨"IFC2X2", "IFC2X2", "PEnum_Side", [⟨"LEFT", []⟩, ⟨"RIGHT", []⟩], "Pset_A@IFC2X2"⟩,
    ⟨"IFC2X3TC1", "IFC2X3", "PEnum_Side", [⟨"LEFT", []⟩], "Pset_A@IFC2X3"⟩,
    ⟨"IFC2X2", "IFC2X2", "PEnum_Side", [⟨"UP", []⟩], "Pset_B@IFC2X2"⟩]

theorem leadsTo_staleTree : staleTree.LeadsTo ⟨""⟩ ["project"] := by
  rw [LeadsTo, show route ⟨""⟩ = [] by decide, walk_nil]
  rfl

theorem flat_staleTree : staleTree.FlatDirectory ["project"] :=
  flatDirectory_of_nodes rfl (by decide)

/-- The site of files beside `Gen.rs`. -/
def staleSite : Site :=
  ⟨⟨.empty, ⟨""⟩, "Gen", []⟩, staleTree, ["project"], leadsTo_staleTree, flat_staleTree.directory,
    by decide, by decide⟩

theorem tagSafe_staleSite (tag : String) : staleSite.reconciler.TagSafe tag :=
  tagSafe_of_plainStem staleSite.stem fun hDots => by simp [staleSite] at hDots

theorem sampleRun_ok :
    ∀ outcome ∈ ((staleSite.reconciler.reconcileAll sampleRequests : StateM FileTree _)
      staleSite.tree).1.1, outcome.result.isOk = true := by
  refine reconcileAll_ok (Filled.start staleSite rfl rfl (.refl _) flat_staleTree)
    (fun _ _ tag _ => tagSafe_staleSite tag) (fun q hMem tag hFiled => ?_) (by decide)
  have hTags : ∀ q ∈ sampleRequests,
      q.filingTag? = some "IFC2X2" ∨ q.filingTag? = some "IFC2X3TC1" := by decide
  rcases hTags q hMem with hTag | hTag
  · obtain rfl : "IFC2X2" = tag := Option.some.inj (hTag ▸ hFiled)
    decide
  · obtain rfl : "IFC2X3TC1" = tag := Option.some.inj (hTag ▸ hFiled)
    decide

/-- What is written in place of the stale file. -/
def sampleFile : String :=
  "// @generated by pset-codegen from IFC psd files. Do not edit.\n" ++
    "// Enumerations for IFC2X2\n\n#[allow(non_camel_case_types, dead_code)]\n" ++
    "pub mod ifc2x2 \x7b\n\n    #[derive(Debug, Clone, Copy, PartialEq, Eq, Hash)]\n" ++
    "    pub enum PEnum_Side \x7b\n        LEFT,\n        RIGHT\x7d\n\x7d\n"

/-- The stale file gives way to the literals that came first. -/
theorem sample_run_writes_file :
    ∃ outcomes r t₁ paths t₂,
      (staleSite.reconciler.reconcileAll sampleRequests : StateM FileTree _) staleSite.tree =
        ((outcomes, r), t₁) ∧
      (r.finish : StateM FileTree _) t₁ = (paths, t₂) ∧
      t₂.read ⟨"GenIFC2X2Enum.rs"⟩ = .ok sampleFile.toUTF8 := by
  obtain ⟨⟨⟨outcomes, r⟩, t₁⟩, hRun⟩ : ∃ x,
      (staleSite.reconciler.reconcileAll sampleRequests : StateM FileTree _) staleSite.tree = x :=
    ⟨_, rfl⟩
  have hOk := sampleRun_ok
  rw [hRun] at hOk
  have hOutput : beside ⟨"Gen.rs"⟩ = .ok staleSite.reconciler := rfl
  obtain ⟨tags, t₂, hFinish, -, hTags, hRead, -⟩ := run_writes_files hOutput leadsTo_staleTree
    flat_staleTree (fun _ _ tag _ => tagSafe_staleSite tag) hRun hOk
  have hFile := hRead "IFC2X2" ((hTags "IFC2X2").2 (by decide))
  -- the text of the file is a function of the requests alone, and is computed
  have hText : fileText sampleRequests "IFC2X2" = sampleFile := by decide +kernel
  rw [hText] at hFile
  exact ⟨outcomes, r, t₁, _, t₂, hRun, hFinish, hFile⟩

/-! ## Tags that share a file -/

/-- Two sheets whose files were created at one location, the second one in place of the first. -/
structure Ousted (s₁ s₂ : Sheet Handle) (l : Location) (t : FileTree) : Prop where
  location₁ : s₁.handle.location = l
  location₂ : s₂.handle.location = l
  serial_ne : s₂.handle.serial ≠ s₁.handle.serial
  node : t.node? l = some (.file s₂.handle.serial ByteArray.empty)

/-- The handle of the first file is dead, so only the second text is written. -/
theorem Ousted.finish {s₁ s₂ : Sheet Handle} {l : Location} {r : Reconciler Handle} {t : FileTree}
    (h : Ousted s₁ s₂ l t) (hBelow : l ≠ [])
    (hSheets : r.sheets = [s₂, s₁] ∨ r.sheets = [s₁, s₂]) :
    ∃ t', (r.finish : StateM FileTree _) t = (r.sheets.map (·.path), t') ∧ FileChange t t' l ∧
      t'.node? l = some (.file s₂.handle.serial (s₂.text ++ sheetFoot).toUTF8) := by
  let write (s : Sheet Handle) : StateM FileTree Unit :=
    Disk.append s.handle (s.text ++ sheetFoot).toUTF8
  obtain ⟨rfl, hLocation, hOther, hNode⟩ := h
  rw [← hLocation] at hNode hBelow ⊢
  obtain ⟨t', hWrite, hChange, hWritten⟩ := append_of_node hBelow hNode
    (s₂.text ++ sheetFoot).toUTF8
  rw [hLocation] at hNode hWritten
  have hAll : (r.sheets.forM write) t = ((), t') := by
    -- the dead handle writes nothing, whether it comes first or last
    rcases hSheets with hOrder | hOrder
    · rw [hOrder]
      have hDead := append_of_other (h := s₁.handle) hWritten hOther
      exact (bind_apply hWrite).trans (bind_apply (hDead _))
    · rw [hOrder]
      have hDead := append_of_other (h := s₁.handle) hNode hOther
      exact (bind_apply (hDead _)).trans (bind_apply hWrite)
  refine ⟨t', bind_apply hAll, hChange, ?_⟩
  rw [hLocation, hWritten, ByteArray.empty_append]

/-- Under the tag of the last of two requests there is nothing but that request. -/
theorem openText_of_last {q₁ q₂ : Request} {tag₁ tag₂ : String}
    (hFiled₁ : q₁.filingTag? = some tag₁) (hFiled₂ : q₂.filingTag? = some tag₂)
    (hTags : tag₁ ≠ tag₂) :
    openText [q₁, q₂] tag₂ =
      sheetHead tag₂ ++ sheetBody q₂.name (assign q₂.literals).declarations := by
  have hUnseen : ∀ k ∈ keysOf [q₁], k.tag ≠ tag₂ := by
    intro k hMem
    obtain ⟨q, hRequest, hFiled⟩ := exists_filed_of_mem_keysOf hMem
    obtain rfl := List.mem_singleton.1 hRequest
    rw [← Option.some.inj (hFiled₁.symm.trans hFiled)]
    exact hTags
  show openText ([q₁] ++ [q₂]) tag₂ = _
  rw [openText_concat_of_new (key?_of_filingTag? hFiled₂) fun hMem => hUnseen _ hMem rfl,
    openText_of_unseen hUnseen, if_pos rfl, ← sheetBody_eq _ (declarations_ne_nil hFiled₂)]

/-- Two requests whose tags are different but lead to one file: none of them fails, and the second
sheet takes the place of the first. -/
theorem exists_run_of_shared_name {r₀ : Reconciler Handle} {q₁ q₂ : Request} {tag₁ tag₂ : String}
    {t : FileTree} {d : Location} {name : String} (hLedger : r₀.ledger = .empty)
    (hSheets : r₀.sheets = []) (hFiled₁ : q₁.filingTag? = some tag₁)
    (hFiled₂ : q₂.filingTag? = some tag₂) (hTags : tag₁ ≠ tag₂)
    (hEnds : ∀ q ∈ [q₁, q₂], (assign? q.literals).isSome = true)
    (hNames₁ : t.Names (r₀.pathFor tag₁) d name) (hNames₂ : t.Names (r₀.pathFor tag₂) d name)
    (hFlat : t.FlatDirectory d) :
    ∃ outcomes r t' s₁ s₂,
      (r₀.reconcileAll [q₁, q₂] : StateM FileTree _) t = ((outcomes, r), t') ∧
      (∀ outcome ∈ outcomes, outcome.result.isOk = true) ∧ FileChange t t' (d ++ [name]) ∧
      (r.sheets = [s₂, s₁] ∨ r.sheets = [s₁, s₂]) ∧
      s₁.path = r₀.pathFor tag₁ ∧ s₂.path = r₀.pathFor tag₂ ∧
      s₂.text = openText [q₁, q₂] tag₂ ∧ Ousted s₁ s₂ (d ++ [name]) t' := by
  obtain ⟨hEnds₁, hEnds₂⟩ : (assign? q₁.literals).isSome = true ∧
      (assign? q₂.literals).isSome = true := by simpa using hEnds
  -- the first request creates the file
  have hNew₁ : r₀.ledger.find? ⟨tag₁, q₁.name⟩ = none := by rw [hLedger]; rfl
  obtain ⟨r₁, t₁, hStep₁, hLedger₁, hPath, hSheets₁, hChange₁, -, hSerial⟩ :=
    reconcile_of_names hFiled₁ hNew₁ hEnds₁ (by rw [hasSheet, hSheets]; rfl) hNames₁ hFlat
  obtain ⟨text₁, hSheets₁⟩ : ∃ text, r₁.sheets =
      [⟨tag₁, r₀.pathFor tag₁, ⟨d ++ [name], t.nextSerial⟩, text⟩] := by
    rw [hSheets₁, hSheets]
    exact ⟨_, rfl⟩
  -- the second request replaces it
  have hNew₂ : r₁.ledger.find? ⟨tag₂, q₂.name⟩ = none := by
    rw [hLedger₁, Ledger.find?_add, if_neg fun hSame => hTags (congrArg Key.tag hSame).symm,
      hLedger]
    rfl
  obtain ⟨r₂, t₂, hStep₂, -, -, hSheets₂, hChange₂, hNode₂, -⟩ :=
    reconcile_of_names hFiled₂ hNew₂ hEnds₂ (by simp [hasSheet, hSheets₁, hTags])
      (hPath tag₂ ▸ hNames₂.ofFrame hChange₁.sameFrame) (hChange₁.flat hFlat)
  let s₁ : Sheet Handle := ⟨tag₁, r₀.pathFor tag₁, ⟨d ++ [name], t.nextSerial⟩, text₁ ++ ""⟩
  let s₂ : Sheet Handle := ⟨tag₂, r₁.pathFor tag₂, ⟨d ++ [name], t₁.nextSerial⟩,
    sheetHead tag₂ ++ sheetBody q₂.name (assign q₂.literals).declarations⟩
  have hOrder : r₂.sheets = [s₂, s₁] ∨ r₂.sheets = [s₁, s₂] := by
    rw [hSheets₂, hSheets₁, insertSheet, insertSheet]
    split
    · refine .inl ?_
      rw [List.map_cons, List.map_singleton, if_pos rfl, if_neg (Ne.symm hTags)]
    · refine .inr ?_
      rw [List.map_cons, List.map_singleton, if_pos rfl, if_neg (Ne.symm hTags)]
  have hOther : t₁.nextSerial ≠ t.nextSerial := by
    rw [hSerial]
    exact Nat.succ_ne_self _
  let answer (q : Request) (tag : String) : Outcome :=
    ⟨.ok (some tag), collisionFlaws q.source ⟨tag, q.name⟩ (assign q.literals).moved⟩
  refine ⟨[answer q₁ tag₁, answer q₂ tag₂], r₂, t₂, s₁, s₂, ?_, ?_, hChange₁.trans hChange₂,
    hOrder, rfl, hPath tag₂, (openText_of_last hFiled₁ hFiled₂ hTags).symm, rfl, rfl, hOther,
    hNode₂⟩
  · rw [reconcileAll_cons hStep₁, reconcileAll_cons hStep₂]
    rfl
  · intro outcome hMem
    rcases List.mem_cons.1 hMem with rfl | hMem
    · rfl
    · rw [List.mem_singleton.1 hMem]
      rfl

/-- What was filed under the first of two such tags is lost. -/
theorem shared_name_loses_file {r₀ : Reconciler Handle} {q₁ q₂ : Request} {tag₁ tag₂ : String}
    {t : FileTree} {d : Location} {name : String} (hLedger : r₀.ledger = .empty)
    (hSheets : r₀.sheets = []) (hFiled₁ : q₁.filingTag? = some tag₁)
    (hFiled₂ : q₂.filingTag? = some tag₂) (hTags : tag₁ ≠ tag₂)
    (hEnds : ∀ q ∈ [q₁, q₂], (assign? q.literals).isSome = true)
    (hNames₁ : t.Names (r₀.pathFor tag₁) d name) (hNames₂ : t.Names (r₀.pathFor tag₂) d name)
    (hFlat : t.FlatDirectory d) :
    ∃ outcomes r t₁ paths t₂,
      (r₀.reconcileAll [q₁, q₂] : StateM FileTree _) t = ((outcomes, r), t₁) ∧
      (∀ outcome ∈ outcomes, outcome.result.isOk = true) ∧
      (r.finish : StateM FileTree _) t₁ = (paths, t₂) ∧
      t₂.read (r₀.pathFor tag₁) = .ok (fileText [q₁, q₂] tag₂).toUTF8 := by
  obtain ⟨outcomes, r, t₁, s₁, s₂, hRun, hOk, hChange, hOrder, -, -, hText, hOusted⟩ :=
    exists_run_of_shared_name hLedger hSheets hFiled₁ hFiled₂ hTags hEnds hNames₁ hNames₂ hFlat
  obtain ⟨t₂, hFinish, hWritten, hNode⟩ := hOusted.finish (by simp) hOrder
  refine ⟨outcomes, r, t₁, _, t₂, hRun, hOk, hFinish, ?_⟩
  -- the path of the first tag now leads to the file of the second one
  have hBoth := hChange.trans hWritten
  rw [read_of_node (hNames₁.ofFrame hBoth.sameFrame) (hBoth.flat hFlat) hNode, hText]
  rfl

/-! ## A stem of dots -/

/-- A relative path of a dot and a name is the name in the working directory. -/
theorem names_of_dotted {t : FileTree} {p : Path} {name : String} (hText : p.text ≠ "")
    (hTerminator : '\x00' ∉ p.text.toList) (hLength : p.text.utf8ByteSize ≤ 4095)
    (hSlash : endsInSlash p = false) (hRelative : p.isAbsolute = false)
    (hRoute : route p = [".", name]) (hName : IsEntryName name) :
    t.Names p t.workingDirectory name := by
  refine ⟨hSlash, fun t' hFrame hFlat last => ?_⟩
  rw [resolve_of_text hText hTerminator hLength, hSlash, hFrame.startOf, startOf, hRelative, hRoute,
    if_neg Bool.false_ne_true, walk_dot]
  exact walk_flat hFlat hName

/-- The reconciler for files beside `..a`, whose stem is a dot. -/
def dotReconciler : Reconciler Handle := ⟨.empty, ⟨""⟩, ".", []⟩

/-- An enumeration under a tag that starts with a slash. -/
def slashRequest : Request := ⟨"/X", "F", "A", [⟨"ONE", []⟩], "Pset_A@F"⟩

/-- An enumeration under a tag that starts with two slashes. -/
def doubleSlashRequest : Request := ⟨"//X", "F", "B", [⟨"TWO", []⟩], "Pset_B@F"⟩

/-- Beside `..a` the files of the tags `/X` and `//X` are one file: both are created without a
failure, and what was filed under the first tag is lost. -/
theorem dot_stem_loses_file :
    beside ⟨"..a"⟩ = .ok dotReconciler ∧
    staleTree.LeadsTo dotReconciler.directory ["project"] ∧ staleTree.FlatDirectory ["project"] ∧
    ∃ outcomes r t₁ paths t₂,
      (dotReconciler.reconcileAll [slashRequest, doubleSlashRequest] : StateM FileTree _)
        staleTree = ((outcomes, r), t₁) ∧
      (∀ outcome ∈ outcomes, outcome.result.isOk = true) ∧
      (r.finish : StateM FileTree _) t₁ = (paths, t₂) ∧
      t₂.read (dotReconciler.pathFor "/X") ≠
        .ok (fileText [slashRequest, doubleSlashRequest] "/X").toUTF8 := by
  refine ⟨rfl, leadsTo_staleTree, flat_staleTree, ?_⟩
  -- the stem is a dot, so what stands behind the slashes is a file in the directory itself
  have hNames₁ : staleTree.Names (dotReconciler.pathFor "/X") ["project"] "XEnum.rs" :=
    names_of_dotted (by decide) (by decide) (by decide) (by decide) (by decide) (by decide)
      ⟨by decide, by decide, by decide⟩
  have hNames₂ : staleTree.Names (dotReconciler.pathFor "//X") ["project"] "XEnum.rs" :=
    names_of_dotted (by decide) (by decide) (by decide) (by decide) (by decide) (by decide)
      ⟨by decide, by decide, by decide⟩
  obtain ⟨outcomes, r, t₁, paths, t₂, hRun, hOk, hFinish, hRead⟩ :=
    shared_name_loses_file rfl rfl (show slashRequest.filingTag? = some "/X" from rfl)
      (show doubleSlashRequest.filingTag? = some "//X" from rfl) (by decide) (by decide) hNames₁
      hNames₂ flat_staleTree
  refine ⟨outcomes, r, t₁, paths, t₂, hRun, hOk, hFinish, fun hKept => ?_⟩
  rw [hRead, Except.ok.injEq] at hKept
  have hTexts : fileText [slashRequest, doubleSlashRequest] "//X" ≠
      fileText [slashRequest, doubleSlashRequest] "/X" := by decide
  exact hTexts (String.toByteArray_inj.1 hKept)

end PropertySets.Enumeration
