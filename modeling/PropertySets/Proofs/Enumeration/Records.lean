import Mathlib.Data.List.Induction
import PropertySets.Proofs.Enumeration.Steps

/-!
# What calls come to

A reconciler is called for one request after the other. A call enters its key in the ledger before
it opens the sheet of its tag, so a key whose first call fails is known from then on, and nothing is
ever written under it. All other keys are written as if the failed calls had not been made. This is
so on any tree: what the tree is like decides which calls fail, and nothing else.

* `Record`, `recordOf` — the requests that are written, and the keys that are lost.
* `mem_lost`, `firstLiterals?_done` — which keys are lost, and what is written under the others.
* `Accounted`, `Accounted.call` — what the reconciler holds, kept by every call.
-/

namespace PropertySets.Enumeration

open FileTree Reconciler

/-- A request and its answer. -/
abbrev Call := Request × Outcome

variable {r₀ r r' : Reconciler Handle} {t t' : FileTree} {tag : String} {q : Request}
  {calls : List Call}

/-! ## What is written and what is lost -/

/-- What calls come to: the requests that are written, and the keys that are lost. -/
structure Record where
  done : List Request
  lost : List Key

/-- One more call: its request counts if it is answered and its key is not lost. -/
def Record.add (s : Record) (c : Call) : Record :=
  if c.2.result.isOk then
    if c.1.key?.any (· ∈ s.lost) then s else ⟨s.done ++ [c.1], s.lost⟩
  else ⟨s.done, c.1.key?.toList ++ s.lost⟩

/-- What calls come to. -/
def recordOf (calls : List Call) : Record := calls.foldl Record.add ⟨[], []⟩

theorem recordOf_concat (calls : List Call) (c : Call) :
    recordOf (calls ++ [c]) = (recordOf calls).add c := by
  rw [recordOf, List.foldl_append]
  rfl

theorem Record.add_of_failed (s : Record) {c : Call} (hFailed : c.2.result.isOk = false) :
    s.add c = ⟨s.done, c.1.key?.toList ++ s.lost⟩ := by
  rw [add, if_neg (by rw [hFailed]; exact Bool.false_ne_true)]

theorem Record.add_of_lost (s : Record) {c : Call} {k : Key} (hOk : c.2.result.isOk = true)
    (hKey : c.1.key? = some k) (hLost : k ∈ s.lost) : s.add c = s := by
  rw [add, if_pos hOk, hKey, if_pos (by simpa using hLost)]

theorem Record.add_of_kept (s : Record) {c : Call} (hOk : c.2.result.isOk = true)
    (hKept : ∀ k, c.1.key? = some k → k ∉ s.lost) : s.add c = ⟨s.done ++ [c.1], s.lost⟩ := by
  have hNone : ¬ c.1.key?.any (· ∈ s.lost) = true := by
    cases hKey : c.1.key? with
    | none => simp
    | some k => simpa using hKept k hKey
  rw [add, if_pos hOk, if_neg hNone]

/-- The keys that are lost are those of the calls that failed. -/
theorem mem_lost {k : Key} :
    k ∈ (recordOf calls).lost ↔ ∃ c ∈ calls, c.2.result.isOk = false ∧ c.1.key? = some k := by
  induction calls using List.reverseRecOn with
  | nil => simp [recordOf]
  | append_singleton calls c ih =>
    rw [recordOf_concat]
    cases hOk : c.2.result.isOk with
    | false =>
      rw [Record.add_of_failed _ hOk]
      simp only [List.mem_append, Option.mem_toList, ih, List.mem_singleton,
        or_and_right, exists_or, exists_eq_left, hOk, true_and]
      exact or_comm
    | true =>
      -- an answer adds no key, whether it counts or not
      have hSame : ((recordOf calls).add c).lost = (recordOf calls).lost := by
        rw [Record.add, if_pos hOk]
        split <;> rfl
      simp only [hSame, ih, List.mem_append, List.mem_singleton, or_and_right, exists_or,
        exists_eq_left, hOk, Bool.true_eq_false, false_and, or_false]

theorem subset_done (s : Record) (c : Call) : s.done ⊆ (s.add c).done := by
  rw [Record.add]
  split
  · split
    · exact List.Subset.refl _
    · exact List.subset_append_left _ _
  · exact List.Subset.refl _

theorem subset_done_append (before after : List Call) :
    (recordOf before).done ⊆ (recordOf (before ++ after)).done := by
  induction after using List.reverseRecOn with
  | nil => rw [List.append_nil]; exact List.Subset.refl _
  | append_singleton after c ih =>
    rw [← List.append_assoc, recordOf_concat]
    exact List.Subset.trans ih (subset_done _ c)

/-- A request that is written was answered. -/
theorem exists_of_mem_done (hMem : q ∈ (recordOf calls).done) :
    ∃ c ∈ calls, c.1 = q ∧ c.2.result.isOk = true := by
  induction calls using List.reverseRecOn with
  | nil => cases hMem
  | append_singleton calls c ih =>
    -- what was done before the call stays done
    have hEarlier : q ∈ (recordOf calls).done →
        ∃ c' ∈ calls ++ [c], c'.1 = q ∧ c'.2.result.isOk = true := by
      intro hDone
      obtain ⟨c', hCall, hRest⟩ := ih hDone
      exact ⟨c', List.mem_append_left _ hCall, hRest⟩
    rw [recordOf_concat, Record.add] at hMem
    split at hMem
    · rename_i hOk
      split at hMem
      · exact hEarlier hMem
      · rcases List.mem_append.1 hMem with hDone | hHere
        · exact hEarlier hDone
        · exact ⟨c, by simp, (List.mem_singleton.1 hHere).symm, hOk⟩
    · exact hEarlier hMem

/-- Under a key that is not lost the first call of all is the first that is written. -/
theorem firstLiterals?_done {k : Key} (hKept : k ∉ (recordOf calls).lost) :
    firstLiterals? (recordOf calls).done k = firstLiterals? (calls.map (·.1)) k := by
  induction calls using List.reverseRecOn with
  | nil => rfl
  | append_singleton calls c ih =>
    rw [recordOf_concat] at hKept ⊢
    rw [List.map_append, List.map_singleton, firstLiterals?_concat]
    cases hOk : c.2.result.isOk with
    | false =>
      -- a failed call loses its own key, which is another one
      rw [Record.add_of_failed _ hOk] at hKept ⊢
      obtain ⟨hOther, hKept⟩ : c.1.key? ≠ some k ∧ k ∉ (recordOf calls).lost := by
        simpa using hKept
      rw [if_neg hOther, Option.or_none]
      exact ih hKept
    | true =>
      -- an answer does not count if its key was lost before, and then the key is another one
      by_cases hLost : ∃ k', c.1.key? = some k' ∧ k' ∈ (recordOf calls).lost
      · obtain ⟨k', hKey, hLost⟩ := hLost
        rw [Record.add_of_lost _ hOk hKey hLost] at hKept ⊢
        have hOther : c.1.key? ≠ some k := by
          rintro hSame
          rw [hKey] at hSame
          exact hKept (Option.some.inj hSame ▸ hLost)
        rw [if_neg hOther, Option.or_none]
        exact ih hKept
      · have hCounts := (recordOf calls).add_of_kept hOk fun k' hKey hMem => hLost ⟨k', hKey, hMem⟩
        rw [hCounts] at hKept ⊢
        rw [firstLiterals?_concat, ih hKept]

/-- The sheet of a tag is opened: the ledger is as it was, and there is a sheet for this tag and for
those that had one. -/
theorem hasSheet_of_sheetOpened {ledger : Ledger} {opened : Reconciler Handle}
    (hOpened : SheetOpened ⟨ledger, r.directory, r.stem, r.sheets⟩ tag t opened t') :
    opened.ledger = ledger ∧
      ∀ other, opened.hasSheet other = true ↔ r.hasSheet other = true ∨ tag = other := by
  cases hOpened with
  | there hThere =>
    refine ⟨rfl, fun other => ⟨.inl, ?_⟩⟩
    rintro (hOther | rfl)
    · exact hOther
    · exact hThere
  | created =>
    refine ⟨rfl, fun other => ?_⟩
    simp only [hasSheet_eq_true_iff, mem_insertSheet, or_and_right, exists_or, exists_eq_left]
    exact or_comm

/-! ## What the reconciler holds -/

/-- The sheets after the requests `done`, apart from their files. -/
structure Shelf (r₀ : Reconciler Handle) (done : List Request) (sheets : List (Sheet Handle)) :
    Prop where
  ascending : sheets.Pairwise (·.tag < ·.tag)
  path : ∀ s ∈ sheets, s.path = r₀.pathFor s.tag
  text : ∀ s ∈ sheets, s.text = openText done s.tag

namespace Shelf

variable {done : List Request} {sheets : List (Sheet Handle)}

/-- A tag that nothing was filed under gets an empty sheet. -/
theorem insert (h : Shelf r₀ done sheets) (hNew : ∀ s ∈ sheets, s.tag ≠ tag)
    (hUnseen : ∀ k ∈ keysOf done, k.tag ≠ tag) (handle : Handle) :
    Shelf r₀ done (insertSheet ⟨tag, r₀.pathFor tag, handle, sheetHead tag⟩ sheets) := by
  refine ⟨ascending_insertSheet h.ascending hNew, fun s hMem => ?_, fun s hMem => ?_⟩
  · rcases mem_insertSheet.1 hMem with rfl | hMem
    · rfl
    · exact h.path s hMem
  · rcases mem_insertSheet.1 hMem with rfl | hMem
    · exact (openText_of_unseen hUnseen).symm
    · exact h.text s hMem

/-- A request without a key or under a known one changes no sheet. -/
theorem concat_of_known (h : Shelf r₀ done sheets)
    (hKnown : ∀ k, q.key? = some k → k ∈ keysOf done) : Shelf r₀ (done ++ [q]) sheets := by
  refine { h with text := fun s hMem => ?_ }
  rw [openText_concat_of_known hKnown]
  exact h.text s hMem

/-- An enumeration is added to the sheet of its tag. -/
theorem addBody (h : Shelf r₀ done r.sheets) {k : Key} (hKey : q.key? = some k)
    (hNew : k ∉ keysOf done) :
    Shelf r₀ (done ++ [q])
      (r.addBody k.tag (enumerationText k.name (assign q.literals).declarations)).sheets := by
  rw [sheets_addBody]
  refine ⟨List.pairwise_map.2 h.ascending, List.forall_mem_map.2 h.path,
    List.forall_mem_map.2 fun s hMem => ?_⟩
  rw [openText_concat_of_new hKey hNew, ← h.text s hMem]

end Shelf

/-- The reconciler holds what calls come to: the ledger knows the keys of the requests that are
written, and the lost keys besides. -/
structure Accounted (r₀ : Reconciler Handle) (s : Record) (r : Reconciler Handle) : Prop where
  directory : r.directory = r₀.directory
  stem : r.stem = r₀.stem
  known : ∀ k, k ∉ s.lost → r.ledger.find? k = firstLiterals? s.done k
  entered : ∀ k ∈ s.lost, r.ledger.find? k ≠ none
  apart : ∀ k ∈ s.lost, k ∉ keysOf s.done
  covered : ∀ tag, r.hasSheet tag = true ↔ ∃ k ∈ keysOf s.done, k.tag = tag
  shelf : Shelf r₀ s.done r.sheets

namespace Accounted

variable {s : Record}

theorem ofBeside {output : Path} (hBeside : beside output = .ok r₀) :
    Accounted r₀ ⟨[], []⟩ r₀ := by
  obtain ⟨stem, dir, -, -, rfl⟩ := exists_of_beside hBeside
  exact ⟨rfl, rfl, fun _ _ => rfl, nofun, nofun, fun tag => by simp [hasSheet, keysOf],
    .nil, nofun, nofun⟩

theorem pathFor (h : Accounted r₀ s r) (tag : String) : r.pathFor tag = r₀.pathFor tag := by
  rw [Reconciler.pathFor, Reconciler.pathFor, h.directory, h.stem]

theorem mem_keysOf_iff (h : Accounted r₀ s r) {k : Key} (hKept : k ∉ s.lost) :
    k ∈ keysOf s.done ↔ r.ledger.find? k ≠ none := by
  rw [h.known k hKept, Ne, firstLiterals?_eq_none_iff, Decidable.not_not]

/-- Without a new key nothing changes but the list of requests. -/
theorem concat_of_known (h : Accounted r₀ s r)
    (hKnown : ∀ k, q.key? = some k → k ∈ keysOf s.done) :
    Accounted r₀ ⟨s.done ++ [q], s.lost⟩ r := by
  have hKeys : keysOf (s.done ++ [q]) = keysOf s.done := keysOf_concat_of_known hKnown
  refine ⟨h.directory, h.stem, fun k hKept => ?_, h.entered, fun k hLost => ?_, fun tag => ?_,
    h.shelf.concat_of_known hKnown⟩
  · rw [firstLiterals?_concat_of_known hKnown, h.known k hKept]
  · rw [hKeys]
    exact h.apart k hLost
  · rw [hKeys]
    exact h.covered tag

/-- A call that fails loses its key. -/
theorem lose (h : Accounted r₀ s r) {key : Key} (items : List String)
    (hNew : r.ledger.find? key = none) :
    Accounted r₀ ⟨s.done, key :: s.lost⟩
      ⟨r.ledger.add key items hNew, r.directory, r.stem, r.sheets⟩ := by
  have hFind : ∀ k, (r.ledger.add key items hNew).find? k =
      if k = key then some items else r.ledger.find? k := Ledger.find?_add hNew
  have hKept : key ∉ s.lost := fun hLost => h.entered key hLost hNew
  refine ⟨h.directory, h.stem, fun k hKept => ?_, fun k hLost => ?_, fun k hLost => ?_, h.covered,
    h.shelf⟩
  · obtain ⟨hOther, hKept⟩ := List.ne_and_not_mem_of_not_mem_cons hKept
    show (r.ledger.add key items hNew).find? k = _
    rw [hFind, if_neg hOther, h.known k hKept]
  · show (r.ledger.add key items hNew).find? k ≠ none
    rw [hFind]
    split
    · exact Option.some_ne_none _
    · exact h.entered k ((List.mem_cons.1 hLost).resolve_left ‹_›)
  · -- the key was new, so nothing was done under it
    rcases List.mem_cons.1 hLost with rfl | hLost
    · rw [h.mem_keysOf_iff hKept, Ne, Decidable.not_not]
      exact hNew
    · exact h.apart k hLost

/-- Once the sheet of its tag is open, a new key is filed and its enumeration written. -/
theorem concat_of_new (h : Accounted r₀ s r) {opened : Reconciler Handle}
    (hFiled : q.filingTag? = some tag) (hNew : r.ledger.find? ⟨tag, q.name⟩ = none)
    (hOpened : SheetOpened ⟨r.ledger.add _ q.literals hNew, r.directory, r.stem, r.sheets⟩ tag t
      opened t') :
    Accounted r₀ ⟨s.done ++ [q], s.lost⟩
      (opened.addBody tag (sheetBody q.name (assign q.literals).declarations)) := by
  have hKey := key?_of_filingTag? hFiled
  have hKept : (⟨tag, q.name⟩ : Key) ∉ s.lost := fun hLost => h.entered _ hLost hNew
  have hUnfiled : (⟨tag, q.name⟩ : Key) ∉ keysOf s.done := by
    rw [h.mem_keysOf_iff hKept, Ne, Decidable.not_not]
    exact hNew
  have hKeys := keysOf_concat_of_new hKey hUnfiled
  obtain ⟨hLedger, hTags⟩ := hasSheet_of_sheetOpened hOpened
  -- whether the sheet was there or is new, nothing is in it for the key yet
  obtain ⟨hDirectory, hStem, hShelf⟩ : opened.directory = r₀.directory ∧ opened.stem = r₀.stem ∧
      Shelf r₀ s.done opened.sheets := by
    cases hOpened with
    | there => exact ⟨h.directory, h.stem, h.shelf⟩
    | created hNone =>
      refine ⟨h.directory, h.stem, ?_⟩
      have hPath : r.pathFor tag = r₀.pathFor tag := h.pathFor tag
      have hOthers : ∀ s ∈ r.sheets, s.tag ≠ tag := fun s hMem hTag =>
        Bool.false_ne_true (hNone.symm.trans (hasSheet_eq_true_iff.2 ⟨s, hMem, hTag⟩))
      have hUnseen : ∀ k ∈ keysOf s.done, k.tag ≠ tag := fun k hMem hTag =>
        Bool.false_ne_true (hNone.symm.trans ((h.covered tag).2 ⟨k, hMem, hTag⟩))
      show Shelf r₀ s.done (insertSheet ⟨tag, r.pathFor tag, _, sheetHead tag⟩ r.sheets)
      rw [hPath]
      exact h.shelf.insert hOthers hUnseen _
  rw [sheetBody_eq _ (declarations_ne_nil hFiled)]
  refine ⟨hDirectory, hStem, fun k hKept => ?_, fun k hLost => ?_, fun k hLost => ?_,
    fun other => ?_, hShelf.addBody hKey hUnfiled⟩
  · show opened.ledger.find? k = _
    rw [hLedger]
    exact find?_add_of_new (h.known k hKept) hKey hNew
  · show opened.ledger.find? k ≠ none
    rw [hLedger, Ledger.find?_add]
    split
    · exact Option.some_ne_none _
    · exact h.entered k hLost
  · rw [hKeys, List.mem_append, List.mem_singleton]
    rintro (hMem | rfl)
    · exact h.apart k hLost hMem
    · exact hKept hLost
  · rw [hasSheet_addBody, hTags, h.covered, hKeys]
    simp only [List.mem_append, List.mem_singleton, or_and_right, exists_or, exists_eq_left]

/-- **One call.** Whatever comes of it on whatever tree, the reconciler holds what the calls come
to. -/
theorem call (h : Accounted r₀ s r) {outcome : Outcome} (hStep : Reconciled r q t outcome r' t') :
    Accounted r₀ (s.add (q, outcome)) r' := by
  cases hStep with
  | unfiled hUnfiled =>
    have hKey : q.key? = none := by rw [Request.key?, hUnfiled]; rfl
    rw [s.add_of_kept (c := (q, _)) rfl fun k hSome => by cases hKey.symm.trans hSome]
    exact h.concat_of_known fun k hSome => by cases hKey.symm.trans hSome
  | @known tag kept hFiled hKnown =>
    have hKey := key?_of_filingTag? hFiled
    by_cases hLost : (⟨tag, q.name⟩ : Key) ∈ s.lost
    · -- the key is known to the ledger alone, and nothing is written under it
      rw [s.add_of_lost (c := (q, _)) rfl hKey hLost]
      exact h
    · rw [s.add_of_kept (c := (q, _)) rfl fun k hSome => by
        obtain rfl := Option.some.inj (hKey.symm.trans hSome)
        exact hLost]
      refine h.concat_of_known fun k hSome => ?_
      obtain rfl := Option.some.inj (hKey.symm.trans hSome)
      rw [h.mem_keysOf_iff hLost, hKnown]
      exact Option.some_ne_none _
  | @opened tag opened _ hFiled hNew _ hOpened =>
    rw [s.add_of_kept (c := (q, _)) rfl fun k hSome => by
      obtain rfl := Option.some.inj ((key?_of_filingTag? hFiled).symm.trans hSome)
      exact fun hLost => h.entered _ hLost hNew]
    exact h.concat_of_new hFiled hNew hOpened
  | @endless tag hFiled hNew _ | @failed tag _ _ hFiled hNew _ _ =>
    rw [s.add_of_failed (c := (q, _)) rfl, key?_of_filingTag? hFiled]
    exact h.lose q.literals hNew

end Accounted

end PropertySets.Enumeration
