import Mathlib.Data.List.Induction
import PropertySets.Proofs.Naming.Routines

/-!
# The stems that sets are given

A set is given the first stem that no set before it was given: its base, or its base with the least
number, from two on, that is free. Stems that are tried for one base differ, so one of the first few
is free, and the search for it ends after as many numbers as there are sets before at most. The
table is what comes of giving the sets their stems one after the other; of a repeated set the stem
that it was given last counts.

* `candidate`, `FirstFree` — the stems that are tried, and where the search for one ends.
* `exists_firstFree` — the search ends, and with the stem that is given.
* `NameTable.Holds`, `NameTable.holds_assign` — the table, the sets and the stems in their order.
* `NameTable.assign_tells_apart` — the names that sets are given.
-/

namespace PropertySets.Naming

/-! ## The search for a stem -/

/-- What is tried for a base: the base by itself, then with the numbers from two on. -/
def candidate (base : String) : Nat → String
  | 0 => base
  | k + 1 => numbered base (k + 2)

/-- The search for a stem ends with a candidate: it is not in use, and all before it are. -/
def FirstFree (used : List String) (base : String) (k : Nat) : Prop :=
  candidate base k ∉ used ∧ ∀ j < k, candidate base j ∈ used

theorem numbered_ne_base (base : String) (n : Nat) : numbered base n ≠ base := by
  intro hSame
  have hLength := congrArg (fun s : String => s.toList.length) hSame
  simp [numbered, String.toList_append] at hLength

/-- Different candidates are different stems. -/
theorem candidate_inj {base : String} {i j : Nat} (h : candidate base i = candidate base j) :
    i = j := by
  cases i with
  | zero =>
    cases j with
    | zero => rfl
    | succ j => exact absurd h.symm (numbered_ne_base base _)
  | succ i =>
    cases j with
    | zero => exact absurd h (numbered_ne_base base _)
    | succ j => have hNumber := eq_of_numbered_eq h; omega

/-- Before a search ends there are only so many candidates: they are in use, and they differ. -/
theorem FirstFree.le_length {used : List String} {base : String} {k : Nat}
    (h : FirstFree used base k) : k ≤ used.length := by
  have hNodup : ((List.range k).map (candidate base)).Nodup :=
    List.nodup_range.map fun _ _ hSame => candidate_inj hSame
  have hSubset : (List.range k).map (candidate base) ⊆ used := by
    intro stem hMem
    obtain ⟨j, hBefore, rfl⟩ := List.mem_map.1 hMem
    exact h.2 j (List.mem_range.1 hBefore)
  have hLength := hNodup.length_le_of_subset hSubset
  rwa [List.length_map, List.length_range] at hLength

/-- Whatever is in use, the search ends, and with the stem that is given. -/
theorem exists_firstFree (used : List String) (base : String) :
    ∃ k, FirstFree used base k ∧ freeStem used base = candidate base k := by
  by_cases hUsed : base ∈ used
  · rw [freeStem, if_pos hUsed]
    refine ⟨freshIndex used (fun k => numbered base (k + 2)) + 1, ⟨?_, fun j hBefore => ?_⟩, rfl⟩
    · -- different numbers make different stems, so the search ends
      have hDifferent : ∀ i j, numbered base (i + 2) = numbered base (j + 2) → i = j := by
        intro i j hSame
        have hNumber := eq_of_numbered_eq hSame
        omega
      show fresh used (fun k => numbered base (k + 2)) ∉ used
      exact fresh_notMem hDifferent
    · -- the search starts at two, so the candidates before are the base and those that were tried
      cases j with
      | zero => exact hUsed
      | succ j =>
        have hEarlier : j < freshIndex used (fun k => numbered base (k + 2)) := by omega
        have hTaken := mem_of_lt_freshIndex hEarlier
        exact hTaken
  · exact ⟨0, ⟨hUsed, fun j hBefore => absurd hBefore (Nat.not_lt_zero j)⟩, if_neg hUsed⟩

namespace NameTable

/-! ## Giving the stems one after the other -/

/-- The stems in the order of the sets that they were given to. -/
def given (t : NameTable) : List String := t.stems.reverse

/-- A table holds what comes of giving sets their stems in order. -/
structure Holds (t : NameTable) (setNames : List String) : Prop where
  length_eq : t.given.length = setNames.length
  /-- Each search came to its end among the stems of the sets before. -/
  searched : ∀ i n, setNames[i]? = some n →
    ∃ k, FirstFree (t.given.take i) (baseStem n) k ∧ t.given[i]? = some (candidate (baseStem n) k)
  entries_eq : t.entries = (setNames.zip t.given).reverse.map fun p => (p.1, .ofStem p.2)
  disambiguated_eq : t.disambiguated = (setNames.zip t.given).countP fun p => p.2 ≠ baseStem p.1

theorem holds_empty : empty.Holds [] := ⟨rfl, nofun, rfl, rfl⟩

theorem given_add (t : NameTable) (setName : String) :
    (t.add setName).given = t.given ++ [freeStem t.stems (baseStem setName)] :=
  List.reverse_cons

/-- One more set is given the stem at which its search ends. -/
theorem Holds.add {t : NameTable} {setNames : List String} (h : t.Holds setNames)
    (setName : String) : (t.add setName).Holds (setNames ++ [setName]) := by
  have hZip : (setNames ++ [setName]).zip (t.add setName).given =
      setNames.zip t.given ++ [(setName, freeStem t.stems (baseStem setName))] := by
    rw [given_add]
    exact List.zip_append h.length_eq.symm
  refine ⟨?_, fun i n hSet => ?_, ?_, ?_⟩
  · rw [given_add, List.length_append, List.length_append, h.length_eq]
    rfl
  · rw [given_add]
    rcases Nat.lt_or_ge i setNames.length with hEarlier | hHere
    · have hStem : i < t.given.length := h.length_eq.symm ▸ hEarlier
      rw [List.getElem?_append_left hEarlier] at hSet
      rw [List.take_append_of_le_length (Nat.le_of_lt hStem), List.getElem?_append_left hStem]
      exact h.searched i n hSet
    · -- the set is the last one, and all stems so far are in use
      have hLast : i = setNames.length := by
        have hPlace := (List.getElem?_eq_some_iff.1 hSet).1
        rw [List.length_append, List.length_singleton] at hPlace
        omega
      subst hLast
      rw [List.getElem?_concat_length] at hSet
      obtain rfl := Option.some.inj hSet
      obtain ⟨k, ⟨hFree, hUsed⟩, hStem⟩ := exists_firstFree t.stems (baseStem setName)
      rw [← h.length_eq, List.take_left, List.getElem?_concat_length, hStem]
      exact ⟨k, ⟨fun hMem => hFree (List.mem_reverse.1 hMem), fun j hBefore =>
        List.mem_reverse.2 (hUsed j hBefore)⟩, rfl⟩
  · rw [hZip, List.reverse_append, List.map_append, ← h.entries_eq]
    rfl
  · rw [hZip, List.countP_append, ← h.disambiguated_eq, List.countP_singleton]
    rw [NameTable.add]
    by_cases hBase : freeStem t.stems (baseStem setName) = baseStem setName
    · simp [hBase]
    · simp [hBase]

/-- The table of any list of sets. -/
theorem holds_assign (setNames : List String) : (assign setNames).Holds setNames := by
  induction setNames using List.reverseRecOn with
  | nil => exact holds_empty
  | append_singleton setNames setName ih =>
    have hNext : assign (setNames ++ [setName]) = (assign setNames).add setName :=
      List.foldl_concat ..
    rw [hNext]
    exact ih.add setName

/-! ## The names of sets -/

theorem lookup_map_snd {α β γ : Type} [BEq α] (f : β → γ) (n : α) (entries : List (α × β)) :
    (entries.map fun p => (p.1, f p.2)).lookup n = (entries.lookup n).map f := by
  induction entries with
  | nil => rfl
  | cons p rest ih =>
    rw [List.map_cons, List.lookup_cons, List.lookup_cons, ih]
    cases n == p.1 <;> rfl

/-- Of a repeated set the stem that it was given last counts. -/
theorem Holds.find?_eq {t : NameTable} {setNames : List String} (h : t.Holds setNames)
    (n : String) :
    t.find? n = ((setNames.zip t.given).reverse.lookup n).map .ofStem := by
  rw [find?, h.entries_eq, lookup_map_snd]

/-- The names of a set are made of the stem that it was given in some place. -/
theorem Holds.exists_place {t : NameTable} {setNames : List String} (h : t.Holds setNames)
    {n : String} {names : SetNames} (hFound : t.find? n = some names) :
    ∃ (i : Nat) (stem : String),
      setNames[i]? = some n ∧ t.given[i]? = some stem ∧ names = .ofStem stem := by
  rw [h.find?_eq, Option.map_eq_some_iff] at hFound
  obtain ⟨stem, hLookup, rfl⟩ := hFound
  obtain ⟨before, after, hEntries, -⟩ := List.lookup_eq_some_iff.1 hLookup
  have hMem : (n, stem) ∈ setNames.zip t.given := by
    rw [← List.mem_reverse, hEntries]
    exact List.mem_append_right _ List.mem_cons_self
  obtain ⟨i, hPlace⟩ := List.mem_iff_getElem?.1 hMem
  obtain ⟨hSet, hStem⟩ := List.getElem?_zip_eq_some.1 hPlace
  exact ⟨i, stem, hSet, hStem, rfl⟩

/-- The names of a set are made of a stem that was tried for it. -/
theorem Holds.exists_candidate {t : NameTable} {setNames : List String} (h : t.Holds setNames)
    {n : String} {names : SetNames} (hFound : t.find? n = some names) :
    ∃ k, names = .ofStem (candidate (baseStem n) k) := by
  obtain ⟨i, stem, hSet, hStem, rfl⟩ := h.exists_place hFound
  obtain ⟨k, -, hGiven⟩ := h.searched i n hSet
  rw [hStem] at hGiven
  exact ⟨k, congrArg SetNames.ofStem (Option.some.inj hGiven)⟩

/-- Different sets share neither a routine nor a variable. -/
theorem Apart.ne_of_ne {t : NameTable} (h : t.Apart) {n n' : String} {names names' : SetNames}
    (hFound : t.find? n = some names) (hFound' : t.find? n' = some names') (hOther : n ≠ n') :
    names.routine ≠ names'.routine ∧ names.localName ≠ names'.localName := by
  have hRoutine : names.routine ≠ names'.routine := fun hSame =>
    hOther (h.name_eq hFound hFound' hSame)
  refine ⟨hRoutine, fun hSame => hRoutine ?_⟩
  obtain ⟨stem, -, hNames⟩ := h.stems _ (mem_of_find? hFound)
  obtain ⟨stem', -, hNames'⟩ := h.stems _ (mem_of_find? hFound')
  obtain rfl : names = .ofStem stem := hNames
  obtain rfl : names' = .ofStem stem' := hNames'
  rw [(String.append_right_inj _).1 hSame]

/-- **Sets are told apart by their names.** Every set of a list, repeated ones too, has a routine
and a variable, named by the same stem behind their fixed starts: the base of the set, or that with
a number from two on. No two sets share a routine or a variable, and none takes the routine that
calls all others. The search for each stem ends, after as many numbers at most as there are sets
before, at the first stem that none of them was given; of a repeated set the last stem counts. The
sets that are counted are those that were given another stem than their base. -/
theorem assign_tells_apart (setNames : List String) :
    (∀ n ∈ setNames, ∃ stem, (assign setNames).find? n =
        some ⟨"init_pset_" ++ stem, "property_set_" ++ stem⟩ ∧
      (stem = baseStem n ∨ ∃ k ≥ 2, stem = baseStem n ++ "_" ++ toString k) ∧
      "init_pset_" ++ stem ≠ "init_common_property_sets") ∧
    (∀ n ∈ setNames, ∀ n' ∈ setNames, n ≠ n' →
      ((assign setNames).find? n).map (·.routine) ≠ ((assign setNames).find? n').map (·.routine) ∧
      ((assign setNames).find? n).map (·.localName) ≠
        ((assign setNames).find? n').map (·.localName)) ∧
    ∃ stems : List String, stems.length = setNames.length ∧
      (∀ i n, setNames[i]? = some n → ∃ k ≤ i, stems[i]? = some (candidate (baseStem n) k) ∧
        FirstFree (stems.take i) (baseStem n) k) ∧
      (∀ n, (assign setNames).find? n = ((setNames.zip stems).reverse.lookup n).map .ofStem) ∧
      (assign setNames).disambiguated =
        (setNames.zip stems).countP fun p => p.2 ≠ baseStem p.1 := by
  have hHolds := holds_assign setNames
  have hApart := apart_assign setNames
  refine ⟨fun n hMem => ?_, fun n hMem n' hMem' hOther => ?_, (assign setNames).given,
    hHolds.length_eq, fun i n hSet => ?_, hHolds.find?_eq, hHolds.disambiguated_eq⟩
  · obtain ⟨names, hFound⟩ := exists_find? hMem
    obtain ⟨k, rfl⟩ := hHolds.exists_candidate hFound
    refine ⟨_, hFound, ?_, SetNames.routine_ne_main _⟩
    -- the stem is the base or one with a number
    cases k with
    | zero => exact .inl rfl
    | succ k => exact .inr ⟨k + 2, by omega, rfl⟩
  · obtain ⟨names, hFound⟩ := exists_find? hMem
    obtain ⟨names', hFound'⟩ := exists_find? hMem'
    obtain ⟨hRoutine, hLocal⟩ := hApart.ne_of_ne hFound hFound' hOther
    rw [hFound, hFound']
    exact ⟨fun hSame => hRoutine (Option.some.inj hSame),
      fun hSame => hLocal (Option.some.inj hSame)⟩
  · obtain ⟨k, hFree, hStem⟩ := hHolds.searched i n hSet
    -- as many numbers were in use at most as there are sets in front
    have hBound := hFree.le_length
    rw [List.length_take] at hBound
    exact ⟨k, by omega, hStem, hFree⟩

/-- Sets with one base, a set whose base is a stem with a number, and a set that comes twice. -/
def collidingSets : List String := ["Pset_AB", "Pset_Ab", "Pset_Ab_2", "Pset_AB"]

/-- The colliding sets are told apart. -/
theorem collidingSets_told_apart :
    ("Pset_AB" ∈ collidingSets ∧ "Pset_Ab_2" ∈ collidingSets) ∧
    (assign collidingSets).given = ["ab", "ab_2", "ab_2_2", "ab_3"] ∧
    (∃ stem, (assign collidingSets).find? "Pset_AB" =
      some ⟨"init_pset_" ++ stem, "property_set_" ++ stem⟩) ∧
    ((assign collidingSets).find? "Pset_AB").map (·.routine) ≠
      ((assign collidingSets).find? "Pset_Ab_2").map (·.routine) ∧
    (assign collidingSets).disambiguated = 3 := by
  have hMem : "Pset_AB" ∈ collidingSets := by decide
  have hMem' : "Pset_Ab_2" ∈ collidingSets := by decide
  obtain ⟨hNamed, hApart, -⟩ := assign_tells_apart collidingSets
  obtain ⟨stem, hFound, -⟩ := hNamed _ hMem
  exact ⟨⟨hMem, hMem'⟩, by decide +kernel, ⟨stem, hFound⟩,
    (hApart _ hMem _ hMem' (by decide)).1, by decide +kernel⟩

end NameTable

end PropertySets.Naming
