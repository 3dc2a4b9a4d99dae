import PropertySets.Proofs.Naming.Stems

/-!
# Which set keeps its base

Of the sets with one base the first is given the base by itself, and the later ones are given it
with a number. There is one exception: a set before the first one was given that very stem as its
own base with a number. Then its base had been taken too, and so on back to two sets with one base,
of which the stem is made by one or several numbers.

* `NumberedFrom` — a stem is a base with numbers behind it.
* `Holds.find?_eq_iff` — the names of a set by its place among the stems.
* `SharedUpTo`, `Holds.shared_base` — the two sets with one base behind every number.
* `first_keeps_base` — who is given a base by itself.
-/

namespace PropertySets.Naming

/-! ## Numbers behind a base -/

/-- A stem is a base with one or several numbers, from two on, behind it. -/
inductive NumberedFrom (base : String) : String → Prop
  | once {k : Nat} (hNumber : 2 ≤ k) : NumberedFrom base (numbered base k)
  | again {stem : String} {k : Nat} (hStem : NumberedFrom base stem) (hNumber : 2 ≤ k) :
      NumberedFrom base (numbered stem k)

theorem SetNames.ofStem_inj {stem stem' : String} (h : ofStem stem = ofStem stem') :
    stem = stem' :=
  eq_of_routine_eq (congrArg SetNames.routine h)

namespace NameTable

variable {t : NameTable} {setNames : List String}

/-! ## Places among the stems -/

/-- Every stem was given to a set. -/
theorem Holds.exists_set (h : t.Holds setNames) {i : Nat} {stem : String}
    (hStem : t.given[i]? = some stem) : ∃ n, setNames[i]? = some n := by
  obtain ⟨hPlace, -⟩ := List.getElem?_eq_some_iff.1 hStem
  rw [h.length_eq] at hPlace
  exact ⟨_, List.getElem?_eq_getElem hPlace⟩

/-- A set is given its base, by itself or with a number. -/
theorem Holds.given_eq (h : t.Holds setNames) {i : Nat} {n stem : String}
    (hSet : setNames[i]? = some n) (hStem : t.given[i]? = some stem) :
    stem = baseStem n ∨ ∃ k ≥ 2, stem = numbered (baseStem n) k := by
  obtain ⟨k, -, hGiven⟩ := h.searched i n hSet
  obtain rfl : stem = candidate (baseStem n) k := Option.some.inj (hStem.symm.trans hGiven)
  cases k with
  | zero => exact .inl rfl
  | succ k => exact .inr ⟨k + 2, by omega, rfl⟩

/-- No stem is given twice. -/
theorem Holds.given_ne (h : t.Holds setNames) {i j : Nat} {n stem : String}
    (hSet : setNames[i]? = some n) (hStem : t.given[i]? = some stem) (hBefore : j < i) :
    t.given[j]? ≠ some stem := by
  intro hEarlier
  obtain ⟨k, ⟨hFree, -⟩, hGiven⟩ := h.searched i n hSet
  obtain rfl : stem = candidate (baseStem n) k := Option.some.inj (hStem.symm.trans hGiven)
  -- the search ended at a stem that was free then
  refine hFree (List.mem_of_getElem? (i := j) ?_)
  rw [List.getElem?_take_of_lt hBefore]
  exact hEarlier

/-- A set is given its base with a number only if its base had been given before. -/
theorem Holds.base_taken (h : t.Holds setNames) {i : Nat} {n stem : String}
    (hSet : setNames[i]? = some n) (hStem : t.given[i]? = some stem) (hOther : stem ≠ baseStem n) :
    ∃ j < i, t.given[j]? = some (baseStem n) := by
  obtain ⟨k, ⟨-, hUsed⟩, hGiven⟩ := h.searched i n hSet
  obtain rfl : stem = candidate (baseStem n) k := Option.some.inj (hStem.symm.trans hGiven)
  have hLater : 0 < k := by
    rcases Nat.eq_zero_or_pos k with rfl | hPositive
    · exact absurd rfl hOther
    · exact hPositive
  -- the search passed the base, which is the first that is tried
  have hTaken : baseStem n ∈ t.given.take i := hUsed 0 hLater
  obtain ⟨j, hPlace⟩ := List.mem_iff_getElem?.1 hTaken
  rw [List.getElem?_take] at hPlace
  split at hPlace
  · exact ⟨j, ‹_›, hPlace⟩
  · cases hPlace

/-- Once a set has had its turn its base is given, to it or to a set before. -/
theorem Holds.base_given (h : t.Holds setNames) {i : Nat} {n : String}
    (hSet : setNames[i]? = some n) : ∃ j ≤ i, t.given[j]? = some (baseStem n) := by
  obtain ⟨k, -, hGiven⟩ := h.searched i n hSet
  by_cases hBase : candidate (baseStem n) k = baseStem n
  · exact ⟨i, Nat.le_refl i, hBase ▸ hGiven⟩
  · obtain ⟨j, hBefore, hTaken⟩ := h.base_taken hSet hGiven hBase
    exact ⟨j, Nat.le_of_lt hBefore, hTaken⟩

/-- Among different sets the names of a set are made of the stem in its place. -/
theorem Holds.find?_eq_iff (h : t.Holds setNames) (hNodup : setNames.Nodup) {i : Nat}
    {n stem : String} (hSet : setNames[i]? = some n) :
    t.find? n = some (.ofStem stem) ↔ t.given[i]? = some stem := by
  obtain ⟨k, -, hGiven⟩ := h.searched i n hSet
  have hMem : (n, candidate (baseStem n) k) ∈ (setNames.zip t.given).reverse :=
    List.mem_reverse.2 (List.mem_of_getElem? (List.getElem?_zip_eq_some.2 ⟨hSet, hGiven⟩))
  have hFound : t.find? n = some (.ofStem (candidate (baseStem n) k)) := by
    cases hFind : t.find? n with
    | none =>
      -- the set is among the sets, so it has names
      rw [h.find?_eq, Option.map_eq_none_iff, List.lookup_eq_none_iff] at hFind
      simpa using hFind _ hMem
    | some names =>
      obtain ⟨j, stem', hSet', hStem', rfl⟩ := h.exists_place hFind
      -- and no other place has the set
      obtain ⟨hPlace, -⟩ := List.getElem?_eq_some_iff.1 hSet'
      obtain rfl : j = i := (List.getElem?_inj hPlace hNodup).1 (hSet'.trans hSet.symm)
      rw [hGiven] at hStem'
      rw [Option.some.inj hStem']
  rw [hFound, hGiven]
  constructor
  · intro hNames
    rw [SetNames.ofStem_inj (Option.some.inj hNames)]
  · intro hStem
    rw [Option.some.inj hStem]

/-! ## Who takes the base of another set -/

/-- Two sets have one base, the second of them not behind a place, and a stem is that base or made
of it by numbers. -/
def SharedUpTo (setNames : List String) (i : Nat) (stem : String) : Prop :=
  ∃ (i₁ i₂ : Nat) (m₁ m₂ : String), i₁ < i₂ ∧ i₂ ≤ i ∧ setNames[i₁]? = some m₁ ∧
    setNames[i₂]? = some m₂ ∧ baseStem m₁ = baseStem m₂ ∧
    (stem = baseStem m₁ ∨ NumberedFrom (baseStem m₁) stem)

theorem SharedUpTo.numbered {i j k : Nat} {stem : String} (h : SharedUpTo setNames j stem)
    (hUpTo : j ≤ i) (hNumber : 2 ≤ k) : SharedUpTo setNames i (numbered stem k) := by
  obtain ⟨i₁, i₂, m₁, m₂, hOrder, hSecond, h₁, h₂, hBases, hMade⟩ := h
  refine ⟨i₁, i₂, m₁, m₂, hOrder, Nat.le_trans hSecond hUpTo, h₁, h₂, hBases, .inr ?_⟩
  rcases hMade with rfl | hFrom
  · exact .once hNumber
  · exact .again hFrom hNumber

/-- Behind every number there are two sets with one base. -/
theorem Holds.shared_base (h : t.Holds setNames) {i : Nat} {n stem : String}
    (hSet : setNames[i]? = some n) (hStem : t.given[i]? = some stem) (hOther : stem ≠ baseStem n) :
    SharedUpTo setNames i stem := by
  -- by the place of the set: whoever took its base stands before it
  induction i using Nat.strongRecOn generalizing n stem with
  | ind i ih =>
    obtain ⟨k, hNumber, rfl⟩ := (h.given_eq hSet hStem).resolve_left hOther
    obtain ⟨j, hBefore, hTaken⟩ := h.base_taken hSet hStem hOther
    obtain ⟨m, hTaker⟩ := h.exists_set hTaken
    by_cases hSame : baseStem n = baseStem m
    · have hShared : SharedUpTo setNames i (baseStem n) :=
        ⟨j, i, m, n, hBefore, Nat.le_refl i, hTaker, hSet, hSame.symm, .inl hSame⟩
      exact hShared.numbered (Nat.le_refl i) hNumber
    · -- it has another base itself, so it took this one with a number
      have hShared : SharedUpTo setNames j (baseStem n) := ih j hBefore hTaker hTaken hSame
      exact hShared.numbered (Nat.le_of_lt hBefore) hNumber

/-! ## The first set with a base -/

/-- A set is given its base by itself exactly if no set before it was given that stem. -/
theorem Holds.given_base_iff (h : t.Holds setNames) {i : Nat} {n : String}
    (hSet : setNames[i]? = some n) :
    t.given[i]? = some (baseStem n) ↔ ∀ j < i, t.given[j]? ≠ some (baseStem n) := by
  constructor
  · intro hKept j hBefore
    exact h.given_ne hSet hKept hBefore
  · intro hFree
    obtain ⟨j, hUpTo, hTaken⟩ := h.base_given hSet
    rcases Nat.lt_or_eq_of_le hUpTo with hBefore | rfl
    · exact absurd hTaken (hFree j hBefore)
    · exact hTaken

/-- A set whose base is that of a set before it is given it with a number. -/
theorem Holds.numbered_of_later (h : t.Holds setNames) {i j : Nat} {n m : String}
    (hSet : setNames[i]? = some n) (hLater : i < j) (hOther : setNames[j]? = some m)
    (hBase : baseStem m = baseStem n) :
    ∃ k ≥ 2, t.given[j]? = some (numbered (baseStem n) k) := by
  obtain ⟨k, -, hGiven⟩ := h.searched j m hOther
  obtain ⟨i', hUpTo, hTaken⟩ := h.base_given hSet
  rcases h.given_eq hOther hGiven with hPlain | ⟨number, hNumber, hNumbered⟩
  · -- the base was given before
    rw [← hBase, ← hPlain] at hTaken
    exact absurd hTaken (h.given_ne hOther hGiven (by omega))
  · rw [hNumbered, hBase] at hGiven
    exact ⟨number, hNumber, hGiven⟩

/-- The sets before a set are those in the places before. -/
theorem mem_before_iff {before rest : List String} {m : String} :
    m ∈ before ↔ ∃ j < before.length, (before ++ rest)[j]? = some m := by
  rw [List.mem_iff_getElem?]
  constructor
  · rintro ⟨j, hSet⟩
    obtain ⟨hBefore, -⟩ := List.getElem?_eq_some_iff.1 hSet
    exact ⟨j, hBefore, (List.getElem?_append_left hBefore).trans hSet⟩
  · rintro ⟨j, hBefore, hSet⟩
    exact ⟨j, (List.getElem?_append_left hBefore).symm.trans hSet⟩

/-- In an ascending list the two sets that share a base up to a place before a set lie before that
set, in their order. -/
theorem SharedUpTo.exists_before {before rest : List String} {j : Nat} {stem : String}
    (h : SharedUpTo (before ++ rest) j stem) (hAscending : (before ++ rest).Pairwise (· < ·))
    (hBefore : j < before.length) :
    ∃ m₁ ∈ before, ∃ m₂ ∈ before, m₁ < m₂ ∧ baseStem m₁ = baseStem m₂ ∧
      (stem = baseStem m₁ ∨ NumberedFrom (baseStem m₁) stem) := by
  obtain ⟨i₁, i₂, m₁, m₂, hOrder, hUpTo, h₁, h₂, hBases, hMade⟩ := h
  have hMem₁ : m₁ ∈ before := mem_before_iff.2 ⟨i₁, by omega, h₁⟩
  have hMem₂ : m₂ ∈ before := mem_before_iff.2 ⟨i₂, by omega, h₂⟩
  obtain ⟨hPlace₁, rfl⟩ := List.getElem?_eq_some_iff.1 h₁
  obtain ⟨hPlace₂, rfl⟩ := List.getElem?_eq_some_iff.1 h₂
  have hLess := List.pairwise_iff_getElem.1 hAscending i₁ i₂ hPlace₁ hPlace₂ hOrder
  exact ⟨_, hMem₁, _, hMem₂, hLess, hBases, hMade⟩

/-- The sets behind a set are in places behind. -/
theorem exists_place_after {before after : List String} {n m : String} (hMem : m ∈ after) :
    ∃ j, before.length < j ∧ (before ++ n :: after)[j]? = some m := by
  obtain ⟨j, hSet⟩ := List.mem_iff_getElem?.1 hMem
  refine ⟨before.length + (j + 1), by omega, ?_⟩
  rw [List.getElem?_append_right (Nat.le_add_right ..), Nat.add_sub_cancel_left,
    List.getElem?_cons_succ]
  exact hSet

/--
**The first set with a base keeps it.** Let sets be given names in ascending order, and let a set be
the first one with its base.

1. It is given the base by itself exactly if no set before it was given that stem.
2. A set before it that was given that stem was given it as its own base with a number, and two sets
   before it have one base, of which the stem is made by numbers.
3. Every later set with that base is given it with a number.
-/
theorem first_keeps_base {before after : List String} {n : String}
    (hAscending : (before ++ n :: after).Pairwise (· < ·))
    (hFirst : ∀ m ∈ before, baseStem m ≠ baseStem n) :
    let t := assign (before ++ n :: after)
    (t.find? n = some (.ofStem (baseStem n)) ↔
      ∀ m ∈ before, t.find? m ≠ some (.ofStem (baseStem n))) ∧
    (∀ m ∈ before, t.find? m = some (.ofStem (baseStem n)) →
      (∃ k ≥ 2, baseStem n = numbered (baseStem m) k) ∧
      ∃ m₁ ∈ before, ∃ m₂ ∈ before, m₁ < m₂ ∧ baseStem m₁ = baseStem m₂ ∧
        NumberedFrom (baseStem m₁) (baseStem n)) ∧
    ∀ m ∈ after, baseStem m = baseStem n →
      ∃ k ≥ 2, t.find? m = some (.ofStem (numbered (baseStem n) k)) := by
  intro t
  have h : t.Holds (before ++ n :: after) := holds_assign _
  have hNodup : (before ++ n :: after).Nodup := hAscending.imp fun hLess hSame => by
    rw [hSame] at hLess
    exact String.lt_irrefl _ hLess
  have hHere : (before ++ n :: after)[before.length]? = some n := by
    rw [List.getElem?_append_right (Nat.le_refl _), Nat.sub_self, List.getElem?_cons_zero]
  refine ⟨?_, fun m hMem hNames => ?_, fun m hMem hBase => ?_⟩
  · rw [h.find?_eq_iff hNodup hHere, h.given_base_iff hHere]
    constructor
    · intro hFree m hMem hNames
      obtain ⟨j, hBefore, hSet⟩ := mem_before_iff.1 hMem
      exact hFree j hBefore ((h.find?_eq_iff hNodup hSet).1 hNames)
    · intro hFree j hBefore hTaken
      obtain ⟨m, hSet⟩ := h.exists_set hTaken
      exact hFree m (mem_before_iff.2 ⟨j, hBefore, hSet⟩) ((h.find?_eq_iff hNodup hSet).2 hTaken)
  · obtain ⟨j, hBefore, hSet⟩ := mem_before_iff.1 hMem
    have hTaken := (h.find?_eq_iff hNodup hSet).1 hNames
    have hOther : baseStem n ≠ baseStem m := fun hSame => hFirst m hMem hSame.symm
    -- no set before has this base, so it is made by numbers
    obtain ⟨m₁, hMem₁, m₂, hMem₂, hLess, hBases, hMade⟩ :=
      (h.shared_base hSet hTaken hOther).exists_before hAscending hBefore
    exact ⟨(h.given_eq hSet hTaken).resolve_left hOther, m₁, hMem₁, m₂, hMem₂, hLess, hBases,
      hMade.resolve_left fun hSame => hFirst m₁ hMem₁ hSame.symm⟩
  · -- a later set finds the base taken, by the first one or before it
    obtain ⟨j, hLater, hSet⟩ := exists_place_after hMem
    obtain ⟨k, hNumber, hGiven⟩ := h.numbered_of_later hHere hLater hSet hBase
    exact ⟨k, hNumber, (h.find?_eq_iff hNodup hSet).2 hGiven⟩

/-- Two sets with one base behind another set: the first of them keeps the base. -/
theorem first_ab_keeps_base :
    (["Pset_A", "Pset_AB", "Pset_Ab"].Pairwise (· < ·) ∧
      (∀ m ∈ ["Pset_A"], baseStem m ≠ baseStem "Pset_AB")) ∧
    (assign ["Pset_A", "Pset_AB", "Pset_Ab"]).find? "Pset_AB" =
      some ⟨"init_pset_ab", "property_set_ab"⟩ ∧
    ∃ k ≥ 2, (assign ["Pset_A", "Pset_AB", "Pset_Ab"]).find? "Pset_Ab" =
      some (.ofStem (numbered "ab" k)) := by
  have hAscending : ["Pset_A", "Pset_AB", "Pset_Ab"].Pairwise (· < ·) := by decide
  have hFirst : ∀ m ∈ ["Pset_A"], baseStem m ≠ baseStem "Pset_AB" := by decide +kernel
  have hBase : baseStem "Pset_AB" = "ab" := by decide +kernel
  obtain ⟨hKept, -, hLater⟩ :=
    @first_keeps_base ["Pset_A"] ["Pset_Ab"] "Pset_AB" hAscending hFirst
  rw [hBase] at hKept hLater
  exact ⟨⟨hAscending, hFirst⟩, hKept.2 (by decide +kernel),
    hLater "Pset_Ab" (List.mem_singleton_self _) (by decide +kernel)⟩

/-- The first set with a base may be given it with a number: the set before it, which shares its own
base with another one, was given that stem. -/
theorem numbered_stem_takes_base :
    ["Pset_AB", "Pset_Ab", "Pset_Ab_2"].Pairwise (· < ·) ∧
    (∀ m ∈ ["Pset_AB", "Pset_Ab"], baseStem m ≠ baseStem "Pset_Ab_2") ∧
    baseStem "Pset_Ab_2" = "ab_2" ∧
    (assign ["Pset_AB", "Pset_Ab", "Pset_Ab_2"]).find? "Pset_Ab_2" =
      some ⟨"init_pset_ab_2_2", "property_set_ab_2_2"⟩ ∧
    (assign ["Pset_AB", "Pset_Ab", "Pset_Ab_2"]).find? "Pset_Ab" =
      some ⟨"init_pset_ab_2", "property_set_ab_2"⟩ := by
  refine ⟨by decide, ?_, ?_, ?_, ?_⟩ <;> decide +kernel

end NameTable

end PropertySets.Naming
