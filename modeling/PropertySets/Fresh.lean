/-!
# Fresh values

A name or a number that must differ from those in use is found by trying candidates in order.
Candidates differ from one another, so one of the first few is not in use: there cannot be more of
them in use than there are values in use.

* `fresh` — the first candidate that is not in use.
* `fresh_notMem`, `mem_of_lt_freshIndex` — it is not in use, and all candidates before it are.
-/

namespace PropertySets

variable {α : Type} [DecidableEq α]

/-- The index of the first candidate that is not in use. -/
def freshIndex (used : List α) (candidate : Nat → α) : Nat :=
  ((List.range (used.length + 1)).find? fun k => decide (candidate k ∉ used)).getD 0

/-- The first candidate that is not in use. -/
def fresh (used : List α) (candidate : Nat → α) : α := candidate (freshIndex used candidate)

/-- Of different candidates, one more than there are values in use, one is not in use. -/
theorem exists_notMem {used : List α} {candidate : Nat → α}
    (different : ∀ i j, candidate i = candidate j → i = j) :
    ∃ k ∈ List.range (used.length + 1), candidate k ∉ used := by
  refine Decidable.byContradiction fun none => ?_
  -- were all of them in use, there would be too many values in use
  have subset : (List.range (used.length + 1)).map candidate ⊆ used := by
    intro x member
    obtain ⟨k, inRange, rfl⟩ := List.mem_map.1 member
    exact Decidable.byContradiction fun missing => none ⟨k, inRange, missing⟩
  have nodup : ((List.range (used.length + 1)).map candidate).Nodup :=
    List.pairwise_map.2 (List.nodup_range.imp fun distinct same => distinct (different _ _ same))
  have := List.Nodup.length_le_of_subset nodup subset
  rw [List.length_map, List.length_range] at this
  omega

theorem fresh_notMem {used : List α} {candidate : Nat → α}
    (different : ∀ i j, candidate i = candidate j → i = j) : fresh used candidate ∉ used := by
  obtain ⟨k, inRange, missing⟩ : ∃ k ∈ List.range (used.length + 1), candidate k ∉ used :=
    exists_notMem different
  unfold fresh freshIndex
  cases found : (List.range (used.length + 1)).find? fun k => decide (candidate k ∉ used) with
  | none => exact absurd (decide_eq_true missing) (List.find?_eq_none.1 found k inRange)
  | some i =>
    have free : decide (candidate i ∉ used) = true :=
      List.find?_some (p := fun k => decide (candidate k ∉ used)) found
    exact of_decide_eq_true free

theorem mem_of_lt_freshIndex {used : List α} {candidate : Nat → α} {k : Nat}
    (h : k < freshIndex used candidate) : candidate k ∈ used := by
  unfold freshIndex at h
  cases found : (List.range (used.length + 1)).find? fun k => decide (candidate k ∉ used) with
  | none => rw [found] at h; exact absurd h (Nat.not_lt_zero k)
  | some i =>
    rw [found] at h
    have earlier := (List.find?_range_eq_some.1 found).2.2 k h
    simpa using earlier

end PropertySets
