import Mathlib.Algebra.Group.Int.Defs
import Mathlib.Data.List.Forall2
import PropertySets.Enumeration.Discriminant

/-!
# Searches for free values

The numbering of an enumeration goes through its variants once, and searches for a free value
whenever a variant has to move. A search tries one value after the other and stays at the greatest
of 64 bits, so it ends exactly if a value is left up to there. It never takes more steps than there
are values taken; what the numbering returns is what comes of it with no bound on its steps, and it
returns nothing exactly if one of its searches goes on for ever.

* `Search` — a search that has come to its end.
* `nextFree?_eq_some_iff`, `nextFree?_eq_none_iff` — what is found, and when nothing is.
* `firstFreeWithin_eq_none` — where nothing is found, no number of steps is enough.
* `Carried`, `number?_eq_some_iff` — the numbering as it is carried out is what is returned.
* `Stalled`, `number?_eq_none_iff` — nothing is returned exactly if a search goes on for ever.
* `Room`, `exists_carried` — with room for all variants the numbering ends.
* `KeptOrMoved`, `assign_keptOrMoved` — what is made of each item, whether this ends or not.
-/

namespace PropertySets.Enumeration

/-! ## Counting on -/

theorem following_le (v : Int) : following v ≤ 2 ^ 63 - 1 := by
  rw [following]
  omega

theorem following_of_lt {v : Int} (h : v < 2 ^ 63 - 1) : following v = v + 1 := by
  rw [following]
  omega

/-! ## One search -/

/-- Going up from a value one by one, the first one that is not taken is found. -/
inductive Search (taken : List Int) : Int → Int → Prop
  | found {v : Int} (free : v ∉ taken) : Search taken v v
  | next {v found : Int} (occupied : v ∈ taken) (rest : Search taken (following v) found) :
    Search taken v found

section

variable {taken : List Int} {v found free : Int}

theorem Search.notMem (h : Search taken v found) : found ∉ taken := by
  induction h with
  | found hFree => exact hFree
  | next _ _ ih => exact ih

theorem Search.between (h : Search taken v found) (hStart : v ≤ 2 ^ 63 - 1) :
    v ≤ found ∧ found ≤ 2 ^ 63 - 1 := by
  induction h with
  | found _ => exact ⟨Int.le_refl _, hStart⟩
  | @next v found _ _ ih =>
    obtain ⟨hFrom, hTop⟩ := ih (following_le v)
    refine ⟨Int.le_trans ?_ hFrom, hTop⟩
    rw [following]
    omega

/-- A value that is taken is passed by, and then the search is below the greatest value. -/
theorem Search.lt_of_mem (h : Search taken v found) (hStart : v ≤ 2 ^ 63 - 1) (hTaken : v ∈ taken) :
    v < found := by
  have hOther : v ≠ found := fun hSame => h.notMem (hSame ▸ hTaken)
  have hFrom := (h.between hStart).1
  omega

/-- All values that are passed by are taken. -/
theorem Search.mem_of_lt (h : Search taken v found) (hStart : v ≤ 2 ^ 63 - 1) {x : Int}
    (hFrom : v ≤ x) (hBefore : x < found) : x ∈ taken := by
  induction h with
  | found _ => omega
  | @next v found hTaken hRest ih =>
    have hTop := (hRest.between (following_le v)).2
    by_cases hHere : x = v
    · exact hHere ▸ hTaken
    · refine ih (following_le v) ?_ hBefore
      rw [following_of_lt (by omega)]
      omega

/-- What is found does not lie above a value that is free. -/
theorem Search.le_of_notMem (h : Search taken v found) (hFrom : v ≤ free) (hTop : free ≤ 2 ^ 63 - 1)
    (hFree : free ∉ taken) : found ≤ free := by
  by_contra hAbove
  exact hFree (h.mem_of_lt (by omega) hFrom (by omega))

/-- A search ends if a value is free that lies ahead of it. -/
theorem exists_search (hFrom : v ≤ free) (hTop : free ≤ 2 ^ 63 - 1) (hFree : free ∉ taken) :
    ∃ found, Search taken v found := by
  -- the induction is on the distance to the free value
  obtain ⟨distance, rfl⟩ : ∃ n : Nat, free = v + n := ⟨(free - v).toNat, by omega⟩
  induction distance generalizing v with
  | zero => exact ⟨v, .found (by simpa using hFree)⟩
  | succ n ih =>
    by_cases hTaken : v ∈ taken
    · have hStep : v + ((n + 1 : Nat) : Int) = following v + n := by
        rw [following_of_lt (by omega)]
        omega
      rw [hStep] at hTop hFree
      obtain ⟨found, hRest⟩ := ih (by omega) hTop hFree
      exact ⟨found, .next hTaken hRest⟩
    · exact ⟨v, .found hTaken⟩

/-! ## A bound on the steps -/

theorem search_of_firstFreeWithin {steps : Nat}
    (h : firstFreeWithin taken steps v = some found) : Search taken v found := by
  induction steps generalizing v with
  | zero => cases h
  | succ steps ih =>
    rw [firstFreeWithin] at h
    split at h
    · rename_i hTaken
      exact .next hTaken (ih h)
    · rename_i hFree
      cases h
      exact .found hFree

/-- A search takes one step for each value that it passes by. -/
theorem Search.firstFreeWithin_eq (h : Search taken v found) (hStart : v ≤ 2 ^ 63 - 1) {steps : Nat}
    (hSteps : found - v < steps) : firstFreeWithin taken steps v = some found := by
  induction h generalizing steps with
  | @found v hFree =>
    obtain ⟨steps, rfl⟩ := Nat.exists_eq_succ_of_ne_zero (n := steps) (by omega)
    rw [firstFreeWithin, if_neg hFree]
  | @next v found hTaken hRest ih =>
    have hBefore := (hRest.next hTaken).lt_of_mem hStart hTaken
    have hTop := (hRest.between (following_le v)).2
    obtain ⟨steps, rfl⟩ := Nat.exists_eq_succ_of_ne_zero (n := steps) (by omega)
    rw [firstFreeWithin, if_pos hTaken]
    refine ih (following_le v) ?_
    rw [following_of_lt (by omega)]
    omega

/-- The values that are passed by are different and taken, so there are no more of them than there
are values taken. -/
theorem Search.distance_le (h : Search taken v found) (hStart : v ≤ 2 ^ 63 - 1) :
    found - v ≤ taken.length := by
  have hSubset : (List.range (found - v).toNat).map (fun k : Nat => v + (k : Int)) ⊆ taken := by
    intro x hMem
    obtain ⟨k, hRange, rfl⟩ := List.mem_map.1 hMem
    have hBelow := List.mem_range.1 hRange
    exact h.mem_of_lt hStart (by omega) (by omega)
  have hNodup : ((List.range (found - v).toNat).map fun k : Nat => v + (k : Int)).Nodup :=
    List.pairwise_map.2 (List.nodup_range.imp fun hOther hSame => hOther (by omega))
  have hLength := hNodup.length_le_of_subset hSubset
  rw [List.length_map, List.length_range] at hLength
  omega

/-- The next free value is what a search for it finds, however long it may take. -/
theorem nextFree?_eq_some_iff :
    nextFree? taken v = some found ↔ Search taken (following v) found := by
  refine ⟨search_of_firstFreeWithin, fun h => ?_⟩
  have hDistance := h.distance_le (following_le v)
  exact h.firstFreeWithin_eq (following_le v) (by omega)

/-- **Searches that do not end.** There is no next free value exactly if all values are taken from
there up to the greatest one. -/
theorem nextFree?_eq_none_iff :
    nextFree? taken v = none ↔ ∀ x, following v ≤ x → x ≤ 2 ^ 63 - 1 → x ∈ taken := by
  rw [Option.eq_none_iff_forall_ne_some]
  constructor
  · intro hNone x hFrom hTop
    by_contra hFree
    obtain ⟨found, hSearch⟩ := exists_search hFrom hTop hFree
    exact hNone found (nextFree?_eq_some_iff.2 hSearch)
  · intro hTaken found hFound
    have hSearch := nextFree?_eq_some_iff.1 hFound
    obtain ⟨hFrom, hTop⟩ := hSearch.between (following_le v)
    exact hSearch.notMem (hTaken found hFrom hTop)

/-- Where nothing is found, no number of steps is enough. -/
theorem firstFreeWithin_eq_none (h : nextFree? taken v = none) (steps : Nat) :
    firstFreeWithin taken steps (following v) = none := by
  rw [Option.eq_none_iff_forall_ne_some] at h ⊢
  exact fun found hFound => h found (nextFree?_eq_some_iff.2 (search_of_firstFreeWithin hFound))

end

/-! ## The numbering -/

/-- The value that a variant asks for: its own, or the one to count on with. -/
def Variant.wanted? (next : Int) (v : Variant) : Option Int :=
  match v.written with
  | .counted => some next
  | .value x => some x
  | .unreadable => none

/-- May a variant not have a value? It is used, or another variant declares it and this one only
counts. -/
def Variant.Excluded (explicit used : List Int) (v : Variant) (value : Int) : Prop :=
  value ∈ used ∨ v.written = .counted ∧ value ∈ explicit

/-- Variants are numbered in 64 bits: every search on the way comes to its end. -/
inductive Carried (explicit : List Int) : List Int → Int → List Variant → Numbering → Prop
  | done {used : List Int} {next : Int} : Carried explicit used next [] ⟨[], []⟩
  | left {used : List Int} {next : Int} {v : Variant} {vs : List Variant} {r : Numbering}
    (unreadable : v.wanted? next = none) (rest : Carried explicit used next vs r) :
    Carried explicit used next (v :: vs) ⟨v.text :: r.declarations, r.moved⟩
  | kept {used : List Int} {next value : Int} {v : Variant} {vs : List Variant} {r : Numbering}
    (wanted : v.wanted? next = some value) (free : ¬ v.Excluded explicit used value)
    (rest : Carried explicit (value :: used) (following value) vs r) :
    Carried explicit used next (v :: vs) ⟨v.text :: r.declarations, r.moved⟩
  | moved {used : List Int} {next value found : Int} {v : Variant} {vs : List Variant}
    {r : Numbering} (wanted : v.wanted? next = some value)
    (excluded : v.Excluded explicit used value)
    (search : Search (used ++ explicit) (following value) found)
    (rest : Carried explicit (found :: used) (following found) vs r) :
    Carried explicit used next (v :: vs)
      ⟨declare v.name found :: r.declarations, v.name :: r.moved⟩

section

variable {explicit used : List Int} {next value limit : Int} {v : Variant} {vs : List Variant}
  {n : Numbering}

theorem number?_cons_of_unreadable (hWanted : v.wanted? next = none) :
    number? explicit used next (v :: vs) =
      (number? explicit used next vs).map fun r => ⟨v.text :: r.declarations, r.moved⟩ := by
  rw [Variant.wanted?] at hWanted
  rw [number?]
  cases hWritten : v.written with
  | counted =>
    rw [hWritten] at hWanted
    cases hWanted
  | value x =>
    rw [hWritten] at hWanted
    cases hWanted
  | unreadable => cases number? explicit used next vs <;> rfl

/-- A variant that may have the value it asks for keeps its declaration. -/
theorem number?_cons_of_free (hWanted : v.wanted? next = some value)
    (hFree : ¬ v.Excluded explicit used value) :
    number? explicit used next (v :: vs) =
      (number? explicit (value :: used) (following value) vs).map fun r =>
        ⟨v.text :: r.declarations, r.moved⟩ := by
  rw [Variant.Excluded, not_or, not_and] at hFree
  rw [Variant.wanted?] at hWanted
  rw [number?]
  -- a counted variant is moved for values in use or written anywhere, a valued one only for the
  -- former
  cases hWritten : v.written with
  | counted =>
    rw [hWritten] at hWanted
    obtain rfl := Option.some.inj hWanted
    simp only [hFree.1, hFree.2 hWritten, or_self, if_false]
    cases number? explicit (next :: used) (following next) vs <;> rfl
  | value x =>
    rw [hWritten] at hWanted
    obtain rfl := Option.some.inj hWanted
    simp only [hFree.1, if_false]
    cases number? explicit (x :: used) (following x) vs <;> rfl
  | unreadable =>
    rw [hWritten] at hWanted
    cases hWanted

/-- A variant that may not have the value it asks for is moved to the next free one. -/
theorem number?_cons_of_excluded (hWanted : v.wanted? next = some value)
    (hExcluded : v.Excluded explicit used value) :
    number? explicit used next (v :: vs) =
      (nextFree? (used ++ explicit) value).bind fun free =>
        (number? explicit (free :: used) (following free) vs).map fun r =>
          ⟨declare v.name free :: r.declarations, v.name :: r.moved⟩ := by
  have hMove : ∀ value, (do
      let free ← nextFree? (used ++ explicit) value
      let r ← number? explicit (free :: used) (following free) vs
      return (⟨declare v.name free :: r.declarations, v.name :: r.moved⟩ : Numbering)) =
      (nextFree? (used ++ explicit) value).bind fun free =>
        (number? explicit (free :: used) (following free) vs).map fun r =>
          ⟨declare v.name free :: r.declarations, v.name :: r.moved⟩ := by
    intro value
    refine congrArg _ (funext fun free => ?_)
    cases number? explicit (free :: used) (following free) vs <;> rfl
  rw [Variant.wanted?] at hWanted
  rw [number?]
  cases hWritten : v.written with
  | counted =>
    rw [hWritten] at hWanted
    obtain rfl := Option.some.inj hWanted
    have hTaken : next ∈ used ∨ next ∈ explicit := hExcluded.imp_right And.right
    simp only [hTaken, if_true]
    exact hMove next
  | value x =>
    rw [hWritten] at hWanted
    obtain rfl := Option.some.inj hWanted
    -- that its value is written somewhere excludes only a variant that is counted
    have hUsed : x ∈ used := by
      rcases hExcluded with hUsed | ⟨hCounted, -⟩
      · exact hUsed
      · rw [hWritten] at hCounted
        cases hCounted
    simp only [hUsed, if_true]
    exact hMove x
  | unreadable =>
    rw [hWritten] at hWanted
    cases hWanted

theorem carried_of_number? (h : number? explicit used next vs = some n) :
    Carried explicit used next vs n := by
  induction vs generalizing used next n with
  | nil =>
    cases h
    exact .done
  | cons v vs ih =>
    cases hWanted : v.wanted? next with
    | none =>
      rw [number?_cons_of_unreadable hWanted] at h
      obtain ⟨r, hRest, rfl⟩ := Option.map_eq_some_iff.1 h
      exact .left hWanted (ih hRest)
    | some value =>
      by_cases hExcluded : v.Excluded explicit used value
      · rw [number?_cons_of_excluded hWanted hExcluded] at h
        obtain ⟨free, hFound, hNumber⟩ := Option.bind_eq_some_iff.1 h
        obtain ⟨r, hRest, rfl⟩ := Option.map_eq_some_iff.1 hNumber
        exact .moved hWanted hExcluded (nextFree?_eq_some_iff.1 hFound) (ih hRest)
      · rw [number?_cons_of_free hWanted hExcluded] at h
        obtain ⟨r, hRest, rfl⟩ := Option.map_eq_some_iff.1 h
        exact .kept hWanted hExcluded (ih hRest)

theorem Carried.number?_eq (h : Carried explicit used next vs n) :
    number? explicit used next vs = some n := by
  induction h with
  | done => rfl
  | left hWanted _ ih => rw [number?_cons_of_unreadable hWanted, ih, Option.map_some]
  | kept hWanted hFree _ ih => rw [number?_cons_of_free hWanted hFree, ih, Option.map_some]
  | moved hWanted hExcluded hSearch _ ih =>
    rw [number?_cons_of_excluded hWanted hExcluded, nextFree?_eq_some_iff.2 hSearch,
      Option.bind_some, ih, Option.map_some]

/-- The numbering that is returned is the one that is carried out, and if that does not come to its
end nothing is returned. -/
theorem number?_eq_some_iff :
    number? explicit used next vs = some n ↔ Carried explicit used next vs n :=
  ⟨carried_of_number?, Carried.number?_eq⟩

/-- The numbering gets to a variant that has to move when all values ahead of it are taken, up to
the greatest: the search for a free one goes on for ever. -/
inductive Stalled (explicit : List Int) : List Int → Int → List Variant → Prop
  | here {used : List Int} {next value : Int} {v : Variant} {vs : List Variant}
    (wanted : v.wanted? next = some value) (excluded : v.Excluded explicit used value)
    (taken : ∀ x, following value ≤ x → x ≤ 2 ^ 63 - 1 → x ∈ used ++ explicit) :
    Stalled explicit used next (v :: vs)
  | left {used : List Int} {next : Int} {v : Variant} {vs : List Variant}
    (unreadable : v.wanted? next = none) (rest : Stalled explicit used next vs) :
    Stalled explicit used next (v :: vs)
  | kept {used : List Int} {next value : Int} {v : Variant} {vs : List Variant}
    (wanted : v.wanted? next = some value) (free : ¬ v.Excluded explicit used value)
    (rest : Stalled explicit (value :: used) (following value) vs) :
    Stalled explicit used next (v :: vs)
  | moved {used : List Int} {next value found : Int} {v : Variant} {vs : List Variant}
    (wanted : v.wanted? next = some value) (excluded : v.Excluded explicit used value)
    (search : Search (used ++ explicit) (following value) found)
    (rest : Stalled explicit (found :: used) (following found) vs) :
    Stalled explicit used next (v :: vs)

theorem stalled_of_number? (h : number? explicit used next vs = none) :
    Stalled explicit used next vs := by
  induction vs generalizing used next with
  | nil => cases h
  | cons v vs ih =>
    cases hWanted : v.wanted? next with
    | none =>
      rw [number?_cons_of_unreadable hWanted, Option.map_eq_none_iff] at h
      exact .left hWanted (ih h)
    | some value =>
      by_cases hExcluded : v.Excluded explicit used value
      · rw [number?_cons_of_excluded hWanted hExcluded] at h
        -- it is this search that does not end, or the numbering of the rest
        cases hFound : nextFree? (used ++ explicit) value with
        | none => exact .here hWanted hExcluded (nextFree?_eq_none_iff.1 hFound)
        | some free =>
          rw [hFound, Option.bind_some, Option.map_eq_none_iff] at h
          exact .moved hWanted hExcluded (nextFree?_eq_some_iff.1 hFound) (ih h)
      · rw [number?_cons_of_free hWanted hExcluded, Option.map_eq_none_iff] at h
        exact .kept hWanted hExcluded (ih h)

theorem Stalled.number?_eq (h : Stalled explicit used next vs) :
    number? explicit used next vs = none := by
  induction h with
  | here hWanted hExcluded hTaken =>
    rw [number?_cons_of_excluded hWanted hExcluded, nextFree?_eq_none_iff.2 hTaken,
      Option.bind_none]
  | left hWanted _ ih => rw [number?_cons_of_unreadable hWanted, ih, Option.map_none]
  | kept hWanted hFree _ ih => rw [number?_cons_of_free hWanted hFree, ih, Option.map_none]
  | moved hWanted hExcluded hSearch _ ih =>
    rw [number?_cons_of_excluded hWanted hExcluded, nextFree?_eq_some_iff.2 hSearch,
      Option.bind_some, ih, Option.map_none]

/-- Nothing is returned exactly if a search on the way goes on for ever. -/
theorem number?_eq_none_iff :
    number? explicit used next vs = none ↔ Stalled explicit used next vs :=
  ⟨stalled_of_number?, Stalled.number?_eq⟩

/-- What a numbering declares a variant by: as it stands, or by its name with a value. -/
theorem Carried.declared (h : Carried explicit used next vs n) :
    List.Forall₂ (fun v d => d = v.text ∨ ∃ x, d = declare v.name x) vs n.declarations := by
  induction h with
  | done => exact .nil
  | left _ _ ih => exact .cons (.inl rfl) ih
  | kept _ _ _ ih => exact .cons (.inl rfl) ih
  | moved _ _ _ _ ih => exact .cons (.inr ⟨_, rfl⟩) ih

/-! ## Room for values -/

/-- All values, those that are written and those in use, are below a limit, and counting goes on
from a value of 64 bits up to the limit. -/
structure Room (explicit used : List Int) (next limit : Int) : Prop where
  explicit_fits : ∀ x ∈ explicit, -2 ^ 63 ≤ x ∧ x < limit
  used_lt : ∀ x ∈ used, x < limit
  next_fits : -2 ^ 63 ≤ next ∧ next ≤ limit

/-- With a value up to the limit in use there is room below the next limit. -/
theorem Room.step (h : Room explicit used next limit) (hValue : -2 ^ 63 ≤ value ∧ value ≤ limit) :
    Room explicit (value :: used) (value + 1) (limit + 1) where
  explicit_fits x hMem := by
    have hBelow := h.explicit_fits x hMem
    omega
  used_lt x hMem := by
    rcases List.mem_cons.1 hMem with rfl | hUsed
    · omega
    · have hBelow := h.used_lt x hUsed
      omega
  next_fits := by omega

/-- What a variant asks for lies up to the limit. -/
theorem Room.wanted_fits (h : Room explicit used next limit)
    (hExplicit : ∀ x, v.explicit? = some x → x ∈ explicit) (hWanted : v.wanted? next = some value) :
    -2 ^ 63 ≤ value ∧ value ≤ limit := by
  rw [Variant.wanted?] at hWanted
  split at hWanted
  · cases hWanted
    exact h.next_fits
  · rename_i x hWritten
    cases hWanted
    have hBelow := h.explicit_fits value (hExplicit value (by rw [Variant.explicit?, hWritten]))
    omega
  · cases hWanted

/-- A value that a variant may not have is below the limit. -/
theorem Room.excluded_lt (h : Room explicit used next limit)
    (hExcluded : v.Excluded explicit used value) : value < limit :=
  hExcluded.elim (h.used_lt value) fun hOther => (h.explicit_fits value hOther.2).2

theorem Room.limit_free (h : Room explicit used next limit) : limit ∉ used ++ explicit := by
  intro hMem
  rcases List.mem_append.1 hMem with hUsed | hExplicit
  · exact Int.lt_irrefl limit (h.used_lt limit hUsed)
  · exact Int.lt_irrefl limit (h.explicit_fits limit hExplicit).2

/-- With room for all variants the numbering comes to its end. -/
theorem exists_carried (h : Room explicit used next limit) (hLimit : limit + vs.length ≤ 2 ^ 63)
    (hExplicit : ∀ v ∈ vs, ∀ x, v.explicit? = some x → x ∈ explicit) :
    ∃ n, Carried explicit used next vs n := by
  induction vs generalizing used next limit with
  | nil => exact ⟨_, .done⟩
  | cons v vs ih =>
    obtain ⟨hHere, hLater⟩ := List.forall_mem_cons.1 hExplicit
    rw [List.length_cons, Int.natCast_succ] at hLimit
    -- a value up to the limit is given out, and the rest is numbered behind it
    have hRest : ∀ x, -2 ^ 63 ≤ x ∧ x ≤ limit →
        ∃ r, Carried explicit (x :: used) (following x) vs r := by
      intro x hx
      cases vs with
      | nil => exact ⟨_, .done⟩
      | cons w ws =>
        rw [List.length_cons, Int.natCast_succ] at hLimit
        rw [following_of_lt (by omega)]
        exact ih (h.step hx) (by rw [List.length_cons]; omega) hLater
    cases hWanted : v.wanted? next with
    | none =>
      obtain ⟨r, hRest⟩ := ih h (by omega) hLater
      exact ⟨_, .left hWanted hRest⟩
    | some value =>
      have hFits := h.wanted_fits hHere hWanted
      by_cases hExcluded : v.Excluded explicit used value
      · have hBelow := h.excluded_lt hExcluded
        have hFrom : following value ≤ limit := by
          rw [following]
          omega
        -- the limit itself is free, so the search ends at it if not before
        obtain ⟨found, hSearch⟩ := exists_search hFrom (by omega) h.limit_free
        have hFound : found ≤ limit := hSearch.le_of_notMem hFrom (by omega) h.limit_free
        have hLow := (hSearch.between (following_le value)).1
        rw [following_of_lt (by omega)] at hLow
        obtain ⟨r, hCarried⟩ := hRest found ⟨by omega, hFound⟩
        exact ⟨_, .moved hWanted hExcluded hSearch hCarried⟩
      · obtain ⟨r, hCarried⟩ := hRest value hFits
        exact ⟨_, .kept hWanted hExcluded hCarried⟩

end

/-! ## Enumerations -/

/-- A declaration is the text of its variant, or one of its name with a value. -/
def KeptOrMoved (text declaration : String) : Prop :=
  declaration = text ∨ ∃ v, declaration = declare (Variant.ofText text).name v

@[simp] theorem Variant.text_ofText (text : String) : (Variant.ofText text).text = text := by
  rw [Variant.ofText]
  split
  · rfl
  · split <;> rfl

theorem map_text_ofText (items : List String) :
    (items.map Variant.ofText).map Variant.text = items := by
  rw [List.map_map]
  exact (List.map_congr_left fun item _ => Variant.text_ofText item).trans (List.map_id items)

section

variable {items : List String} {n : Numbering}

theorem assign_of_assign? (h : assign? items = some n) : assign items = n := by
  rw [assign, h, Option.getD_some]

theorem assign?_of_isSome (h : (assign? items).isSome = true) :
    assign? items = some (assign items) := by
  obtain ⟨n, hNumber⟩ := Option.isSome_iff_exists.1 h
  rw [assign_of_assign? hNumber, hNumber]

theorem assign?_eq_some_iff :
    assign? items = some n ↔ Carried ((items.map Variant.ofText).filterMap Variant.explicit?) [] 0
      (items.map Variant.ofText) n := number?_eq_some_iff

/-- **Enumerations that cannot be numbered.** The numbering returns nothing exactly if it gets to an
item that has to move when no value is left ahead. -/
theorem assign?_eq_none_iff :
    assign? items = none ↔ Stalled ((items.map Variant.ofText).filterMap Variant.explicit?) [] 0
      (items.map Variant.ofText) := number?_eq_none_iff

/-- The numbering keeps or moves each item. -/
theorem assign_keptOrMoved (items : List String) :
    List.Forall₂ KeptOrMoved items (assign items).declarations := by
  cases hNumber : assign? items with
  | none =>
    rw [assign, hNumber, Option.getD_none]
    exact List.forall₂_same.2 fun item _ => .inl rfl
  | some n =>
    have hDeclared := (assign?_eq_some_iff.1 hNumber).declared
    rw [assign_of_assign? hNumber]
    refine (List.forall₂_map_left_iff.1 hDeclared).imp fun item d h => ?_
    rwa [Variant.text_ofText] at h

theorem length_assign (items : List String) :
    (assign items).declarations.length = items.length :=
  (assign_keptOrMoved items).length_eq.symm

end

end PropertySets.Enumeration
