import PropertySets.Schema.Definition

/-!
# The registry of definitions

The registry gathers the editions of all property sets under the names of the sets. Names are in
ascending order; the editions of one name are in the order they came in, and none is merged or
replaced.

* `Registry.insert`, `Registry.ofList` — filling a registry.
* `Registry.find?`, `Registry.names`, `Registry.definitionCount` — looking into it.
* `Registry.find?_insert`, `Registry.definitionCount_insert` — an edition goes behind the others
  of its name and nothing else changes.
-/

namespace PropertySets

/-- Editions grouped by the name of their set. -/
structure Registry where
  groups : List (String × List Edition)
  /-- Names are in ascending order, and none comes twice. -/
  ascending : (groups.map (·.1)).Pairwise (· < ·)
  deriving Repr

namespace Registry

/-- A registry without editions. -/
def empty : Registry := ⟨[], .nil⟩

/-- Put an edition behind the others of its name. -/
def insertInto (name : String) (e : Edition) : List (String × List Edition) →
    List (String × List Edition)
  | [] => [(name, [e])]
  | (n, es) :: rest =>
    if name = n then (n, es ++ [e]) :: rest
    else if name < n then (name, [e]) :: (n, es) :: rest
    else (n, es) :: insertInto name e rest

theorem mem_names_insertInto {name n : String} {e : Edition} {gs : List (String × List Edition)} :
    n ∈ (insertInto name e gs).map (·.1) ↔ n = name ∨ n ∈ gs.map (·.1) := by
  induction gs with
  | nil => simp [insertInto]
  | cons g rest ih =>
    obtain ⟨m, es⟩ := g
    unfold insertInto
    split
    · rename_i same
      simp [same]
    · split
      · simp
      · rw [List.map_cons, List.mem_cons, ih, List.map_cons, List.mem_cons]
        exact or_left_comm

theorem ascending_insertInto {name : String} {e : Edition} {gs : List (String × List Edition)}
    (h : (gs.map (·.1)).Pairwise (· < ·)) :
    ((insertInto name e gs).map (·.1)).Pairwise (· < ·) := by
  induction gs with
  | nil => exact List.pairwise_cons.2 ⟨nofun, .nil⟩
  | cons g rest ih =>
    obtain ⟨m, es⟩ := g
    obtain ⟨above, tail⟩ := List.pairwise_cons.1 h
    unfold insertInto
    split
    · exact h
    · rename_i different
      split
      · rename_i less
        refine List.pairwise_cons.2 ⟨fun n member => ?_, h⟩
        rcases List.mem_cons.1 member with rfl | member
        · exact less
        · exact String.lt_trans less (above n member)
      · rename_i notLess
        refine List.pairwise_cons.2 ⟨fun n member => ?_, ih tail⟩
        rcases mem_names_insertInto.1 member with rfl | member
        -- a name that is neither this one nor before it comes behind it
        · exact Decidable.byContradiction fun notGreater =>
            different (String.le_antisymm (String.not_lt.1 notGreater) (String.not_lt.1 notLess))
        · exact above n member

/-- Add an edition. -/
def insert (r : Registry) (e : Edition) : Registry :=
  ⟨insertInto e.name e r.groups, ascending_insertInto r.ascending⟩

/-- The registry of a list of editions. -/
def ofList (es : List Edition) : Registry := es.foldl insert empty

/-- The editions of a name, in the order they came in. -/
def find? (r : Registry) (name : String) : Option (List Edition) := r.groups.lookup name

/-- The names, in ascending order. -/
def names (r : Registry) : List String := r.groups.map (·.1)

theorem nodup_names (r : Registry) : r.names.Nodup := r.ascending.imp String.ne_of_lt

/-- How many names there are. -/
def size (r : Registry) : Nat := r.groups.length

/-- How many editions there are under all names. -/
def definitionCount (r : Registry) : Nat := (r.groups.flatMap (·.2)).length

theorem lookup_eq_none_of_lt {name : String} {gs : List (String × List Edition)}
    (h : ∀ n ∈ gs.map (·.1), name < n) : gs.lookup name = none := by
  induction gs with
  | nil => rfl
  | cons g rest ih =>
    obtain ⟨m, es⟩ := g
    have different : (name == m) = false := by
      refine beq_eq_false_iff_ne.2 fun same => ?_
      exact String.lt_irrefl m (same ▸ h m (by simp))
    rw [List.lookup_cons, different]
    exact ih fun n member => h n (List.mem_cons_of_mem _ member)

theorem lookup_insertInto {name : String} {e : Edition} {gs : List (String × List Edition)}
    (h : (gs.map (·.1)).Pairwise (· < ·)) (n : String) :
    (insertInto name e gs).lookup n =
      if n = name then some ((gs.lookup n).getD [] ++ [e]) else gs.lookup n := by
  induction gs with
  | nil =>
    by_cases same : n = name
    · simp [insertInto, same]
    · simp [insertInto, List.lookup_cons, same, beq_eq_false_iff_ne.2 same]
  | cons g rest ih =>
    obtain ⟨m, es⟩ := g
    obtain ⟨above, tail⟩ := List.pairwise_cons.1 h
    unfold insertInto
    split
    · rename_i same
      subst same
      by_cases here : n = name
      · simp [here]
      · simp [List.lookup_cons, here, beq_eq_false_iff_ne.2 here]
    · rename_i different
      split
      · rename_i less
        by_cases here : n = name
        · subst here
          -- the groups are in order, so none behind this one has the name
          have missing : ((m, es) :: rest).lookup n = none :=
            lookup_eq_none_of_lt fun x member => by
              rcases List.mem_cons.1 member with rfl | member
              · exact less
              · exact String.lt_trans less (above x member)
          rw [if_pos rfl, missing]
          simp
        · rw [if_neg here, List.lookup_cons, beq_eq_false_iff_ne.2 here]
      · by_cases here : n = m
        · subst here
          rw [if_neg (Ne.symm different)]
          simp
        · rw [List.lookup_cons, List.lookup_cons, beq_eq_false_iff_ne.2 here]
          exact ih tail

/-- An edition goes behind the others of its name, and other names keep theirs. -/
theorem find?_insert (r : Registry) (e : Edition) (n : String) :
    (r.insert e).find? n = if n = e.name then some ((r.find? n).getD [] ++ [e]) else r.find? n :=
  lookup_insertInto r.ascending n

theorem mem_names_insert {r : Registry} {e : Edition} {n : String} :
    n ∈ (r.insert e).names ↔ n = e.name ∨ n ∈ r.names :=
  mem_names_insertInto

theorem definitionCount_insert (r : Registry) (e : Edition) :
    (r.insert e).definitionCount = r.definitionCount + 1 := by
  -- the insertion goes by the groups, so the count is followed along them
  suffices ∀ gs : List (String × List Edition),
      ((insertInto e.name e gs).flatMap (·.2)).length = (gs.flatMap (·.2)).length + 1 from
    this r.groups
  intro gs
  induction gs with
  | nil => rfl
  | cons g rest ih =>
    obtain ⟨m, es⟩ := g
    unfold insertInto
    split
    · simp only [List.flatMap_cons, List.length_append, List.length_singleton]
      omega
    · split
      · simp only [List.flatMap_cons, List.length_append, List.length_singleton]
        omega
      · simp only [List.flatMap_cons, List.length_append]
        omega

end Registry

end PropertySets
