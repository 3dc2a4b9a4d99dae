import Mathlib.Data.List.Induction
import Mathlib.Data.List.Sort
import PropertySets.Dump
import PropertySets.Generate

/-!
# What a registry holds

A registry is filled edition by edition. Under a name it has the editions of that name in the order
in which they came; in which order editions of different names came is forgotten. So two ways to
fill a registry come to the same if they agree on each name by itself.

* `Registry.mem_groups_iff`, `Registry.eq_of_find?` — a registry is known by what it finds.
* `Registry.ofList_concat` — the step: one more edition.
* `Registry.mem_names_ofList`, `Registry.getD_find?_ofList`, `Registry.definitionCount_ofList` —
  what is there after any insertions.
* `Registry.grouped_of_insertions` — all of it, and what does not depend on the order.
-/

namespace PropertySets.Registry

/-! ## Registries and what they find -/

/-- A group is what is found under its name. -/
theorem mem_groups_iff {r : Registry} {n : String} {es : List Edition} :
    (n, es) ∈ r.groups ↔ r.find? n = some es := by
  rw [find?, List.lookup_eq_some_iff]
  constructor
  · intro hMem
    obtain ⟨before, after, hGroups⟩ := List.append_of_mem hMem
    refine ⟨before, after, hGroups, fun group hBefore => ?_⟩
    -- names ascend, so no group in front has the name as well
    have hAscending := r.ascending
    rw [hGroups, List.map_append, List.map_cons, List.pairwise_append] at hAscending
    have hLess := hAscending.2.2 _ (List.mem_map_of_mem hBefore) n List.mem_cons_self
    exact bne_iff_ne.2 (String.ne_of_lt hLess).symm
  · rintro ⟨before, after, hGroups, -⟩
    rw [hGroups]
    exact List.mem_append_right _ List.mem_cons_self

theorem mem_names_iff {r : Registry} {n : String} : n ∈ r.names ↔ ∃ es, r.find? n = some es := by
  rw [names, List.mem_map]
  constructor
  · rintro ⟨group, hMem, rfl⟩
    exact ⟨group.2, mem_groups_iff.1 hMem⟩
  · rintro ⟨es, hFound⟩
    exact ⟨(n, es), mem_groups_iff.2 hFound, rfl⟩

/-- Groups in ascending order of their names. -/
def GroupBefore (a b : String × List Edition) : Prop := a.1 < b.1

instance : Std.Irrefl GroupBefore := ⟨fun a => String.lt_irrefl a.1⟩

instance : Std.Antisymm GroupBefore := ⟨fun _ _ h h' => absurd h' (String.lt_asymm h)⟩

theorem pairwise_groupBefore (r : Registry) : r.groups.Pairwise GroupBefore := by
  have hAscending := r.ascending
  rwa [List.pairwise_map] at hAscending

/-- Registries that find the same under each name are the same. -/
theorem eq_of_find? {r r' : Registry} (h : ∀ n, r.find? n = r'.find? n) : r = r' := by
  have hGroups : r.groups = r'.groups := by
    refine (pairwise_groupBefore r).eq_of_mem_iff (pairwise_groupBefore r') ?_
    rintro ⟨n, es⟩
    rw [mem_groups_iff, mem_groups_iff, h]
  cases r
  cases r'
  cases hGroups
  rfl

/-! ## Insertions -/

theorem ofList_concat (es : List Edition) (e : Edition) :
    ofList (es ++ [e]) = (ofList es).insert e :=
  List.foldl_concat ..

theorem mem_names_ofList {es : List Edition} {n : String} :
    n ∈ (ofList es).names ↔ ∃ e ∈ es, e.name = n := by
  induction es using List.reverseRec with
  | nil => simp [ofList, empty, names]
  | append_singleton es e ih =>
    rw [ofList_concat, mem_names_insert, ih]
    simp only [List.mem_append, List.mem_singleton, or_and_right, exists_or, exists_eq_left]
    rw [or_comm, eq_comm]

/-- Under a name there are the editions of the name, in the order in which they came. -/
theorem getD_find?_ofList (es : List Edition) (n : String) :
    ((ofList es).find? n).getD [] = es.filter (·.name = n) := by
  induction es using List.reverseRec with
  | nil => rfl
  | append_singleton es e ih =>
    rw [ofList_concat, find?_insert, List.filter_append]
    by_cases hName : n = e.name
    · subst hName
      rw [if_pos rfl, Option.getD_some, ih]
      simp
    · rw [if_neg hName, ih]
      simp [Ne.symm hName]

theorem find?_ofList (es : List Edition) (n : String) :
    (ofList es).find? n =
      if n ∈ (ofList es).names then some (es.filter (·.name = n)) else none := by
  rw [← getD_find?_ofList]
  split
  · rename_i hMem
    obtain ⟨editions, hFound⟩ := mem_names_iff.1 hMem
    rw [hFound, Option.getD_some]
  · rename_i hMissing
    rw [Option.eq_none_iff_forall_ne_some]
    exact fun editions hFound => hMissing (mem_names_iff.2 ⟨editions, hFound⟩)

theorem definitionCount_ofList (es : List Edition) : (ofList es).definitionCount = es.length := by
  induction es using List.reverseRec with
  | nil => rfl
  | append_singleton es e ih =>
    rw [ofList_concat, definitionCount_insert, ih, List.length_append, List.length_singleton]

/-- Only the order of editions of one name counts. -/
theorem ofList_eq_of_filter {es es' : List Edition}
    (h : ∀ n, es.filter (·.name = n) = es'.filter (·.name = n)) : ofList es = ofList es' := by
  refine eq_of_find? fun n => ?_
  have hNames : n ∈ (ofList es).names ↔ n ∈ (ofList es').names := by
    have hThere : ∀ es : List Edition, n ∈ (ofList es).names ↔ es.filter (·.name = n) ≠ [] := by
      intro es
      rw [mem_names_ofList, ne_eq, List.filter_eq_nil_iff]
      simp
    rw [hThere, hThere, h]
  rw [find?_ofList, find?_ofList, h]
  simp only [hNames]

/-- **Filling a registry.** Whatever editions come in, the names are in ascending order and are the
names that came; under a name are the editions of that name as they came, each with its folder and
the version of its definition; and all of them are counted. Editions that come in another order,
but in the same one under each name, give the same registry, so whatever file system the run is on
the same code, the same dump and the same files. -/
theorem grouped_of_insertions (es : List Edition) :
    (ofList es).names.Pairwise (· < ·) ∧
      (∀ n, n ∈ (ofList es).names ↔ ∃ e ∈ es, e.name = n) ∧
      (∀ n ∈ (ofList es).names, ∃ found, (ofList es).find? n = some found ∧
        found.map (fun e => (e.folder, e.version, e.definition)) =
          (es.filter (·.name = n)).map fun e => (e.folder, e.definition.version, e.definition)) ∧
      (∀ n ∉ (ofList es).names, (ofList es).find? n = none) ∧
      (ofList es).definitionCount = es.length ∧
      ∀ es' : List Edition, (∀ n, es'.filter (·.name = n) = es.filter (·.name = n)) →
        ofList es' = ofList es ∧
        (∀ format, Dump.render (ofList es') format = Dump.render (ofList es) format) ∧
        ∀ (m : Type → Type) [Monad m] [Disk m] (c : Configuration),
          (∀ reconciler, renderModule (m := m) c (ofList es') reconciler =
            renderModule c (ofList es) reconciler) ∧
          generate (m := m) c (ofList es') = generate c (ofList es) := by
  refine ⟨(ofList es).ascending, fun n => mem_names_ofList, fun n hMem => ?_, fun n hMissing => ?_,
    definitionCount_ofList es, fun es' hSame => ?_⟩
  · exact ⟨_, by rw [find?_ofList, if_pos hMem], rfl⟩
  · rw [find?_ofList, if_neg hMissing]
  · -- with the same editions under each name the registries are equal, and so is all that comes of
    -- them
    have hRegistry : ofList es' = ofList es := ofList_eq_of_filter hSame
    refine ⟨hRegistry, fun format => by rw [hRegistry], fun m _ _ c => ⟨fun reconciler => ?_, ?_⟩⟩
    · rw [hRegistry]
    · rw [hRegistry]

end PropertySets.Registry
