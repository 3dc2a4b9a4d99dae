import Mathlib.Data.List.Induction
import Mathlib.Data.List.Sort
import PropertySets.Proofs.Disk.OwnedFiles

/-!
# What is listed below a directory

A disk keeps every entry in a directory and under a name of its own. What a survey lists of such a
tree is settled by the tree alone: each entry below the directory comes once, and an ascending list
without repetitions is determined by its members. So a file that is taken away is missing from the
list, and nothing else about the list changes.

* `Before` — the order of the list, in which no names are before themselves.
* `FileTree.WellFormed` — trees as disks hold them; `Lists` — what is listed below a directory.
* `WellFormed.exists_survey`, `Lists.unique`, `Lists.erase` — surveys, and surveys without a file.
-/

namespace PropertySets

/-! ## The order of names -/

theorem namesLe_cons_iff {a b : String} {as bs : List String} :
    namesLe (a :: as) (b :: bs) = true ↔ a < b ∨ a = b ∧ namesLe as bs = true := by
  rw [namesLe]
  by_cases hSame : a = b
  · subst hSame
    simp
  · simp [hSame]

theorem namesLe_trans (a b c : List String) (hab : namesLe a b = true) (hbc : namesLe b c = true) :
    namesLe a c = true := by
  induction a generalizing b c with
  | nil => cases c <;> rfl
  | cons x xs ih =>
    cases b with
    | nil => cases hab
    | cons y ys =>
      cases c with
      | nil => cases hbc
      | cons z zs =>
        -- the first names decide unless they are the same
        rw [namesLe_cons_iff] at hab hbc ⊢
        rcases hab with hLess | ⟨rfl, hRest⟩
        · rcases hbc with hLess' | ⟨rfl, -⟩
          · exact .inl (String.lt_trans hLess hLess')
          · exact .inl hLess
        · exact hbc.imp_right fun hSame => ⟨hSame.1, ih ys zs hRest hSame.2⟩

/-- Of two names one is before the other, or they are the same. -/
theorem lt_or_eq_or_gt (a b : String) : a < b ∨ a = b ∨ b < a := by
  by_cases hLess : a < b
  · exact .inl hLess
  by_cases hGreater : b < a
  · exact .inr (.inr hGreater)
  · exact .inr (.inl (String.le_antisymm (String.not_lt.1 hGreater) (String.not_lt.1 hLess)))

theorem namesLe_total (a b : List String) : (namesLe a b || namesLe b a) = true := by
  induction a generalizing b with
  | nil => cases b <;> rfl
  | cons x xs ih =>
    cases b with
    | nil => rfl
    | cons y ys =>
      rw [Bool.or_eq_true, namesLe_cons_iff, namesLe_cons_iff]
      rcases lt_or_eq_or_gt x y with hLess | rfl | hGreater
      · exact .inl (.inl hLess)
      · exact (Bool.or_eq_true _ _ ▸ ih ys).imp (fun h => .inr ⟨rfl, h⟩) fun h => .inr ⟨rfl, h⟩
      · exact .inr (.inl hGreater)

theorem namesLe_antisymm {a b : List String} (hab : namesLe a b = true)
    (hba : namesLe b a = true) : a = b := by
  induction a generalizing b with
  | nil =>
    cases b with
    | nil => rfl
    | cons y ys => cases hba
  | cons x xs ih =>
    cases b with
    | nil => cases hab
    | cons y ys =>
      -- the first names must be the same, or they would be less both ways
      rw [namesLe_cons_iff] at hab hba
      rcases hab with hLess | ⟨rfl, hRest⟩
      · rcases hba with hLess' | ⟨rfl, -⟩
        · exact absurd hLess' (String.lt_asymm hLess)
        · exact absurd hLess (String.lt_irrefl _)
      · have hRest' := hba.resolve_left (String.lt_irrefl x)
        rw [ih hRest hRest'.2]

/-- One list of names is listed before another. -/
def Before (a b : List String) : Prop := namesLe a b = true ∧ a ≠ b

instance : Std.Irrefl Before := ⟨fun _ h => h.2 rfl⟩

instance : Std.Antisymm Before := ⟨fun _ _ h h' => namesLe_antisymm h.1 h'.1⟩

/-- A directory comes before what is in it. -/
theorem before_nil_cons (name : String) (names : List String) : Before [] (name :: names) :=
  ⟨rfl, nofun⟩

theorem before_of_lt {a b : String} (h : a < b) (as bs : List String) :
    Before (a :: as) (b :: bs) := by
  refine ⟨namesLe_cons_iff.2 (.inl h), ?_⟩
  intro hSame
  obtain ⟨rfl, -⟩ := List.cons.inj hSame
  exact String.lt_irrefl a h

theorem before_cons {names names' : List String} (h : Before names names') (name : String) :
    Before (name :: names) (name :: names') :=
  ⟨namesLe_cons_iff.2 (.inr ⟨rfl, h.1⟩), fun hSame => h.2 (List.cons.inj hSame).2⟩

theorem before_append {names names' : List String} (h : Before names names')
    (above : List String) : Before (above ++ names) (above ++ names') := by
  induction above with
  | nil => exact h
  | cons name rest ih => exact before_cons ih name

/-- The order of entries, by their names. -/
def EntryBefore (e f : Entry) : Prop := Before e.names f.names

instance : Std.Irrefl EntryBefore := ⟨fun _ h => h.2 rfl⟩

/-- Entries that come one after the other have different names, so they are never swapped. -/
instance : Std.Antisymm EntryBefore :=
  ⟨fun _ _ h h' => absurd (namesLe_antisymm h.1 h'.1) h.2⟩

namespace FileTree

/-! ## Well-formed trees -/

/-- A name as a directory holds it. -/
structure IsFileName (name : String) : Prop extends IsEntryName name where
  ne_empty : name ≠ ""
  unslashed : '/' ∉ name.toList

theorem isFileName_iff {name : String} :
    IsFileName name ↔ name ≠ "." ∧ name ≠ ".." ∧ name.utf8ByteSize ≤ 255 ∧ name ≠ "" ∧
      '/' ∉ name.toList :=
  ⟨fun h => ⟨h.notDot, h.notUp, h.short, h.ne_empty, h.unslashed⟩,
    fun ⟨hDot, hUp, hShort, hEmpty, hSlash⟩ => ⟨⟨hDot, hUp, hShort⟩, hEmpty, hSlash⟩⟩

instance (name : String) : Decidable (IsFileName name) := decidable_of_iff _ isFileName_iff.symm

/-- A tree as a disk holds it: nothing is listed twice, and everything is in a directory, under a
name. -/
structure WellFormed (t : FileTree) : Prop where
  distinct : (t.nodes.map (·.1)).Nodup
  placed : ∀ l node, (l, node) ∈ t.nodes →
    ∃ d name, l = d ++ [name] ∧ IsFileName name ∧ t.node? d = some .directory

variable {t : FileTree} {d l : Location} {names : List String} {node : TreeNode}

/-- There is one directory node only, unlike files and links. -/
theorem eq_directory_of_kindOf (hKind : kindOf node = .directory) : node = .directory := by
  cases node with
  | directory => rfl
  | file serial content | link target => cases hKind

/-- Well-formedness is seen from the locations that are listed. -/
theorem wellFormed_of_nodes (hDistinct : (t.nodes.map (·.1)).Nodup)
    (hPlaced : ∀ l ∈ t.nodes.map (·.1), IsFileName (l.getLast?.getD "") ∧
      (t.node? l.dropLast).map kindOf = some .directory) : t.WellFormed := by
  refine ⟨hDistinct, ?_⟩
  intro l node hMem
  obtain ⟨hName, hAround⟩ := hPlaced l (List.mem_map_of_mem hMem)
  rcases List.eq_nil_or_concat' l with rfl | ⟨d, name, rfl⟩
  · exact absurd rfl hName.ne_empty
  · rw [List.getLast?_concat] at hName
    rw [List.dropLast_concat] at hAround
    refine ⟨d, name, rfl, hName, ?_⟩
    obtain ⟨around, hNode, hKind⟩ := Option.map_eq_some_iff.1 hAround
    rwa [eq_directory_of_kindOf hKind] at hNode

theorem below?_eq_some_iff : below? d l = some names ↔ l = d ++ names := by
  induction d generalizing l with
  | nil => simp [below?]
  | cons first rest ih =>
    cases l with
    | nil => simp [below?]
    | cons other others =>
      unfold below?
      by_cases hSame : first = other
      · simp [hSame, ih]
      · simp [hSame, Ne.symm hSame]

theorem ne_nil_of_file {serial : Nat} {content : ByteArray}
    (hFile : t.node? l = some (.file serial content)) : l ≠ [] := by
  refine ne_nil_of_node? (t := t) ?_
  rw [hFile]
  nofun

theorem node?_of_ne_nil (hBelow : l ≠ []) : t.node? l = t.nodes.lookup l := if_neg hBelow

namespace WellFormed

/-- What is at a location is what is listed there. -/
theorem mem_nodes_iff (h : t.WellFormed) :
    (l, node) ∈ t.nodes ↔ l ≠ [] ∧ t.node? l = some node := by
  constructor
  · intro hMem
    obtain ⟨d, name, rfl, -⟩ := h.placed l node hMem
    have hBelow : d ++ [name] ≠ [] := by simp
    refine ⟨hBelow, ?_⟩
    rw [node?_of_ne_nil hBelow, List.lookup_eq_some_iff]
    obtain ⟨before, after, hListed⟩ := List.append_of_mem hMem
    refine ⟨before, after, hListed, ?_⟩
    -- an earlier node of the same location would be a second one
    intro entry hEntry
    rw [bne_iff_ne]
    intro hSame
    have hDistinct := h.distinct
    rw [hListed, List.map_append, List.map_cons, List.nodup_append] at hDistinct
    exact hDistinct.2.2 _ (List.mem_map_of_mem hEntry) _ List.mem_cons_self hSame.symm
  · rintro ⟨hBelow, hNode⟩
    rw [node?_of_ne_nil hBelow, List.lookup_eq_some_iff] at hNode
    obtain ⟨before, after, hListed, -⟩ := hNode
    rw [hListed]
    simp

/-- Everything is in a directory, under a name. -/
theorem placed_of_node? (h : t.WellFormed) {name : String}
    (hNode : t.node? (l ++ [name]) = some node) :
    IsFileName name ∧ t.node? l = some .directory := by
  have hMem := h.mem_nodes_iff.2 ⟨by simp, hNode⟩
  obtain ⟨d, name', hSame, hName, hDirectory⟩ := h.placed _ _ hMem
  obtain ⟨rfl, rfl⟩ := List.append_singleton_inj.1 hSame
  exact ⟨hName, hDirectory⟩

/-- On the way down to something there are directories only, and file names. -/
theorem above_of_node? (h : t.WellFormed) (hNode : t.node? (d ++ names) = some node) :
    (∀ name ∈ names, IsFileName name) ∧
      ∀ above, above <+: names → above ≠ names → t.node? (d ++ above) = some .directory := by
  induction names using List.reverseRec generalizing node with
  | nil =>
    refine ⟨List.forall_mem_nil _, ?_⟩
    intro above hAbove hOther
    exact absurd (List.prefix_nil.1 hAbove) hOther
  | append_singleton names name ih =>
    rw [← List.append_assoc] at hNode
    obtain ⟨hName, hAround⟩ := h.placed_of_node? hNode
    obtain ⟨hNames, hAbove⟩ := ih hAround
    constructor
    · intro other hMem
      rcases List.mem_append.1 hMem with hMem | hMem
      · exact hNames other hMem
      · rwa [List.mem_singleton.1 hMem]
    · -- what is above an entry is the directory that it is in, or above that
      intro above hPrefix hOther
      rcases List.prefix_concat_iff.1 hPrefix with rfl | hPrefix
      · exact absurd rfl hOther
      · by_cases hAll : above = names
        · rwa [hAll]
        · exact hAbove above hPrefix hAll

theorem isFileName (h : t.WellFormed) (hNode : t.node? (d ++ names) = some node) :
    ∀ name ∈ names, IsFileName name :=
  (h.above_of_node? hNode).1

/-- Without a file a tree is still well-formed: nothing is in a file. -/
theorem erase (h : t.WellFormed) {serial : Nat} {content : ByteArray}
    (hFile : t.node? l = some (.file serial content)) : (t.erase l).WellFormed := by
  have hBelow := ne_nil_of_file hFile
  constructor
  · exact h.distinct.sublist (List.filter_sublist.map _)
  · intro l' node hMem
    obtain ⟨d, name, rfl, hName, hDirectory⟩ := h.placed l' node (List.mem_of_mem_filter hMem)
    refine ⟨d, name, rfl, hName, ?_⟩
    -- what is taken away is no directory, so every entry is still in one
    have hOther : d ≠ l := by
      rintro rfl
      rw [hFile] at hDirectory
      cases hDirectory
    rw [node?_erase hBelow, if_neg hOther, hDirectory]

end WellFormed

/-! ## Listings -/

/-- What is listed below a directory: its entries, in ascending order. -/
structure Lists (t : FileTree) (d : Location) (entries : List Entry) : Prop where
  ascending : entries.Pairwise EntryBefore
  mem_iff : ∀ e, e ∈ entries ↔
    e.names ≠ [] ∧ ∃ node, t.node? (d ++ e.names) = some node ∧ e.kind = kindOf node

namespace Lists

variable {entries entries' : List Entry}

/-- There is only one listing. -/
theorem unique (h : t.Lists d entries) (h' : t.Lists d entries') : entries = entries' :=
  h.ascending.eq_of_mem_iff h'.ascending fun e => (h.mem_iff e).trans (h'.mem_iff e).symm

theorem ne_nil (h : t.Lists d entries) {e : Entry} (hMem : e ∈ entries) : e.names ≠ [] :=
  ((h.mem_iff e).1 hMem).1

/-- Without a file the listing is the same but for the file. -/
theorem erase (h : t.Lists d entries) {serial : Nat} {content : ByteArray}
    (hFile : t.node? (d ++ names) = some (.file serial content)) :
    (t.erase (d ++ names)).Lists d (entries.filter (·.names ≠ names)) := by
  have hBelow := ne_nil_of_file hFile
  refine ⟨h.ascending.filter _, ?_⟩
  intro e
  rw [List.mem_filter, h.mem_iff, node?_erase hBelow]
  by_cases hThis : e.names = names
  · simp [hThis]
  · simp [hThis]

end Lists

/-- What a survey lists of a node: it is an entry if it is below the directory. -/
def entryBelow? (d : Location) (listed : Location × TreeNode) : Option Entry :=
  match below? d listed.1 with
  | some (name :: names) => some ⟨name :: names, kindOf listed.2⟩
  | _ => none

theorem entryBelow?_eq_some_iff {e : Entry} :
    entryBelow? d (l, node) = some e ↔
      e.names ≠ [] ∧ l = d ++ e.names ∧ e.kind = kindOf node := by
  unfold entryBelow?
  -- the root itself is no entry below it
  split
  · rename_i name names hBelow
    obtain rfl : l = d ++ name :: names := below?_eq_some_iff.1 hBelow
    constructor
    · rintro ⟨⟩
      simp
    · rintro ⟨-, hSame, hKind⟩
      rw [List.append_cancel_left_eq] at hSame
      rw [hSame, ← hKind]
  · rename_i hNone
    constructor
    · nofun
    · rintro ⟨hNames, rfl, -⟩
      obtain ⟨name, names, hCons⟩ := List.exists_cons_of_ne_nil hNames
      exact absurd (below?_eq_some_iff.2 (by rw [hCons])) (hNone name names)

theorem survey_of_target {root : Path} (hRoot : t.target root = .ok (d, .directory)) :
    t.survey root =
      ⟨[], t.kindAt root⟩ :: (t.nodes.filterMap (entryBelow? d)).mergeSort Entry.le := by
  rw [survey, hRoot]
  rfl

/-- A survey begins with the directory itself; what is listed below it follows. -/
theorem WellFormed.exists_survey (h : t.WellFormed) {root : Path}
    (hRoot : t.target root = .ok (d, .directory)) :
    ∃ entries, t.survey root = ⟨[], t.kindAt root⟩ :: entries ∧ t.Lists d entries := by
  refine ⟨_, survey_of_target hRoot, ?_, ?_⟩
  · -- the sorted list is ascending, and nothing comes twice
    have hSorted : ((t.nodes.filterMap (entryBelow? d)).mergeSort Entry.le).Pairwise
        fun e f => Entry.le e f = true :=
      List.pairwise_mergeSort (fun a b c => namesLe_trans a.names b.names c.names)
        (fun a b => namesLe_total a.names b.names) _
    -- different nodes have different locations, so no two entries have the same names
    have hDistinct : (t.nodes.filterMap (entryBelow? d)).Pairwise fun e f => e.names ≠ f.names := by
      rw [List.pairwise_filterMap]
      refine (List.pairwise_map.1 h.distinct).imp fun {a b} hOther e hE f hF hSame => hOther ?_
      rw [(entryBelow?_eq_some_iff.1 hE).2.1, (entryBelow?_eq_some_iff.1 hF).2.1, hSame]
    have hDistinct := hDistinct.perm (List.mergeSort_perm _ Entry.le).symm Ne.symm
    exact hSorted.imp₂ (fun _ _ hLe hOther => ⟨hLe, hOther⟩) hDistinct
  · intro e
    rw [List.mem_mergeSort, List.mem_filterMap]
    constructor
    · rintro ⟨⟨other, node⟩, hMem, hEntry⟩
      obtain ⟨hNames, rfl, hKind⟩ := entryBelow?_eq_some_iff.1 hEntry
      exact ⟨hNames, node, (h.mem_nodes_iff.1 hMem).2, hKind⟩
    · rintro ⟨hNames, node, hNode, hKind⟩
      exact ⟨(d ++ e.names, node), h.mem_nodes_iff.2 ⟨by simp [hNames], hNode⟩,
        entryBelow?_eq_some_iff.2 ⟨hNames, rfl, hKind⟩⟩

end FileTree

end PropertySets
