import PropertySets.Enumeration.Reconciler
import PropertySets.Proofs.Enumeration.Numbering

/-!
# What enumeration requests come to

The enumerations of a run come up as a list of requests. What the run is to make of them can be
read off the list: the keys in the order of their first requests, the literals of those, the texts
of the files, and the answer to each request.

* `keysOf`, `firstLiterals?` — the keys and what is filed under them.
* `Numberable` — no numbering of what is filed goes on for ever.
* `fileText` — the file of a tag: its head, an enumeration for each key, and a closing line.
* `expectedOutcome`, `expectedOutcomes` — the answers to requests.
* `openText_concat_of_known`, `openText_concat_of_new` — what one more request adds to the files.
-/

namespace PropertySets.Enumeration

/-! ## What a list of requests comes to -/

/-- The key that a request is filed under, if it is filed at all. -/
def Request.key? (q : Request) : Option Key := q.filingTag?.map fun tag => ⟨tag, q.name⟩

/-- The keys of requests, each once, in the order of their first requests. -/
def keysOf (qs : List Request) : List Key := (qs.filterMap Request.key?).eraseDups

/-- The literals that the first request under a key brought. -/
def firstLiterals? (qs : List Request) (k : Key) : Option (List String) :=
  (qs.find? (·.key? == some k)).map Request.literals

/-- Every enumeration that is filed can be numbered: no search for a free value goes on for ever. -/
def Numberable (qs : List Request) : Prop :=
  ∀ k literals, firstLiterals? qs k = some literals → (assign? literals).isSome = true

/-- An enumeration with its declarations between braces. -/
def enumerationText (name : String) (declarations : List String) : String :=
  "\n    #[derive(Debug, Clone, Copy, PartialEq, Eq, Hash)]\n" ++
    "    pub enum " ++ name ++ " \x7b\n" ++
    ",\n".intercalate (declarations.map fun declaration => "        " ++ declaration) ++ "\x7d\n"

/-- The enumeration of a key, declared as its first request has it. -/
def keyText (qs : List Request) (k : Key) : String :=
  enumerationText k.name (assign ((firstLiterals? qs k).getD [])).declarations

/-- The enumerations of a tag under the head of its file. -/
def openText (qs : List Request) (tag : String) : String :=
  sheetHead tag ++ String.join (((keysOf qs).filter (·.tag = tag)).map (keyText qs))

/-- The file of a tag: a module with one enumeration for each key. -/
def fileText (qs : List Request) (tag : String) : String := openText qs tag ++ "\x7d\n"

/-- The answer to a request after others: a new key is filed, and a known one is compared with what
its first request brought. -/
def expectedOutcome (done : List Request) (q : Request) : Outcome :=
  match q.key? with
  | none => ⟨.ok none, []⟩
  | some key =>
    match firstLiterals? done key with
    | none => ⟨.ok (some key.tag), collisionFlaws q.source key (assign q.literals).moved⟩
    | some kept =>
      ⟨.ok (some key.tag),
        if kept = q.literals then [] else [conflictFlaw q.source key kept q.literals]⟩

/-- The answers to requests after others. -/
def expectedOutcomes (done : List Request) : List Request → List Outcome
  | [] => []
  | q :: rest => expectedOutcome done q :: expectedOutcomes (done ++ [q]) rest

theorem expectedOutcome_isOk (done : List Request) (q : Request) :
    (expectedOutcome done q).result.isOk = true := by
  rw [expectedOutcome]
  cases q.key? with
  | none => rfl
  | some key =>
    simp only
    cases firstLiterals? done key <;> rfl

theorem key?_of_filingTag? {q : Request} {tag : String} (h : q.filingTag? = some tag) :
    q.key? = some ⟨tag, q.name⟩ := by
  rw [Request.key?, h]
  rfl

theorem expectedOutcome_of_known {done : List Request} {q : Request} {tag : String}
    {kept : List String} (hFiled : q.filingTag? = some tag)
    (hFirst : firstLiterals? done ⟨tag, q.name⟩ = some kept) :
    expectedOutcome done q = ⟨.ok (some tag), if kept = q.literals then []
      else [conflictFlaw q.source ⟨tag, q.name⟩ kept q.literals]⟩ := by
  rw [expectedOutcome, key?_of_filingTag? hFiled]
  simp only [hFirst]

theorem expectedOutcome_of_new {done : List Request} {q : Request} {tag : String}
    (hFiled : q.filingTag? = some tag) (hFirst : firstLiterals? done ⟨tag, q.name⟩ = none) :
    expectedOutcome done q =
      ⟨.ok (some tag), collisionFlaws q.source ⟨tag, q.name⟩ (assign q.literals).moved⟩ := by
  rw [expectedOutcome, key?_of_filingTag? hFiled]
  simp only [hFirst]

/-! ## One more request -/

theorem mem_keysOf {qs : List Request} {k : Key} : k ∈ keysOf qs ↔ ∃ q ∈ qs, q.key? = some k := by
  rw [keysOf, List.mem_eraseDups, List.mem_filterMap]

theorem key_mem_keysOf {qs : List Request} {q : Request} {tag : String} (hMem : q ∈ qs)
    (hFiled : q.filingTag? = some tag) : ⟨tag, q.name⟩ ∈ keysOf qs :=
  mem_keysOf.2 ⟨q, hMem, key?_of_filingTag? hFiled⟩

theorem exists_filed_of_mem_keysOf {qs : List Request} {k : Key} (h : k ∈ keysOf qs) :
    ∃ q ∈ qs, q.filingTag? = some k.tag := by
  obtain ⟨q, hMem, hKeyed⟩ := mem_keysOf.1 h
  obtain ⟨tag, hFiled, rfl⟩ := Option.map_eq_some_iff.1 hKeyed
  exact ⟨q, hMem, hFiled⟩

/-- The tags of the keys are those that something is filed under. -/
theorem exists_mem_keysOf_iff {qs : List Request} {tag : String} :
    (∃ k ∈ keysOf qs, k.tag = tag) ↔ ∃ q ∈ qs, q.filingTag? = some tag := by
  constructor
  · rintro ⟨k, hKey, rfl⟩
    exact exists_filed_of_mem_keysOf hKey
  · rintro ⟨q, hMem, hFiled⟩
    exact ⟨_, key_mem_keysOf hMem hFiled, rfl⟩

theorem firstLiterals?_eq_none_iff {qs : List Request} {k : Key} :
    firstLiterals? qs k = none ↔ k ∉ keysOf qs := by
  rw [firstLiterals?, Option.map_eq_none_iff, List.find?_eq_none, mem_keysOf]
  simp

theorem mem_keysOf_of_firstLiterals? {qs : List Request} {k : Key} {literals : List String}
    (h : firstLiterals? qs k = some literals) : k ∈ keysOf qs :=
  Decidable.byContradiction fun hNew => by
    rw [firstLiterals?_eq_none_iff.2 hNew] at h
    cases h

theorem firstLiterals?_concat (qs : List Request) (q : Request) (k : Key) :
    firstLiterals? (qs ++ [q]) k =
      (firstLiterals? qs k).or (if q.key? = some k then some q.literals else none) := by
  rw [firstLiterals?, firstLiterals?, List.find?_append]
  -- an earlier request keeps its place
  cases hFirst : qs.find? (·.key? == some k) with
  | some first => rfl
  | none =>
    rw [Option.none_or, List.find?_singleton]
    by_cases hKey : q.key? = some k
    · rw [if_pos hKey, if_pos (beq_iff_eq.2 hKey)]
      rfl
    · rw [if_neg hKey, if_neg (by rw [beq_iff_eq]; exact hKey)]
      rfl

/-- What the first request under a key brings stays, whatever comes behind it. -/
theorem firstLiterals?_append_cons {qs rest : List Request} {q : Request} {k : Key}
    (hNew : firstLiterals? qs k = none) (hKey : q.key? = some k) :
    firstLiterals? (qs ++ q :: rest) k = some q.literals := by
  rw [firstLiterals?, Option.map_eq_none_iff] at hNew
  have hHere : (q.key? == some k) = true := beq_iff_eq.2 hKey
  rw [firstLiterals?, List.find?_append, hNew, Option.none_or, List.find?_cons, hHere,
    Option.map_some]

/-- A request without a key or under a known one changes nothing that is filed. -/
theorem firstLiterals?_concat_of_known {qs : List Request} {q : Request}
    (hKnown : ∀ k, q.key? = some k → k ∈ keysOf qs) (k : Key) :
    firstLiterals? (qs ++ [q]) k = firstLiterals? qs k := by
  rw [firstLiterals?_concat]
  by_cases hKey : q.key? = some k
  · cases hFirst : firstLiterals? qs k with
    | some kept => rfl
    | none => exact absurd (hKnown k hKey) (firstLiterals?_eq_none_iff.1 hFirst)
  · rw [if_neg hKey, Option.or_none]

theorem keysOf_concat (qs : List Request) (q : Request) :
    keysOf (qs ++ [q]) = keysOf qs ++ q.key?.toList.filter (· ∉ keysOf qs) := by
  have hOne : [q].filterMap Request.key? = q.key?.toList := by
    rw [List.filterMap_cons, List.filterMap_nil]
    cases q.key? <;> rfl
  rw [keysOf, List.filterMap_append, List.eraseDups_append, hOne]
  cases q.key? with
  | none => rfl
  | some k =>
    -- a key that came up before is not listed again
    by_cases hKnown : k ∈ keysOf qs
    · have hMem : k ∈ qs.filterMap Request.key? := List.mem_eraseDups.1 hKnown
      rw [Option.toList_some, List.removeAll, List.filter_cons_of_neg (by simpa using hMem),
        List.filter_cons_of_neg (by simpa using hKnown)]
      rfl
    · have hMem : k ∉ qs.filterMap Request.key? := fun h => hKnown (List.mem_eraseDups.2 h)
      rw [Option.toList_some, List.removeAll, List.filter_cons_of_pos (by simpa using hMem),
        List.filter_cons_of_pos (by simpa using hKnown)]
      rfl

theorem keysOf_concat_of_known {qs : List Request} {q : Request}
    (hKnown : ∀ k, q.key? = some k → k ∈ keysOf qs) : keysOf (qs ++ [q]) = keysOf qs := by
  rw [keysOf_concat]
  cases hKey : q.key? with
  | none => simp
  | some k => simp [hKnown k hKey]

theorem keysOf_concat_of_new {qs : List Request} {q : Request} {k : Key}
    (hKey : q.key? = some k) (hNew : k ∉ keysOf qs) : keysOf (qs ++ [q]) = keysOf qs ++ [k] := by
  rw [keysOf_concat, hKey]
  simp [hNew]

theorem firstLiterals?_concat_of_mem {qs : List Request} {k : Key} (hKnown : k ∈ keysOf qs)
    (q : Request) : firstLiterals? (qs ++ [q]) k = firstLiterals? qs k := by
  rw [firstLiterals?_concat]
  cases hFirst : firstLiterals? qs k with
  | none => exact absurd hKnown (firstLiterals?_eq_none_iff.1 hFirst)
  | some kept => rfl

theorem map_keyText_concat (qs : List Request) (q : Request) (tag : String) :
    ((keysOf qs).filter (·.tag = tag)).map (keyText (qs ++ [q])) =
      ((keysOf qs).filter (·.tag = tag)).map (keyText qs) := by
  refine List.map_congr_left fun k hMem => ?_
  rw [keyText, keyText, firstLiterals?_concat_of_mem (List.mem_filter.1 hMem).1]

/-- What is filed can be numbered if all that comes up can. -/
theorem numberable_of_requests {qs : List Request}
    (h : ∀ q ∈ qs, (assign? q.literals).isSome = true) : Numberable qs := by
  intro k literals hFirst
  obtain ⟨q, hFound, rfl⟩ := Option.map_eq_some_iff.1 hFirst
  exact h q (List.mem_of_find?_eq_some hFound)

theorem Numberable.ne_none {qs : List Request} (h : Numberable qs) {k : Key}
    {literals : List String} (hFirst : firstLiterals? qs k = some literals) :
    assign? literals ≠ none :=
  Option.isSome_iff_ne_none.1 (h k literals hFirst)

theorem Numberable.concat_of_known {qs : List Request} {q : Request} (h : Numberable qs)
    (hKnown : ∀ k, q.key? = some k → k ∈ keysOf qs) : Numberable (qs ++ [q]) := by
  intro k literals hFirst
  rw [firstLiterals?_concat_of_known hKnown] at hFirst
  exact h k literals hFirst

theorem Numberable.concat_of_new {qs : List Request} {q : Request} (h : Numberable qs)
    (hEnds : (assign? q.literals).isSome = true) : Numberable (qs ++ [q]) := by
  intro k literals hFirst
  rw [firstLiterals?_concat, Option.or_eq_some_iff] at hFirst
  rcases hFirst with hFirst | ⟨-, hNew⟩
  · exact h k literals hFirst
  · split at hNew
    · obtain rfl := Option.some.inj hNew
      exact hEnds
    · cases hNew

/-- A request without a key or under a known one changes no file. -/
theorem openText_concat_of_known {qs : List Request} {q : Request}
    (hKnown : ∀ k, q.key? = some k → k ∈ keysOf qs) (tag : String) :
    openText (qs ++ [q]) tag = openText qs tag := by
  rw [openText, keysOf_concat_of_known hKnown, map_keyText_concat]
  rfl

/-- A request under a new key adds an enumeration to the file of its tag. -/
theorem openText_concat_of_new {qs : List Request} {q : Request} {k : Key}
    (hKey : q.key? = some k) (hNew : k ∉ keysOf qs) (tag : String) :
    openText (qs ++ [q]) tag = openText qs tag ++
      if k.tag = tag then enumerationText k.name (assign q.literals).declarations else "" := by
  have hText : keyText (qs ++ [q]) k = enumerationText k.name (assign q.literals).declarations := by
    rw [keyText, firstLiterals?_concat, firstLiterals?_eq_none_iff.2 hNew, if_pos hKey]
    rfl
  rw [openText, keysOf_concat_of_new hKey hNew, List.filter_append, List.map_append,
    map_keyText_concat, String.join_append, ← String.append_assoc]
  -- what is left is the new key alone, and it counts for its own tag only
  congr 1
  by_cases hHere : k.tag = tag
  · rw [if_pos hHere, List.filter_cons, if_pos (by simpa using hHere)]
    simp [hText]
  · rw [if_neg hHere, List.filter_cons, if_neg (by simpa using hHere)]
    rfl

theorem openText_of_unseen {qs : List Request} {tag : String}
    (hUnseen : ∀ k ∈ keysOf qs, k.tag ≠ tag) : openText qs tag = sheetHead tag := by
  have hNone : (keysOf qs).filter (·.tag = tag) = [] := by
    rw [List.filter_eq_nil_iff]
    exact fun k hMem => by simpa using hUnseen k hMem
  rw [openText, hNone]
  exact String.append_empty

/-- The enumeration of a key is in the file of its tag. -/
theorem exists_openText {qs : List Request} {k : Key} (hMem : k ∈ keysOf qs) :
    ∃ front back, openText qs k.tag = front ++ keyText qs k ++ back := by
  have hHere : k ∈ (keysOf qs).filter (·.tag = k.tag) := List.mem_filter.2 ⟨hMem, by simp⟩
  obtain ⟨before, after, hSplit⟩ := List.append_of_mem hHere
  refine ⟨sheetHead k.tag ++ String.join (before.map (keyText qs)),
    String.join (after.map (keyText qs)), ?_⟩
  rw [openText, hSplit, List.map_append, List.map_cons, String.join_append, String.join_cons]
  simp only [String.append_assoc]

/-! ## The text of an enumeration -/

/-- The last of at least one declarations closes the enumeration. -/
theorem variantLines_eq (first : String) (others : List String) :
    variantLines (first :: others) =
      ",\n".intercalate ((first :: others).map fun declaration => "        " ++ declaration) ++
        "\x7d\n" := by
  induction others generalizing first with
  | nil => rfl
  | cons second others ih =>
    rw [variantLines, ih, List.map_cons, List.map_cons, List.map_cons, String.intercalate_cons_cons]
    simp only [String.append_assoc]
    · exact List.cons_ne_nil _ _

theorem sheetBody_eq (name : String) {declarations : List String} (h : declarations ≠ []) :
    sheetBody name declarations = enumerationText name declarations := by
  obtain ⟨first, others, rfl⟩ := List.exists_cons_of_ne_nil h
  unfold sheetBody enumerationText
  rw [variantLines_eq, ← String.append_assoc]

end PropertySets.Enumeration
