import PropertySets.Proofs.Document.Cases
import PropertySets.Proofs.Naming.Routines
import PropertySets.Registration.OfRegistry

/-!
# How version tags settle

The tag of a token is either written anew (`IFC2…`), or that of the folder, or the token itself
without its spaces. The first and the last are tags of their own, so normalizing is stable except
perhaps for the tag of the folder, which need not be its own: a folder `2x` has the tag `2X`, and
that becomes `IFC2X2`. Enumerations are filed under the tag, except that those whose token is `IFC4`
in small letters go with the others of the folder, too.

* `tokenOf`, `StandsForFolder` — a token without its spaces, and those that stand for their folder.
* `space_notMem_upperChar` — capitals bring no spaces.
* `tag_cases` — the three kinds of tags.
* `settled_tag` — what is the tag of itself.
* `tags_settle` — when normalizing is stable, and what enumerations are filed under.
-/

namespace PropertySets

open Text

/-- A version token without its plain spaces. -/
def tokenOf (raw : String) : String := String.ofList (raw.toList.filter (· ≠ ' '))

/-- A token that starts with `IFC4`, or is `IFC4` in capitals or small letters. -/
def StandsForFolder (raw : String) : Prop :=
  "IFC4".toList <+: (tokenOf raw).toList ∨ SameTag (tokenOf raw) "IFC4"

instance (raw : String) : Decidable (StandsForFolder raw) := inferInstanceAs (Decidable (_ ∨ _))

/-! ## Spaces -/

/-- The capitals of a character are no spaces. -/
theorem space_notMem_upperChar {c : Char} (h : c ≠ ' ') : ' ' ∉ upperChar c := by
  by_cases hAscii : c.toNat < 128
  · rw [upperChar_of_ascii hAscii, List.mem_singleton]
    exact Ne.symm <| Naming.forall_of_ascii (P := fun c => c ≠ ' ' → c.toUpper ≠ ' ') (by decide)
      hAscii h
  · rw [upperChar, if_neg hAscii]
    -- beyond ASCII all capitals come from the tables, whose targets lie behind the space
    cases hExpansion : upperExpansions.lookup c.toNat with
    | some codes =>
      have hTable : ∀ e ∈ upperExpansions, ' ' ∉ e.2.map Char.ofNat := by decide +kernel
      obtain ⟨before, after, hEntries, -⟩ := List.lookup_eq_some_iff.1 hExpansion
      exact hTable (c.toNat, codes) (by simp [hEntries])
    | none =>
      show ' ' ∉ [mapThrough upperMap c]
      rw [List.mem_singleton, mapThrough]
      split
      · rename_i r hRun
        have hTable : ∀ r ∈ upperMap, ' '.toNat < r.2.2.2 := by decide +kernel
        have hTarget := hTable r (List.mem_of_find?_eq_some hRun)
        exact (Naming.ofNat_ne (by decide) (by omega)).symm
      · exact h.symm

theorem space_notMem_uppercase {s : String} (h : ' ' ∉ s.toList) :
    ' ' ∉ (uppercase s).toList := by
  rw [toList_uppercase, List.mem_flatMap]
  rintro ⟨c, hMem, hSpace⟩
  exact space_notMem_upperChar (fun hSame => h (hSame ▸ hMem)) hSpace

theorem space_notMem_tokenOf (raw : String) : ' ' ∉ (tokenOf raw).toList := by
  simp [tokenOf]

theorem tokenOf_of_notMem {s : String} (h : ' ' ∉ s.toList) : tokenOf s = s := by
  have hKept : s.toList.filter (· ≠ ' ') = s.toList :=
    List.filter_eq_self.2 fun c hMem => by simpa using fun hSame : c = ' ' => h (hSame ▸ hMem)
  rw [tokenOf, hKept, String.ofList_toList]

/-! ## Tags -/

/-- The tag of a token, by its token without spaces. -/
theorem normalizeVersion_eq (raw folder : String) :
    normalizeVersion raw folder =
      if (tokenOf raw).toList.head? = some '2' then
        if SameTag (tokenOf raw) "2X" then "IFC" ++ uppercase (tokenOf raw) ++ "2"
        else "IFC" ++ uppercase (tokenOf raw)
      else if "IFC4".toList.isPrefixOf (tokenOf raw).toList then uppercase folder
      else tokenOf raw := rfl

/-- A tag is written anew for a token that starts with `2`, or is that of the folder, or is the
token itself, which starts neither way. -/
theorem tag_cases (raw folder : String) :
    ((tokenOf raw).toList.head? = some '2' ∧
      ∃ more, ' ' ∉ more ∧ (normalizeVersion raw folder).toList = "IFC2".toList ++ more) ∨
    ("IFC4".toList <+: (tokenOf raw).toList ∧ normalizeVersion raw folder = uppercase folder) ∨
    ((tokenOf raw).toList.head? ≠ some '2' ∧ ¬ "IFC4".toList <+: (tokenOf raw).toList ∧
      normalizeVersion raw folder = tokenOf raw) := by
  rw [normalizeVersion_eq]
  by_cases hTwo : (tokenOf raw).toList.head? = some '2'
  · refine .inl ⟨hTwo, ?_⟩
    rw [if_pos hTwo]
    -- the capital of `2` is itself
    have hStart : ∃ rest, ' ' ∉ rest ∧ (uppercase (tokenOf raw)).toList = '2' :: rest := by
      have hSpaceless := space_notMem_uppercase (space_notMem_tokenOf raw)
      rw [toList_uppercase] at hSpaceless ⊢
      cases hChars : (tokenOf raw).toList with
      | nil => rw [hChars] at hTwo; cases hTwo
      | cons c rest =>
        rw [hChars] at hTwo hSpaceless
        obtain rfl : c = '2' := Option.some.inj hTwo
        exact ⟨rest.flatMap upperChar, fun hMem => hSpaceless (List.mem_cons_of_mem _ hMem), rfl⟩
    obtain ⟨rest, hSpaceless, hUpper⟩ := hStart
    split
    · refine ⟨rest ++ ['2'], ?_, ?_⟩
      · simp [hSpaceless]
      · simp [hUpper]
    · refine ⟨rest, hSpaceless, ?_⟩
      simp [hUpper]
  · rw [if_neg hTwo]
    by_cases hFour : "IFC4".toList <+: (tokenOf raw).toList
    · exact .inr (.inl ⟨hFour, if_pos (List.isPrefixOf_iff_prefix.2 hFour)⟩)
    · exact .inr (.inr ⟨hTwo, hFour, if_neg (mt List.isPrefixOf_iff_prefix.1 hFour)⟩)

/-- What has no spaces, and starts neither with `2` nor with `IFC4`, is its own tag. -/
theorem settled_tag {s : String} (hSpaceless : ' ' ∉ s.toList) (hTwo : s.toList.head? ≠ some '2')
    (hFour : ¬ "IFC4".toList <+: s.toList) (folder : String) : normalizeVersion s folder = s := by
  have hToken := tokenOf_of_notMem hSpaceless
  rw [normalizeVersion_eq, hToken, if_neg hTwo,
    if_neg (mt List.isPrefixOf_iff_prefix.1 hFour)]

/-- A tag that was written anew is no `IFC4`. -/
theorem not_sameTag_of_two {s : String} {more : List Char} (h : s.toList = "IFC2".toList ++ more) :
    ¬ SameTag s "IFC4" := by
  intro hSame
  have hChars := congrArg String.toList hSame
  rw [asciiLower, asciiLower, String.toList_ofList, String.toList_ofList, h] at hChars
  have hFourth := congrArg (·[3]?) hChars
  exact absurd hFourth (by simp)

/-! ## Stability -/

theorem not_standsForFolder_of_two {raw : String}
    (hTwo : (tokenOf raw).toList.head? = some '2') : ¬ StandsForFolder raw := by
  rw [StandsForFolder, not_or]
  constructor
  · rintro ⟨rest, hSame⟩
    rw [← hSame] at hTwo
    exact absurd hTwo (by simp)
  · intro hSame
    have hChars := congrArg String.toList hSame
    rw [asciiLower, asciiLower, String.toList_ofList, String.toList_ofList] at hChars
    have hFirst := congrArg List.head? hChars
    rw [List.head?_map, hTwo] at hFirst
    exact absurd hFirst (by decide)

/-- Only the tag of the folder may be another one when it is normalized. -/
theorem stable_of_folder {folder : String}
    (hFolder : normalizeVersion (uppercase folder) folder = uppercase folder) (raw : String) :
    normalizeVersion (normalizeVersion raw folder) folder = normalizeVersion raw folder := by
  rcases tag_cases raw folder with ⟨-, more, hSpaceless, hTag⟩ | ⟨-, hTag⟩ | ⟨hTwo, hFour, hTag⟩
  · refine settled_tag ?_ ?_ ?_ folder
    · rw [hTag]
      simp [hSpaceless]
    · rw [hTag]
      simp
    · rw [hTag]
      simp
  · rw [hTag, hFolder]
  · rw [hTag]
    exact settled_tag (space_notMem_tokenOf raw) hTwo hFour folder

/-- Enumerations are filed under the tag of the folder if the token stands for it, and else under
the tag of the token. -/
theorem enumerationTag_normalizeVersion (raw folder : String) :
    enumerationTag (normalizeVersion raw folder) folder =
      if StandsForFolder raw then uppercase folder else normalizeVersion raw folder := by
  rw [enumerationTag]
  rcases tag_cases raw folder with ⟨hTwo, more, -, hTag⟩ | ⟨hFour, hTag⟩ | ⟨hTwo, hFour, hTag⟩
  · rw [if_neg (not_sameTag_of_two hTag), if_neg (not_standsForFolder_of_two hTwo)]
  · have hStands : StandsForFolder raw := .inl hFour
    rw [hTag, if_pos hStands, ite_self]
  · rw [hTag]
    exact if_congr (or_iff_right hFour).symm rfl rfl

/-- The token of a document. -/
def Document.token? (root : Xml.Node) : Option String :=
  (root.child? "IfcVersion").bind fun v => v.attribute? "version"

/-- A definition has the tag of the token in its document. -/
theorem Document.version_of_readElement {folder source : String} {root : Xml.Node} {d : Definition}
    (h : (readElement folder source root).1 = some d) :
    ∃ raw, token? root = some raw ∧ d.version = normalizeVersion raw folder := by
  rcases readElement_cases source root with ⟨flaw, -, -, hRead⟩ | ⟨name, raw, -, -, hToken, hRead⟩
  · rw [hRead folder] at h
    cases h
  · rw [hRead folder] at h
    obtain rfl := Option.some.inj h
    exact ⟨raw, hToken, rfl⟩

/-- Enumerations come up with the version and the folder of their edition. -/
theorem request_of_edition {e : Edition} {shape : Shape} {q : Enumeration.Request}
    (h : Registration.requestOf e shape = some q) :
    q.version = e.version ∧ q.folder = e.folder := by
  cases shape with
  | enumerated name items =>
    obtain rfl := Option.some.inj h
    exact ⟨rfl, rfl⟩
  | _ => cases h

theorem filed_tag {q : Enumeration.Request} {tag : String} (h : tag ∈ q.filingTag?) :
    enumerationTag q.version q.folder = tag := by
  rw [Enumeration.Request.filingTag?, Option.mem_def] at h
  split at h
  · cases h
  · exact Option.some.inj h

/-- **Tags.** Normalizing tags again changes none of a folder exactly if it does not change the tag
of the folder itself. Enumerations are filed under the tag of the folder if the token stands for it,
and else under the tag of the token; so all definitions of a folder whose tokens stand for it share
one tag for their enumerations. -/
theorem tags_settle (folder : String) :
    ((∀ raw, normalizeVersion (normalizeVersion raw folder) folder = normalizeVersion raw folder) ↔
      normalizeVersion (uppercase folder) folder = uppercase folder) ∧
    (∀ raw, enumerationTag (normalizeVersion raw folder) folder =
      if StandsForFolder raw then uppercase folder else normalizeVersion raw folder) ∧
    ∀ source root d, (Document.readElement folder source root).1 = some d →
      (∀ raw ∈ Document.token? root, StandsForFolder raw) →
      ∀ shape q, Registration.requestOf ⟨folder, d⟩ shape = some q →
        ∀ tag ∈ q.filingTag?, tag = uppercase folder := by
  refine ⟨⟨fun hStable => ?_, stable_of_folder⟩,
    fun raw => enumerationTag_normalizeVersion raw folder, ?_⟩
  · -- the token `IFC4` has the tag of the folder
    have hTag : normalizeVersion "IFC4" folder = uppercase folder := by
      rw [normalizeVersion_eq, tokenOf_of_notMem (by decide)]
      exact (if_neg (by decide)).trans (if_pos (by decide))
    rw [← hTag]
    exact hStable "IFC4"
  · intro source root d hRead hStands shape q hRequest tag hFiled
    obtain ⟨raw, hToken, hVersion⟩ := Document.version_of_readElement hRead
    obtain ⟨hVersion', hFolder⟩ := request_of_edition hRequest
    rw [← filed_tag hFiled, hVersion', hFolder]
    show enumerationTag d.version folder = _
    rw [hVersion, enumerationTag_normalizeVersion, if_pos (hStands raw hToken)]

/-- A document whose token is in small letters. -/
def smallTokenRoot : Xml.Node :=
  .element ⟨"", none, "PropertySetDef"⟩ []
    [.element ⟨"", none, "Name"⟩ [] [.text "Pset_A".toList],
      .element ⟨"", none, "IfcVersion"⟩ [⟨none, "version", "ifc 4"⟩] []]

/-- The tags of an addendum are stable, those of a folder that is named like a token are not, and an
enumeration of a token in small letters is filed with the others of its folder. -/
theorem smallToken_filed_with_folder :
    (∀ raw, normalizeVersion (normalizeVersion raw "Ifc4_Add2") "Ifc4_Add2" =
      normalizeVersion raw "Ifc4_Add2") ∧
    (¬ ∀ raw, normalizeVersion (normalizeVersion raw "2x") "2x" = normalizeVersion raw "2x") ∧
    (∀ raw ∈ Document.token? smallTokenRoot, StandsForFolder raw) ∧
    ∃ d q, (Document.readElement "Ifc4_Add2" "psd" smallTokenRoot).1 = some d ∧
      d.version = "ifc4" ∧
      Registration.requestOf ⟨"Ifc4_Add2", d⟩ (.enumerated "PEnum_A" [⟨"A", []⟩]) = some q ∧
      q.filingTag? = some "IFC4_ADD2" := by
  obtain ⟨hStable, -, hShared⟩ := tags_settle "Ifc4_Add2"
  have hUpper : uppercase "Ifc4_Add2" = "IFC4_ADD2" := by decide +kernel
  -- the token of the document stands for the folder, which has the same tag in capitals
  have hStands : ∀ raw ∈ Document.token? smallTokenRoot, StandsForFolder raw := by
    intro raw hToken
    obtain rfl : "ifc 4" = raw := Option.some.inj hToken
    decide +kernel
  obtain ⟨d, hRead⟩ : ∃ d,
      (Document.readElement "Ifc4_Add2" "psd" smallTokenRoot).1 = some d :=
    Option.isSome_iff_exists.1 (by decide +kernel)
  have hVersion : d.version = "ifc4" := by
    obtain ⟨raw, hToken, hTag⟩ := Document.version_of_readElement hRead
    obtain rfl : "ifc 4" = raw := Option.some.inj hToken
    exact hTag.trans (by decide +kernel)
  let shape : Shape := .enumerated "PEnum_A" [⟨"A", []⟩]
  obtain ⟨q, hRequest⟩ : ∃ q, Registration.requestOf ⟨"Ifc4_Add2", d⟩ shape = some q := ⟨_, rfl⟩
  -- neither the version nor the name is empty, so the enumeration is filed
  have hFiled : q.filingTag? = some (enumerationTag "ifc4" "Ifc4_Add2") := by
    obtain rfl := Option.some.inj hRequest
    rw [Enumeration.Request.filingTag?, if_neg, Edition.version, hVersion]
    rw [Edition.version, hVersion]
    exact Bool.false_ne_true
  have hSame := hShared "psd" smallTokenRoot d hRead hStands shape q hRequest _ hFiled
  exact ⟨hStable.2 (by decide +kernel), mt (tags_settle "2x").1.1 (by decide +kernel), hStands,
    d, q, hRead, hVersion, hRequest, hFiled.trans (congrArg some (hSame.trans hUpper))⟩

end PropertySets
