import PropertySets.Proofs.Enumeration.Discriminants

/-!
# Which variants are moved

The numbering touches an enumeration only where it has to. While the values that a compiler gives
differ, every variant asks for just that value and may have it, so a compiler and the numbering
count in step. A value that is written somewhere is given to nobody before the first variant that
declares it: variants without a value are kept off it, and no search stops there. So that variant
keeps its declaration, and what the numbering returns is an enumeration that it would not touch.

* `FirstWritten`, `changedNames` — the first variant with a value, and the variants that changed.
* `carried_of_distinct` — variants with different values keep their declarations.
* `Carried.keeps_first` — the first variant with a value keeps its declaration.
* `Carried.moved_eq` — the variants that are moved are those that changed.
* `assign_moves_meeting` — when, and which, variants are moved.
-/

namespace PropertySets.Enumeration

open Data

/-- A value is written at a position, and nowhere before. -/
def FirstWritten (values : List (Option Int)) (i : Nat) (v : Int) : Prop :=
  values[i]? = some (some v) ∧ ∀ j < i, values[j]? ≠ some (some v)

/-- The names of the items that are not declared as they stand. -/
def changedNames (names items declarations : List String) : List String :=
  ((names.zip (items.zip declarations)).filter fun p => p.2.1 ≠ p.2.2).map (·.1)

theorem changedNames_cons_self (name text : String) (names items declarations : List String) :
    changedNames (name :: names) (text :: items) (text :: declarations) =
      changedNames names items declarations := by
  simp [changedNames]

theorem changedNames_cons_of_ne {text text' : String} (h : text ≠ text') (name : String)
    (names items declarations : List String) :
    changedNames (name :: names) (text :: items) (text' :: declarations) =
      name :: changedNames names items declarations := by
  simp [changedNames, h]

theorem FirstWritten.tail {values : List (Option Int)} {value? : Option Int} {i : Nat} {v : Int}
    (h : FirstWritten (value? :: values) (i + 1) v) :
    FirstWritten values i v ∧ value? ≠ some v := by
  refine ⟨⟨h.1, fun j hBefore => h.2 (j + 1) (by omega)⟩, fun hHere => ?_⟩
  exact h.2 0 (by omega) (congrArg some hHere)

/-- A variant has the value that is written in it. -/
theorem getElem?_discriminantsFrom {values : List (Option Int)} {i : Nat} {v : Int}
    (h : values[i]? = some (some v)) (next : Int) :
    (discriminantsFrom next values)[i]? = some v := by
  induction values generalizing i next with
  | nil => cases h
  | cons value? rest ih =>
    cases i with
    | zero =>
      obtain rfl : value? = some v := Option.some.inj h
      rfl
    | succ i => exact ih h _

theorem mem_discriminantsFrom {values : List (Option Int)} {v : Int} (h : some v ∈ values)
    (next : Int) : v ∈ discriminantsFrom next values := by
  obtain ⟨i, hPlace⟩ := List.mem_iff_getElem?.1 h
  exact List.mem_of_getElem? (getElem?_discriminantsFrom hPlace next)

/-- What a text declares is determined by the text and the name. -/
theorem Declares.unique {name text : String} {value? value'? : Option Int}
    (hPlain : '=' ∉ name.toList) (h : Declares name value? text)
    (h' : Declares name value'? text) : value? = value'? := by
  have hVariant := (ofText_of_declares hPlain h).symm.trans (ofText_of_declares hPlain h')
  have hWritten : Written.ofValue? value? = Written.ofValue? value'? :=
    congrArg Variant.written hVariant
  cases value? <;> cases value'? <;> cases hWritten <;> rfl

section

variable {explicit used : List Int} {next limit : Int} {v : Variant} {vs : List Variant}
  {value? : Option Int} {values : List (Option Int)} {n : Numbering}

/-! ## Variants with different values -/

/-- A variant may have its value if that is not in use, and if the values that are written are in
use, or its own, or given to variants behind it, which have other values. -/
theorem not_excluded_of_distinct (hSigned : v.Signed value?) (hUnused : value?.getD next ∉ used)
    (hExplicit : ∀ x ∈ explicit, x ∈ used ∨ some x ∈ value? :: values)
    (hOther : value?.getD next ∉ discriminantsFrom (value?.getD next + 1) values) :
    ¬ v.Excluded explicit used (value?.getD next) := by
  rintro (hUsed | ⟨hCounted, hWritten⟩)
  · exact hUnused hUsed
  · -- only a counted variant gives way to a written value
    cases value? with
    | some x =>
      rw [hSigned.written] at hCounted
      cases hCounted
    | none =>
      -- wherever that value is written, another variant has it
      rcases hExplicit _ hWritten with hUsed | hMem
      · exact hUnused hUsed
      · rcases List.mem_cons.1 hMem with hHere | hBehind
        · cases hHere
        · exact hOther (mem_discriminantsFrom hBehind _)

/-- Variants to which a compiler gives different values of 64 bits, none of them in use, keep their
declarations. -/
theorem carried_of_distinct (hSigned : List.Forall₂ Variant.Signed vs values)
    (hNodup : (discriminantsFrom next values).Nodup)
    (hOthers : ∀ x ∈ discriminantsFrom next values, x ∉ used ∧ Integer.fits x = true)
    (hExplicit : ∀ x ∈ explicit, x ∈ used ∨ some x ∈ values) :
    Carried explicit used (min next (2 ^ 63 - 1)) vs ⟨vs.map Variant.text, []⟩ := by
  induction hSigned generalizing used next with
  | nil => exact .done
  | @cons v value? vs values hFirst _ ih =>
    obtain ⟨hOther, hNodup⟩ := List.nodup_cons.1 hNodup
    obtain ⟨⟨hUnused, hFits⟩, hBehind⟩ := List.forall_mem_cons.1 hOthers
    have hFree := not_excluded_of_distinct hFirst hUnused hExplicit hOther
    -- the value is in use for the variants behind, and none of theirs
    have hOthersBehind : ∀ x ∈ discriminantsFrom (value?.getD next + 1) values,
        x ∉ value?.getD next :: used ∧ Integer.fits x = true := by
      intro x hMem
      obtain ⟨hUnused, hFits⟩ := hBehind x hMem
      refine ⟨fun hUsed => ?_, hFits⟩
      rcases List.mem_cons.1 hUsed with rfl | hUsed
      · exact hOther hMem
      · exact hUnused hUsed
    have hExplicitBehind : ∀ x ∈ explicit, x ∈ value?.getD next :: used ∨ some x ∈ values := by
      intro x hMem
      rcases hExplicit x hMem with hUsed | hWritten
      · exact .inl (List.mem_cons_of_mem _ hUsed)
      · rcases List.mem_cons.1 hWritten with rfl | hWritten
        · exact .inl List.mem_cons_self
        · exact .inr hWritten
    have hWanted : v.wanted? (min next (2 ^ 63 - 1)) = some (value?.getD next) := by
      rw [hFirst.wanted?_eq]
      cases value? with
      | some x => rfl
      | none =>
        -- what is counted on with is a value of 64 bits here
        have hSmall : next < 2 ^ 63 := (Integer.fits_iff.1 hFits).2
        rw [Option.getD_none, Option.getD_none, Int.min_eq_left (by omega)]
    exact .kept hWanted hFree (ih hNodup hOthersBehind hExplicitBehind)

/-- With values below a limit that leaves room for all variants a compiler gives values of
64 bits. -/
theorem fits_of_mem_discriminantsFrom (hNext : -2 ^ 63 ≤ next ∧ next ≤ limit)
    (hValues : ∀ x, some x ∈ values → -2 ^ 63 ≤ x ∧ x < limit)
    (hLimit : limit + values.length ≤ 2 ^ 63) :
    ∀ x ∈ discriminantsFrom next values, Integer.fits x = true := by
  induction values generalizing next limit with
  | nil => nofun
  | cons value? values ih =>
    rw [List.length_cons, Int.natCast_succ] at hLimit
    have hHere : -2 ^ 63 ≤ value?.getD next ∧ value?.getD next ≤ limit := by
      cases value? with
      | none => exact hNext
      | some x =>
        have hValue := hValues x List.mem_cons_self
        exact ⟨hValue.1, Int.le_of_lt hValue.2⟩
    refine List.forall_mem_cons.2 ⟨Integer.fits_iff.2 ⟨hHere.1, by omega⟩, ?_⟩
    -- each variant raises the limit by one
    have hBelow : ∀ x, some x ∈ values → -2 ^ 63 ≤ x ∧ x < limit + 1 := by
      intro x hMem
      have hValue := hValues x (List.mem_cons_of_mem _ hMem)
      omega
    exact ih (by omega) hBelow (by omega)

/-- If none is moved, the declarations are those of the variants. -/
theorem Carried.declarations_of_unmoved (h : Carried explicit used next vs n)
    (hNone : n.moved = []) : n.declarations = vs.map Variant.text := by
  induction h with
  | done => rfl
  | left _ _ ih => exact congrArg (_ :: ·) (ih hNone)
  | kept _ _ _ ih => exact congrArg (_ :: ·) (ih hNone)
  | moved _ _ _ _ _ => cases hNone

/-! ## Which variants are moved -/

/-- The first variant that is written with a value keeps its declaration. -/
theorem Carried.keeps_first (h : Carried explicit used next vs n)
    (hSigned : List.Forall₂ Variant.Signed vs values) {i : Nat} {x : Int}
    (hFirst : FirstWritten values i x) (hUnused : x ∉ used) (hExplicit : x ∈ explicit) :
    n.declarations[i]? = (vs.map Variant.text)[i]? := by
  induction h generalizing values i with
  | done =>
    cases hSigned
    cases hFirst.1
  | left hWanted _ _ =>
    cases hSigned with
    | cons hHere _ => exact absurd hWanted hHere.wanted?_ne_none
  | @kept used next value v vs r hWanted hFree _ ih =>
    cases hSigned with
    | @cons _ value? _ values hHere hSigned =>
      obtain rfl := hHere.eq_of_wanted? hWanted
      cases i with
      | zero => rfl
      | succ i =>
        obtain ⟨hFirst, hNot⟩ := hFirst.tail
        -- the value goes to none before: who counts is kept off it
        refine ih hSigned hFirst fun hUsed => ?_
        rcases List.mem_cons.1 hUsed with hGiven | hUsed
        · cases value? with
          | some y => exact hNot (congrArg some hGiven.symm)
          | none => exact hFree (.inr ⟨hHere.written, hGiven ▸ hExplicit⟩)
        · exact hUnused hUsed
  | @moved used next value found v vs r hWanted hExcluded hSearch _ ih =>
    cases hSigned with
    | @cons _ value? _ values hHere hSigned =>
      obtain rfl := hHere.eq_of_wanted? hWanted
      cases i with
      | zero =>
        -- the first variant with the value may have it
        obtain rfl : value? = some x := Option.some.inj hFirst.1
        rcases hExcluded with hUsed | ⟨hCounted, -⟩
        · exact absurd hUsed hUnused
        · rw [hHere.written] at hCounted
          cases hCounted
      | succ i =>
        -- no search stops at a value that is written
        refine ih hSigned hFirst.tail.1 fun hUsed => ?_
        rcases List.mem_cons.1 hUsed with rfl | hUsed
        · exact hSearch.notMem (List.mem_append_right _ hExplicit)
        · exact hUnused hUsed

/-- A declaration with a value that is not written in it is another one. -/
theorem text_ne_declare (hSigned : v.Signed value?) (hPlain : '=' ∉ v.name.toList) {x : Int}
    (hFits : Integer.fits x = true) (hOther : value? ≠ some x) : v.text ≠ declare v.name x := by
  intro hSame
  refine hOther (hSigned.declares.unique hPlain ?_)
  rw [hSame]
  exact declares_declare v.name hFits

/-- The variants that are moved are those that change. -/
theorem Carried.moved_eq (h : Carried explicit used next vs n)
    (hSigned : List.Forall₂ Variant.Signed vs values) (hNext : Integer.fits next = true)
    (hPlain : ∀ v ∈ vs, '=' ∉ v.name.toList)
    (hExplicit : ∀ v ∈ vs, ∀ x, v.explicit? = some x → x ∈ explicit) :
    n.moved = changedNames (vs.map Variant.name) (vs.map Variant.text) n.declarations := by
  induction h generalizing values with
  | done => rfl
  | left hWanted _ _ =>
    cases hSigned with
    | cons hHere _ => exact absurd hWanted hHere.wanted?_ne_none
  | kept hWanted _ _ ih =>
    cases hSigned with
    | cons hHere hSigned =>
      obtain rfl := hHere.eq_of_wanted? hWanted
      rw [List.map_cons, List.map_cons, changedNames_cons_self]
      exact ih hSigned (fits_following (hHere.fits hNext)) (List.forall_mem_cons.1 hPlain).2
        (List.forall_mem_cons.1 hExplicit).2
  | @moved used next value found v vs r hWanted _ hSearch _ ih =>
    cases hSigned with
    | @cons _ value? _ values hHere hSigned =>
      obtain rfl := hHere.eq_of_wanted? hWanted
      obtain ⟨hPlainHere, hPlain⟩ := List.forall_mem_cons.1 hPlain
      obtain ⟨hWritten, hExplicit⟩ := List.forall_mem_cons.1 hExplicit
      have hFits := hSearch.fits (hHere.fits hNext)
      -- the value that it is moved to is free, so it is not the one that is written
      have hOther : value? ≠ some found := fun hSame =>
        hSearch.notMem (List.mem_append_right _ (hWritten _ (hHere.explicit?_eq.trans hSame)))
      rw [List.map_cons, List.map_cons,
        changedNames_cons_of_ne (text_ne_declare hHere hPlainHere hFits hOther)]
      exact congrArg (v.name :: ·) (ih hSigned (fits_following hFits) hPlain hExplicit)

end

/-! ## Enumerations -/

theorem some_mem_map_iff {signatures : List (String × Option Int)} {x : Int} :
    some x ∈ signatures.map (·.2) ↔ x ∈ signatures.filterMap (·.2) := by
  rw [List.mem_map, List.mem_filterMap]

section

variable {signatures : List (String × Option Int)} {items : List String}
  (hItems : List.Forall₂ (fun s item => '=' ∉ s.1.toList ∧ Declares s.1 s.2 item) signatures items)

include hItems

theorem plain_of_mem_names {name : String} (h : name ∈ signatures.map (·.1)) :
    '=' ∉ name.toList := by
  obtain ⟨s, hSignature, rfl⟩ := List.mem_map.1 h
  exact ((List.forall₂_and_left _ _).1 hItems).1 s hSignature

/-- Names that are the same and declared by the same texts have the same values. -/
theorem eq_of_declares {numbered : List (String × Option Int)}
    (hNames : numbered.map (·.1) = signatures.map (·.1)) {declarations : List String}
    (hDeclared : List.Forall₂ (fun s text => Declares s.1 s.2 text) numbered declarations) {i : Nat}
    (hSame : declarations[i]? = items[i]?) : numbered[i]? = signatures[i]? := by
  induction hItems generalizing numbered declarations i with
  | nil =>
    obtain rfl := List.map_eq_nil_iff.1 hNames
    rfl
  | @cons s item signatures items hFirst _ ih =>
    cases hDeclared with
    | nil => cases hNames
    | @cons s' text numbered declarations hHere hDeclared =>
      obtain ⟨hName, hNames⟩ := List.cons.inj hNames
      -- the lists are compared place by place
      cases i with
      | zero =>
        obtain rfl : text = item := Option.some.inj hSame
        have hRenamed : Declares s.1 s'.2 text := (show s'.1 = s.1 from hName) ▸ hHere
        exact congrArg some (Prod.ext hName (hRenamed.unique hFirst.1 hFirst.2))
      | succ i => exact ih hNames hDeclared hSame

/-- Items to which a compiler gives different values of 64 bits are left as they are. -/
theorem carried_of_different (hNodup : (discriminantsFrom 0 (signatures.map (·.2))).Nodup)
    (hFits : ∀ x ∈ discriminantsFrom 0 (signatures.map (·.2)), Integer.fits x = true) :
    Carried (signatures.filterMap (·.2)) [] 0 (items.map Variant.ofText) ⟨items, []⟩ := by
  have hCarried := carried_of_distinct (signed_of_declares hItems).2 hNodup
    (fun x hMem => ⟨List.not_mem_nil, hFits x hMem⟩) fun x hMem => .inr (some_mem_map_iff.2 hMem)
  rwa [map_text_ofText] at hCarried

/-- With room for the items a compiler gives them values of 64 bits, different or not. -/
theorem discriminants_fit (hLength : items.length ≤ 2 ^ 63)
    (hSmall : ∀ s ∈ signatures, ∀ v, s.2 = some v → v ≤ 2 ^ 63 - 1 - items.length) :
    ∀ x ∈ discriminantsFrom 0 (signatures.map (·.2)), Integer.fits x = true := by
  obtain ⟨limit, hRoom, hLimit⟩ := exists_room hItems hLength hSmall
  refine fits_of_mem_discriminantsFrom hRoom.next_fits
    (fun x hMem => hRoom.explicit_fits x (some_mem_map_iff.1 hMem)) ?_
  rw [List.length_map] at hLimit ⊢
  rwa [hItems.length_eq]

section

variable {n : Numbering}
  (hCarried : Carried (signatures.filterMap (·.2)) [] 0 (items.map Variant.ofText) n)

include hCarried

/-- The first item with a value is declared as it stands. -/
theorem declarations_of_firstWritten {i : Nat} {v : Int}
    (hFirst : FirstWritten (signatures.map (·.2)) i v) : n.declarations[i]? = items[i]? := by
  have hMem := some_mem_map_iff.1 (List.mem_of_getElem? hFirst.1)
  rw [hCarried.keeps_first (signed_of_declares hItems).2 hFirst List.not_mem_nil hMem,
    map_text_ofText]

/-- An item that is declared otherwise has no value, or one that an item before it has. -/
theorem repeated_of_changed {i : Nat} {s : String × Option Int}
    (hSignature : signatures[i]? = some s) (hChanged : n.declarations[i]? ≠ items[i]?) :
    s.2 = none ∨ ∃ j < i, (signatures.map (·.2))[j]? = some s.2 := by
  refine or_iff_not_imp_left.2 fun hValue => ?_
  obtain ⟨v, hValue⟩ := Option.ne_none_iff_exists'.1 hValue
  by_contra hNone
  refine hChanged (declarations_of_firstWritten hItems hCarried (v := v)
    ⟨?_, fun j hBefore hSame => ?_⟩)
  · rw [List.getElem?_map, hSignature, Option.map_some, hValue]
  · exact hNone ⟨j, hBefore, hValue ▸ hSame⟩

/-- The items that are moved are those whose declarations change. -/
theorem moved_eq_changedNames :
    n.moved = changedNames (signatures.map (·.1)) items n.declarations := by
  obtain ⟨hNames, hSigned⟩ := signed_of_declares hItems
  have hPlain : ∀ v ∈ items.map Variant.ofText, '=' ∉ v.name.toList := fun v hMem =>
    plain_of_mem_names hItems (hNames ▸ List.mem_map_of_mem hMem)
  rw [hCarried.moved_eq hSigned (by decide) hPlain fun _ hMem _ => mem_of_explicit? hItems hMem,
    hNames, map_text_ofText]

end

end

/-- **Variants are moved only where they must be.** Let each item declare a name without an equals
sign, by itself or with the text of a value of 64 bits, and let the values leave room for as many
more as there are items. Then the numbering comes to its end, and no variant is moved exactly if the
discriminants that a compiler gives to the items are different; the declarations are the items then.
Those that are moved are those whose declarations change, and each of them has no value or one that
an item before it has. The first item with a value is declared as it stands and has this value.
Numbering the declarations once more, in 64 bits too, gives them as they are. -/
theorem assign_moves_meeting {signatures : List (String × Option Int)} {items : List String}
    (hItems : List.Forall₂ (fun s item => '=' ∉ s.1.toList ∧ Declares s.1 s.2 item)
      signatures items)
    (hLength : items.length ≤ 2 ^ 63)
    (hSmall : ∀ s ∈ signatures, ∀ v, s.2 = some v → v ≤ 2 ^ 63 - 1 - items.length) :
    Carried (signatures.filterMap (·.2)) [] 0 (items.map Variant.ofText) (assign items) ∧
      ((assign items).moved = [] ↔ (discriminantsFrom 0 (signatures.map (·.2))).Nodup) ∧
      ((assign items).moved = [] → (assign items).declarations = items) ∧
      (assign items).moved =
        changedNames (signatures.map (·.1)) items (assign items).declarations ∧
      (∀ (i : Nat) (s : String × Option Int), signatures[i]? = some s →
        (assign items).declarations[i]? ≠ items[i]? →
          s.2 = none ∨ ∃ j < i, (signatures.map (·.2))[j]? = some s.2) ∧
      ∃ numbered : List (String × Option Int),
        numbered.map (·.1) = signatures.map (·.1) ∧
        List.Forall₂ (fun s text => Declares s.1 s.2 text) numbered (assign items).declarations ∧
        (∀ i v, FirstWritten (signatures.map (·.2)) i v →
          (assign items).declarations[i]? = items[i]? ∧
            (discriminantsFrom 0 (numbered.map (·.2)))[i]? = some v) ∧
        Carried (numbered.filterMap (·.2)) [] 0
          ((assign items).declarations.map Variant.ofText) ⟨(assign items).declarations, []⟩ ∧
        assign (assign items).declarations = ⟨(assign items).declarations, []⟩ := by
  have hCarried := carried_assign hItems hLength hSmall
  obtain ⟨numbered, hNames, hDeclared, hNodup, hValues⟩ := distinct_of_carried hItems hCarried
  have hUnmoved : (assign items).moved = [] → (assign items).declarations = items := fun hNone =>
    (hCarried.declarations_of_unmoved hNone).trans (map_text_ofText items)
  -- the declarations are items of the same names, so what was said of items holds of them
  have hPlain : ∀ s ∈ numbered, '=' ∉ s.1.toList := fun s hMem =>
    plain_of_mem_names hItems (hNames ▸ List.mem_map_of_mem hMem)
  have hNumbered := (List.forall₂_and_left _ _).2 ⟨hPlain, hDeclared⟩
  have hAgain := carried_of_different hNumbered hNodup fun v hMem => (hValues v hMem).2
  refine ⟨hCarried, ⟨fun hNone => ?_, fun hDifferent => ?_⟩, hUnmoved,
    moved_eq_changedNames hItems hCarried, fun i s => repeated_of_changed hItems hCarried, numbered,
    hNames, hDeclared, fun i v hFirst => ?_, hAgain,
    assign_of_assign? ((assign?_eq_some_iff_of_declares hNumbered).2 hAgain)⟩
  · have hSame : numbered = signatures := List.ext_getElem? fun i =>
      eq_of_declares hItems hNames hDeclared (by rw [hUnmoved hNone])
    rwa [hSame] at hNodup
  · -- values that differ are left alone, and there is one numbering only
    have hLeft := carried_of_different hItems hDifferent (discriminants_fit hItems hLength hSmall)
    rw [assign_of_assign? ((assign?_eq_some_iff_of_declares hItems).2 hLeft)]
  · have hKept := declarations_of_firstWritten hItems hCarried hFirst
    refine ⟨hKept, getElem?_discriminantsFrom ?_ 0⟩
    rw [List.getElem?_map, eq_of_declares hItems hNames hDeclared hKept, ← List.getElem?_map]
    exact hFirst.1

/-- Items of which some are in the way of others: zero and one are written behind variants that
count up to them, and one is written twice, once with a zero in front. -/
def crowdedItems : List String := ["A", "_0 = 0", "B", "_1 = 01", "C = 1"]

/-- Of the crowded items those without a value and the repeated one are moved, and only once. -/
theorem crowdedItems_moved :
    assign crowdedItems =
        ⟨["A = 2", "_0 = 0", "B = 3", "_1 = 01", "C = 4"], ["A", "B", "C"]⟩ ∧
      ¬ (discriminantsFrom 0 [none, some 0, none, some 1, some 1]).Nodup ∧
      assign (assign crowdedItems).declarations = ⟨(assign crowdedItems).declarations, []⟩ := by
  have hValued : ∀ name value v, Integer.read? value.toList = some v →
      Declares name (some v) (name ++ " = " ++ value) := fun _ _ _ => .valued
  have hItems : List.Forall₂ (fun s item => '=' ∉ s.1.toList ∧ Declares s.1 s.2 item)
      [("A", none), ("_0", some 0), ("B", none), ("_1", some 1), ("C", some 1)] crowdedItems :=
    .cons ⟨by decide, .counted⟩ (.cons ⟨by decide, hValued "_0" "0" 0 (by decide)⟩
      (.cons ⟨by decide, .counted⟩ (.cons ⟨by decide, hValued "_1" "01" 1 (by decide)⟩
      (.cons ⟨by decide, hValued "C" "1" 1 (by decide)⟩ .nil))))
  have hAssign : assign crowdedItems =
      ⟨["A = 2", "_0 = 0", "B = 3", "_1 = 01", "C = 4"], ["A", "B", "C"]⟩ := by decide
  obtain ⟨-, hIff, -, -, -, numbered, -, -, -, -, hAgain⟩ :=
    assign_moves_meeting hItems (by decide) (by decide)
  -- if the values were different nothing would be moved
  refine ⟨hAssign, fun hDifferent => ?_, hAgain⟩
  have hNone := hIff.2 hDifferent
  rw [hAssign] at hNone
  cases hNone

end PropertySets.Enumeration
