import Mathlib.Algebra.Group.Int.Defs
import Mathlib.Algebra.Group.Nat.Defs
import Mathlib.Data.List.Forall2
import PropertySets.Proofs.Enumeration.Numbering

/-!
# Distinct discriminants

A numbering that ends gives the variants of an enumeration different values: the declarations keep
the names and their order, and a compiler that counts on from each variant to the next comes to
different values of 64 bits. The two count in step. Only behind the greatest value a compiler goes
on where the numbering stays, and there the value that it stays at is in use, so no variant is left
with it. If the written values leave room for as many more as there are variants, the numbering
ends.

* `Declares`, `discriminantsFrom` — what a declaration says, and the values a compiler gives.
* `Variant.Signed` — a variant that is declared as it was read.
* `Carried.distinct` — the values that a numbering gives are different.
* `carried_assign` — the numbering of items with room for as many more.
* `assign_values_distinct` — there the values are different.
-/

namespace PropertySets

/-! ## Decimal texts -/

namespace Data.Integer

theorem hexValue?_of_isDigit {c : Char} (h : c.isDigit = true) :
    Text.hexValue? c = some (c.toNat - '0'.toNat) := by
  rw [Char.isDigit_iff_toNat] at h
  rw [Text.hexValue?, if_pos ⟨Char.le_def.2 (UInt32.le_iff_toNat_le.2 h.1),
    Char.le_def.2 (UInt32.le_iff_toNat_le.2 h.2)⟩]

theorem ofDigits_eq_ofDigitChars {digits : List Char} (h : digits.all Char.isDigit = true) :
    ofDigits 10 digits = Nat.ofDigitChars 10 digits 0 := by
  suffices ∀ n, digits.foldl (fun n c => n * 10 + (Text.hexValue? c).getD 0) n =
      Nat.ofDigitChars 10 digits n from this 0
  induction digits with
  | nil => exact fun n => rfl
  | cons c rest ih =>
    intro n
    rw [List.all_cons, Bool.and_eq_true] at h
    rw [List.foldl_cons, ih h.2, Nat.ofDigitChars_cons, hexValue?_of_isDigit h.1, Nat.mul_comm,
      Option.getD_some]

theorem all_isDigit_toDigits (n : Nat) : (Nat.toDigits 10 n).all Char.isDigit = true :=
  List.all_eq_true.2 fun _ hMem => Nat.isDigit_of_mem_toDigits (by decide) (by decide) hMem

theorem readDigits?_toDigits (n : Nat) : readDigits? (Nat.toDigits 10 n) = some n := by
  have hNonempty : (Nat.toDigits 10 n).isEmpty = false :=
    List.isEmpty_eq_false_iff.2 Nat.toDigits_ne_nil
  rw [readDigits?, hNonempty, all_isDigit_toDigits, ofDigits_eq_ofDigitChars
    (all_isDigit_toDigits n), Nat.ofDigitChars_ten_toDigits]
  rfl

theorem read?_minus (digits : List Char) :
    read? ('-' :: digits) = ((readDigits? digits).map fun n : Nat => -(n : Int)).filter fits := by
  rw [read?]
  cases readDigits? digits with
  | none => rfl
  | some n => rfl

theorem read?_of_digits {s : List Char} {n : Nat} (h : readDigits? s = some n) :
    read? s = (some (n : Int)).filter fits := by
  -- what is read as digits does not start with a sign
  have hAll : s.all Char.isDigit = true := by
    rw [readDigits?] at h
    split at h
    · cases h
    · rename_i hDigits
      rw [Bool.or_eq_true, not_or, Bool.not_eq_true', Bool.not_eq_false] at hDigits
      exact hDigits.2
  rw [read?, h]
  · rfl
  · rintro digits rfl
    cases hAll
  · rintro digits rfl
    cases hAll

/-- An integer of 64 bits is read from its decimal text. -/
theorem read?_toString {v : Int} (h : fits v = true) : read? (toString v).toList = some v := by
  rw [Int.toString_eq_repr, Int.repr_eq_if]
  split
  · rename_i hNonneg
    rw [Nat.toList_repr, read?_of_digits (readDigits?_toDigits v.toNat),
      Int.toNat_of_nonneg hNonneg, Option.filter_some, if_pos h]
  · rename_i hNegative
    have hValue : -(((-v).toNat : Nat) : Int) = v := by omega
    rw [String.toList_append, Nat.toList_repr]
    show read? ('-' :: Nat.toDigits 10 (-v).toNat) = _
    rw [read?_minus, readDigits?_toDigits, Option.map_some, hValue, Option.filter_some, if_pos h]

theorem fits_of_read? {s : List Char} {v : Int} (h : read? s = some v) : fits v = true :=
  (Option.filter_eq_some_iff.1 h).2

theorem fits_iff {v : Int} : fits v = true ↔ -2 ^ 63 ≤ v ∧ v < 2 ^ 63 := by
  rw [fits, Bool.and_eq_true, decide_eq_true_eq, decide_eq_true_eq]
  omega

end Data.Integer

namespace Enumeration

open Data

/-! ## Declarations and their values -/

/-- What a text declares: a name by itself, or a name with the text of a value of 64 bits. -/
inductive Declares (name : String) : Option Int → String → Prop
  | counted : Declares name none name
  | valued {value : String} {v : Int} (denoted : Integer.read? value.toList = some v) :
    Declares name (some v) (name ++ " = " ++ value)

/-- The discriminants that a compiler gives to variants with these values: one without a value
counts on from the one before it, and the first from `next`. -/
def discriminantsFrom (next : Int) : List (Option Int) → List Int
  | [] => []
  | value? :: rest => value?.getD next :: discriminantsFrom (value?.getD next + 1) rest

/-- What is written in a declaration with this value or none. -/
def Written.ofValue? : Option Int → Written
  | none => .counted
  | some v => .value v

theorem cutAt?_eq_none {s : List Char} (h : '=' ∉ s) : Text.cutAt? " = ".toList s = none := by
  cases hCut : Text.cutAt? " = ".toList s with
  | none => rfl
  | some sides =>
    refine absurd ?_ h
    rw [Text.cutAt?_eq_some hCut]
    simp

theorem cutAt?_of_plain {name : List Char} (h : '=' ∉ name) (rest : List Char) :
    Text.cutAt? " = ".toList (name ++ " = ".toList ++ rest) = some (name, rest) := by
  induction name with
  | nil => rfl
  | cons c name ih =>
    rw [List.mem_cons, not_or] at h
    -- the separator does not start here: its second character is none of the name
    have hStart : Text.stripStart? " = ".toList (c :: name ++ " = ".toList ++ rest) = none := by
      cases hStrip : Text.stripStart? " = ".toList (c :: name ++ " = ".toList ++ rest) with
      | none => rfl
      | some tail =>
        have hText := Text.stripStart?_eq_some_iff.1 hStrip
        cases name with
        | nil => simp at hText
        | cons d name => simp at hText h; exact absurd hText.2.1.symm h.2.1
    rw [List.cons_append, List.cons_append, Text.cutAt?]
    rw [List.cons_append, List.cons_append] at hStart
    rw [hStart, ih h.2]
    rfl

/-- A declaration is taken apart into what it says. -/
theorem ofText_of_declares {name text : String} {value? : Option Int} (hPlain : '=' ∉ name.toList)
    (h : Declares name value? text) : Variant.ofText text = ⟨text, name, .ofValue? value?⟩ := by
  cases h with
  | counted =>
    rw [Variant.ofText, cutAt?_eq_none hPlain]
    rfl
  | @valued value v hDenoted =>
    have hCut : Text.cutAt? " = ".toList (name ++ " = " ++ value).toList =
        some (name.toList, value.toList) := by
      rw [String.toList_append, String.toList_append]
      exact cutAt?_of_plain hPlain value.toList
    rw [Variant.ofText, hCut]
    simp only [hDenoted, String.ofList_toList]
    rfl

/-- The values that are read in declarations are values of 64 bits. -/
theorem fits_of_explicit? {text : String} {x : Int} (h : (Variant.ofText text).explicit? = some x) :
    Integer.fits x = true := by
  rw [Variant.ofText] at h
  split at h
  · cases h
  · split at h
    · rename_i hRead
      cases h
      exact Integer.fits_of_read? hRead
    · cases h

theorem Declares.fits {name text : String} {x : Int} (h : Declares name (some x) text) :
    Integer.fits x = true := by
  cases h with
  | valued hDenoted => exact Integer.fits_of_read? hDenoted

/-- What a moved variant is declared by says where it was moved. -/
theorem declares_declare (name : String) {v : Int} (h : Integer.fits v = true) :
    Declares name (some v) (declare name v) := .valued (Integer.read?_toString h)

/-! ## Variants with different values -/

section

variable {explicit used : List Int} {next : Int} {v : Variant} {vs : List Variant} {n : Numbering}

/-- A variant whose declaration says what was made of it. -/
structure Variant.Signed (v : Variant) (value? : Option Int) : Prop where
  declares : Declares v.name value? v.text
  written : v.written = .ofValue? value?

theorem Variant.Signed.wanted?_eq {value? : Option Int} (h : v.Signed value?) :
    v.wanted? next = some (value?.getD next) := by
  rw [Variant.wanted?, h.written]
  cases value? <;> rfl

theorem Variant.Signed.wanted?_ne_none {value? : Option Int} (h : v.Signed value?) :
    v.wanted? next ≠ none := by
  rw [h.wanted?_eq]
  exact Option.some_ne_none _

theorem Variant.Signed.eq_of_wanted? {value? : Option Int} {value : Int} (h : v.Signed value?)
    (hWanted : v.wanted? next = some value) : value = value?.getD next :=
  Option.some.inj (hWanted.symm.trans h.wanted?_eq)

theorem Variant.Signed.explicit?_eq {value? : Option Int} (h : v.Signed value?) :
    v.explicit? = value? := by
  rw [Variant.explicit?, h.written]
  cases value? <;> rfl

/-- A variant asks for a value of 64 bits. -/
theorem Variant.Signed.fits {value? : Option Int} (h : v.Signed value?)
    (hNext : Integer.fits next = true) : Integer.fits (value?.getD next) = true := by
  cases value? with
  | none => exact hNext
  | some x => exact h.declares.fits

theorem fits_following {x : Int} (h : Integer.fits x = true) :
    Integer.fits (following x) = true := by
  rw [Integer.fits_iff] at h ⊢
  rw [following]
  omega

/-- The value that follows is the next one, or it is the same and is in use. -/
theorem following_eq_or_mem {x : Int} (h : Integer.fits x = true) (used : List Int) :
    following x = x + 1 ∨ following x ∈ x :: used := by
  rw [Integer.fits_iff] at h
  rw [following, List.mem_cons]
  omega

/-- What is found above a value of 64 bits is one too. -/
theorem Search.fits {taken : List Int} {value found : Int}
    (h : Search taken (following value) found) (hFits : Integer.fits value = true) :
    Integer.fits found = true := by
  obtain ⟨hFrom, hTop⟩ := h.between (following_le value)
  rw [following] at hFrom
  rw [Integer.fits_iff] at hFits ⊢
  omega

/-- Declarations with names in a row to which a compiler, counting on from `next`, gives different
values of 64 bits that are not in use. -/
def Distinct (used : List Int) (next : Int) (names declarations : List String) : Prop :=
  ∃ numbered : List (String × Option Int), numbered.map (·.1) = names ∧
    List.Forall₂ (fun s text => Declares s.1 s.2 text) numbered declarations ∧
    (discriminantsFrom next (numbered.map (·.2))).Nodup ∧
    ∀ x ∈ discriminantsFrom next (numbered.map (·.2)), x ∉ used ∧ Integer.fits x = true

/-- A value that is given out is in use for the variants behind, so it is none of theirs. -/
theorem Distinct.cons {value? : Option Int} {name text : String} {names declarations : List String}
    (hRest : Distinct (value?.getD next :: used) (value?.getD next + 1) names declarations)
    (hDeclares : Declares name value? text) (hNew : value?.getD next ∉ used)
    (hFits : Integer.fits (value?.getD next) = true) :
    Distinct used next (name :: names) (text :: declarations) := by
  obtain ⟨numbered, hNames, hDeclared, hNodup, hOthers⟩ := hRest
  refine ⟨(name, value?) :: numbered, congrArg (name :: ·) hNames, .cons hDeclares hDeclared,
    List.nodup_cons.2 ⟨fun hMem => (hOthers _ hMem).1 List.mem_cons_self, hNodup⟩, ?_⟩
  intro x hMem
  rcases List.mem_cons.1 hMem with rfl | hMem
  · exact ⟨hNew, hFits⟩
  · obtain ⟨hUnused, hSmall⟩ := hOthers x hMem
    exact ⟨fun hUsed => hUnused (List.mem_cons_of_mem _ hUsed), hSmall⟩

/-- The values of a numbering that ends: variants keep their names and are given different values.
A compiler counts as the numbering does, or the numbering counts on with a value that is in use:
that is so behind the greatest value, where a compiler goes on. -/
theorem Carried.distinct (h : Carried explicit used next vs n) {values : List (Option Int)}
    (hSigned : List.Forall₂ Variant.Signed vs values) (hNext : Integer.fits next = true)
    {counter : Int} (hCounter : next = counter ∨ next ∈ used) :
    Distinct used counter (vs.map Variant.name) n.declarations := by
  induction h generalizing values counter with
  | done => exact ⟨[], rfl, .nil, List.nodup_nil, by rintro x ⟨⟩⟩
  | left hWanted _ _ =>
    cases hSigned with
    | cons hFirst _ => exact absurd hWanted hFirst.wanted?_ne_none
  | @kept used next value v vs r hWanted hFree _ ih =>
    cases hSigned with
    | @cons _ value? _ values hFirst hSigned =>
      obtain rfl := hFirst.eq_of_wanted? hWanted
      have hFits := hFirst.fits hNext
      -- a variant that is counted is so by a compiler too, since its value is not in use
      have hSame : value?.getD counter = value?.getD next := by
        cases value? with
        | some x => rfl
        | none => exact (hCounter.resolve_right fun hUsed => hFree (.inl hUsed)).symm
      have hRest := ih hSigned (fits_following hFits) (following_eq_or_mem hFits _)
      rw [← hSame] at hRest hFits hFree
      exact .cons hRest hFirst.declares (fun hUsed => hFree (.inl hUsed)) hFits
  | @moved used next value found v vs r hWanted _ hSearch _ ih =>
    cases hSigned with
    | @cons _ value? _ values hFirst hSigned =>
      obtain rfl := hFirst.eq_of_wanted? hWanted
      have hFits := hSearch.fits (hFirst.fits hNext)
      refine .cons ?_ (declares_declare v.name hFits) (fun hUsed => ?_) hFits
      · exact ih hSigned (fits_following hFits) (following_eq_or_mem hFits _)
      · exact hSearch.notMem (List.mem_append_left _ hUsed)

end

/-- The items of an enumeration are variants that say what their signatures say. -/
theorem signed_of_declares {signatures : List (String × Option Int)} {items : List String}
    (h : List.Forall₂ (fun s item => '=' ∉ s.1.toList ∧ Declares s.1 s.2 item) signatures items) :
    (items.map Variant.ofText).map Variant.name = signatures.map (·.1) ∧
      List.Forall₂ Variant.Signed (items.map Variant.ofText) (signatures.map (·.2)) := by
  induction h with
  | nil => exact ⟨rfl, .nil⟩
  | @cons s item signatures items hFirst _ ih =>
    have hVariant := ofText_of_declares hFirst.1 hFirst.2
    simp only [List.map_cons, hVariant]
    exact ⟨congrArg (s.1 :: ·) ih.1, .cons ⟨hFirst.2, rfl⟩ ih.2⟩

theorem filterMap_explicit? {vs : List Variant} {values : List (Option Int)}
    (h : List.Forall₂ Variant.Signed vs values) :
    vs.filterMap Variant.explicit? = values.filterMap id := by
  induction h with
  | nil => rfl
  | cons hFirst _ ih => rw [List.filterMap_cons, List.filterMap_cons, hFirst.explicit?_eq, ih]; rfl

/-! ## Enumerations -/

section

variable {signatures : List (String × Option Int)} {items : List String}
  (hItems : List.Forall₂ (fun s item => '=' ∉ s.1.toList ∧ Declares s.1 s.2 item) signatures items)

include hItems

/-- The values that are written in items are those that their signatures tell. -/
theorem explicit_of_declares :
    (items.map Variant.ofText).filterMap Variant.explicit? = signatures.filterMap (·.2) := by
  rw [filterMap_explicit? (signed_of_declares hItems).2, List.filterMap_map]
  rfl

theorem mem_of_explicit? {v : Variant} (hMem : v ∈ items.map Variant.ofText) {x : Int}
    (hValue : v.explicit? = some x) : x ∈ signatures.filterMap (·.2) :=
  explicit_of_declares hItems ▸ List.mem_filterMap.2 ⟨v, hMem, hValue⟩

theorem assign?_eq_some_iff_of_declares {n : Numbering} :
    assign? items = some n ↔
      Carried (signatures.filterMap (·.2)) [] 0 (items.map Variant.ofText) n := by
  rw [assign?_eq_some_iff, explicit_of_declares hItems]

/-- There is room for items whose values leave room for as many more. -/
theorem exists_room (hLength : items.length ≤ 2 ^ 63)
    (hSmall : ∀ s ∈ signatures, ∀ v, s.2 = some v → v ≤ 2 ^ 63 - 1 - items.length) :
    ∃ limit, Room (signatures.filterMap (·.2)) [] 0 limit ∧
      limit + (items.map Variant.ofText).length ≤ 2 ^ 63 := by
  refine ⟨2 ^ 63 - items.length, ⟨fun x hMem => ?_, nofun, by omega⟩, ?_⟩
  · -- the values are below the limit by assumption, and read as numbers of 64 bits
    obtain ⟨s, hSignature, hValue⟩ := List.mem_filterMap.1 hMem
    have hHigh := hSmall s hSignature x hValue
    rw [← explicit_of_declares hItems] at hMem
    obtain ⟨v, hVariant, hRead⟩ := List.mem_filterMap.1 hMem
    obtain ⟨item, -, rfl⟩ := List.mem_map.1 hVariant
    have hLow := (Integer.fits_iff.1 (fits_of_explicit? hRead)).1
    omega
  · rw [List.length_map]
    omega

/-- With room for its items the numbering of an enumeration comes to its end. -/
theorem carried_assign (hLength : items.length ≤ 2 ^ 63)
    (hSmall : ∀ s ∈ signatures, ∀ v, s.2 = some v → v ≤ 2 ^ 63 - 1 - items.length) :
    Carried (signatures.filterMap (·.2)) [] 0 (items.map Variant.ofText) (assign items) := by
  obtain ⟨limit, hRoom, hLimit⟩ := exists_room hItems hLength hSmall
  obtain ⟨n, hCarried⟩ := exists_carried hRoom hLimit fun _ hMem _ => mem_of_explicit? hItems hMem
  rwa [assign_of_assign? ((assign?_eq_some_iff_of_declares hItems).2 hCarried)]

/-- The declarations of a numbering that ends have different values. -/
theorem distinct_of_carried {n : Numbering}
    (h : Carried (signatures.filterMap (·.2)) [] 0 (items.map Variant.ofText) n) :
    Distinct [] 0 (signatures.map (·.1)) n.declarations := by
  obtain ⟨hNames, hSigned⟩ := signed_of_declares hItems
  rw [← hNames]
  exact h.distinct hSigned (by decide) (.inl rfl)

end

/-- **Distinct discriminants.** Let each item declare a name without an equals sign, by itself or
with the text of a value of 64 bits, and let the values leave room for as many more as there are
items. Then the numbering is what is carried out in 64 bits, every search for a free value coming
to its end. There is one declaration for each item, in order and with its name, and the
discriminants that a compiler gives to the declarations are different values of 64 bits. -/
theorem assign_values_distinct {signatures : List (String × Option Int)} {items : List String}
    (hItems : List.Forall₂ (fun s item => '=' ∉ s.1.toList ∧ Declares s.1 s.2 item)
      signatures items)
    (hLength : items.length ≤ 2 ^ 63)
    (hSmall : ∀ s ∈ signatures, ∀ v, s.2 = some v → v ≤ 2 ^ 63 - 1 - items.length) :
    Carried (signatures.filterMap (·.2)) [] 0 (items.map Variant.ofText) (assign items) ∧
      ∃ numbered : List (String × Option Int),
        numbered.map (·.1) = signatures.map (·.1) ∧
        List.Forall₂ (fun s text => Declares s.1 s.2 text) numbered (assign items).declarations ∧
        (discriminantsFrom 0 (numbered.map (·.2))).Nodup ∧
        ∀ v ∈ discriminantsFrom 0 (numbered.map (·.2)), Integer.fits v = true := by
  have hCarried := carried_assign hItems hLength hSmall
  obtain ⟨numbered, hNames, hDeclared, hNodup, hValues⟩ := distinct_of_carried hItems hCarried
  exact ⟨hCarried, numbered, hNames, hDeclared, hNodup, fun v hMem => (hValues v hMem).2⟩

/-- Items that meet: zero is declared further on, seven is declared twice, once with a zero in
front, and a variant counts up from a negative value. -/
def meetingItems : List String := ["A", "_7 = 07", "B = -1", "C", "D", "_0 = 0", "X = 7"]

/-- The items that meet are given different values. -/
theorem meetingItems_numbered :
    (assign meetingItems).declarations =
        ["A = 1", "_7 = 07", "B = -1", "C = 2", "D", "_0 = 0", "X = 8"] ∧
      ∃ numbered : List (String × Option Int),
        numbered.map (·.1) = ["A", "_7", "B", "C", "D", "_0", "X"] ∧
        List.Forall₂ (fun s text => Declares s.1 s.2 text) numbered
          (assign meetingItems).declarations ∧
        (discriminantsFrom 0 (numbered.map (·.2))).Nodup := by
  -- each item declares its name, by itself or with the value that its text spells
  have hItems : List.Forall₂ (fun s item => '=' ∉ s.1.toList ∧ Declares s.1 s.2 item)
      [("A", none), ("_7", some 7), ("B", some (-1)), ("C", none), ("D", none), ("_0", some 0),
        ("X", some 7)] meetingItems := by
    have hValued : ∀ name value v, Integer.read? value.toList = some v →
        Declares name (some v) (name ++ " = " ++ value) := fun _ _ _ => .valued
    exact .cons ⟨by decide, .counted⟩ (.cons ⟨by decide, hValued "_7" "07" 7 (by decide)⟩
      (.cons ⟨by decide, hValued "B" "-1" (-1) (by decide)⟩ (.cons ⟨by decide, .counted⟩
      (.cons ⟨by decide, .counted⟩ (.cons ⟨by decide, hValued "_0" "0" 0 (by decide)⟩
      (.cons ⟨by decide, hValued "X" "7" 7 (by decide)⟩ .nil))))))
  obtain ⟨-, numbered, hNames, hDeclared, hNodup, -⟩ :=
    assign_values_distinct hItems (by decide) (by decide)
  exact ⟨by decide, numbered, hNames, hDeclared, hNodup⟩

end Enumeration

end PropertySets
