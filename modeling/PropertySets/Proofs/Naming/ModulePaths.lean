import PropertySets.Proofs.Code.Reading

/-!
# The grammar of identifiers and module paths

Identifiers and module paths are recognized by scanning them from left to right. What is recognized
can be said without the scan: an identifier is a letter or an underscore and then letters, digits
and underscores, all of ASCII, to the very end; a module path is what stands when one or more
identifiers are written with `::` between them. Identifiers hold no colon, so a module path is
written in this way by its segments only, whatever else may stand between colons in other texts.

* `IsIdentifier`, `isIdentifier_iff` — identifiers.
* `isModulePath_iff_segments` — a text is a module path if its segments are identifiers.
* `pathSegments_intercalate` — the segments of what is written with `::` between names.
* `IsModulePath`, `isModulePath_iff` — module paths.
-/

namespace PropertySets.Naming

open Text Code

/-! ## Identifiers -/

/-- A letter of ASCII. -/
def IsLetter (c : Char) : Prop := ('a' ≤ c ∧ c ≤ 'z') ∨ ('A' ≤ c ∧ c ≤ 'Z')

/-- A digit of ASCII. -/
def IsDigit (c : Char) : Prop := '0' ≤ c ∧ c ≤ '9'

/-- A letter or an underscore, then letters, digits and underscores to the very end. -/
def IsIdentifier (s : String) : Prop :=
  ∃ c rest, s.toList = c :: rest ∧ (IsLetter c ∨ c = '_') ∧
    ∀ d ∈ rest, IsLetter d ∨ IsDigit d ∨ d = '_'

theorem isAlpha_iff_letter {c : Char} : c.isAlpha = true ↔ IsLetter c := by
  unfold IsLetter
  rw [isAlpha_iff, isUpper_iff_toNat, isLower_iff_toNat, Char.le_def, Char.le_def, Char.le_def,
    Char.le_def]
  simp only [UInt32.le_iff_toNat_le, Char.toNat_val]
  exact or_comm

theorem isDigit_iff_digit {c : Char} : c.isDigit = true ↔ IsDigit c := by
  unfold IsDigit
  rw [Char.isDigit_iff_toNat, Char.le_def, Char.le_def]
  simp only [UInt32.le_iff_toNat_le, Char.toNat_val]

theorem isWordChar_iff {c : Char} :
    isWordChar c = true ↔ IsLetter c ∨ IsDigit c ∨ c = '_' := by
  rw [isWordChar, Char.isAlphanum, Bool.or_eq_true, Bool.or_eq_true, isAlpha_iff_letter,
    isDigit_iff_digit, beq_iff_eq, or_assoc]

theorem isIdentifier_iff {s : String} : isIdentifier s = true ↔ IsIdentifier s := by
  unfold isIdentifier IsIdentifier
  -- an empty text has no first character on either side
  cases s.toList with
  | nil =>
    constructor
    · intro hNone
      cases hNone
    · rintro ⟨c, rest, hChars, -⟩
      cases hChars
  | cons c rest =>
    rw [isIdentifierChars, Bool.and_eq_true, Bool.or_eq_true, isAlpha_iff_letter, beq_iff_eq,
      List.all_eq_true]
    simp only [isWordChar_iff]
    constructor
    · rintro ⟨hStart, hRest⟩
      exact ⟨c, rest, rfl, hStart, hRest⟩
    · rintro ⟨c', rest', hChars, hStart, hRest⟩
      obtain ⟨rfl, rfl⟩ := List.cons.inj hChars
      exact ⟨hStart, hRest⟩

/-- No colon is part of an identifier. -/
theorem IsIdentifier.colon_notMem {s : String} (h : IsIdentifier s) : ':' ∉ s.toList := by
  obtain ⟨c, rest, hChars, hStart, hRest⟩ := h
  have hColon : isWordChar ':' = false := by decide
  intro hMem
  rw [hChars] at hMem
  have hWord : isWordChar ':' = true := by
    rcases List.mem_cons.1 hMem with rfl | hMem
    · exact isWordChar_iff.2 (hStart.imp_right .inr)
    · exact isWordChar_iff.2 (hRest _ hMem)
  rw [hColon] at hWord
  cases hWord

/-! ## Segments -/

/-- The scan of a module path asks its segments, one after the other, whether they are
identifiers. -/
theorem isModulePathFrom_eq (name cs : List Char) :
    isModulePathFrom name cs = (segmentsFrom name cs).all isIdentifier := by
  -- both go through the text in the same way, with the current segment in `name`
  induction name, cs using segmentsFrom.induct with
  | case1 name =>
    rw [segmentsFrom, List.all_cons, List.all_nil, Bool.and_true, isIdentifier,
      String.toList_ofList]
    rfl
  | case2 name rest ih =>
    rw [segmentsFrom, List.all_cons, isIdentifier, String.toList_ofList, ← ih]
    rfl
  | case3 name c rest hOther ih =>
    rw [segmentsFrom]
    · rw [isModulePathFrom]
      · exact ih
      · exact hOther
    · exact hOther

theorem isModulePath_iff_segments {s : String} :
    isModulePath s = true ↔ ∀ n ∈ pathSegments s, IsIdentifier n := by
  rw [isModulePath, isModulePathFrom_eq, List.all_eq_true]
  simp only [isIdentifier_iff]
  rfl

/-- Up to the next colon everything belongs to the current segment. -/
theorem segmentsFrom_append {w : List Char} (hColon : ':' ∉ w) (name rest : List Char) :
    segmentsFrom name (w ++ rest) = segmentsFrom (name ++ w) rest := by
  induction w generalizing name with
  | nil => rw [List.nil_append, List.append_nil]
  | cons c w ih =>
    rw [List.mem_cons, not_or] at hColon
    rw [List.cons_append, segmentsFrom]
    · rw [ih hColon.2, List.append_assoc]
      rfl
    · intro rest' hSame
      exact absurd hSame.symm hColon.1

/-- Names without colons are the segments of what is written with `::` between them. -/
theorem pathSegments_intercalate {names : List String} (hSome : names ≠ [])
    (hColon : ∀ n ∈ names, ':' ∉ n.toList) : pathSegments ("::".intercalate names) = names := by
  unfold pathSegments
  -- each name is read up to the colons behind it
  induction names with
  | nil => exact absurd rfl hSome
  | cons n names ih =>
    have hFirst : ':' ∉ n.toList := hColon n List.mem_cons_self
    cases names with
    | nil =>
      rw [String.intercalate_singleton, ← List.append_nil n.toList, segmentsFrom_append hFirst,
        List.nil_append, segmentsFrom, String.ofList_toList]
    | cons n' names =>
      have hRest := ih (List.cons_ne_nil _ _) fun m hMem => hColon m (List.mem_cons_of_mem _ hMem)
      have hText : ("::".intercalate (n :: n' :: names)).toList =
          n.toList ++ ':' :: ':' :: ("::".intercalate (n' :: names)).toList := by
        rw [String.intercalate_cons_cons]
        simp
      rw [hText, segmentsFrom_append hFirst, List.nil_append, segmentsFrom, hRest,
        String.ofList_toList]

/-! ## Module paths -/

/-- One or more identifiers with `::` between them. -/
def IsModulePath (s : String) : Prop :=
  ∃ names : List String, names ≠ [] ∧ (∀ n ∈ names, IsIdentifier n) ∧ s = "::".intercalate names

theorem isModulePath_iff {s : String} : isModulePath s = true ↔ IsModulePath s := by
  rw [isModulePath_iff_segments]
  constructor
  · intro hSegments
    exact ⟨pathSegments s, segmentsFrom_ne_nil _ _, hSegments, (intercalate_pathSegments s).symm⟩
  · rintro ⟨names, hSome, hNames, rfl⟩
    rw [pathSegments_intercalate hSome fun n hMem => (hNames n hMem).colon_notMem]
    exact hNames

/-- Single colons, a third colon, a missing name at an end and a line break behind one make a text
no module path. -/
example : isModulePath "crate::_a::B2" = true ∧ isModulePath "a:b" = false ∧
    isModulePath "a:::b" = false ∧ isModulePath "::a" = false ∧ isModulePath "a::" = false ∧
    isModulePath "a\n" = false ∧ isModulePath "é" = false := by
  decide

end PropertySets.Naming
