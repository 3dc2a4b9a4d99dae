import Mathlib.Data.List.Forall2
import PropertySets.Proofs.Naming.Routines

/-!
# The modules of version tags

The module of a tag is spelled in small letters, with an underscore for every character that is no
ASCII letter or digit. So two tags can have one module. This module tells when: their characters
agree one by one up to case, or are both replaced, where an underscore stands before a digit at the
start and for nothing at all.

* `Alike` — tags that are spelled alike in modules; it can be decided.
* `versionModule_eq_iff` — two tags have one module exactly if they are alike.
-/

namespace PropertySets.Naming

open Text

/-- The same ASCII letter up to case, the same digit, or both neither letter nor digit. -/
def SpelledAlike (c c' : Char) : Prop :=
  c.isAlphanum = c'.isAlphanum ∧ (c.isAlphanum = true → c.toLower = c'.toLower)

instance : DecidableRel SpelledAlike := fun _ _ => inferInstanceAs (Decidable (_ ∧ _))

/-- The characters of a tag with what comes before a digit at the start, and in place of none. -/
def guarded : List Char → List Char
  | [] => ['_']
  | c :: rest => if c.isDigit then '_' :: c :: rest else c :: rest

/-- Tags that are spelled alike in modules. -/
def Alike (tag tag' : String) : Prop :=
  List.Forall₂ SpelledAlike (guarded tag.toList) (guarded tag'.toList)

instance : DecidableRel Alike := fun _ _ => inferInstanceAs (Decidable (List.Forall₂ _ _ _))

/-- How a character is spelled in a module. -/
def moduleChar (c : Char) : Char := if c.isAlphanum then c.toLower else '_'

theorem moduleChar_of_alphanum {c : Char} (h : c.isAlphanum = true) :
    moduleChar c = c.toLower := if_pos h

theorem moduleChar_of_other {c : Char} (h : c.isAlphanum = false) : moduleChar c = '_' :=
  if_neg (by rw [h]; exact Bool.false_ne_true)

/-- No letter or digit is spelled with an underscore. -/
theorem moduleChar_ne_underscore {c : Char} (h : c.isAlphanum = true) : moduleChar c ≠ '_' := by
  intro hSame
  have hLower := isAlphanum_toLower h
  rw [← moduleChar_of_alphanum h, hSame] at hLower
  exact absurd hLower (by decide)

theorem moduleChar_eq_iff {c c' : Char} : moduleChar c = moduleChar c' ↔ SpelledAlike c c' := by
  cases h : c.isAlphanum with
  | true =>
    cases h' : c'.isAlphanum with
    | true => simp [SpelledAlike, h, h', moduleChar_of_alphanum]
    | false => simp [SpelledAlike, h, h', moduleChar_of_other h', moduleChar_ne_underscore h]
  | false =>
    cases h' : c'.isAlphanum with
    | true => simp [SpelledAlike, h, h', moduleChar_of_other h, (moduleChar_ne_underscore h').symm]
    | false => simp [SpelledAlike, h, h', moduleChar_of_other]

/-- Digits and nothing else are spelled with a digit. -/
theorem isDigit_moduleChar (c : Char) : (moduleChar c).isDigit = c.isDigit := by
  cases h : c.isAlphanum with
  | true =>
    rw [moduleChar_of_alphanum h]
    exact forall_of_ascii (P := fun c => c.toLower.isDigit = c.isDigit) (by decide)
      (toNat_lt_of_isAlphanum h)
  | false =>
    rw [moduleChar_of_other h]
    rw [Char.isAlphanum, Bool.or_eq_false_iff] at h
    rw [h.2]
    rfl

theorem versionModule_eq (tag : String) :
    versionModule tag = String.ofList ((guarded tag.toList).map moduleChar) := by
  have hMap : (tag.toList.map fun c => if c.isAlphanum then c.toLower else '_') =
      tag.toList.map moduleChar := rfl
  rw [versionModule, hMap]
  cases tag.toList with
  | nil => rfl
  | cons c rest =>
    simp only [List.map_cons, isDigit_moduleChar, guarded]
    cases c.isDigit <;> rfl

/-- **When two tags have one module.** -/
theorem versionModule_eq_iff {tag tag' : String} :
    versionModule tag = versionModule tag' ↔ Alike tag tag' := by
  rw [versionModule_eq, versionModule_eq, String.ofList_inj, ← List.forall₂_eq_eq_eq,
    List.forall₂_map_left_iff, List.forall₂_map_right_iff]
  exact ⟨List.Forall₂.imp fun _ _ => moduleChar_eq_iff.1,
    List.Forall₂.imp fun _ _ => moduleChar_eq_iff.2⟩

example : Alike "IFC2X2" "ifc2x2" ∧ Alike "4x1" "-4X1" ∧ ¬ Alike "IFC4_ADD1" "IFC4_ADD2" := by
  decide

end PropertySets.Naming
