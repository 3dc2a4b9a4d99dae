/-!
# ASCII letters and digits

Tags such as language tags and schema revisions are compared without regard to the case of the
ASCII letters; every other character has to be the same.

* `asciiLower` — a string with its ASCII capitals made small.
* `SameTag` — equality up to the case of ASCII letters, an equivalence.
* `hexValue?` — the value of a hexadecimal digit.
-/

namespace PropertySets.Text

/-- A string with its ASCII capitals made small. -/
def asciiLower (s : String) : String := String.ofList (s.toList.map Char.toLower)

/-- Equal up to the case of ASCII letters. -/
def SameTag (a b : String) : Prop := asciiLower a = asciiLower b

instance (a b : String) : Decidable (SameTag a b) := inferInstanceAs (Decidable (_ = _))

theorem SameTag.refl (a : String) : SameTag a a := rfl

theorem SameTag.symm {a b : String} (h : SameTag a b) : SameTag b a := Eq.symm h

theorem SameTag.trans {a b c : String} (h : SameTag a b) (k : SameTag b c) : SameTag a c :=
  Eq.trans h k

/-- A letter, a digit or an underscore of ASCII. -/
def isWordChar (c : Char) : Bool := c.isAlphanum || c == '_'

theorem isUpper_iff_toNat {c : Char} :
    c.isUpper = true ↔ 'A'.toNat ≤ c.toNat ∧ c.toNat ≤ 'Z'.toNat := by
  change decide ('A'.val ≤ c.val ∧ c.val ≤ 'Z'.val) = true ↔ _
  rw [decide_eq_true_iff, UInt32.le_iff_toNat_le, UInt32.le_iff_toNat_le]
  rfl

theorem isLower_iff_toNat {c : Char} :
    c.isLower = true ↔ 'a'.toNat ≤ c.toNat ∧ c.toNat ≤ 'z'.toNat := by
  change (decide ('a'.val ≤ c.val) && decide (c.val ≤ 'z'.val)) = true ↔ _
  rw [Bool.and_eq_true, decide_eq_true_iff, decide_eq_true_iff, UInt32.le_iff_toNat_le,
    UInt32.le_iff_toNat_le]
  rfl

theorem isAlpha_iff {c : Char} : c.isAlpha = true ↔ c.isUpper = true ∨ c.isLower = true :=
  Bool.or_eq_true_iff

theorem toNat_lt_of_isAlphanum {c : Char} (h : c.isAlphanum = true) : c.toNat < 128 := by
  have hEnds : 'Z'.toNat < 128 ∧ 'z'.toNat < 128 ∧ '9'.toNat < 128 := by decide
  rw [Char.isAlphanum, Bool.or_eq_true, isAlpha_iff, isUpper_iff_toNat, isLower_iff_toNat,
    Char.isDigit_iff_toNat] at h
  omega

theorem isDigit_eq_false_of_isAlpha {c : Char} (h : c.isAlpha = true) : c.isDigit = false := by
  have hEnds : '9'.toNat < 'A'.toNat ∧ '9'.toNat < 'a'.toNat := by decide
  rw [isAlpha_iff, isUpper_iff_toNat, isLower_iff_toNat] at h
  rw [Bool.eq_false_iff, Ne, Char.isDigit_iff_toNat]
  omega

/-- The value of a hexadecimal digit. -/
def hexValue? (c : Char) : Option Nat :=
  if '0' ≤ c ∧ c ≤ '9' then some (c.toNat - '0'.toNat)
  else if 'a' ≤ c ∧ c ≤ 'f' then some (c.toNat - 'a'.toNat + 10)
  else if 'A' ≤ c ∧ c ≤ 'F' then some (c.toNat - 'A'.toNat + 10)
  else none

end PropertySets.Text
