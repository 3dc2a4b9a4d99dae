import PropertySets.Text.Ranges

/-!
# Blank characters and trimming

Blank means the property White_Space: tab to carriage return, space, next line, no-break space and
the typographic spaces. A zero-width space or a byte order mark is not blank.

* `trim` — a string without the blanks at both ends.
* `toList_trim` — its characters.
-/

namespace PropertySets.Text

/-- The blank characters, as ranges of code points. -/
def blankRanges : List (Nat × Nat) := [
  (0x9, 0xD), (0x20, 0x20), (0x85, 0x85), (0xA0, 0xA0), (0x1680, 0x1680), (0x2000, 0x200A),
  (0x2028, 0x2029), (0x202F, 0x202F), (0x205F, 0x205F), (0x3000, 0x3000)]

/-- A blank character. -/
def isBlank (c : Char) : Bool := inRanges blankRanges c

/-- Drop the elements that satisfy `p` at both ends. -/
def trimEnds (p : Char → Bool) (s : List Char) : List Char :=
  ((s.dropWhile p).reverse.dropWhile p).reverse

/-- A string without its leading and trailing blanks. -/
def trim (s : String) : String := String.ofList (trimEnds isBlank s.toList)

theorem toList_trim (s : String) : (trim s).toList = trimEnds isBlank s.toList := by
  simp [trim]

end PropertySets.Text
