import PropertySets.Text.Ranges
import PropertySets.Xml.Fault

/-!
# Names in XML

A qualified name is a local name with an optional qualifier before a colon. Both parts start with
a letter or an underscore and go on with letters, digits, dots, dashes and marks.

* `QName` — a qualified name; `readQName` reads one off the front of a text.
* `readName` — a plain name, colons included.
* `length_readQName`, `length_readName` — what follows a name is shorter than the text.
-/

namespace PropertySets.Xml

/-- The characters beyond ASCII that a name can start with. -/
def nameStartRanges : List (Nat × Nat) := [
  (0xC0, 0xD6), (0xD8, 0xF6), (0xF8, 0x2FF), (0x370, 0x37D), (0x37F, 0x1FFF), (0x200C, 0x200D),
  (0x2070, 0x218F), (0x2C00, 0x2FEF), (0x3001, 0xD7FF), (0xF900, 0xFDCF), (0xFDF0, 0xFFFD),
  (0x10000, 0xEFFFF)]

/-- The characters beyond ASCII that a name can hold behind its start. -/
def nameInnerRanges : List (Nat × Nat) := [(0xB7, 0xB7), (0x300, 0x36F), (0x203F, 0x2040)]

/-- A character that a name can start with. -/
def isNameStart (c : Char) : Bool :=
  c.isAlpha || c == '_' || c == ':' || Text.inRanges nameStartRanges c

/-- A character that a name can hold. -/
def isNameChar (c : Char) : Bool :=
  isNameStart c || c.isDigit || c == '-' || c == '.' || Text.inRanges nameInnerRanges c

/-- White space of the markup. -/
def isSpace (c : Char) : Bool := c == ' ' || c == '\t' || c == '\n' || c == '\r'

/-- A character that XML admits. -/
def isAdmitted (c : Char) : Bool :=
  if c.toNat < 0x20 then isSpace c else c.toNat ≠ 0xFFFE && c.toNat ≠ 0xFFFF

/-- A qualified name; the qualifier is empty when there is none. -/
structure QName where
  qualifier : String
  localName : String
  deriving DecidableEq, Repr

/-- A qualified name as it is written. -/
def QName.text (n : QName) : String :=
  if n.qualifier.isEmpty then n.localName else n.qualifier ++ ":" ++ n.localName

/-- The characters of one part of a qualified name. -/
def isPartChar (c : Char) : Bool := isNameChar c && c != ':'

/-- Does a part of a name start as it has to? -/
def startsName (part : List Char) : Bool := part.head?.any isNameStart

/-- The qualified name at the front of a text, and what follows it. -/
def readQName (s : List Char) : Except Fault (QName × List Char) :=
  let first := s.takeWhile isPartChar
  match s.dropWhile isPartChar with
  | ':' :: rest =>
    let second := rest.takeWhile isPartChar
    if (first.isEmpty || startsName first) && startsName second then
      .ok (⟨String.ofList first, String.ofList second⟩, rest.dropWhile isPartChar)
    else .error .badName
  | rest =>
    if startsName first then .ok (⟨"", String.ofList first⟩, rest) else .error .badName

/-- The plain name at the front of a text, and what follows it. -/
def readName (s : List Char) : Except Fault (String × List Char) :=
  if startsName s then .ok (String.ofList (s.takeWhile isNameChar), s.dropWhile isNameChar)
  else .error .badName

/-! ## Progress -/

theorem length_dropWhile_le (p : Char → Bool) (s : List Char) :
    (s.dropWhile p).length ≤ s.length :=
  (List.dropWhile_suffix p).length_le

/-- A part that starts a name is not empty, so what follows it is shorter. -/
theorem length_dropWhile_of_startsName {p : Char → Bool} {s : List Char}
    (h : startsName (s.takeWhile p) = true) : (s.dropWhile p).length < s.length := by
  have split := congrArg List.length (List.takeWhile_append_dropWhile (p := p) (l := s))
  rw [List.length_append] at split
  cases part : s.takeWhile p with
  | nil => rw [part] at h; cases h
  | cons c cs => rw [part, List.length_cons] at split; omega

theorem length_readQName {s rest : List Char} {n : QName} (h : readQName s = .ok (n, rest)) :
    rest.length < s.length := by
  -- without a prefix the part in front is dropped whole; with one there is a colon besides
  have shorter := length_dropWhile_le isPartChar s
  unfold readQName at h
  split at h
  · rename_i behind colon
    dsimp only at h
    split at h
    · cases h
      have := length_dropWhile_le isPartChar behind
      rw [colon, List.length_cons] at shorter
      omega
    · cases h
  · dsimp only at h
    split at h
    · rename_i starts
      cases h
      exact length_dropWhile_of_startsName starts
    · cases h

theorem length_readName {s rest : List Char} {name : String}
    (h : readName s = .ok (name, rest)) : rest.length < s.length := by
  unfold readName at h
  split at h
  · rename_i starts
    cases h
    cases s with
    | nil => cases starts
    | cons c cs =>
      have inner : isNameChar c = true := by
        have : isNameStart c = true := starts
        simp [isNameChar, this]
      have := length_dropWhile_le isNameChar cs
      rw [List.dropWhile_cons_of_pos inner, List.length_cons]
      omega
  · cases h

end PropertySets.Xml
