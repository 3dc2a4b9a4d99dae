import PropertySets.Text.Ascii
import PropertySets.Text.Pieces
import PropertySets.Xml.Name

/-!
# Character data and references

Between tags and in attribute values a character can be written as a reference: by its number, or
by one of five names. What is written as a reference stands for itself; of the characters written
plainly, line ends become line feeds in text and every white space becomes a space in attributes.

* `decodeText` — the characters of a piece of text.
* `decodeAttribute` — the value of an attribute.
* `normalizeLines` — line ends in a section without references.
-/

namespace PropertySets.Xml

/-- The characters that have names. -/
def namedCharacters : List (String × Char) :=
  [("quot", '"'), ("amp", '&'), ("apos", '\''), ("lt", '<'), ("gt", '>')]

/-- The number that digits of a base denote, if there are any and it has 32 bits. -/
def readNumber? (base : Nat) (s : List Char) : Option Nat :=
  if s.isEmpty then none
  else (s.foldl (fun n? c => do
    let digit ← (Text.hexValue? c).filter (· < base)
    return (← n?) * base + digit) (some 0)).filter (· < 0x100000000)

/-- The character with a number: numbers without a character denote the replacement character, and
numbers of characters that XML does not admit denote none. -/
def numbered? (n : Nat) : Option Char :=
  let c := if n.isValidChar then Char.ofNat n else '\uFFFD'
  if isAdmitted c then some c else none

/-- The character that the body of a reference denotes. -/
def denoted? (body : List Char) : Option Char :=
  match body with
  | '#' :: 'x' :: digits => (readNumber? 16 digits).bind numbered?
  | '#' :: digits => (readNumber? 10 digits).bind numbered?
  | name => namedCharacters.lookup (String.ofList name)

/-- The character of the reference whose ampersand has been read, and what follows it. -/
def readReference (s : List Char) : Except Fault (Char × List Char) :=
  match Text.cutAt? [';'] s with
  | none => .error .badReference
  | some (body, rest) =>
    match denoted? body with
    | none => .error .badReference
    | some c => .ok (c, rest)

theorem length_readReference {s rest : List Char} {c : Char}
    (h : readReference s = .ok (c, rest)) : rest.length < s.length := by
  unfold readReference at h
  split at h
  · cases h
  · rename_i body after cut
    split at h
    · cases h
    · obtain ⟨rfl, rfl⟩ : _ = c ∧ after = rest := by simpa using h
      have := Text.cutAt?_eq_some cut
      subst this
      simp
      omega

/-- The characters of a text. `referred` tells that a reference stands directly before it. A
carriage return with or without a line feed is a line feed, except that one directly before a
reference, or alone between a reference and the end, stays. -/
def decodeText (referred : Bool) (s : List Char) : Except Fault (List Char) :=
  match s with
  | [] => .ok []
  | '&' :: rest =>
    match h : readReference rest with
    | .error fault => .error fault
    | .ok (c, after) =>
      have : after.length < rest.length := length_readReference h
      return c :: (← decodeText true after)
  | '\r' :: '\n' :: rest => return '\n' :: (← decodeText false rest)
  | '\r' :: '&' :: rest => return '\r' :: (← decodeText false ('&' :: rest))
  -- a carriage return at the very end
  | ['\r'] => .ok [if referred then '\r' else '\n']
  | '\r' :: rest => return '\n' :: (← decodeText false rest)
  | c :: rest => return c :: (← decodeText false rest)
termination_by s.length

/-- The value of an attribute. -/
def decodeAttribute (s : List Char) : Except Fault (List Char) :=
  match s with
  | [] => .ok []
  | '&' :: rest =>
    match h : readReference rest with
    | .error fault => .error fault
    | .ok (c, after) =>
      have : after.length < rest.length := length_readReference h
      return c :: (← decodeAttribute after)
  | '\r' :: '\n' :: rest => return ' ' :: (← decodeAttribute rest)
  | c :: rest => return (if isSpace c then ' ' else c) :: (← decodeAttribute rest)
termination_by s.length

/-- A carriage return with or without a line feed becomes a line feed. -/
def normalizeLines : List Char → List Char
  | [] => []
  | '\r' :: '\n' :: rest => '\n' :: normalizeLines rest
  | '\r' :: rest => '\n' :: normalizeLines rest
  | c :: rest => c :: normalizeLines rest

end PropertySets.Xml
