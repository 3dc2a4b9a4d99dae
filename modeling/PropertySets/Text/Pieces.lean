/-!
# Cutting text into pieces

* `stripStart?` — what follows a given start.
* `cutAt?` — the two sides of the first occurrence of a separator.
* `splitAt` — the pieces between single-character separators.
* `erase` — a text without the occurrences of a pattern, found from left to right.
-/

namespace PropertySets.Text

/-- What follows `start` in `s`, if `s` begins with it. -/
def stripStart? : List Char → List Char → Option (List Char)
  | [], s => some s
  | _ :: _, [] => none
  | p :: ps, c :: cs => if p = c then stripStart? ps cs else none

/-- What precedes and what follows the first occurrence of `separator`. -/
def cutAt? (separator : List Char) : List Char → Option (List Char × List Char)
  | [] => if separator.isEmpty then some ([], []) else none
  | c :: cs =>
    match stripStart? separator (c :: cs) with
    | some rest => some ([], rest)
    | none => (cutAt? separator cs).map fun (left, right) => (c :: left, right)

/-- The pieces between the occurrences of one character; there is always at least one piece. -/
def splitAt (separator : Char) : List Char → List (List Char)
  | [] => [[]]
  | c :: cs =>
    if c = separator then [] :: splitAt separator cs
    else match splitAt separator cs with
      | [] => [[c]]
      | piece :: pieces => (c :: piece) :: pieces

/-- Drop every occurrence of `pattern`, looking for the next one behind the last. -/
def erase (pattern : List Char) : List Char → List Char
  | [] => []
  | c :: cs =>
    if pattern.isPrefixOf (c :: cs) then erase pattern (cs.drop (pattern.length - 1))
    else c :: erase pattern cs
termination_by s => s.length
decreasing_by
  · rw [List.length_drop, List.length_cons]
    omega
  · rw [List.length_cons]
    omega

theorem stripStart?_eq_some_iff {start s rest : List Char} :
    stripStart? start s = some rest ↔ s = start ++ rest := by
  induction start generalizing s with
  | nil => simp [stripStart?]
  | cons p ps ih =>
    cases s with
    | nil => simp [stripStart?]
    | cons c cs =>
      by_cases h : p = c
      · simp [stripStart?, h, ih]
      · simp [stripStart?, h, Ne.symm h]

theorem splitAt_ne_nil (separator : Char) (s : List Char) : splitAt separator s ≠ [] := by
  cases s with
  | nil => simp [splitAt]
  | cons c cs =>
    unfold splitAt
    split
    · simp
    · split <;> simp

theorem cutAt?_eq_some {separator s left right : List Char}
    (h : cutAt? separator s = some (left, right)) : s = left ++ separator ++ right := by
  induction s generalizing left with
  | nil =>
    cases separator with
    | nil => simp [cutAt?] at h; simp [h]
    | cons p ps => simp [cutAt?] at h
  | cons c cs ih =>
    unfold cutAt? at h
    -- the separator starts here, or it is found further on
    split at h
    · rename_i rest found
      obtain ⟨rfl, rfl⟩ : [] = left ∧ rest = right := by simpa using h
      simpa using stripStart?_eq_some_iff.1 found
    · simp only [Option.map_eq_some_iff, Prod.exists, Prod.mk.injEq] at h
      obtain ⟨l, r, found, rfl, rfl⟩ := h
      simp [ih found]

/-- Characters behind a text that is made of characters. -/
theorem eq_ofList_append {s : String} {left : List Char} (h : s = String.ofList left)
    (right : List Char) : s ++ String.ofList right = String.ofList (left ++ right) := by
  rw [h, String.ofList_append]

end PropertySets.Text
