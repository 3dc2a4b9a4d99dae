import PropertySets.Text.Alphanumeric
import PropertySets.Text.CaseMap

/-!
# Snake case

A name in capitalized words or with separators becomes small words joined by underscores. Runs of
separators count as one, a run of capitals stays together up to its last letter when a small
letter follows (`IFCFooBar` becomes `ifc_foo_bar`), and a leading digit gets an underscore before
it so that the result can start an identifier.
-/

namespace PropertySets.Naming

open Text

/-- May a word separator follow `out`, the output so far with its last character first? -/
def separable (out : List Char) : Bool :=
  match out with
  | [] => false
  | c :: _ => c != '_'

/-- Does a new word start at `c`, between `before` and `rest`? -/
def startsWord (before : Option Char) (c : Char) (rest : List Char) : Bool :=
  isUppercase c &&
    match before with
    | none => false
    | some p => isLowercase p || p.isDigit || (isUppercase p && rest.head?.any isLowercase)

/-- The words of the remaining characters in front of `out`, last character first; `before` is the
character just read. -/
def snakeFrom (before : Option Char) (out : List Char) : List Char → List Char
  | [] => out
  | c :: rest =>
    if isAlphanumeric c then
      -- no underscore at the start, and no two in a row
      let start := startsWord before c rest && separable out
      snakeFrom (some c) ((lowerChar c).reverse ++ if start then '_' :: out else out) rest
    else snakeFrom (some c) (if separable out then '_' :: out else out) rest

/-- An underscore in front of a leading ASCII digit. -/
def guardDigit (s : List Char) : List Char :=
  match s with
  | c :: _ => if c.isDigit then '_' :: s else s
  | [] => []

/-- The snake case of a name. -/
def snakeCase (s : String) : String :=
  String.ofList (guardDigit ((snakeFrom none [] s.toList).dropWhile (· == '_')).reverse)

end PropertySets.Naming
