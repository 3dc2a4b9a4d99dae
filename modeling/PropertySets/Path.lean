import PropertySets.Text.Pieces

/-!
# Paths

A path is kept as it was spelled; slashes divide it into segments. Empty segments and dots at the
end (`a/`, `a/.`) carry no name, and neither does a final `..`.

* `Path.fileName?`, `Path.stem?`, `Path.extension?` — the name a path ends in and its two parts.
* `Path.parent?` — the spelling of what the name is in.
* `Path.join`, `Path.putExtension`, `Path.withExtension` — paths made from paths.
-/

namespace PropertySets

/-- A path as it is spelled. -/
structure Path where
  text : String
  deriving DecidableEq, Repr, Inhabited

namespace Path

/-- The pieces between the slashes. -/
def segments (p : Path) : List String :=
  (Text.splitAt '/' p.text.toList).map String.ofList

/-- Does the path start at the root directory? -/
def isAbsolute (p : Path) : Bool := p.text.toList.head? == some '/'

/-- A segment that names nothing: what stands between two slashes, or a dot. -/
def isFiller (segment : String) : Bool := segment == "" || segment == "."

/-- The segments, last one first, without the fillers at the end. -/
def significant (p : Path) : List String := p.segments.reverse.dropWhile isFiller

/-- The name that the path ends in. -/
def fileName? (p : Path) : Option String :=
  match p.significant with
  | [] => none
  | name :: _ => if name = ".." then none else some name

/-- The two sides of the last dot of a file name; a name that starts with its only dot is all
stem. -/
def splitName (name : String) : String × Option String :=
  let back := name.toList.reverse
  match back.dropWhile (· ≠ '.') with
  | [] => (name, none)
  | [_] => (name, none)
  | _ :: stem =>
    (String.ofList stem.reverse, some (String.ofList (back.takeWhile (· ≠ '.')).reverse))

/-- The file name without its extension. -/
def stem? (p : Path) : Option String := p.fileName?.map fun name => (splitName name).1

/-- What follows the last dot of the file name. -/
def extension? (p : Path) : Option String := p.fileName?.bind fun name => (splitName name).2

/-- The spelling of `p` without its last segment; none for a root directory and the empty path. -/
def parent? (p : Path) : Option Path :=
  let headDot := p.segments.head? == some "."
  match p.significant with
  | [] => if p.isAbsolute then none else if headDot then some ⟨""⟩ else none
  | _ :: before =>
    match before.dropWhile isFiller with
    | [] =>
      if p.isAbsolute then some ⟨"/"⟩
      else if headDot && !before.isEmpty then some ⟨"."⟩
      else some ⟨""⟩
    | rest => some ⟨"/".intercalate rest.reverse⟩

/-- The path `q` as seen from `p`: `q` itself when it is absolute. -/
def join (p q : Path) : Path :=
  if q.isAbsolute || p.text.isEmpty then q
  else if p.text.toList.getLast? == some '/' then ⟨p.text ++ q.text⟩
  else ⟨p.text ++ "/" ++ q.text⟩

/-- The path with an extension put behind the stem of its file name; a path without a file name is
kept. -/
def putExtension (p : Path) (extension : String) : Path :=
  match p.significant with
  | [] => p
  | name :: before =>
    if name = ".." then p
    else ⟨String.join (before.reverse.map (· ++ "/")) ++ (splitName name).1 ++ "." ++ extension⟩

/-- The path with its extension replaced. As much as the old extension is long is first cut off the
end of the spelling; of `..a` that leaves `..`, which has no file name and is kept. -/
def withExtension (p : Path) (extension : String) : Path :=
  let cut := ((p.extension?).getD "").length
  putExtension ⟨String.ofList (p.text.toList.reverse.drop cut).reverse⟩ extension

end Path

end PropertySets
