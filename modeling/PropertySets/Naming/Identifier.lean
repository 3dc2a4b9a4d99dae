import PropertySets.Text.Ascii

/-!
# Identifiers

An identifier of the generated code is an ASCII letter or underscore followed by letters, digits
and underscores; a module path is one or more identifiers with `::` between them.
-/

namespace PropertySets.Naming

open Text

/-- Letters or an underscore first, then digits too, up to the very end. -/
def isIdentifierChars (s : List Char) : Bool :=
  match s with
  | [] => false
  | c :: rest => (c.isAlpha || c == '_') && rest.all isWordChar

/-- An identifier. -/
def isIdentifier (s : String) : Bool := isIdentifierChars s.toList

/-- The rest of a module path, `name` being the characters of its current segment so far. -/
def isModulePathFrom (name : List Char) : List Char → Bool
  | [] => isIdentifierChars name
  | ':' :: ':' :: rest => isIdentifierChars name && isModulePathFrom [] rest
  | c :: rest => isModulePathFrom (name ++ [c]) rest

/-- A module path. -/
def isModulePath (s : String) : Bool := isModulePathFrom [] s.toList

end PropertySets.Naming
