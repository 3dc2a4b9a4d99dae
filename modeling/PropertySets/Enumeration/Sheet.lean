import PropertySets.Naming.Tokens

/-!
# Enumeration files

The enumerations of one version tag are written into one file: a module named after the tag with
one enumeration after the other. The last variant closes its enumeration instead of taking a
separator.

* `sheetHead`, `sheetBody`, `sheetFoot` — the parts of such a file.
-/

namespace PropertySets.Enumeration

/-- The start of the file of a tag: a notice, and the opening of the module. -/
def sheetHead (tag : String) : String :=
  "// @generated by pset-codegen from IFC psd files. Do not edit.\n" ++
    "// Enumerations for " ++ tag ++ "\n\n" ++
    "#[allow(non_camel_case_types, dead_code)]\n" ++
    "pub mod " ++ Naming.versionModule tag ++ " \x7b\n"

/-- The declarations of an enumeration, a line each. -/
def variantLines : List String → String
  | [] => ""
  | [last] => "        " ++ last ++ "\x7d\n"
  | declaration :: rest => "        " ++ declaration ++ ",\n" ++ variantLines rest

/-- One enumeration. -/
def sheetBody (name : String) (declarations : List String) : String :=
  "\n    #[derive(Debug, Clone, Copy, PartialEq, Eq, Hash)]\n" ++
    "    pub enum " ++ name ++ " \x7b\n" ++ variantLines declarations

/-- The end of a file: the closing of the module. -/
def sheetFoot : String := "\x7d\n"

end PropertySets.Enumeration
