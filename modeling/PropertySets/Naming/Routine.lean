import PropertySets.Fresh
import PropertySets.Naming.Snake
import PropertySets.Text.Pieces

/-!
# Names of routines and variables

Each property set gets a routine and a local variable in the generated module. Both share one
stem: the snake case of the set's name, or that with the first free number behind it when an
earlier set has taken it.

* `freeStem` — the first stem that is not in use (`freeStem_notMem`).
* `NameTable.assign` — names for a list of sets, in generation order.
* `NameTable.find?` — the names of a set; of repeated sets the last one counts.
-/

namespace PropertySets.Naming

open Text

/-- The identifiers of one property set. -/
structure SetNames where
  routine : String
  /-- The local variable that holds the set's description. -/
  localName : String
  deriving DecidableEq, Repr

/-- The identifiers made from a stem. -/
def SetNames.ofStem (stem : String) : SetNames := ⟨"init_pset_" ++ stem, "property_set_" ++ stem⟩

/-- The snake case of a set name, its customary start left out. -/
def baseStem (setName : String) : String :=
  snakeCase (String.ofList ((stripStart? "Pset_".toList setName.toList).getD setName.toList))

/-- `base` with a number behind it. -/
def numbered (base : String) (n : Nat) : String := base ++ "_" ++ toString n

theorem eq_of_numbered_eq {base : String} {i j : Nat} (h : numbered base i = numbered base j) :
    i = j := by
  have digits : (toString i).toList = (toString j).toList := by
    have := congrArg String.toList h
    simpa [numbered, String.toList_append] using this
  have := congrArg (fun cs => Nat.ofDigitChars 10 cs 0)
    (show Nat.toDigits 10 i = Nat.toDigits 10 j by simpa using digits)
  simpa using this

/-- The first of `base`, `base_2`, `base_3`, … that is not in use. -/
def freeStem (used : List String) (base : String) : String :=
  if base ∈ used then fresh used fun k => numbered base (k + 2) else base

theorem freeStem_notMem (used : List String) (base : String) : freeStem used base ∉ used := by
  unfold freeStem
  split
  · exact fresh_notMem fun i j same => by have := eq_of_numbered_eq same; omega
  · assumption

/-- Names assigned so far, latest first. -/
structure NameTable where
  entries : List (String × SetNames)
  /-- The stems in use. -/
  stems : List String
  /-- How many names got a number. -/
  disambiguated : Nat
  deriving Repr

namespace NameTable

/-- No names yet. -/
def empty : NameTable := ⟨[], [], 0⟩

/-- Give a set its names. -/
def add (t : NameTable) (setName : String) : NameTable :=
  let base := baseStem setName
  let stem := freeStem t.stems base
  ⟨(setName, .ofStem stem) :: t.entries, stem :: t.stems,
    if stem = base then t.disambiguated else t.disambiguated + 1⟩

/-- The names of sets in generation order. -/
def assign (setNames : List String) : NameTable := setNames.foldl add empty

/-- The names of a set. -/
def find? (t : NameTable) (setName : String) : Option SetNames := t.entries.lookup setName

end NameTable

end PropertySets.Naming
