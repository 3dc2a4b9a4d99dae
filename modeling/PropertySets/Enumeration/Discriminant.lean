import PropertySets.Data.Integer
import PropertySets.Text.Pieces

/-!
# Discriminants

A variant of an enumeration is declared by its name, or by its name and an explicit value
(`_7 = 7`). A variant without a value counts on from the one before it, so it can land on a value
that is taken. The numbering keeps the values of an enumeration distinct: a variant whose value is
taken, or is claimed by an explicit declaration, moves to the next free value.

Values have 64 bits, and counting stays at the greatest of them. A search for a free value that gets
there when it is taken does not end, and neither does the numbering.

* `Variant.ofText` — a declaration taken apart.
* `following` — the value that is counted on with.
* `nextFree?` — the first value above a given one that is not taken, if the search for it ends.
* `assign?` — the declarations to write and the names of the moved variants, if the numbering ends.
-/

namespace PropertySets.Enumeration

/-- The value that a declaration gives to its variant. -/
inductive Written where
  /-- No value is written. -/
  | counted
  /-- A value of the discriminant type. -/
  | value (v : Int)
  /-- Something else is written; the declaration is left alone. -/
  | unreadable
  deriving DecidableEq, Repr

/-- A declaration taken apart at its first ` = `. -/
structure Variant where
  /-- The declaration as it stands. -/
  text : String
  name : String
  written : Written
  deriving DecidableEq, Repr

/-- Take a declaration apart. -/
def Variant.ofText (text : String) : Variant :=
  match Text.cutAt? " = ".toList text.toList with
  | none => ⟨text, text, .counted⟩
  | some (name, value) =>
    match Data.Integer.read? value with
    | some v => ⟨text, String.ofList name, .value v⟩
    | none => ⟨text, String.ofList name, .unreadable⟩

/-- The explicit value of a variant. -/
def Variant.explicit? (v : Variant) : Option Int :=
  match v.written with
  | .value x => some x
  | _ => none

/-- The value of 64 bits that follows a value; nothing follows the greatest, which stays. -/
def following (v : Int) : Int := min (v + 1) 0x7FFFFFFFFFFFFFFF

/-- The first value from `v` on that is not taken, if it comes up within some steps. -/
def firstFreeWithin (taken : List Int) : Nat → Int → Option Int
  | 0, _ => none
  | steps + 1, v => if v ∈ taken then firstFreeWithin taken steps (following v) else some v

/-- The first value above `v` that is not taken. The values that a search tries are different until
it stays at the greatest, so a search that outlasts the values that are taken does not end. -/
def nextFree? (taken : List Int) (v : Int) : Option Int :=
  firstFreeWithin taken (taken.length + 1) (following v)

/-- Declarations with distinct values. -/
structure Numbering where
  declarations : List String
  /-- The names of the variants that were moved. -/
  moved : List String
  deriving DecidableEq, Repr

/-- The declaration of `name` with an explicit value. -/
def declare (name : String) (value : Int) : String := name ++ " = " ++ toString value

/-- Number the remaining variants, if that comes to an end. `explicit` are the values written
anywhere in the enumeration, `used` those given out so far, and `next` is where a variant without a
value counts on. -/
def number? (explicit used : List Int) (next : Int) : List Variant → Option Numbering
  | [] => some ⟨[], []⟩
  | v :: rest =>
    let keep (value : Int) : Option Numbering := do
      let r ← number? explicit (value :: used) (following value) rest
      return ⟨v.text :: r.declarations, r.moved⟩
    let move (value : Int) : Option Numbering := do
      let free ← nextFree? (used ++ explicit) value
      let r ← number? explicit (free :: used) (following free) rest
      return ⟨declare v.name free :: r.declarations, v.name :: r.moved⟩
    -- a declaration that is left alone neither takes a value nor is counted
    match v.written with
    | .unreadable => do
      let r ← number? explicit used next rest
      return ⟨v.text :: r.declarations, r.moved⟩
    | .value x => if x ∈ used then move x else keep x
    | .counted => if next ∈ used ∨ next ∈ explicit then move next else keep next

/-- The declarations of an enumeration, with distinct values, if the numbering ends. -/
def assign? (items : List String) : Option Numbering :=
  let variants := items.map Variant.ofText
  number? (variants.filterMap Variant.explicit?) [] 0 variants

/-- The numbering of an enumeration; one that cannot be numbered is left as it is. -/
def assign (items : List String) : Numbering := (assign? items).getD ⟨items, []⟩

end PropertySets.Enumeration
