import PropertySets.Text.Ascii

/-!
# Integers of 64 bits

An integer is read from an optional sign and ASCII digits; it has to fit into 64 bits.

* `Integer.fits` — the integers of 64 bits.
* `Integer.ofDigits` — the value of digits in a base.
* `Integer.read?` — the integer a text denotes.
-/

namespace PropertySets.Data.Integer

/-- Does an integer fit into 64 bits? -/
def fits (n : Int) : Bool := -0x8000000000000000 ≤ n && n < 0x8000000000000000

/-- The value of digits in a base of at most sixteen. -/
def ofDigits (base : Nat) (digits : List Char) : Nat :=
  digits.foldl (fun n c => n * base + (Text.hexValue? c).getD 0) 0

/-- The value of a run of ASCII digits. -/
def readDigits? (s : List Char) : Option Nat :=
  if s.isEmpty || !s.all Char.isDigit then none else some (ofDigits 10 s)

/-- The integer of 64 bits that a text denotes: an optional sign and ASCII digits. -/
def read? (s : List Char) : Option Int :=
  let value? : Option Int :=
    match s with
    | '-' :: digits => (readDigits? digits).map fun n => -(n : Int)
    | '+' :: digits => (readDigits? digits).map fun n => (n : Int)
    | digits => (readDigits? digits).map fun n => (n : Int)
  value?.filter fits

end PropertySets.Data.Integer
