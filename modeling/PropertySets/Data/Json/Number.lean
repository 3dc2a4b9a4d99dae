import PropertySets.Data.Real
import PropertySets.Data.Value

/-!
# Numbers in JSON

A number is an optional minus sign and digits, and then perhaps a fraction and an exponent. An
integer of 64 bits stays one. Other integers, the negative zero, and what has a fraction or an
exponent become real numbers, which have to be finite.

The real number need not be the nearest one to the text. The digits are taken as an integer of 64
bits as far as they fit: further digits of the integer count as zeros, further ones of the fraction
are left out. Then the integer is multiplied or divided by a power of ten; it, the power and the
result are rounded one after the other.

* `Decimal` — a number as it is written.
* `Decimal.value?` — the value it has.
* `readNumber` — a number at the start of a text.
-/

namespace PropertySets.Data.Json

/-- A number as it is written. -/
structure Decimal where
  negative : Bool
  /-- The digits of the integer. -/
  whole : List Char
  /-- The digits of the fraction, none if there is no point. -/
  fraction : List Char
  /-- The exponent, if one is written. -/
  exponent? : Option Int
  deriving DecidableEq, Repr

/-! ## Values -/

/-- A significand with digits appended while it fits into 64 bits, and the digits left over. -/
def appendDigits (n : Nat) : List Char → Nat × List Char
  | [] => (n, [])
  | c :: rest =>
    let longer := n * 10 + (Text.hexValue? c).getD 0
    if longer < 0x10000000000000000 then appendDigits longer rest else (n, c :: rest)

/-- The exponent of the greatest power of ten that is finite as a real number. -/
def lastPower : Nat := 308

/-- A power of ten. -/
def powerOfTen (n : Nat) : Float := Float.ofScientific 1 false n

/-- A number times `10 ^ e`, unless it is out of range. A division by more than the greatest power
is done in steps; what is below `2 ^ 64` has become zero after two of them. -/
def scaleFrom (x : Float) (e : Int) : Nat → Option Float
  | 0 => some x
  | steps + 1 =>
    if e.natAbs ≤ lastPower then
      if e < 0 then some (x / powerOfTen e.natAbs)
      else
        let y := x * powerOfTen e.natAbs
        if y.isInf then none else some y
    else if x == 0 then some x
    else if e < 0 then scaleFrom (x / powerOfTen lastPower) (e + lastPower) steps
    else none

/-- `n * 10 ^ e` for a significand of 64 bits, unless it is out of range. -/
def scale (n : Nat) (e : Int) : Option Float := scaleFrom (Float.ofNat n) e 3

/-- The real number that a number stands for, unless it is out of range. -/
def Decimal.real? (d : Decimal) : Option Float :=
  let (start, zeros) := appendDigits 0 d.whole
  let (n, omitted) := appendDigits start d.fraction
  let places : Int := d.fraction.length - omitted.length
  (scale n (zeros.length - places + d.exponent?.getD 0)).map fun x =>
    if d.negative then -x else x

/-- The integer that a number stands for: it has neither fraction nor exponent, fits into 64 bits
and is not the negative zero. -/
def Decimal.integer? (d : Decimal) : Option Int :=
  let magnitude := Integer.ofDigits 10 d.whole
  let n : Int := if d.negative then -(magnitude : Int) else magnitude
  if d.fraction.isEmpty && d.exponent?.isNone && Integer.fits n && !(d.negative && magnitude == 0)
  then some n
  else none

/-- The value of a number, unless it is out of range. -/
def Decimal.value? (d : Decimal) : Option Value :=
  match d.integer? with
  | some n => some (.integer n)
  | none => d.real?.map .real

/-! ## Reading -/

/-- Digits behind a mark, both being optional together, and what follows. -/
def readFraction (s : List Char) : Option (List Char × List Char) :=
  match s with
  | '.' :: rest =>
    let digits := rest.takeWhile Char.isDigit
    if digits.isEmpty then none else some (digits, rest.drop digits.length)
  | _ => some ([], s)

/-- An exponent, which may be missing, and what follows. -/
def readExponent (s : List Char) : Option (Option Int × List Char) :=
  match s with
  | [] => some (none, s)
  | c :: rest =>
    if c = 'e' ∨ c = 'E' then
      let (negative, rest) := Real.readSign rest
      let digits := rest.takeWhile Char.isDigit
      let value : Int := Integer.ofDigits 10 digits
      if digits.isEmpty then none
      else some (some (if negative then -value else value), rest.drop digits.length)
    else some (none, s)

/-- A number as it is written, and what follows. An integer that starts with a zero is zero. -/
def readDecimal (s : List Char) : Option (Decimal × List Char) := do
  let (negative, s) := match s with
    | '-' :: rest => (true, rest)
    | _ => (false, s)
  let whole := s.takeWhile Char.isDigit
  if whole.isEmpty || (whole.head? == some '0' && whole.length != 1) then none
  let (fraction, s) ← readFraction (s.drop whole.length)
  let (exponent?, s) ← readExponent s
  return (⟨negative, whole, fraction, exponent?⟩, s)

/-- A number, and what follows. -/
def readNumber (s : List Char) : Option (Value × List Char) := do
  let (d, rest) ← readDecimal s
  return (← d.value?, rest)

end PropertySets.Data.Json
