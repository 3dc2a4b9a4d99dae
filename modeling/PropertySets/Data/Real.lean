import PropertySets.Data.Integer

/-!
# Decimal text of real numbers

A real number is printed in positional notation with the fewest digits that read back to it, and
read from the usual scientific notation.

* `Real.text` — the shortest positional text.
* `Real.read?` — the number a text denotes.
-/

namespace PropertySets.Data.Real

/-- The parts of a finite number: its magnitude is `significand * 2 ^ exponent`. -/
structure Binary where
  negative : Bool
  significand : Nat
  exponent : Int
  /-- Is the number below only half as far away as the one above? -/
  atPower : Bool
  deriving Repr

/-- The parts of a finite number, from its bits: a sign, eleven bits of exponent, and fifty-two of
the fraction. -/
def Binary.ofBits (bits : Nat) : Binary :=
  let fraction : Nat := bits % 0x10000000000000
  let field : Nat := bits / 0x10000000000000 % 0x800
  let negative := bits / 0x8000000000000000 == 1
  if field = 0 then ⟨negative, fraction, -1074, false⟩
  else
    ⟨negative, fraction + 0x10000000000000, (field : Int) - 1075,
      fraction == 0 && decide (1 < field)⟩

/-- The order of `d * 10 ^ e` and `y * 2 ^ q`. -/
def compareScaled (d : Nat) (e : Int) (y : Nat) (q : Int) : Ordering :=
  let left := d * Nat.pow 10 e.toNat * Nat.pow 2 (-q).toNat
  let right := y * Nat.pow 2 q.toNat * Nat.pow 10 (-e).toNat
  compare left right

/-- The number of whole units `10 ^ e` in `y * 2 ^ q`. -/
def wholeUnits (e : Int) (y : Nat) (q : Int) : Nat :=
  (y * Nat.pow 2 q.toNat * Nat.pow 10 (-e).toNat) /
    (Nat.pow 10 e.toNat * Nat.pow 2 (-q).toNat)

/-- A point of the grid `10 ^ e` that rounds to the number, if there is one: of two the nearer, and
the upper one if both are equally near. -/
def gridPoint? (b : Binary) (e : Int) : Option Nat :=
  let q := b.exponent - 2
  -- in quarters of the last place the ends of the interval are whole numbers
  let value := 4 * b.significand
  let low := value - (if b.atPower then 1 else 2)
  let high := value + 2
  let even := b.significand % 2 == 0
  let fits (d : Nat) : Bool :=
    let below := compareScaled d e low q
    let above := compareScaled d e high q
    d != 0 && (below == .gt || (even && below == .eq)) && (above == .lt || (even && above == .eq))
  let d := wholeUnits e value q
  if fits d then
    if fits (d + 1) && compareScaled (2 * d + 1) e (2 * value) q != .gt then some (d + 1)
    else some d
  else if fits (d + 1) then some (d + 1)
  else none

/-- The first grid with a point that rounds to the number, from `10 ^ e` to finer ones. -/
def shortestFrom (b : Binary) (e : Int) : Nat → Nat × Int
  | 0 => (wholeUnits e (4 * b.significand) (b.exponent - 2), e)
  | steps + 1 =>
    match gridPoint? b e with
    | some d => (d, e)
    | none => shortestFrom b (e - 1) steps

/-- The shortest digits of a number that is not zero, and the power of ten they count. -/
def shortest (b : Binary) : Nat × Int :=
  -- log10 2 is just below 30103 / 100000, so the search starts above the number
  let bits : Int := (Nat.log2 b.significand : Int) + 1 + b.exponent
  shortestFrom b (bits * 30103 / 100000 + 1) 20

/-- Digits and a power of ten in positional notation. -/
def positional (digits : Nat) (e : Int) : String :=
  let ds := Nat.toDigits 10 digits
  if 0 ≤ e then String.ofList (ds ++ List.replicate e.toNat '0')
  else
    let places := (-e).toNat
    if places < ds.length then
      String.ofList (ds.take (ds.length - places) ++ '.' :: ds.drop (ds.length - places))
    else String.ofList ('0' :: '.' :: (List.replicate (places - ds.length) '0' ++ ds))

/-- The shortest positional text of a number. -/
def text (x : Float) : String :=
  if x.isNaN then "NaN"
  else if x.isInf then (if x < 0 then "-inf" else "inf")
  else
    let b := Binary.ofBits x.toBits.toNat
    let magnitude :=
      if b.significand = 0 then "0"
      else
        let (digits, e) := shortest b
        positional digits e
    if b.negative then "-" ++ magnitude else magnitude

/-- `digits * 10 ^ e` as a number; far beyond the range of exponents it is infinite or zero. -/
def ofDecimal (negative : Bool) (digits : Nat) (e : Int) : Float :=
  let magnitude : Float :=
    if digits = 0 then 0
    else if 400 < e then 1.0 / 0.0
    else if e < -(400 + (Nat.toDigits 10 digits).length : Int) then 0
    else if 0 ≤ e then Float.ofScientific digits false e.toNat
    else Float.ofScientific digits true (-e).toNat
  if negative then -magnitude else magnitude

/-- A sign, if there is one, and what follows it. -/
def readSign (s : List Char) : Bool × List Char :=
  match s with
  | '-' :: rest => (true, rest)
  | '+' :: rest => (false, rest)
  | rest => (false, rest)

/-- The exponent part at the end of a number; zero when there is none. -/
def readExponent? (s : List Char) : Option Int :=
  match s with
  | [] => some 0
  | c :: rest =>
    if c = 'e' ∨ c = 'E' then
      let (negative, digits) := readSign rest
      let value : Int := Integer.ofDigits 10 digits
      if digits.isEmpty || !digits.all Char.isDigit then none
      else some (if negative then -value else value)
    else none

/-- The number a text denotes: digits with an optional sign, point and exponent, or the name of an
infinity or of the undefined number. -/
def read? (s : List Char) : Option Float :=
  let (negative, rest) := readSign s
  let word := rest.map Char.toLower
  if word = "inf".toList ∨ word = "infinity".toList then
    some (if negative then -1.0 / 0.0 else 1.0 / 0.0)
  else if word = "nan".toList then some (0.0 / 0.0)
  else
    let whole := rest.takeWhile Char.isDigit
    let (part, tail) : List Char × List Char :=
      match rest.dropWhile Char.isDigit with
      | '.' :: more => (more.takeWhile Char.isDigit, more.dropWhile Char.isDigit)
      | more => ([], more)
    if whole.isEmpty && part.isEmpty then none
    else (readExponent? tail).map fun e =>
      ofDecimal negative (Integer.ofDigits 10 (whole ++ part)) (e - (part.length : Int))

end PropertySets.Data.Real
