import PropertySets.Data.Real
import PropertySets.Data.Value

/-!
# Numbers in TOML

Digits may be separated by single underscores. An integer has to fit into 64 bits; with a mark in
front (`0x`, `0o`, `0b`) it is written in another base and without a sign. A real number has a
fraction or an exponent, or is written `inf` or `nan`.

* `readNumber` — a number.
-/

namespace PropertySets.Data.Toml

/-- Digits without the underscores between them, and what follows; none when no digit is there. -/
def readRun (isDigit : Char → Bool) : List Char → Option (List Char × List Char)
  | [] => none
  | c :: rest =>
    if isDigit c then
      match rest with
      | '_' :: rest => (readRun isDigit rest).map fun (digits, tail) => (c :: digits, tail)
      | rest =>
        match readRun isDigit rest with
        | some (digits, tail) => some (c :: digits, tail)
        | none => some ([c], rest)
    else none

/-- Decimal digits: a zero stands alone. -/
def readDecimal (s : List Char) : Option (List Char × List Char) :=
  match s with
  | '0' :: rest => some (['0'], rest)
  | s => readRun Char.isDigit s

/-- Is a character a digit of a base of at most sixteen? -/
def isDigitOf (base : Nat) (c : Char) : Bool := (Text.hexValue? c).any fun d => decide (d < base)

/-- An integer that fits into 64 bits. -/
def integer? (n : Int) : Option Value := if Integer.fits n then some (.integer n) else none

/-- An integer written in another base, its mark being read already, and what follows. -/
def readBased (base : Nat) (s : List Char) : Option (Value × List Char) := do
  let (digits, rest) ← readRun (isDigitOf base) s
  return (← integer? (Integer.ofDigits base digits), rest)

/-- The digits of a fraction and what follows; no digits when there is no point. -/
def readPlaces (s : List Char) : Option (List Char × List Char) :=
  match s with
  | '.' :: rest => readRun Char.isDigit rest
  | s => some ([], s)

/-- An exponent, which may be missing, and what follows. -/
def readPower (s : List Char) : Option (Option Int × List Char) :=
  match s with
  | [] => some (none, [])
  | c :: rest =>
    if c = 'e' ∨ c = 'E' then do
      let (negative, rest) := Real.readSign rest
      let (digits, rest) ← readRun Char.isDigit rest
      let value : Int := Integer.ofDigits 10 digits
      return (some (if negative then -value else value), rest)
    else some (none, s)

/-- A decimal number behind its sign, and what follows. -/
def readUnsigned (negative : Bool) (s : List Char) : Option (Value × List Char) := do
  let (digits, s) ← readDecimal s
  let (places, s) ← readPlaces s
  let (power?, s) ← readPower s
  if places.isEmpty && power?.isNone then
    let magnitude : Int := Integer.ofDigits 10 digits
    return (← integer? (if negative then -magnitude else magnitude), s)
  let x := Real.ofDecimal negative (Integer.ofDigits 10 (digits ++ places))
    (power?.getD 0 - (places.length : Int))
  if x.isInf && !negative then none
  return (.real x, s)

/-- A number, and what follows. -/
def readNumber (s : List Char) : Option (Value × List Char) :=
  match s with
  | '0' :: 'x' :: rest => readBased 16 rest
  | '0' :: 'o' :: rest => readBased 8 rest
  | '0' :: 'b' :: rest => readBased 2 rest
  | s =>
    let (negative, rest) := Real.readSign s
    match rest with
    | 'i' :: 'n' :: 'f' :: rest => some (.real (if negative then -1.0 / 0.0 else 1.0 / 0.0), rest)
    | 'n' :: 'a' :: 'n' :: rest => some (.real (0.0 / 0.0), rest)
    | rest => readUnsigned negative rest

end PropertySets.Data.Toml
