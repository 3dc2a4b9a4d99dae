import PropertySets.Data.Integer
import PropertySets.Data.Value

/-!
# Dates and times in TOML

A moment is a date, a time of day, or both, and then perhaps its offset from universal time. As
settings have no use for moments they are read as their standard text.

Among values a moment is a table with one reserved key. A table that is written with this key in
front is a moment too: the one that the text under the key denotes.

* `readMoment` — a moment.
* `Moment.text` — its standard text.
* `Moment.toValue`, `settle` — moments among values, and values without them.
-/

namespace PropertySets.Data.Toml

/-- A day of the calendar. -/
structure Day where
  year : Nat
  month : Nat
  day : Nat
  deriving DecidableEq, Repr

/-- A time of day; `fraction` holds the digits of the fraction of the second. -/
structure Clock where
  hour : Nat
  minute : Nat
  second : Nat
  fraction : List Char
  deriving DecidableEq, Repr

/-- The distance from universal time. -/
inductive Offset where
  | none
  | universal
  | minutes (n : Int)
  deriving DecidableEq, Repr

/-- A date, a time, or both. -/
structure Moment where
  day? : Option Day
  clock? : Option Clock
  offset : Offset
  deriving DecidableEq, Repr

/-! ## Text -/

/-- A number with at least `width` digits. -/
def padded (width n : Nat) : String :=
  let digits := Nat.toDigits 10 n
  String.ofList (List.replicate (width - digits.length) '0' ++ digits)

/-- The standard text of a day. -/
def Day.text (d : Day) : String :=
  padded 4 d.year ++ "-" ++ padded 2 d.month ++ "-" ++ padded 2 d.day

/-- The standard text of a time: nine places of the fraction at most, and no zeros at its end. -/
def Clock.text (c : Clock) : String :=
  let places := ((c.fraction.take 9).reverse.dropWhile (· == '0')).reverse
  padded 2 c.hour ++ ":" ++ padded 2 c.minute ++ ":" ++ padded 2 c.second ++
    (if places.isEmpty then "" else "." ++ String.ofList places)

/-- The standard text of an offset. -/
def Offset.text : Offset → String
  | none => ""
  | universal => "Z"
  | minutes n =>
    (if n < 0 then "-" else "+") ++ padded 2 (n.natAbs / 60) ++ ":" ++ padded 2 (n.natAbs % 60)

/-- The standard text of a moment. -/
def Moment.text (m : Moment) : String :=
  ((m.day?.map Day.text).getD "") ++ (if m.day?.isSome && m.clock?.isSome then "T" else "") ++
    ((m.clock?.map Clock.text).getD "") ++ m.offset.text

/-! ## Reading -/

/-- Two digits with a value in a range, and what follows. -/
def readPair (low high : Nat) (s : List Char) : Option (Nat × List Char) :=
  match s with
  | a :: b :: rest => do
    let n ← Integer.readDigits? [a, b]
    if low ≤ n ∧ n ≤ high then return (n, rest) else none
  | _ => none

/-- What follows a given character. -/
def skip (c : Char) (s : List Char) : Option (List Char) :=
  match s with
  | d :: rest => if d = c then some rest else none
  | [] => none

/-- The number of days of a month. -/
def monthLength (year month : Nat) : Nat :=
  if month = 2 then
    if year % 4 = 0 ∧ (year % 100 ≠ 0 ∨ year % 400 = 0) then 29 else 28
  else if month = 4 ∨ month = 6 ∨ month = 9 ∨ month = 11 then 30
  else 31

/-- A day, and what follows. -/
def readDay (s : List Char) : Option (Day × List Char) := do
  let (century, s) ← readPair 0 99 s
  let (years, s) ← readPair 0 99 s
  let year := century * 100 + years
  let (month, s) ← readPair 1 12 (← skip '-' s)
  let (day, s) ← readPair 1 (monthLength year month) (← skip '-' s)
  return (⟨year, month, day⟩, s)

/-- A time, and what follows. -/
def readClock (s : List Char) : Option (Clock × List Char) := do
  let (hour, s) ← readPair 0 23 s
  let (minute, s) ← readPair 0 59 (← skip ':' s)
  let (second, s) ← readPair 0 60 (← skip ':' s)
  match s with
  | '.' :: rest =>
    let fraction := rest.takeWhile Char.isDigit
    if fraction.isEmpty then none
    else return (⟨hour, minute, second, fraction⟩, rest.drop fraction.length)
  | _ => return (⟨hour, minute, second, []⟩, s)

/-- An offset, which may be missing, and what follows. -/
def readOffset (s : List Char) : Option (Offset × List Char) :=
  match s with
  | [] => some (.none, [])
  | c :: rest =>
    if c = 'Z' ∨ c = 'z' then some (.universal, rest)
    else if c = '+' ∨ c = '-' then do
      let (hours, rest) ← readPair 0 23 rest
      let (minutes, rest) ← readPair 0 59 (← skip ':' rest)
      let total : Int := hours * 60 + minutes
      return (.minutes (if c = '-' then -total else total), rest)
    else some (.none, s)

/-- A moment, and what follows. Between date and time stands a `T` or one blank. -/
def readMoment (s : List Char) : Option (Moment × List Char) :=
  match readDay s with
  | none => (readClock s).map fun (clock, rest) => (⟨none, some clock, .none⟩, rest)
  | some (day, []) => some (⟨some day, none, .none⟩, [])
  | some (day, c :: rest) =>
    if c = 'T' ∨ c = 't' ∨ c = ' ' then
      match readClock rest with
      | none => some (⟨some day, none, .none⟩, c :: rest)
      | some (clock, rest) => do
        let (offset, rest) ← readOffset rest
        return (⟨some day, some clock, offset⟩, rest)
    else some (⟨some day, none, .none⟩, c :: rest)

/-! ## Moments among values -/

/-- The reserved key. -/
def momentKey : String := "$__toml_private_datetime"

/-- The table that a moment is among values. -/
def Moment.toValue (m : Moment) : Value := .table [(momentKey, .text m.text)]

/-- The moment that stands under the reserved key. -/
def momentOf? : Value → Option Moment
  | .text s =>
    match readMoment s.toList with
    | some (m, []) => some m
    | _ => none
  | _ => none

mutual

/-- The value with every moment replaced by its standard text, unless something else stands under
the reserved key of a moment. -/
def settle : Value → Option Value
  | .list items => (settleItems items).map .list
  | .table ((key, v) :: fields) =>
    -- other fields of a moment do not count
    if key = momentKey then (momentOf? v).map fun m => .text m.text
    else do return .table ((key, ← settle v) :: (← settleFields fields))
  | v => some v

/-- The items of a list without moments. -/
def settleItems : List Value → Option (List Value)
  | [] => some []
  | item :: items => do return (← settle item) :: (← settleItems items)

/-- The fields of a table without moments. -/
def settleFields : List (String × Value) → Option (List (String × Value))
  | [] => some []
  | (key, v) :: fields => do return (key, ← settle v) :: (← settleFields fields)

end

end PropertySets.Data.Toml
