/-!
# Reading UTF-8

A text file holds bytes; reading it as text fails at the first byte that no UTF-8 text can have at
its place, or at its end when the last character is cut short. A fault names the byte position at
which the faulty sequence starts and, unless the text just ends, how many bytes of it are out of
place together.

* `decode` — the text of some bytes, or the fault.
* `decodeLossy` — the text of some bytes, faulty sequences being replaced.
* `decode_toUTF8` — the bytes of a text decode to that text.
-/

namespace PropertySets.Text.Utf8

/-- Why bytes are no UTF-8 text. -/
inductive Fault where
  /-- A sequence of `length` bytes at `index` cannot be continued by the byte after it. -/
  | invalid (index length : Nat)
  /-- The text ends inside the sequence that starts at `index`. -/
  | incomplete (index : Nat)
  deriving DecidableEq, Repr

/-- The wording of a fault. -/
def Fault.message : Fault → String
  | .invalid index length =>
    "invalid utf-8 sequence of " ++ toString length ++ " bytes from index " ++ toString index
  | .incomplete index => "incomplete utf-8 byte sequence from index " ++ toString index

/-- The least and greatest byte for each place after a leading byte; none if no sequence starts
with it. -/
def continuations (lead : UInt8) : Option (List (UInt8 × UInt8)) :=
  let tail : UInt8 × UInt8 := (0x80, 0xBF)
  if lead < 0x80 then some []
  else if lead < 0xC2 then none
  else if lead < 0xE0 then some [tail]
  else if lead = 0xE0 then some [(0xA0, 0xBF), tail]
  else if lead = 0xED then some [(0x80, 0x9F), tail]
  else if lead < 0xF0 then some [tail, tail]
  else if lead = 0xF0 then some [(0x90, 0xBF), tail, tail]
  else if lead < 0xF4 then some [tail, tail, tail]
  else if lead = 0xF4 then some [(0x80, 0x8F), tail, tail]
  else none

/-- The first fault of the remaining bytes: `start` is where the current sequence starts, `seen`
how many of its bytes are read, `pending` what its next bytes may be. -/
def faultFrom (start seen : Nat) (pending : List (UInt8 × UInt8)) : List UInt8 → Option Fault
  | [] => if pending.isEmpty then none else some (.incomplete start)
  | b :: rest =>
    match pending with
    | [] =>
      match continuations b with
      | none => some (.invalid (start + seen) 1)
      | some places => faultFrom (start + seen) 1 places rest
    | (least, greatest) :: places =>
      if least ≤ b ∧ b ≤ greatest then faultFrom start (seen + 1) places rest
      else some (.invalid start seen)

/-- The text that some bytes encode. -/
def decode (bytes : ByteArray) : Except Fault String :=
  match String.fromUTF8? bytes with
  | some text => .ok text
  | none => .error ((faultFrom 0 0 [] bytes.data.toList).getD (.incomplete bytes.size))

/-- The bytes of the replacement character. -/
def replacement : List UInt8 := [0xEF, 0xBF, 0xBD]

/-- The remaining bytes with each faulty sequence replaced: `seen` is what is read of the current
sequence, latest byte first, and `pending` what its next bytes may be. -/
def repairFrom (seen : List UInt8) (pending : List (UInt8 × UInt8)) : List UInt8 → List UInt8
  | [] => if pending.isEmpty then seen.reverse else replacement
  | b :: rest =>
    let restart : List UInt8 :=
      match continuations b with
      | none => replacement ++ repairFrom [] [] rest
      | some places => repairFrom [b] places rest
    match pending with
    | [] => seen.reverse ++ restart
    | (least, greatest) :: places =>
      if least ≤ b ∧ b ≤ greatest then repairFrom (b :: seen) places rest
      else replacement ++ restart

/-- The text that some bytes encode, with a replacement character for each faulty sequence. -/
def decodeLossy (bytes : ByteArray) : String :=
  match String.fromUTF8? bytes with
  | some text => text
  | none => (String.fromUTF8? ⟨(repairFrom [] [] bytes.data.toList).toArray⟩).getD ""

theorem decode_toUTF8 (s : String) : decode s.toUTF8 = .ok s := by
  simp [decode, String.fromUTF8?, String.fromUTF8, String.toUTF8, s.isValidUTF8]

end PropertySets.Text.Utf8
