/-!
# Checksums

The checksum of a file is the SHA-256 digest of its bytes, written as sixty-four lower-case
hexadecimal digits; a report shows the first twelve.

* `Checksum.ofBytes` — the checksum of some bytes.
* `Checksum.short` — the digits shown in a report.
-/

namespace PropertySets

namespace Sha256

/-- The first thirty-two bits of the fractional parts of the cube roots of the first sixty-four
primes. -/
def roundConstants : List UInt32 := [
  0x428a2f98, 0x71374491, 0xb5c0fbcf, 0xe9b5dba5, 0x3956c25b, 0x59f111f1, 0x923f82a4, 0xab1c5ed5,
  0xd807aa98, 0x12835b01, 0x243185be, 0x550c7dc3, 0x72be5d74, 0x80deb1fe, 0x9bdc06a7, 0xc19bf174,
  0xe49b69c1, 0xefbe4786, 0x0fc19dc6, 0x240ca1cc, 0x2de92c6f, 0x4a7484aa, 0x5cb0a9dc, 0x76f988da,
  0x983e5152, 0xa831c66d, 0xb00327c8, 0xbf597fc7, 0xc6e00bf3, 0xd5a79147, 0x06ca6351, 0x14292967,
  0x27b70a85, 0x2e1b2138, 0x4d2c6dfc, 0x53380d13, 0x650a7354, 0x766a0abb, 0x81c2c92e, 0x92722c85,
  0xa2bfe8a1, 0xa81a664b, 0xc24b8b70, 0xc76c51a3, 0xd192e819, 0xd6990624, 0xf40e3585, 0x106aa070,
  0x19a4c116, 0x1e376c08, 0x2748774c, 0x34b0bcb5, 0x391c0cb3, 0x4ed8aa4a, 0x5b9cca4f, 0x682e6ff3,
  0x748f82ee, 0x78a5636f, 0x84c87814, 0x8cc70208, 0x90befffa, 0xa4506ceb, 0xbef9a3f7, 0xc67178f2]

/-- The eight chaining words. -/
structure State where
  (a b c d e f g h : UInt32)
  deriving DecidableEq, Repr

/-- The first thirty-two bits of the fractional parts of the square roots of the first eight
primes. -/
def State.start : State where
  a := 0x6a09e667
  b := 0xbb67ae85
  c := 0x3c6ef372
  d := 0xa54ff53a
  e := 0x510e527f
  f := 0x9b05688c
  g := 0x1f83d9ab
  h := 0x5be0cd19

/-- Rotation to the right by `n` bits. -/
def rotate (x : UInt32) (n : UInt32) : UInt32 := (x >>> n) ||| (x <<< (32 - n))

/-- The message followed by a one bit, zeros up to a multiple of 512 bits and its length in bits. -/
def pad (message : List UInt8) : List UInt8 :=
  let bits := message.length * 8
  -- the mark takes one byte and the size eight: 119 is 55 more than a block
  let zeros := (119 - message.length % 64) % 64
  let size : List UInt8 := (List.range 8).map fun i => UInt8.ofNat (bits >>> (8 * (7 - i)))
  message ++ (0x80 :: List.replicate zeros 0) ++ size

/-- Big-endian words of four bytes. -/
def words : List UInt8 → List UInt32
  | p :: q :: r :: s :: rest =>
    ((p.toUInt32 <<< 24) ||| (q.toUInt32 <<< 16) ||| (r.toUInt32 <<< 8) ||| s.toUInt32) ::
      words rest
  | _ => []

/-- The message schedule of a block, latest word first. -/
def schedule (block : List UInt32) : List UInt32 :=
  (List.range 48).foldl (fun (w : List UInt32) _ =>
    -- word 15 back and word 2 back, counted from the latest
    let x := w.getD 14 0
    let y := w.getD 1 0
    let s0 := rotate x 7 ^^^ rotate x 18 ^^^ (x >>> 3)
    let s1 := rotate y 17 ^^^ rotate y 19 ^^^ (y >>> 10)
    (w.getD 15 0 + s0 + w.getD 6 0 + s1) :: w) block.reverse

/-- One round with its constant and schedule word. -/
def State.round (s : State) (k w : UInt32) : State :=
  let s1 := rotate s.e 6 ^^^ rotate s.e 11 ^^^ rotate s.e 25
  let ch := (s.e &&& s.f) ^^^ (~~~ s.e &&& s.g)
  let t1 := s.h + s1 + ch + k + w
  let s0 := rotate s.a 2 ^^^ rotate s.a 13 ^^^ rotate s.a 22
  let maj := (s.a &&& s.b) ^^^ (s.a &&& s.c) ^^^ (s.b &&& s.c)
  ⟨t1 + (s0 + maj), s.a, s.b, s.c, s.d + t1, s.e, s.f, s.g⟩

/-- The state after one block of sixteen words. -/
def State.compress (s : State) (block : List UInt32) : State :=
  let t := ((roundConstants.zip (schedule block).reverse).foldl (fun t (k, w) => t.round k w) s)
  ⟨s.a + t.a, s.b + t.b, s.c + t.c, s.d + t.d, s.e + t.e, s.f + t.f, s.g + t.g, s.h + t.h⟩

/-- The state after all blocks of sixteen words. -/
def State.absorb (s : State) (ws : List UInt32) : State :=
  if ws.isEmpty then s else (s.compress (ws.take 16)).absorb (ws.drop 16)
termination_by ws.length
decreasing_by
  cases ws with
  | nil => contradiction
  | cons w rest => rw [List.length_drop, List.length_cons]; omega

/-- The eight words of a digest. -/
def State.words (s : State) : List UInt32 := [s.a, s.b, s.c, s.d, s.e, s.f, s.g, s.h]

/-- The digest of a message. -/
def digest (message : List UInt8) : List UInt32 := (State.start.absorb (words (pad message))).words

end Sha256

/-- The SHA-256 digest of a file's bytes, as lower-case hexadecimal digits. -/
structure Checksum where
  digits : String
  deriving DecidableEq, Repr

namespace Checksum

/-- Eight hexadecimal digits of a word. -/
def hexDigits (w : UInt32) : List Char :=
  (List.range 8).map fun i => Nat.digitChar ((w.toNat >>> (4 * (7 - i))) % 16)

/-- The checksum of some bytes. -/
def ofBytes (bytes : ByteArray) : Checksum :=
  ⟨String.ofList ((Sha256.digest bytes.data.toList).flatMap hexDigits)⟩

/-- The first twelve digits. -/
def short (c : Checksum) : String := String.ofList (c.digits.toList.take 12)

end Checksum

end PropertySets
