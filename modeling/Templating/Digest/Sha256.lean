import Templating.Text.Hex

/-!
# SHA-256

The digest of FIPS 180-4 over a byte list, written as 64 hexadecimal digits. The constants are
not listed but computed from their rule: the first 32 bits of the fractional parts of the square
and cube roots of the first primes.
-/

namespace Templating.Digest.Sha256

/-- The greatest `r` below `2 ^ bits` with `r ^ power ≤ n`, found bit by bit from the top. -/
def rootBits (power n : Nat) : (bits : Nat) → Nat
  | 0 => 0
  | bits + 1 =>
    go bits (if (Nat.pow 2 bits).pow power ≤ n then Nat.pow 2 bits else 0)
where
  go : Nat → Nat → Nat
    | 0, r => r
    | bit + 1, r => go bit (if (r + Nat.pow 2 bit).pow power ≤ n then r + Nat.pow 2 bit else r)

/-- The first 32 bits of the fractional part of the root of `n`. -/
def fraction (power n : Nat) : UInt32 :=
  (rootBits power (n * Nat.pow 2 (32 * power)) 40).toUInt32

def isPrime (n : Nat) : Bool :=
  2 ≤ n && (List.range n).all fun d => d < 2 || n % d != 0

def primes : List Nat := (List.range 312).filter isPrime

/-- One word per round, from the cube roots of the primes. -/
def roundConstants : List UInt32 := primes.map (fraction 3)

/-- The eight words a digest is made of. -/
structure State where
  a : UInt32
  b : UInt32
  c : UInt32
  d : UInt32
  e : UInt32
  f : UInt32
  g : UInt32
  h : UInt32

/-- The start of every digest, from the square roots of the first eight primes. -/
def State.initial : State where
  a := fraction 2 2
  b := fraction 2 3
  c := fraction 2 5
  d := fraction 2 7
  e := fraction 2 11
  f := fraction 2 13
  g := fraction 2 17
  h := fraction 2 19

def rotateRight (x : UInt32) (n : UInt32) : UInt32 := (x >>> n) ||| (x <<< (32 - n))

/-- The next word of the schedule after the last sixteen, oldest first. -/
def nextWord (window : List UInt32) : UInt32 :=
  let w := fun i => window.getD i 0
  let s0 := rotateRight (w 1) 7 ^^^ rotateRight (w 1) 18 ^^^ (w 1 >>> 3)
  let s1 := rotateRight (w 14) 17 ^^^ rotateRight (w 14) 19 ^^^ (w 14 >>> 10)
  w 0 + s0 + w 9 + s1

/-- The message schedule: the sixteen words of a block and those that follow from them. -/
def schedule : (count : Nat) → (window : List UInt32) → List UInt32
  | 0, _ => []
  | count + 1, window => window.getD 0 0 :: schedule count (window.drop 1 ++ [nextWord window])

def State.round (s : State) (constant word : UInt32) : State :=
  let choice := (s.e &&& s.f) ^^^ (~~~s.e &&& s.g)
  let majority := (s.a &&& s.b) ^^^ (s.a &&& s.c) ^^^ (s.b &&& s.c)
  let big0 := rotateRight s.a 2 ^^^ rotateRight s.a 13 ^^^ rotateRight s.a 22
  let big1 := rotateRight s.e 6 ^^^ rotateRight s.e 11 ^^^ rotateRight s.e 25
  let t1 := s.h + big1 + choice + constant + word
  { a := t1 + big0 + majority, b := s.a, c := s.b, d := s.c, e := s.d + t1, f := s.e, g := s.f,
    h := s.g }

def State.add (s t : State) : State where
  a := s.a + t.a
  b := s.b + t.b
  c := s.c + t.c
  d := s.d + t.d
  e := s.e + t.e
  f := s.f + t.f
  g := s.g + t.g
  h := s.h + t.h

def State.absorb (s : State) (block : List UInt32) : State :=
  s.add ((roundConstants.zip (schedule 64 block)).foldl (fun s (k, w) => s.round k w) s)

def State.words (s : State) : List UInt32 := [s.a, s.b, s.c, s.d, s.e, s.f, s.g, s.h]

/-- The message with a one bit, zeros and its length in bits, a whole number of blocks. -/
def pad (bytes : List UInt8) : List UInt8 :=
  let zeros := (119 - bytes.length % 64) % 64
  let bits := bytes.length * 8
  bytes ++ 0x80 :: List.replicate zeros 0 ++
    (List.range 8).map fun i => (bits / Nat.pow 256 (7 - i)).toUInt8

/-- Big-endian words of four bytes. -/
def words : List UInt8 → List UInt32
  | b0 :: b1 :: b2 :: b3 :: bytes =>
    (b0.toUInt32 <<< 24 ||| b1.toUInt32 <<< 16 ||| b2.toUInt32 <<< 8 ||| b3.toUInt32) :: words bytes
  | _ => []

/-- Absorbs `count` blocks of sixteen words. -/
def absorbBlocks : (count : Nat) → State → List UInt32 → State
  | 0, s, _ => s
  | count + 1, s, ws => absorbBlocks count (s.absorb (ws.take 16)) (ws.drop 16)

def hexDigest (bytes : List UInt8) : String :=
  let ws := words (pad bytes)
  let final := absorbBlocks (ws.length / 16) State.initial ws
  String.join (final.words.map fun w => Text.hex 8 w.toNat)

end Templating.Digest.Sha256
