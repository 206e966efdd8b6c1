/-
The SHA-256 digest.

A message is padded to whole blocks of 64 octets.  Each block is stretched to 64 words, which are
mixed one by one into a state of eight words.

* `Sha256.digest` — the 32 octets of the digest;
* `Sha256.hexDigest` — the digest as 64 hexadecimal digits.
-/
import Rollout.Number.Power
import Rollout.Text.Quoted

namespace Rollout.Sha256

/-- The words added in the rounds. -/
def roundWords : List UInt32 := [
  0x428a2f98, 0x71374491, 0xb5c0fbcf, 0xe9b5dba5, 0x3956c25b, 0x59f111f1, 0x923f82a4,
  0xab1c5ed5, 0xd807aa98, 0x12835b01, 0x243185be, 0x550c7dc3, 0x72be5d74, 0x80deb1fe,
  0x9bdc06a7, 0xc19bf174, 0xe49b69c1, 0xefbe4786, 0x0fc19dc6, 0x240ca1cc, 0x2de92c6f,
  0x4a7484aa, 0x5cb0a9dc, 0x76f988da, 0x983e5152, 0xa831c66d, 0xb00327c8, 0xbf597fc7,
  0xc6e00bf3, 0xd5a79147, 0x06ca6351, 0x14292967, 0x27b70a85, 0x2e1b2138, 0x4d2c6dfc,
  0x53380d13, 0x650a7354, 0x766a0abb, 0x81c2c92e, 0x92722c85, 0xa2bfe8a1, 0xa81a664b,
  0xc24b8b70, 0xc76c51a3, 0xd192e819, 0xd6990624, 0xf40e3585, 0x106aa070, 0x19a4c116,
  0x1e376c08, 0x2748774c, 0x34b0bcb5, 0x391c0cb3, 0x4ed8aa4a, 0x5b9cca4f, 0x682e6ff3,
  0x748f82ee, 0x78a5636f, 0x84c87814, 0x8cc70208, 0x90befffa, 0xa4506ceb, 0xbef9a3f7, 0xc67178f2]

/-- The state of the computation. -/
structure State where
  a : UInt32
  b : UInt32
  c : UInt32
  d : UInt32
  e : UInt32
  f : UInt32
  g : UInt32
  h : UInt32
deriving DecidableEq, Repr

/-- The state before the first block. -/
def initial : State := ⟨
  0x6a09e667, 0xbb67ae85, 0x3c6ef372, 0xa54ff53a, 0x510e527f, 0x9b05688c, 0x1f83d9ab, 0x5be0cd19⟩

def rotate (w : UInt32) (n : UInt32) : UInt32 := (w >>> n) ||| (w <<< (32 - n))

/-- The octets of a number, the highest first. -/
def octets : Nat → Nat → List UInt8
  | 0, _ => []
  | count + 1, n => UInt8.ofNat (n / twoPow (8 * count)) :: octets count n

/-- A message followed by a one bit, zeros, and its length in bits. -/
def pad (message : List UInt8) : List UInt8 :=
  -- The one bit takes an octet and the length takes eight, which leaves 55 in a block.
  let zeros := (119 - message.length % 64) % 64
  message ++ 0x80 :: List.replicate zeros 0 ++ octets 8 (8 * message.length)

/-- Four octets at a time as words. -/
def toWords : List UInt8 → List UInt32
  | a :: b :: c :: d :: rest =>
    ((a.toUInt32 <<< 24) ||| (b.toUInt32 <<< 16) ||| (c.toUInt32 <<< 8) ||| d.toUInt32)
      :: toWords rest
  | _ => []

/-- The next word of a schedule, given the earlier ones with the latest first. -/
def nextWord (latest : List UInt32) : UInt32 :=
  let w₂ := latest.getD 1 0
  let w₁₅ := latest.getD 14 0
  let low := rotate w₁₅ 7 ^^^ rotate w₁₅ 18 ^^^ (w₁₅ >>> 3)
  let high := rotate w₂ 17 ^^^ rotate w₂ 19 ^^^ (w₂ >>> 10)
  high + latest.getD 6 0 + low + latest.getD 15 0

/-- A schedule, latest word first, with more words added. -/
def stretch : Nat → List UInt32 → List UInt32
  | 0, latest => latest
  | count + 1, latest => stretch count (nextWord latest :: latest)

/-- The 64 words of a block. -/
def schedule (block : List UInt32) : List UInt32 := (stretch 48 block.reverse).reverse

/-- One round: a constant and a word of the schedule mixed into the state. -/
def mix (s : State) (words : UInt32 × UInt32) : State :=
  let sumE := rotate s.e 6 ^^^ rotate s.e 11 ^^^ rotate s.e 25
  let choice := (s.e &&& s.f) ^^^ ((~~~s.e) &&& s.g)
  let first := s.h + sumE + choice + words.1 + words.2
  let sumA := rotate s.a 2 ^^^ rotate s.a 13 ^^^ rotate s.a 22
  let majority := (s.a &&& s.b) ^^^ (s.a &&& s.c) ^^^ (s.b &&& s.c)
  ⟨first + (sumA + majority), s.a, s.b, s.c, s.d + first, s.e, s.f, s.g⟩

/-- One block mixed into the state. -/
def compress (s : State) (block : List UInt32) : State :=
  let t := (roundWords.zip (schedule block)).foldl mix s
  ⟨s.a + t.a, s.b + t.b, s.c + t.c, s.d + t.d, s.e + t.e, s.f + t.f, s.g + t.g, s.h + t.h⟩

/-- A list in pieces of sixteen; `count` is the number of pieces. -/
def blocks : Nat → List UInt32 → List (List UInt32)
  | 0, _ => []
  | count + 1, words => words.take 16 :: blocks count (words.drop 16)

/-- The octets of the state. -/
def State.octets (s : State) : List UInt8 :=
  [s.a, s.b, s.c, s.d, s.e, s.f, s.g, s.h].flatMap fun w => Sha256.octets 4 w.toNat

def digest (message : List UInt8) : List UInt8 :=
  let padded := pad message
  ((blocks (padded.length / 64) (toWords padded)).foldl compress initial).octets

def hexDigest (message : List UInt8) : List Char :=
  (digest message).flatMap fun b => Text.hexText 2 b.toNat

end Rollout.Sha256
