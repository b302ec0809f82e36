import ClassCensus.Text.Quoted

/-!
# ClassCensus.Digest.Sha256

The SHA-256 digest of an octet sequence: padding to whole blocks, the message schedule, and
sixty-four rounds over eight words for every block.
-/

namespace ClassCensus
namespace Sha256

def roundConstants : List UInt32 :=
  [0x428a2f98, 0x71374491, 0xb5c0fbcf, 0xe9b5dba5, 0x3956c25b, 0x59f111f1, 0x923f82a4, 0xab1c5ed5,
  0xd807aa98, 0x12835b01, 0x243185be, 0x550c7dc3, 0x72be5d74, 0x80deb1fe, 0x9bdc06a7, 0xc19bf174,
  0xe49b69c1, 0xefbe4786, 0x0fc19dc6, 0x240ca1cc, 0x2de92c6f, 0x4a7484aa, 0x5cb0a9dc, 0x76f988da,
  0x983e5152, 0xa831c66d, 0xb00327c8, 0xbf597fc7, 0xc6e00bf3, 0xd5a79147, 0x06ca6351, 0x14292967,
  0x27b70a85, 0x2e1b2138, 0x4d2c6dfc, 0x53380d13, 0x650a7354, 0x766a0abb, 0x81c2c92e, 0x92722c85,
  0xa2bfe8a1, 0xa81a664b, 0xc24b8b70, 0xc76c51a3, 0xd192e819, 0xd6990624, 0xf40e3585, 0x106aa070,
  0x19a4c116, 0x1e376c08, 0x2748774c, 0x34b0bcb5, 0x391c0cb3, 0x4ed8aa4a, 0x5b9cca4f, 0x682e6ff3,
  0x748f82ee, 0x78a5636f, 0x84c87814, 0x8cc70208, 0x90befffa, 0xa4506ceb, 0xbef9a3f7, 0xc67178f2]

structure State where
  a : UInt32
  b : UInt32
  c : UInt32
  d : UInt32
  e : UInt32
  f : UInt32
  g : UInt32
  h : UInt32

def seed : State :=
  ⟨0x6a09e667, 0xbb67ae85, 0x3c6ef372, 0xa54ff53a, 0x510e527f, 0x9b05688c, 0x1f83d9ab, 0x5be0cd19⟩

def rotate (x : UInt32) (n : UInt32) : UInt32 := (x >>> n) ||| (x <<< (32 - n))

def round (s : State) (constant word : UInt32) : State :=
  let mix1 := rotate s.e 6 ^^^ rotate s.e 11 ^^^ rotate s.e 25
  let choice := (s.e &&& s.f) ^^^ ((~~~s.e) &&& s.g)
  let t1 := s.h + mix1 + choice + constant + word
  let mix0 := rotate s.a 2 ^^^ rotate s.a 13 ^^^ rotate s.a 22
  let majority := (s.a &&& s.b) ^^^ (s.a &&& s.c) ^^^ (s.b &&& s.c)
  ⟨t1 + (mix0 + majority), s.a, s.b, s.c, s.d + t1, s.e, s.f, s.g⟩

def State.add (s t : State) : State :=
  ⟨s.a + t.a, s.b + t.b, s.c + t.c, s.d + t.d, s.e + t.e, s.f + t.f, s.g + t.g, s.h + t.h⟩

/-- The next word of the schedule, from the sixteen words before it, the latest first. -/
def nextWord (latest : List UInt32) : UInt32 :=
  let word (i : Nat) : UInt32 := latest.getD i 0
  let w2 := word 1
  let w15 := word 14
  let spread0 := rotate w15 7 ^^^ rotate w15 18 ^^^ (w15 >>> 3)
  let spread1 := rotate w2 17 ^^^ rotate w2 19 ^^^ (w2 >>> 10)
  word 15 + spread0 + word 6 + spread1

/-- Extends a schedule, held latest first, by `n` words. -/
def extend : (n : Nat) → List UInt32 → List UInt32
  | 0, ws => ws
  | n + 1, ws => extend n (nextWord ws :: ws)

/-- The big-endian words of a block. -/
def words : List UInt8 → List UInt32
  | a :: b :: c :: d :: rest =>
    (a.toUInt32 <<< 24 ||| b.toUInt32 <<< 16 ||| c.toUInt32 <<< 8 ||| d.toUInt32) :: words rest
  | _ => []

def compress (s : State) (block : List UInt8) : State :=
  let schedule := (extend 48 (words block).reverse).reverse
  s.add ((roundConstants.zip schedule).foldl (fun t kw => round t kw.1 kw.2) s)

/-- The `n` low octets of a number, most significant first. -/
def bigEndian (n x : Nat) : List UInt8 :=
  (List.range n).reverse.map fun i => (x / Nat.pow 256 i % 256).toUInt8

/-- A one bit, zeros up to a whole block less eight octets, and the length in bits. -/
def pad (octets : List UInt8) : List UInt8 :=
  let zeros := (119 - octets.length % 64) % 64
  octets ++ 0x80 :: List.replicate zeros 0 ++ bigEndian 8 (octets.length * 8)

/-- Takes `blocks` blocks of a padded message into the state. -/
def absorb : (blocks : Nat) → State → List UInt8 → State
  | 0, s, _ => s
  | blocks + 1, s, octets => absorb blocks (compress s (octets.take 64)) (octets.drop 64)

/-- The digest in lower-case hexadecimal digits. -/
def hex (octets : List UInt8) : Text :=
  let padded := pad octets
  let s := absorb (padded.length / 64) seed padded
  [s.a, s.b, s.c, s.d, s.e, s.f, s.g, s.h].flatMap fun w => Text.hexWidth 8 w.toNat

end Sha256
end ClassCensus
