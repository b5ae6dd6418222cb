import Mathlib.Algebra.GroupWithZero.Nat
import Mathlib.Data.List.Basic
import Mathlib.Logic.Function.Iterate

/-!
# SHA-256

`hashlib.sha256(octets).digest()`. A word is a number below 2^32, an octet one below 256.

The message is padded to whole blocks, each block is extended to 64 words, and the words are mixed
into the state one after the other. That every function works on numbers below its bound is kept
by taking remainders where the standard wraps around; `digest_lt` is all the rest of the
development asks for, besides that the digest is a function of the octets.
-/

namespace Sha256

/-- The fractional parts of the cube roots of the first sixty-four primes. -/
def roundConstants : List ℕ :=
  [ 0x428a2f98, 0x71374491, 0xb5c0fbcf, 0xe9b5dba5, 0x3956c25b, 0x59f111f1, 0x923f82a4, 0xab1c5ed5,
    0xd807aa98, 0x12835b01, 0x243185be, 0x550c7dc3, 0x72be5d74, 0x80deb1fe, 0x9bdc06a7, 0xc19bf174,
    0xe49b69c1, 0xefbe4786, 0x0fc19dc6, 0x240ca1cc, 0x2de92c6f, 0x4a7484aa, 0x5cb0a9dc, 0x76f988da,
    0x983e5152, 0xa831c66d, 0xb00327c8, 0xbf597fc7, 0xc6e00bf3, 0xd5a79147, 0x06ca6351, 0x14292967,
    0x27b70a85, 0x2e1b2138, 0x4d2c6dfc, 0x53380d13, 0x650a7354, 0x766a0abb, 0x81c2c92e, 0x92722c85,
    0xa2bfe8a1, 0xa81a664b, 0xc24b8b70, 0xc76c51a3, 0xd192e819, 0xd6990624, 0xf40e3585, 0x106aa070,
    0x19a4c116, 0x1e376c08, 0x2748774c, 0x34b0bcb5, 0x391c0cb3, 0x4ed8aa4a, 0x5b9cca4f, 0x682e6ff3,
    0x748f82ee, 0x78a5636f, 0x84c87814, 0x8cc70208, 0x90befffa, 0xa4506ceb, 0xbef9a3f7, 0xc67178f2 ]

/-- The fractional parts of the square roots of the first eight primes. -/
def initial : List ℕ :=
  [ 0x6a09e667, 0xbb67ae85, 0x3c6ef372, 0xa54ff53a, 0x510e527f, 0x9b05688c, 0x1f83d9ab, 0x5be0cd19 ]

/-- A word turned right by `n` places. -/
def rotr (n x : ℕ) : ℕ := (x >>> n ||| x <<< (32 - n)) % 2 ^ 32

/-- The message behind its padding: a one bit, zeros up to a full block, and the length in bits. -/
def pad (message : List ℕ) : List ℕ :=
  message ++ 0x80 :: List.replicate ((119 - message.length % 64) % 64) 0 ++
    (List.range 8).map fun i ↦ 8 * message.length / 256 ^ (7 - i) % 256

/-- The big-endian words of octets. -/
def words : List ℕ → List ℕ
  | a :: b :: c :: d :: rest => (a * 2 ^ 24 + b * 2 ^ 16 + c * 2 ^ 8 + d) :: words rest
  | _ => []

/-- The octets of a word. -/
def octets (word : ℕ) : List ℕ :=
  [word / 2 ^ 24 % 256, word / 2 ^ 16 % 256, word / 2 ^ 8 % 256, word % 256]

/-- One more word of the message schedule. -/
def extend (schedule : List ℕ) : List ℕ :=
  let word (back : ℕ) := schedule.getD (schedule.length - back) 0
  let s₀ := rotr 7 (word 15) ^^^ rotr 18 (word 15) ^^^ word 15 >>> 3
  let s₁ := rotr 17 (word 2) ^^^ rotr 19 (word 2) ^^^ word 2 >>> 10
  schedule ++ [(word 16 + s₀ + word 7 + s₁) % 2 ^ 32]

/-- The eight working words. -/
structure Working where
  (a b c d e f g h : ℕ)

/-- A round of the compression, with the sum of its constant and its schedule word. -/
def round (w : Working) (k : ℕ) : Working :=
  let s₁ := rotr 6 w.e ^^^ rotr 11 w.e ^^^ rotr 25 w.e
  let choice := (w.e &&& w.f) ^^^ ((2 ^ 32 - 1 - w.e) &&& w.g)
  let temp₁ := w.h + s₁ + choice + k
  let s₀ := rotr 2 w.a ^^^ rotr 13 w.a ^^^ rotr 22 w.a
  let majority := (w.a &&& w.b) ^^^ (w.a &&& w.c) ^^^ (w.b &&& w.c)
  { a := (temp₁ + s₀ + majority) % 2 ^ 32, b := w.a, c := w.b, d := w.c,
    e := (w.d + temp₁) % 2 ^ 32, f := w.e, g := w.f, h := w.g }

/-- The hash of the blocks before this one, with this one taken in. -/
def compress (hash block : List ℕ) : List ℕ :=
  let schedule := extend^[48] (words block)
  let start : Working := ⟨hash.getD 0 0, hash.getD 1 0, hash.getD 2 0, hash.getD 3 0,
    hash.getD 4 0, hash.getD 5 0, hash.getD 6 0, hash.getD 7 0⟩
  let w := (List.zipWith (· + ·) roundConstants schedule).foldl round start
  List.zipWith (fun x y ↦ (x + y) % 2 ^ 32) hash [w.a, w.b, w.c, w.d, w.e, w.f, w.g, w.h]

/-- The digest. -/
def digest (message : List ℕ) : List ℕ :=
  let padded := pad message
  ((List.range (padded.length / 64)).foldl
    (fun hash i ↦ compress hash ((padded.drop (64 * i)).take 64)) initial).flatMap octets

theorem digest_lt (message : List ℕ) : ∀ b ∈ digest message, b < 256 := by
  intro b hb
  obtain ⟨word, -, hb⟩ := List.mem_flatMap.1 hb
  simp only [octets, List.mem_cons, List.not_mem_nil, or_false] at hb
  omega

/-- The digest of `b"abc"`. -/
example : digest [97, 98, 99] =
    [0xba, 0x78, 0x16, 0xbf, 0x8f, 0x01, 0xcf, 0xea, 0x41, 0x41, 0x40, 0xde,
    0x5d, 0xae, 0x22, 0x23, 0xb0, 0x03, 0x61, 0xa3, 0x96, 0x17, 0x7a, 0x9c,
    0xb4, 0x10, 0xff, 0x61, 0xf2, 0x00, 0x15, 0xad] := by
  decide +kernel

end Sha256
