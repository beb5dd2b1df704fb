import Mathlib.Data.List.Nodup
import Mathlib.Data.Nat.Bitwise
import Mathlib.Tactic.Common

/-!
# SHA-256

The hash of FIPS 180-4 on lists of bytes, with 32-bit words as natural numbers. Developments that
hash use only that a digest has 32 bytes. That distinct messages have distinct digests cannot hold of
all messages; `CollisionFree` says it of the messages a computation hashes.
-/

/-- A byte string. -/
abbrev Bytes := List UInt8

namespace Sha256

/-- Words are taken modulo `2 ^ 32`. -/
def word (x : ℕ) : ℕ := x % 4294967296

/-- Rotation to the right. -/
def rotr (x n : ℕ) : ℕ := word (x >>> n ||| x <<< (32 - n))

def bigSigma0 (x : ℕ) : ℕ := rotr x 2 ^^^ rotr x 13 ^^^ rotr x 22
def bigSigma1 (x : ℕ) : ℕ := rotr x 6 ^^^ rotr x 11 ^^^ rotr x 25
def smallSigma0 (x : ℕ) : ℕ := rotr x 7 ^^^ rotr x 18 ^^^ x >>> 3
def smallSigma1 (x : ℕ) : ℕ := rotr x 17 ^^^ rotr x 19 ^^^ x >>> 10
def ch (x y z : ℕ) : ℕ := (x &&& y) ^^^ ((4294967295 - x) &&& z)
def maj (x y z : ℕ) : ℕ := (x &&& y) ^^^ (x &&& z) ^^^ (y &&& z)

/-- The round constants. -/
def roundConstants : List ℕ :=
  [0x428a2f98, 0x71374491, 0xb5c0fbcf, 0xe9b5dba5, 0x3956c25b, 0x59f111f1, 0x923f82a4, 0xab1c5ed5,
    0xd807aa98, 0x12835b01, 0x243185be, 0x550c7dc3, 0x72be5d74, 0x80deb1fe, 0x9bdc06a7, 0xc19bf174,
    0xe49b69c1, 0xefbe4786, 0x0fc19dc6, 0x240ca1cc, 0x2de92c6f, 0x4a7484aa, 0x5cb0a9dc, 0x76f988da,
    0x983e5152, 0xa831c66d, 0xb00327c8, 0xbf597fc7, 0xc6e00bf3, 0xd5a79147, 0x06ca6351, 0x14292967,
    0x27b70a85, 0x2e1b2138, 0x4d2c6dfc, 0x53380d13, 0x650a7354, 0x766a0abb, 0x81c2c92e, 0x92722c85,
    0xa2bfe8a1, 0xa81a664b, 0xc24b8b70, 0xc76c51a3, 0xd192e819, 0xd6990624, 0xf40e3585, 0x106aa070,
    0x19a4c116, 0x1e376c08, 0x2748774c, 0x34b0bcb5, 0x391c0cb3, 0x4ed8aa4a, 0x5b9cca4f, 0x682e6ff3,
    0x748f82ee, 0x78a5636f, 0x84c87814, 0x8cc70208, 0x90befffa, 0xa4506ceb, 0xbef9a3f7, 0xc67178f2]

/-- The eight working variables. -/
structure Vars where
  a : ℕ
  b : ℕ
  c : ℕ
  d : ℕ
  e : ℕ
  f : ℕ
  g : ℕ
  h : ℕ

/-- The initial hash value. -/
def initial : Vars :=
  ⟨0x6a09e667, 0xbb67ae85, 0x3c6ef372, 0xa54ff53a, 0x510e527f, 0x9b05688c, 0x1f83d9ab, 0x5be0cd19⟩

/-- One round, with the sum of round constant and message word. -/
def round (v : Vars) (kw : ℕ) : Vars :=
  let t := v.h + bigSigma1 v.e + ch v.e v.f v.g + kw
  ⟨word (t + (bigSigma0 v.a + maj v.a v.b v.c)), v.a, v.b, v.c, word (v.d + t), v.e, v.f, v.g⟩

/-- The next `n` message words, given the last sixteen, the latest first. -/
def expand : ℕ → List ℕ → List ℕ
  | 0, _ => []
  | n + 1, ws =>
    let w := word (smallSigma1 (ws.getD 1 0) + ws.getD 6 0 + smallSigma0 (ws.getD 14 0) +
      ws.getD 15 0)
    w :: expand n (w :: ws.take 15)

/-- The message schedule of a block of sixteen words. -/
def schedule (block : List ℕ) : List ℕ := block ++ expand 48 block.reverse

/-- The compression function. -/
def compress (v : Vars) (block : List ℕ) : Vars :=
  let r := (List.zipWith (· + ·) roundConstants (schedule block)).foldl round v
  ⟨word (v.a + r.a), word (v.b + r.b), word (v.c + r.c), word (v.d + r.d), word (v.e + r.e),
    word (v.f + r.f), word (v.g + r.g), word (v.h + r.h)⟩

/-- A word as four bytes, most significant first. -/
def wordBytes (x : ℕ) : Bytes :=
  [UInt8.ofNat (x >>> 24), UInt8.ofNat (x >>> 16), UInt8.ofNat (x >>> 8), UInt8.ofNat x]

/-- The words of a byte string. -/
def words : Bytes → List ℕ
  | a :: b :: c :: d :: bs =>
    (a.toNat * 16777216 + b.toNat * 65536 + c.toNat * 256 + d.toNat) :: words bs
  | _ => []

/-- The message followed by `0x80`, zeros, and its length in bits as two words. -/
def pad (m : Bytes) : List ℕ :=
  words (m ++ 0x80 :: List.replicate ((119 - m.length % 64) % 64) 0) ++
    [word (m.length * 8 / 4294967296), word (m.length * 8)]

/-- Compress the first `n` blocks of sixteen words. -/
def blocks : ℕ → Vars → List ℕ → Vars
  | 0, v, _ => v
  | n + 1, v, ws => blocks n (compress v (ws.take 16)) (ws.drop 16)

end Sha256

/-- `hashlib.sha256(m).digest()`. -/
def sha256 (m : Bytes) : Bytes :=
  let ws := Sha256.pad m
  let v := Sha256.blocks (ws.length / 16) Sha256.initial ws
  [v.a, v.b, v.c, v.d, v.e, v.f, v.g, v.h].flatMap Sha256.wordBytes

@[simp] lemma sha256_length (m : Bytes) : (sha256 m).length = 32 := rfl

/-- SHA-256 has no collision among these messages. -/
def CollisionFree (ms : List Bytes) : Prop := ∀ a ∈ ms, ∀ b ∈ ms, sha256 a = sha256 b → a = b

lemma CollisionFree.mono {ms ms' : List Bytes} (h : CollisionFree ms') (hsub : ms ⊆ ms') :
    CollisionFree ms :=
  fun a ha b hb => h a (hsub ha) b (hsub hb)

lemma CollisionFree.of_nodup {ms : List Bytes} (h : (ms.map sha256).Nodup) : CollisionFree ms :=
  fun _ ha _ hb hab => List.inj_on_of_nodup_map h ha hb hab

example : sha256 [97, 98, 99] =
    [0xba, 0x78, 0x16, 0xbf, 0x8f, 0x01, 0xcf, 0xea, 0x41, 0x41, 0x40, 0xde, 0x5d, 0xae, 0x22, 0x23,
      0xb0, 0x03, 0x61, 0xa3, 0x96, 0x17, 0x7a, 0x9c, 0xb4, 0x10, 0xff, 0x61, 0xf2, 0x00, 0x15,
      0xad] := by
  decide +kernel

/-! ### Keyed digests -/

/-- The key of an HMAC as one block: a long key is hashed, a short one padded with zeros. -/
def hmacKey (key : Bytes) : Bytes :=
  let key := if 64 < key.length then sha256 key else key
  key ++ List.replicate (64 - key.length) 0

/-- `hmac.new(key, m, hashlib.sha256).digest()`. -/
def hmacSha256 (key m : Bytes) : Bytes :=
  sha256 ((hmacKey key).map (· ^^^ 0x5c) ++ sha256 ((hmacKey key).map (· ^^^ 0x36) ++ m))

/-- The HMAC under a key has no collision among these messages. -/
def HmacCollisionFree (key : Bytes) (ms : List Bytes) : Prop :=
  ∀ a ∈ ms, ∀ b ∈ ms, hmacSha256 key a = hmacSha256 key b → a = b

example : hmacSha256 (List.replicate 20 0x0b) [0x48, 0x69, 0x20, 0x54, 0x68, 0x65, 0x72, 0x65] =
    [0xb0, 0x34, 0x4c, 0x61, 0xd8, 0xdb, 0x38, 0x53, 0x5c, 0xa8, 0xaf, 0xce, 0xaf, 0x0b, 0xf1, 0x2b,
      0x88, 0x1d, 0xc2, 0x00, 0xc9, 0x83, 0x3d, 0xa7, 0x26, 0xe9, 0x37, 0x6c, 0x2e, 0x32, 0xcf,
      0xf7] := by
  decide +kernel
