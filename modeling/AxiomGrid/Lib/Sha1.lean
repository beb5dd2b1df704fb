import AxiomGrid.Lib.Sha256

/-!
# SHA-1

The hash of FIPS 180-4 on lists of bytes. A message is padded as for SHA-256.
-/

namespace Sha1

open Sha256 (word ch maj wordBytes pad)

/-- Rotation to the left. -/
def rotl (x n : ℕ) : ℕ := word (x <<< n ||| x >>> (32 - n))

/-- The five working variables. -/
structure Vars where
  a : ℕ
  b : ℕ
  c : ℕ
  d : ℕ
  e : ℕ

/-- The initial hash value. -/
def initial : Vars := ⟨0x67452301, 0xefcdab89, 0x98badcfe, 0x10325476, 0xc3d2e1f0⟩

/-- The function and the constant of round `t`. -/
def mix (t : ℕ) (v : Vars) : ℕ :=
  if t < 20 then ch v.b v.c v.d + 0x5a827999
  else if t < 40 then (v.b ^^^ v.c ^^^ v.d) + 0x6ed9eba1
  else if t < 60 then maj v.b v.c v.d + 0x8f1bbcdc
  else (v.b ^^^ v.c ^^^ v.d) + 0xca62c1d6

/-- Round `t` with its message word. -/
def round (v : Vars) (tw : ℕ × ℕ) : Vars :=
  ⟨word (rotl v.a 5 + mix tw.1 v + v.e + tw.2), v.a, rotl v.b 30, v.c, v.d⟩

/-- The next `n` message words, given the last sixteen, the latest first. -/
def expand : ℕ → List ℕ → List ℕ
  | 0, _ => []
  | n + 1, ws =>
    let w := rotl (ws.getD 2 0 ^^^ ws.getD 7 0 ^^^ ws.getD 13 0 ^^^ ws.getD 15 0) 1
    w :: expand n (w :: ws.take 15)

/-- The compression function on a block of sixteen words. -/
def compress (v : Vars) (block : List ℕ) : Vars :=
  let r := ((List.range 80).zip (block ++ expand 64 block.reverse)).foldl round v
  ⟨word (v.a + r.a), word (v.b + r.b), word (v.c + r.c), word (v.d + r.d), word (v.e + r.e)⟩

/-- Compress the first `n` blocks of sixteen words. -/
def blocks : ℕ → Vars → List ℕ → Vars
  | 0, v, _ => v
  | n + 1, v, ws => blocks n (compress v (ws.take 16)) (ws.drop 16)

end Sha1

/-- `hashlib.sha1(m).digest()`. -/
def sha1 (m : Bytes) : Bytes :=
  let ws := Sha256.pad m
  let v := Sha1.blocks (ws.length / 16) Sha1.initial ws
  [v.a, v.b, v.c, v.d, v.e].flatMap Sha256.wordBytes

example : sha1 [97, 98, 99] =
    [0xa9, 0x99, 0x3e, 0x36, 0x47, 0x06, 0x81, 0x6a, 0xba, 0x3e, 0x25, 0x71, 0x78, 0x50, 0xc2, 0x6c,
      0x9c, 0xd0, 0xd8, 0x9d] := by
  decide +kernel
