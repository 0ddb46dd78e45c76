import Mathlib.Data.List.Basic

/-!
# `SwarmRuntime.Lib.Sha256`: the SHA-256 digest

The hash function on byte strings, word by word: padding, the message schedule of a block, and
the compression of a block into eight words.
-/

set_option autoImplicit false

namespace SwarmRuntime.Lib.Sha256

/-- The round constants. -/
def roundConstants : List UInt32 :=
  [0x428a2f98, 0x71374491, 0xb5c0fbcf, 0xe9b5dba5, 0x3956c25b, 0x59f111f1, 0x923f82a4, 0xab1c5ed5,
   0xd807aa98, 0x12835b01, 0x243185be, 0x550c7dc3, 0x72be5d74, 0x80deb1fe, 0x9bdc06a7, 0xc19bf174,
   0xe49b69c1, 0xefbe4786, 0x0fc19dc6, 0x240ca1cc, 0x2de92c6f, 0x4a7484aa, 0x5cb0a9dc, 0x76f988da,
   0x983e5152, 0xa831c66d, 0xb00327c8, 0xbf597fc7, 0xc6e00bf3, 0xd5a79147, 0x06ca6351, 0x14292967,
   0x27b70a85, 0x2e1b2138, 0x4d2c6dfc, 0x53380d13, 0x650a7354, 0x766a0abb, 0x81c2c92e, 0x92722c85,
   0xa2bfe8a1, 0xa81a664b, 0xc24b8b70, 0xc76c51a3, 0xd192e819, 0xd6990624, 0xf40e3585, 0x106aa070,
   0x19a4c116, 0x1e376c08, 0x2748774c, 0x34b0bcb5, 0x391c0cb3, 0x4ed8aa4a, 0x5b9cca4f, 0x682e6ff3,
   0x748f82ee, 0x78a5636f, 0x84c87814, 0x8cc70208, 0x90befffa, 0xa4506ceb, 0xbef9a3f7, 0xc67178f2]

/-- The eight working words. -/
structure Words where
  a : UInt32
  b : UInt32
  c : UInt32
  d : UInt32
  e : UInt32
  f : UInt32
  g : UInt32
  h : UInt32

/-- The words before the first block. -/
def Words.init : Words :=
  ⟨0x6a09e667, 0xbb67ae85, 0x3c6ef372, 0xa54ff53a, 0x510e527f, 0x9b05688c, 0x1f83d9ab, 0x5be0cd19⟩

/-- Word by word addition. -/
def Words.add (v w : Words) : Words :=
  ⟨v.a + w.a, v.b + w.b, v.c + w.c, v.d + w.d, v.e + w.e, v.f + w.f, v.g + w.g, v.h + w.h⟩

/-- The bytes of a word, highest first. -/
def wordBytes (x : UInt32) : List UInt8 :=
  [(x >>> 24).toUInt8, (x >>> 16).toUInt8, (x >>> 8).toUInt8, x.toUInt8]

/-- The 32 bytes of a digest. -/
def Words.bytes (w : Words) : List UInt8 :=
  [w.a, w.b, w.c, w.d, w.e, w.f, w.g, w.h].flatMap wordBytes

/-- Rotation to the right. -/
def rotr (n : UInt32) (x : UInt32) : UInt32 := (x >>> n) ||| (x <<< (32 - n))

/-- The message, a one bit, zeros up to the last eight bytes of a block, and the length in
bits. -/
def pad (bs : List UInt8) : List UInt8 :=
  let bits := UInt64.ofNat (8 * bs.length)
  let zeros : List UInt8 := List.replicate ((119 - bs.length % 64) % 64) 0
  bs ++ [(0x80 : UInt8)] ++ zeros ++ wordBytes (bits >>> 32).toUInt32 ++ wordBytes bits.toUInt32

/-- The 32-bit words of a byte string, highest byte first. -/
def toWords : List UInt8 → List UInt32
  | b₁ :: b₂ :: b₃ :: b₄ :: bs =>
      (b₁.toUInt32 <<< 24 ||| b₂.toUInt32 <<< 16 ||| b₃.toUInt32 <<< 8 ||| b₄.toUInt32) ::
        toWords bs
  | _ => []

/-- `n` more words of the schedule. `ws` is the schedule so far, newest word first. -/
def extend : Nat → List UInt32 → List UInt32
  | 0, ws => ws
  | n + 1, ws =>
      let x := ws.getD 14 0
      let y := ws.getD 1 0
      let s₀ := rotr 7 x ^^^ rotr 18 x ^^^ (x >>> 3)
      let s₁ := rotr 17 y ^^^ rotr 19 y ^^^ (y >>> 10)
      extend n ((ws.getD 15 0 + s₀ + ws.getD 6 0 + s₁) :: ws)

/-- The 64 words of the schedule of a block of 16 words. -/
def schedule (block : List UInt32) : List UInt32 := (extend 48 block.reverse).reverse

/-- One round, with its constant and its word of the schedule. -/
def round (v : Words) (kw : UInt32 × UInt32) : Words :=
  let s₁ := rotr 6 v.e ^^^ rotr 11 v.e ^^^ rotr 25 v.e
  let ch := (v.e &&& v.f) ^^^ (~~~ v.e &&& v.g)
  let t₁ := v.h + s₁ + ch + kw.1 + kw.2
  let s₀ := rotr 2 v.a ^^^ rotr 13 v.a ^^^ rotr 22 v.a
  let maj := (v.a &&& v.b) ^^^ (v.a &&& v.c) ^^^ (v.b &&& v.c)
  ⟨t₁ + (s₀ + maj), v.a, v.b, v.c, v.d + t₁, v.e, v.f, v.g⟩

/-- One block. -/
def compress (v : Words) (block : List UInt32) : Words :=
  v.add ((roundConstants.zip (schedule block)).foldl round v)

/-- The blocks of a message of `n` blocks, one after another. -/
def compressAll : Nat → Words → List UInt32 → Words
  | 0, v, _ => v
  | n + 1, v, ws => compressAll n (compress v (ws.take 16)) (ws.drop 16)

end SwarmRuntime.Lib.Sha256

namespace SwarmRuntime.Lib

/-- The SHA-256 digest. -/
def sha256 (bs : List UInt8) : List UInt8 :=
  let ws := Sha256.toWords (Sha256.pad bs)
  (Sha256.compressAll (ws.length / 16) Sha256.Words.init ws).bytes

theorem length_sha256 (bs : List UInt8) : (sha256 bs).length = 32 := by
  simp [sha256, Sha256.Words.bytes, Sha256.wordBytes]

/-- The SHA-256 digest, with its width. -/
def sha256Digest (bs : List UInt8) : Vector UInt8 32 :=
  ⟨(sha256 bs).toArray, by rw [List.size_toArray, length_sha256]⟩

/-- The digest of `abc`. -/
example : sha256 [97, 98, 99] =
    [0xba, 0x78, 0x16, 0xbf, 0x8f, 0x01, 0xcf, 0xea, 0x41, 0x41, 0x40, 0xde, 0x5d, 0xae, 0x22, 0x23,
      0xb0, 0x03, 0x61, 0xa3, 0x96, 0x17, 0x7a, 0x9c, 0xb4, 0x10, 0xff, 0x61, 0xf2, 0x00, 0x15,
      0xad] := by
  decide +kernel

end SwarmRuntime.Lib
