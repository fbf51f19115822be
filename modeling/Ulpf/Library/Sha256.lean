import Mathlib.Data.List.Basic

/-!
# SHA-256

The digest function of FIPS 180-4 on byte strings, executable in the kernel.
-/

namespace Ulpf.Library.Sha256

def roundConstants : List UInt32 :=
  [0x428a2f98, 0x71374491, 0xb5c0fbcf, 0xe9b5dba5, 0x3956c25b, 0x59f111f1, 0x923f82a4, 0xab1c5ed5,
   0xd807aa98, 0x12835b01, 0x243185be, 0x550c7dc3, 0x72be5d74, 0x80deb1fe, 0x9bdc06a7, 0xc19bf174,
   0xe49b69c1, 0xefbe4786, 0x0fc19dc6, 0x240ca1cc, 0x2de92c6f, 0x4a7484aa, 0x5cb0a9dc, 0x76f988da,
   0x983e5152, 0xa831c66d, 0xb00327c8, 0xbf597fc7, 0xc6e00bf3, 0xd5a79147, 0x06ca6351, 0x14292967,
   0x27b70a85, 0x2e1b2138, 0x4d2c6dfc, 0x53380d13, 0x650a7354, 0x766a0abb, 0x81c2c92e, 0x92722c85,
   0xa2bfe8a1, 0xa81a664b, 0xc24b8b70, 0xc76c51a3, 0xd192e819, 0xd6990624, 0xf40e3585, 0x106aa070,
   0x19a4c116, 0x1e376c08, 0x2748774c, 0x34b0bcb5, 0x391c0cb3, 0x4ed8aa4a, 0x5b9cca4f, 0x682e6ff3,
   0x748f82ee, 0x78a5636f, 0x84c87814, 0x8cc70208, 0x90befffa, 0xa4506ceb, 0xbef9a3f7, 0xc67178f2]

structure Words where
  a : UInt32
  b : UInt32
  c : UInt32
  d : UInt32
  e : UInt32
  f : UInt32
  g : UInt32
  h : UInt32

def initial : Words :=
  ⟨0x6a09e667, 0xbb67ae85, 0x3c6ef372, 0xa54ff53a, 0x510e527f, 0x9b05688c, 0x1f83d9ab, 0x5be0cd19⟩

def rotr (x n : UInt32) : UInt32 := (x >>> n) ||| (x <<< (32 - n))

def round (s : Words) (kw : UInt32) : Words :=
  let t1 := s.h + (rotr s.e 6 ^^^ rotr s.e 11 ^^^ rotr s.e 25) +
    ((s.e &&& s.f) ^^^ (~~~s.e &&& s.g)) + kw
  let t2 := (rotr s.a 2 ^^^ rotr s.a 13 ^^^ rotr s.a 22) +
    ((s.a &&& s.b) ^^^ (s.a &&& s.c) ^^^ (s.b &&& s.c))
  ⟨t1 + t2, s.a, s.b, s.c, s.d + t1, s.e, s.f, s.g⟩

/-- The rounds, over a window of the next sixteen schedule words. -/
def rounds (s : Words) : List UInt32 → List UInt32 → Words
  | [], _ => s
  | _ :: _, [] => s
  | k :: ks, w :: ws =>
    let w1 := ws.getD 0 0
    let w9 := ws.getD 8 0
    let w14 := ws.getD 13 0
    let next := (rotr w14 17 ^^^ rotr w14 19 ^^^ (w14 >>> 10)) + w9 +
      (rotr w1 7 ^^^ rotr w1 18 ^^^ (w1 >>> 3)) + w
    rounds (round s (k + w)) ks (ws ++ [next])

def blockWords : List UInt8 → List UInt32
  | a :: b :: c :: d :: rest =>
    ((a.toUInt32 <<< 24) ||| (b.toUInt32 <<< 16) ||| (c.toUInt32 <<< 8) ||| d.toUInt32) ::
      blockWords rest
  | _ => []

def compress (s : Words) (block : List UInt8) : Words :=
  let t := rounds s roundConstants (blockWords block)
  ⟨s.a + t.a, s.b + t.b, s.c + t.c, s.d + t.d, s.e + t.e, s.f + t.f, s.g + t.g, s.h + t.h⟩

/-- Compresses the first `count` blocks of 64 bytes. -/
def compressAll (s : Words) : ℕ → List UInt8 → Words
  | 0, _ => s
  | count + 1, bs => compressAll (compress s (bs.take 64)) count (bs.drop 64)

def bigEndian (n : ℕ) : ℕ → List UInt8
  | 0 => []
  | width + 1 => UInt8.ofNat (n >>> (8 * width)) :: bigEndian n width

def pad (bs : List UInt8) : List UInt8 :=
  bs ++ [0x80] ++ List.replicate ((119 - bs.length % 64) % 64) 0 ++ bigEndian (8 * bs.length) 8

def Words.bytes (s : Words) : List UInt8 :=
  [s.a, s.b, s.c, s.d, s.e, s.f, s.g, s.h].flatMap fun x => bigEndian x.toNat 4

def digest (bs : List UInt8) : List UInt8 :=
  let padded := pad bs
  (compressAll initial (padded.length / 64) padded).bytes

lemma length_bigEndian (n width : ℕ) : (bigEndian n width).length = width := by
  induction width with
  | zero => rfl
  | succ width ih => rw [bigEndian, List.length_cons, ih]

lemma length_digest (bs : List UInt8) : (digest bs).length = 32 := by
  simp [digest, Words.bytes, length_bigEndian]

end Ulpf.Library.Sha256
