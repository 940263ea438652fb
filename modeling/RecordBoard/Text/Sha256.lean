import RecordBoard.Text.Utf8

/-!
# SHA-256

The digest under which secrets are compared. A message is padded to whole blocks of sixty-four
octets; each block is sixteen words, which are stretched to sixty-four on the way: a window of
sixteen words moves along, and each round uses the first word of the window and puts a new one
behind the last.
-/

namespace RecordBoard.Sha256

/-- The eight words that a digest is made of. -/
structure Registers where
  a : UInt32
  b : UInt32
  c : UInt32
  d : UInt32
  e : UInt32
  f : UInt32
  g : UInt32
  h : UInt32

/-- The words before the first block. -/
def initial : Registers :=
  ⟨0x6a09e667, 0xbb67ae85, 0x3c6ef372, 0xa54ff53a, 0x510e527f, 0x9b05688c, 0x1f83d9ab, 0x5be0cd19⟩

/-- The constants of the rounds. -/
def constants : List UInt32 :=
  [0x428a2f98, 0x71374491, 0xb5c0fbcf, 0xe9b5dba5, 0x3956c25b, 0x59f111f1, 0x923f82a4, 0xab1c5ed5,
   0xd807aa98, 0x12835b01, 0x243185be, 0x550c7dc3, 0x72be5d74, 0x80deb1fe, 0x9bdc06a7, 0xc19bf174,
   0xe49b69c1, 0xefbe4786, 0x0fc19dc6, 0x240ca1cc, 0x2de92c6f, 0x4a7484aa, 0x5cb0a9dc, 0x76f988da,
   0x983e5152, 0xa831c66d, 0xb00327c8, 0xbf597fc7, 0xc6e00bf3, 0xd5a79147, 0x06ca6351, 0x14292967,
   0x27b70a85, 0x2e1b2138, 0x4d2c6dfc, 0x53380d13, 0x650a7354, 0x766a0abb, 0x81c2c92e, 0x92722c85,
   0xa2bfe8a1, 0xa81a664b, 0xc24b8b70, 0xc76c51a3, 0xd192e819, 0xd6990624, 0xf40e3585, 0x106aa070,
   0x19a4c116, 0x1e376c08, 0x2748774c, 0x34b0bcb5, 0x391c0cb3, 0x4ed8aa4a, 0x5b9cca4f, 0x682e6ff3,
   0x748f82ee, 0x78a5636f, 0x84c87814, 0x8cc70208, 0x90befffa, 0xa4506ceb, 0xbef9a3f7, 0xc67178f2]

/-- A word turned to the right. -/
def rotate (x : UInt32) (n : UInt32) : UInt32 := (x >>> n) ||| (x <<< (32 - n))

/-- The word behind a window of sixteen. -/
def nextWord (window : List UInt32) : UInt32 :=
  let w₁ := window.getD 1 0
  let w₁₄ := window.getD 14 0
  let s₀ := rotate w₁ 7 ^^^ rotate w₁ 18 ^^^ (w₁ >>> 3)
  let s₁ := rotate w₁₄ 17 ^^^ rotate w₁₄ 19 ^^^ (w₁₄ >>> 10)
  window.getD 0 0 + s₀ + window.getD 9 0 + s₁

/-- One round, with its constant and its word. -/
def mix (r : Registers) (constant word : UInt32) : Registers :=
  let s₁ := rotate r.e 6 ^^^ rotate r.e 11 ^^^ rotate r.e 25
  let choice := (r.e &&& r.f) ^^^ (~~~r.e &&& r.g)
  let t₁ := r.h + s₁ + choice + constant + word
  let s₀ := rotate r.a 2 ^^^ rotate r.a 13 ^^^ rotate r.a 22
  let majority := (r.a &&& r.b) ^^^ (r.a &&& r.c) ^^^ (r.b &&& r.c)
  let t₂ := s₀ + majority
  ⟨t₁ + t₂, r.a, r.b, r.c, r.d + t₁, r.e, r.f, r.g⟩

/-- The rounds of one block, one for each constant. -/
def rounds (r : Registers) (window : List UInt32) : List UInt32 → Registers
  | [] => r
  | constant :: rest =>
    rounds (mix r constant (window.getD 0 0)) (window.drop 1 ++ [nextWord window]) rest

/-- The words that octets spell, four octets each. -/
def words : Bytes → List UInt32
  | a :: b :: c :: d :: rest =>
    ((a.toUInt32 <<< 24) ||| (b.toUInt32 <<< 16) ||| (c.toUInt32 <<< 8) ||| d.toUInt32) :: words
      rest
  | _ => []

/-- The words after one more block. -/
def compress (r : Registers) (block : Bytes) : Registers :=
  let s := rounds r (words block) constants
  ⟨r.a + s.a, r.b + s.b, r.c + s.c, r.d + s.d, r.e + s.e, r.f + s.f, r.g + s.g, r.h + s.h⟩

/-- The octets of a number, `count` of them, the highest first. -/
def bigEndian (count n : Nat) : Bytes :=
  (List.range count).map fun i => UInt8.ofNat (n >>> (8 * (count - 1 - i)))

/-- A message filled up to whole blocks: a mark, zeros, and the number of its bits. -/
def padded (message : Bytes) : Bytes :=
  message ++ 0x80 :: List.replicate ((119 - message.length % 64) % 64) 0 ++
    bigEndian 8 (message.length * 8)

/-- The digest of a message. -/
def digest (message : Bytes) : Bytes :=
  let text := padded message
  let r := (List.range (text.length / 64)).foldl
    (fun r i => compress r ((text.drop (64 * i)).take 64)) initial
  [r.a, r.b, r.c, r.d, r.e, r.f, r.g, r.h].flatMap fun w => bigEndian 4 w.toNat

end RecordBoard.Sha256
