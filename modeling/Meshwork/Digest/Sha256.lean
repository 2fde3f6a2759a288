import Meshwork.Text.Hex

/-!
# SHA-256

The digest behind fingerprints and checksums. A message is padded to whole
blocks of 64 bytes (`padded`), each block is expanded to 64 words
(`schedule`), and each word drives one round on a state of eight words.
-/

namespace Meshwork.Sha256

/-- The round constants: the first 32 bits of the fractional parts of the
cube roots of the first 64 primes. -/
def roundConstants : List UInt32 :=
  [0x428a2f98, 0x71374491, 0xb5c0fbcf, 0xe9b5dba5, 0x3956c25b, 0x59f111f1, 0x923f82a4, 0xab1c5ed5,
   0xd807aa98, 0x12835b01, 0x243185be, 0x550c7dc3, 0x72be5d74, 0x80deb1fe, 0x9bdc06a7, 0xc19bf174,
   0xe49b69c1, 0xefbe4786, 0x0fc19dc6, 0x240ca1cc, 0x2de92c6f, 0x4a7484aa, 0x5cb0a9dc, 0x76f988da,
   0x983e5152, 0xa831c66d, 0xb00327c8, 0xbf597fc7, 0xc6e00bf3, 0xd5a79147, 0x06ca6351, 0x14292967,
   0x27b70a85, 0x2e1b2138, 0x4d2c6dfc, 0x53380d13, 0x650a7354, 0x766a0abb, 0x81c2c92e, 0x92722c85,
   0xa2bfe8a1, 0xa81a664b, 0xc24b8b70, 0xc76c51a3, 0xd192e819, 0xd6990624, 0xf40e3585, 0x106aa070,
   0x19a4c116, 0x1e376c08, 0x2748774c, 0x34b0bcb5, 0x391c0cb3, 0x4ed8aa4a, 0x5b9cca4f, 0x682e6ff3,
   0x748f82ee, 0x78a5636f, 0x84c87814, 0x8cc70208, 0x90befffa, 0xa4506ceb, 0xbef9a3f7, 0xc67178f2]

/-- **The chaining state**: eight words. It begins as fixed constants, and every block of the
message is mixed into it. -/
structure State where
  /-- The first word. -/
  a : UInt32
  /-- The second word. -/
  b : UInt32
  /-- The third word. -/
  c : UInt32
  /-- The fourth word. -/
  d : UInt32
  /-- The fifth word. -/
  e : UInt32
  /-- The sixth word. -/
  f : UInt32
  /-- The seventh word. -/
  g : UInt32
  /-- The eighth word. -/
  h : UInt32

/-- The state before the first block: the first 32 bits of the fractional
parts of the square roots of the first eight primes. -/
def State.initial : State :=
  ⟨0x6a09e667, 0xbb67ae85, 0x3c6ef372, 0xa54ff53a, 0x510e527f, 0x9b05688c, 0x1f83d9ab, 0x5be0cd19⟩

/-- The word of a state and that of another, added word by word. -/
def State.add (s t : State) : State :=
  ⟨s.a + t.a, s.b + t.b, s.c + t.c, s.d + t.d, s.e + t.e, s.f + t.f, s.g + t.g, s.h + t.h⟩

/-- The words of a state in order. -/
def State.words (s : State) : List UInt32 := [s.a, s.b, s.c, s.d, s.e, s.f, s.g, s.h]

/-- Rotation to the right by `n` bits, `0 < n < 32`. -/
def rotateRight (x n : UInt32) : UInt32 := (x >>> n) ||| (x <<< (32 - n))

/-! ## Compression

A block goes through 64 rounds. The words of the schedule are computed from the 16 before,
and the result is added to the state that the block started from. -/

/-- One round, with its constant and its word of the schedule. -/
def round (s : State) (constant word : UInt32) : State :=
  let big1 := rotateRight s.e 6 ^^^ rotateRight s.e 11 ^^^ rotateRight s.e 25
  let choice := (s.e &&& s.f) ^^^ ((s.e ^^^ 0xffffffff) &&& s.g)
  let t1 := s.h + big1 + choice + constant + word
  let big0 := rotateRight s.a 2 ^^^ rotateRight s.a 13 ^^^ rotateRight s.a 22
  let majority := (s.a &&& s.b) ^^^ (s.a &&& s.c) ^^^ (s.b &&& s.c)
  ⟨t1 + (big0 + majority), s.a, s.b, s.c, s.d + t1, s.e, s.f, s.g⟩

/-- The next word of the schedule, from the words before it. -/
def nextWord (words : Array UInt32) : UInt32 :=
  let back (n : Nat) : UInt32 := words.getD (words.size - n) 0
  let small0 :=
    rotateRight (back 15) 7 ^^^ rotateRight (back 15) 18 ^^^ (back 15 >>> 3)
  let small1 :=
    rotateRight (back 2) 17 ^^^ rotateRight (back 2) 19 ^^^ (back 2 >>> 10)
  back 16 + small0 + back 7 + small1

/-- **The schedule of a block**: its 16 words and 48 more. Each of the new words is made from four
of those before it. -/
def schedule (block : Array UInt32) : Array UInt32 :=
  (List.range 48).foldl (fun words _ => words.push (nextWord words)) block

/-- The state after a block. -/
def compress (s : State) (block : Array UInt32) : State :=
  s.add (((roundConstants.zip (schedule block).toList).foldl
    (fun t (constant, word) => round t constant word)) s)

/-- The word of four bytes, the first one most significant. -/
def wordOf (b0 b1 b2 b3 : UInt8) : UInt32 :=
  (b0.toUInt32 <<< 24) ||| (b1.toUInt32 <<< 16) ||| (b2.toUInt32 <<< 8) ||| b3.toUInt32

/-- The bytes of a word, the most significant one first. -/
def bytesOfWord (w : UInt32) : Bytes :=
  [(w >>> 24).toUInt8, (w >>> 16).toUInt8, (w >>> 8).toUInt8, w.toUInt8]

/-! ## Messages

A message of any length is padded to whole blocks in such a way that different messages
have different blocks. -/

/-- What follows a message of `length` bytes: a set bit, zeros, and the
length in bits as eight bytes, up to a whole number of blocks. -/
def padding (length : Nat) : Bytes :=
  let bits := 8 * length
  let zeros : Bytes := List.replicate ((119 - length % 64) % 64) 0
  let size : Bytes := (List.range 8).reverse.map fun i => Nat.toUInt8 (bits >>> (8 * i))
  0x80 :: zeros ++ size

/-- Reads a padded message: `block` holds the words of the current block. -/
def absorb (s : State) (block : Array UInt32) : Bytes → State
  | b0 :: b1 :: b2 :: b3 :: rest =>
    let block := block.push (wordOf b0 b1 b2 b3)
    if block.size = 16 then absorb (compress s block) #[] rest else absorb s block rest
  | _ => s

/-- **The digest of a message**, 32 bytes. The message is filled up to whole blocks, with its
length at the end. -/
def digest (message : Bytes) : Bytes :=
  (absorb .initial #[] (message ++ padding message.length)).words.flatMap bytesOfWord

/-- The digest as hexadecimal text. -/
def hexDigest (message : Bytes) : String := Hex.encode (digest message)

end Meshwork.Sha256
