/-!
The SHA-256 digest of a list of bytes. The message is padded to whole blocks of sixty-four bytes, each
block is stretched to sixty-four words, and the blocks are folded into a state of eight words.
-/

namespace CloudTerminal.Digest

/-- The complete pieces of `size` elements, in order; a shorter remainder is left out. -/
def pieces {α : Type} (size : Nat) (items : List α) : List (List α) :=
  (List.range (items.length / size)).map fun i => (items.drop (size * i)).take size

/-- The word whose bytes these are, most significant first. -/
def wordOfBytes (bytes : List UInt8) : UInt32 :=
  bytes.foldl (fun word byte => (word <<< 8) ||| byte.toUInt32) 0

/-- The four bytes of a word, most significant first. -/
def bytesOfWord (word : UInt32) : List UInt8 :=
  [(word >>> 24).toUInt8, (word >>> 16).toUInt8, (word >>> 8).toUInt8, word.toUInt8]

/-- The word turned right by `n` bits, `n` between 1 and 31. -/
def rotateRight (word n : UInt32) : UInt32 := (word >>> n) ||| (word <<< (32 - n))

namespace Sha256

/-- The chaining state: eight words. -/
structure State where
  a : UInt32
  b : UInt32
  c : UInt32
  d : UInt32
  e : UInt32
  f : UInt32
  g : UInt32
  h : UInt32

/-- The state before the first block. -/
def initial : State :=
  ⟨0x6a09e667, 0xbb67ae85, 0x3c6ef372, 0xa54ff53a, 0x510e527f, 0x9b05688c, 0x1f83d9ab, 0x5be0cd19⟩

/-- One constant for each of the sixty-four rounds. -/
def roundConstants : List UInt32 :=
  [0x428a2f98, 0x71374491, 0xb5c0fbcf, 0xe9b5dba5, 0x3956c25b, 0x59f111f1, 0x923f82a4, 0xab1c5ed5,
   0xd807aa98, 0x12835b01, 0x243185be, 0x550c7dc3, 0x72be5d74, 0x80deb1fe, 0x9bdc06a7, 0xc19bf174,
   0xe49b69c1, 0xefbe4786, 0x0fc19dc6, 0x240ca1cc, 0x2de92c6f, 0x4a7484aa, 0x5cb0a9dc, 0x76f988da,
   0x983e5152, 0xa831c66d, 0xb00327c8, 0xbf597fc7, 0xc6e00bf3, 0xd5a79147, 0x06ca6351, 0x14292967,
   0x27b70a85, 0x2e1b2138, 0x4d2c6dfc, 0x53380d13, 0x650a7354, 0x766a0abb, 0x81c2c92e, 0x92722c85,
   0xa2bfe8a1, 0xa81a664b, 0xc24b8b70, 0xc76c51a3, 0xd192e819, 0xd6990624, 0xf40e3585, 0x106aa070,
   0x19a4c116, 0x1e376c08, 0x2748774c, 0x34b0bcb5, 0x391c0cb3, 0x4ed8aa4a, 0x5b9cca4f, 0x682e6ff3,
   0x748f82ee, 0x78a5636f, 0x84c87814, 0x8cc70208, 0x90befffa, 0xa4506ceb, 0xbef9a3f7, 0xc67178f2]

/-- The message with a one bit, zeros and its length in bits appended, so that whole blocks result. -/
def pad (message : List UInt8) : List UInt8 :=
  message ++ 0x80 :: List.replicate ((119 - message.length % 64) % 64) 0 ++
    bytesOfWord (8 * message.length / UInt32.size).toUInt32 ++ bytesOfWord (8 * message.length).toUInt32

/-- The next word of a schedule whose words are given latest first. -/
def nextWord (latest : List UInt32) : UInt32 :=
  let two := latest.getD 1 0
  let fifteen := latest.getD 14 0
  let s0 := rotateRight fifteen 7 ^^^ rotateRight fifteen 18 ^^^ (fifteen >>> 3)
  let s1 := rotateRight two 17 ^^^ rotateRight two 19 ^^^ (two >>> 10)
  s1 + latest.getD 6 0 + s0 + latest.getD 15 0

/-- The sixty-four words of a block of sixty-four bytes. -/
def schedule (block : List UInt8) : List UInt32 :=
  let first := ((pieces 4 block).map wordOfBytes).reverse
  ((List.range 48).foldl (fun latest _ => nextWord latest :: latest) first).reverse

/-- One round: mixes a constant and a word of the schedule into the state. -/
def round (s : State) (step : UInt32 × UInt32) : State :=
  let sum1 := rotateRight s.e 6 ^^^ rotateRight s.e 11 ^^^ rotateRight s.e 25
  let choice := (s.e &&& s.f) ^^^ (~~~s.e &&& s.g)
  let sum0 := rotateRight s.a 2 ^^^ rotateRight s.a 13 ^^^ rotateRight s.a 22
  let majority := (s.a &&& s.b) ^^^ (s.a &&& s.c) ^^^ (s.b &&& s.c)
  let t1 := s.h + sum1 + choice + step.1 + step.2
  ⟨t1 + sum0 + majority, s.a, s.b, s.c, s.d + t1, s.e, s.f, s.g⟩

/-- Folds one block into the state. -/
def compress (s : State) (block : List UInt8) : State :=
  let t := (roundConstants.zip (schedule block)).foldl round s
  ⟨s.a + t.a, s.b + t.b, s.c + t.c, s.d + t.d, s.e + t.e, s.f + t.f, s.g + t.g, s.h + t.h⟩

/-- The words of the state in order. -/
def State.words (s : State) : List UInt32 := [s.a, s.b, s.c, s.d, s.e, s.f, s.g, s.h]

end Sha256

/-- The SHA-256 digest of a message. -/
def sha256 (message : List UInt8) : Vector UInt8 32 :=
  let final := (pieces 64 (Sha256.pad message)).foldl Sha256.compress Sha256.initial
  ⟨(final.words.flatMap bytesOfWord).toArray, by simp [Sha256.State.words, bytesOfWord]⟩

/-- The digest of a text's UTF-8 bytes. -/
def ofText (text : String) : Vector UInt8 32 := sha256 text.toUTF8.toList

/-- The byte at a place of a digest, where the places are counted round. -/
def byteAt (digest : Vector UInt8 32) (place : Nat) : UInt8 := digest[place % 32]

/-- The number in two neighbouring bytes of a digest, the first one the more significant. -/
def pairAt (digest : Vector UInt8 32) (place : Nat) : Nat :=
  (byteAt digest place).toNat * 256 + (byteAt digest (place + 1)).toNat

theorem byteAt_of_lt (digest : Vector UInt8 32) {place : Nat} (inside : place < 32) :
    byteAt digest place = digest[place] := by
  simp only [byteAt, Nat.mod_eq_of_lt inside]

end CloudTerminal.Digest
