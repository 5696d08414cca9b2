/-!
A reproducible source of random words: the keystream of the ChaCha cipher with twelve rounds, zero nonce
and a block counter from zero. Its key of two hundred and fifty-six bits is drawn, or stretched from a seed
of sixty-four bits. The source is its key and the number of words already taken, so what it yields next is a
function of these two.
-/

namespace CloudTerminal.Random

/-- The word turned left by `n` bits, `n` between 1 and 31. -/
def rotateLeft (word n : UInt32) : UInt32 := (word <<< n) ||| (word >>> (32 - n))

/-- Adds, mixes and turns four words of the block. -/
def quarterRound (w : Vector UInt32 16) (a b c d : Fin 16) : Vector UInt32 16 :=
  let w := w.set a (w[a] + w[b])
  let w := w.set d (rotateLeft (w[d] ^^^ w[a]) 16)
  let w := w.set c (w[c] + w[d])
  let w := w.set b (rotateLeft (w[b] ^^^ w[c]) 12)
  let w := w.set a (w[a] + w[b])
  let w := w.set d (rotateLeft (w[d] ^^^ w[a]) 8)
  let w := w.set c (w[c] + w[d])
  w.set b (rotateLeft (w[b] ^^^ w[c]) 7)

/-- Two rounds: the columns of the block, then its diagonals. -/
def doubleRound (w : Vector UInt32 16) : Vector UInt32 16 :=
  let w := quarterRound w 0 4 8 12
  let w := quarterRound w 1 5 9 13
  let w := quarterRound w 2 6 10 14
  let w := quarterRound w 3 7 11 15
  let w := quarterRound w 0 5 10 15
  let w := quarterRound w 1 6 11 12
  let w := quarterRound w 2 7 8 13
  quarterRound w 3 4 9 14

/-- The sixteen words of the block with the given number. -/
def block (key : Vector UInt32 8) (number : Nat) : Vector UInt32 16 :=
  let input : Vector UInt32 16 :=
    #v[0x61707865, 0x3320646e, 0x79622d32, 0x6b206574, key[0], key[1], key[2], key[3], key[4], key[5],
      key[6], key[7], number.toUInt32, (number / UInt32.size).toUInt32, 0, 0]
  let mixed := (List.range 6).foldl (fun w _ => doubleRound w) input
  Vector.zipWith (· + ·) mixed input

/-- One step of the generator that stretches a seed, modulo `2 ^ 64`. -/
def stretch (state : UInt64) : UInt64 := state * 6364136223846793005 + 11634580027462260723

/-- The key word read off a state of the stretching generator. -/
def keyWord (state : UInt64) : UInt32 :=
  let x := (((state >>> 18) ^^^ state) >>> 27).toUInt32
  let turn := (state >>> 59).toUInt32
  (x >>> turn) ||| (x <<< ((32 - turn) % 32))

/-- The key of a seed: one word for each of eight steps. -/
def keyOfSeed (seed : UInt64) : Vector UInt32 8 :=
  .ofFn fun position => keyWord (Nat.repeat stretch (position + 1) seed)

/-- The word of some bytes, the least significant byte first. -/
def wordOfBytes (bytes : List UInt8) : UInt32 := bytes.foldr (fun byte word => word * 256 + byte.toUInt32) 0

/-- A source of random words: a key, and the number of words taken so far. -/
structure Source where
  key : Vector UInt32 8
  taken : Nat := 0
  deriving DecidableEq

namespace Source

/-- `StdRng::seed_from_u64`: the source that a seed starts. -/
def ofSeed (seed : UInt64) : Source := { key := keyOfSeed seed }

/-- A numeral stands for the source that it starts as a seed. -/
instance (n : Nat) : OfNat Source n where
  ofNat := .ofSeed (.ofNat n)

/-- The word at a position of the stream. -/
def wordAt (source : Source) (position : Nat) : UInt32 :=
  (block source.key (position / 16))[position % 16]

/-- The next `count` words, and the source after them. -/
def words (count : Nat) (source : Source) : List UInt32 × Source :=
  ((List.range count).map fun i => source.wordAt (source.taken + i),
    { source with taken := source.taken + count })

/-- The next number below `2 ^ 64`, whose lower half is taken first. -/
def next64 (source : Source) : Nat × Source :=
  ((source.wordAt source.taken).toNat + UInt32.size * (source.wordAt (source.taken + 1)).toNat,
    { source with taken := source.taken + 2 })

/-- The next thirty-two bytes, each word giving its least significant byte first. -/
def next32Bytes (source : Source) : List UInt8 × Source :=
  let (taken, rest) := source.words 8
  (taken.flatMap fun (w : UInt32) =>
    [w.toUInt8, (w >>> 8).toUInt8, (w >>> 16).toUInt8, (w >>> 24).toUInt8], rest)

theorem length_next32Bytes (source : Source) : source.next32Bytes.1.length = 32 := by
  simp only [next32Bytes, words, List.length_flatMap, List.map_map]
  rfl

end Source

end CloudTerminal.Random
