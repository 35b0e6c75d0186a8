/-
Module: RepoAtlas.Digest.Sha256
Purpose: The SHA-256 digest of a byte string, by the padding, schedule and rounds of FIPS 180-4.
Main exports: digest
-/

namespace RepoAtlas.Digest.Sha256

/-- The sixty-four round constants. -/
def roundConstants : Array UInt32 := #[
  0x428a2f98, 0x71374491, 0xb5c0fbcf, 0xe9b5dba5, 0x3956c25b, 0x59f111f1, 0x923f82a4, 0xab1c5ed5,
  0xd807aa98, 0x12835b01, 0x243185be, 0x550c7dc3, 0x72be5d74, 0x80deb1fe, 0x9bdc06a7, 0xc19bf174,
  0xe49b69c1, 0xefbe4786, 0x0fc19dc6, 0x240ca1cc, 0x2de92c6f, 0x4a7484aa, 0x5cb0a9dc, 0x76f988da,
  0x983e5152, 0xa831c66d, 0xb00327c8, 0xbf597fc7, 0xc6e00bf3, 0xd5a79147, 0x06ca6351, 0x14292967,
  0x27b70a85, 0x2e1b2138, 0x4d2c6dfc, 0x53380d13, 0x650a7354, 0x766a0abb, 0x81c2c92e, 0x92722c85,
  0xa2bfe8a1, 0xa81a664b, 0xc24b8b70, 0xc76c51a3, 0xd192e819, 0xd6990624, 0xf40e3585, 0x106aa070,
  0x19a4c116, 0x1e376c08, 0x2748774c, 0x34b0bcb5, 0x391c0cb3, 0x4ed8aa4a, 0x5b9cca4f, 0x682e6ff3,
  0x748f82ee, 0x78a5636f, 0x84c87814, 0x8cc70208, 0x90befffa, 0xa4506ceb, 0xbef9a3f7, 0xc67178f2]

/-- The eight working words. -/
structure Words where
  a : UInt32
  b : UInt32
  c : UInt32
  d : UInt32
  e : UInt32
  f : UInt32
  g : UInt32
  h : UInt32

/-- The words before the first block. -/
def initial : Words :=
  ⟨0x6a09e667, 0xbb67ae85, 0x3c6ef372, 0xa54ff53a, 0x510e527f, 0x9b05688c, 0x1f83d9ab, 0x5be0cd19⟩

/-- Rotation to the right by less than a word. -/
def rotateRight (word : UInt32) (places : UInt32) : UInt32 :=
  (word >>> places) ||| (word <<< (32 - places))

/-- One round with its constant and its word of the schedule. -/
def round (words : Words) (constant scheduled : UInt32) : Words :=
  let sum1 := rotateRight words.e 6 ^^^ rotateRight words.e 11 ^^^ rotateRight words.e 25
  let choice := (words.e &&& words.f) ^^^ (~~~words.e &&& words.g)
  let first := words.h + sum1 + choice + constant + scheduled
  let sum0 := rotateRight words.a 2 ^^^ rotateRight words.a 13 ^^^ rotateRight words.a 22
  let majority := (words.a &&& words.b) ^^^ (words.a &&& words.c) ^^^ (words.b &&& words.c)
  ⟨first + (sum0 + majority), words.a, words.b, words.c, words.d + first, words.e, words.f, words.g⟩

/-- The word of four bytes, most significant first. -/
def wordOfBytes (first second third fourth : UInt8) : UInt32 :=
  (first.toUInt32 <<< 24) ||| (second.toUInt32 <<< 16) ||| (third.toUInt32 <<< 8) |||
    fourth.toUInt32

/-- The words of a byte string whose length is a multiple of four, added to those already read. -/
def wordsOfBytes (done : Array UInt32) : List UInt8 → Array UInt32
  | first :: second :: third :: fourth :: rest =>
    wordsOfBytes (done.push (wordOfBytes first second third fourth)) rest
  | _ => done

/-- Extends the sixteen words of a block by `count` words of the schedule. -/
def extend : (count : Nat) → Array UInt32 → Array UInt32
  | 0, schedule => schedule
  | count + 1, schedule =>
    let size := schedule.size
    let early := schedule.getD (size - 15) 0
    let late := schedule.getD (size - 2) 0
    let sigma0 := rotateRight early 7 ^^^ rotateRight early 18 ^^^ (early >>> 3)
    let sigma1 := rotateRight late 17 ^^^ rotateRight late 19 ^^^ (late >>> 10)
    extend count
      (schedule.push (schedule.getD (size - 16) 0 + sigma0 + schedule.getD (size - 7) 0 + sigma1))

/-- Runs `count` rounds starting at round `index`. -/
def rounds (schedule : Array UInt32) : (count index : Nat) → Words → Words
  | 0, _, words => words
  | count + 1, index, words =>
    rounds schedule count (index + 1)
      (round words (roundConstants.getD index 0) (schedule.getD index 0))

/-- Folds one block of sixteen words into the working words. -/
def compress (words : Words) (block : Array UInt32) : Words :=
  let mixed := rounds (extend 48 block) 64 0 words
  ⟨words.a + mixed.a, words.b + mixed.b, words.c + mixed.c, words.d + mixed.d,
    words.e + mixed.e, words.f + mixed.f, words.g + mixed.g, words.h + mixed.h⟩

/-- The `count` low bytes of a number, most significant first. -/
def bigEndian : (count : Nat) → (value : Nat) → List UInt8
  | 0, _ => []
  | count + 1, value => bigEndian count (value / 256) ++ [UInt8.ofNat value]

/-- A message followed by one set bit, zeros up to a multiple of the block size, and its length in
bits. -/
def pad (message : List UInt8) : List UInt8 :=
  let zeros := (119 - message.length % 64) % 64
  message ++ (0x80 :: List.replicate zeros 0) ++ bigEndian 8 (message.length * 8)

/-- Folds `count` blocks of a word sequence, starting at block `index`. -/
def compressAll (words : Array UInt32) : (count index : Nat) → Words → Words
  | 0, _, state => state
  | count + 1, index, state =>
    compressAll words count (index + 1)
      (compress state (words.extract (16 * index) (16 * index + 16)))

/-- The thirty-two bytes of the digest. -/
def digest (message : List UInt8) : List UInt8 :=
  let words := wordsOfBytes #[] (pad message)
  let final := compressAll words (words.size / 16) 0 initial
  [final.a, final.b, final.c, final.d, final.e, final.f, final.g, final.h].flatMap
    (fun word => bigEndian 4 word.toNat)

end RepoAtlas.Digest.Sha256
