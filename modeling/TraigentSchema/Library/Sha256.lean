import TraigentSchema.Library.Hashing

/-!
# SHA-256

The hash itself, on byte strings.  Nothing rests on how it mixes its input: the
security results hold of every hash, and this one is where they are applied.
-/

namespace TraigentSchema.Sha256

open TraigentSchema.Unicode
open TraigentSchema.Hashing

abbrev Word := BitVec 32

/-- The fractional bits of the cube roots of the first 64 primes. -/
def roundConstants : List Word :=
  [0x428a2f98, 0x71374491, 0xb5c0fbcf, 0xe9b5dba5, 0x3956c25b, 0x59f111f1, 0x923f82a4,
    0xab1c5ed5, 0xd807aa98, 0x12835b01, 0x243185be, 0x550c7dc3, 0x72be5d74, 0x80deb1fe,
    0x9bdc06a7, 0xc19bf174, 0xe49b69c1, 0xefbe4786, 0x0fc19dc6, 0x240ca1cc, 0x2de92c6f,
    0x4a7484aa, 0x5cb0a9dc, 0x76f988da, 0x983e5152, 0xa831c66d, 0xb00327c8, 0xbf597fc7,
    0xc6e00bf3, 0xd5a79147, 0x06ca6351, 0x14292967, 0x27b70a85, 0x2e1b2138, 0x4d2c6dfc,
    0x53380d13, 0x650a7354, 0x766a0abb, 0x81c2c92e, 0x92722c85, 0xa2bfe8a1, 0xa81a664b,
    0xc24b8b70, 0xc76c51a3, 0xd192e819, 0xd6990624, 0xf40e3585, 0x106aa070, 0x19a4c116,
    0x1e376c08, 0x2748774c, 0x34b0bcb5, 0x391c0cb3, 0x4ed8aa4a, 0x5b9cca4f, 0x682e6ff3,
    0x748f82ee, 0x78a5636f, 0x84c87814, 0x8cc70208, 0x90befffa, 0xa4506ceb, 0xbef9a3f7,
    0xc67178f2]

structure State where
  (a b c d e f g h : Word)
  deriving DecidableEq

/-- The fractional bits of the square roots of the first 8 primes. -/
def initialState : State :=
  ⟨0x6a09e667, 0xbb67ae85, 0x3c6ef372, 0xa54ff53a, 0x510e527f, 0x9b05688c, 0x1f83d9ab,
    0x5be0cd19⟩

def smallSigma0 (x : Word) : Word :=
  x.rotateRight 7 ^^^ x.rotateRight 18 ^^^ x >>> 3

def smallSigma1 (x : Word) : Word :=
  x.rotateRight 17 ^^^ x.rotateRight 19 ^^^ x >>> 10

def bigSigma0 (x : Word) : Word :=
  x.rotateRight 2 ^^^ x.rotateRight 13 ^^^ x.rotateRight 22

def bigSigma1 (x : Word) : Word :=
  x.rotateRight 6 ^^^ x.rotateRight 11 ^^^ x.rotateRight 25

def choose (x y z : Word) : Word := x &&& y ^^^ ~~~x &&& z

def majority (x y z : Word) : Word := x &&& y ^^^ x &&& z ^^^ y &&& z

/-- The words of the schedule so far, the newest first, with some more. -/
def extendSchedule : ℕ → List Word → List Word
  | 0, words => words
  | n + 1, words =>
      let word := smallSigma1 (words.getD 1 0) + words.getD 6 0 +
        smallSigma0 (words.getD 14 0) + words.getD 15 0
      extendSchedule n (word :: words)

def round (s : State) (constant word : Word) : State :=
  let t₁ := s.h + bigSigma1 s.e + choose s.e s.f s.g + constant + word
  let t₂ := bigSigma0 s.a + majority s.a s.b s.c
  ⟨t₁ + t₂, s.a, s.b, s.c, s.d + t₁, s.e, s.f, s.g⟩

/-- The big-endian word of four bytes. -/
def wordOfBytes (bytes : Bytes) : Word :=
  bytes.foldl (fun word byte => word <<< 8 ||| BitVec.ofNat 32 byte.val) 0

def wordsOfBytes : Bytes → List Word
  | a :: b :: c :: d :: rest => wordOfBytes [a, b, c, d] :: wordsOfBytes rest
  | _ => []

def byteOfWord (word : Word) (shift : ℕ) : Byte :=
  ⟨(word >>> shift).toNat % 256, by omega⟩

def bytesOfWord (word : Word) : Bytes :=
  [byteOfWord word 24, byteOfWord word 16, byteOfWord word 8, byteOfWord word 0]

/-- One block of 16 words. -/
def compress (s : State) (block : List Word) : State :=
  let schedule := (extendSchedule 48 block.reverse).reverse
  let t := (roundConstants.zip schedule).foldl (fun t row => round t row.1 row.2) s
  ⟨s.a + t.a, s.b + t.b, s.c + t.c, s.d + t.d, s.e + t.e, s.f + t.f, s.g + t.g, s.h + t.h⟩

/-- Blocks of 16 words, one after the other. -/
def compressAll : ℕ → State → List Word → State
  | 0, s, _ => s
  | n + 1, s, words => compressAll n (compress s (words.take 16)) (words.drop 16)

/-- A one bit, zeros, and the length in bits as eight bytes. -/
def pad (message : Bytes) : Bytes :=
  let zeros := (119 - message.length % 64) % 64
  let bits := BitVec.ofNat 64 (8 * message.length)
  message ++ 128 :: List.replicate zeros 0 ++
    bytesOfWord (bits.extractLsb' 32 32) ++ bytesOfWord (bits.extractLsb' 0 32)

def sha256 : Hash := fun message =>
  let words := wordsOfBytes (pad message)
  let s := compressAll (words.length / 16) initialState words
  ⟨[s.a, s.b, s.c, s.d, s.e, s.f, s.g, s.h].flatMap bytesOfWord, by
    simp [bytesOfWord]⟩

example : hexdigest (sha256 (utf8 (text "abc"))) =
    text "ba7816bf8f01cfea414140de5dae2223b00361a396177a9cb410ff61f20015ad" := by
  decide +kernel

end TraigentSchema.Sha256
