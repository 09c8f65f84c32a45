import TraigentSchema.Library.Sha256

/-!
# HMAC and HKDF

Keyed hashing over a hash with blocks of 64 bytes and digests of 32, and the two steps of key
derivation from it.
-/

namespace TraigentSchema.Hkdf

open TraigentSchema.Hashing
open TraigentSchema.Unicode

def blockSize : ℕ := 64

/-- `bytes` with every byte combined with one value by exclusive or. -/
def xorWith (value : ℕ) (bytes : Bytes) : Bytes :=
  bytes.map fun byte => ⟨(byte.val ^^^ value) % 256, by omega⟩

/-- A long key is hashed; a short one is filled up with zeros. -/
def blockKey (hash : Hash) (key : Bytes) : Bytes :=
  let short := if blockSize < key.length then (hash key).toList else key
  short ++ List.replicate (blockSize - short.length) 0

def hmac (hash : Hash) (key message : Bytes) : Digest :=
  let block := blockKey hash key
  hash (xorWith 0x5C block ++ (hash (xorWith 0x36 block ++ message)).toList)

example : hexdigest (hmac Sha256.sha256 (List.replicate 20 0x0B) (utf8 (text "Hi There"))) =
    text "b0344c61d8db38535ca8afceaf0bf12b881dc200c9833da726e9376c2e32cff7" := by
  decide +kernel

section Derivation

variable (hash : Hash)

/-- An empty salt stands for a block of zeros. -/
def extract (salt ikm : Bytes) : Digest :=
  hmac hash (if salt = [] then List.replicate 32 0 else salt) ikm

/-- The loop of the expansion, after `i` blocks. -/
def expandLoop (prk info : Bytes) (length : ℕ) (out block : Bytes) (i : ℕ) : Bytes :=
  if out.length < length then
    let next := (hmac hash prk (block ++ info ++ [⟨i % 256, by omega⟩])).toList
    expandLoop prk info length (out ++ next) next (i + 1)
  else out
termination_by length - out.length
decreasing_by
  rw [List.length_append, List.Vector.toList_length]
  omega

def expand (prk info : Bytes) (length : ℕ) : Bytes :=
  (expandLoop hash prk info length [] [] 1).take length

end Derivation

end TraigentSchema.Hkdf
