import TraigentSchema.Library.Hkdf
import TraigentSchema.Library.Framing
import TraigentSchema.LabelsReference.Encodings

/-!
# Hybrid public-key encryption

The single-shot base mode of RFC 9180 with DHKEM(X25519, HKDF-SHA256), as the reference
functions spell it out.  X25519 and the ciphers come from a library and are parameters.
-/

namespace TraigentSchema.LabelsReference

open TraigentSchema.Framing
open TraigentSchema.Hashing
open TraigentSchema.Unicode

def hkdfExtract (salt ikm : Bytes) : Bytes :=
  (Hkdf.extract Sha256.sha256 salt ikm).toList

def hkdfExpand (prk info : Bytes) (length : ℕ) : Bytes :=
  Hkdf.expand Sha256.sha256 prk info length

/-! ## Primitives -/

inductive AeadId where
  | aes128
  | aes256
  | chacha
  deriving DecidableEq, Repr

def AeadId.code : AeadId → ℕ
  | .aes128 => 1
  | .aes256 => 2
  | .chacha => 3

/-- The length of a key. -/
def AeadId.nk : AeadId → ℕ
  | .aes128 => 16
  | .aes256 => 32
  | .chacha => 32

/-- The library's X25519 and its ciphers, and the stack of the interpreter. -/
structure HpkePrimitives where
  PrivateKey : Type
  /-- `X25519PrivateKey.from_private_bytes`, on 32 bytes. -/
  fromPrivateBytes : Bytes → PrivateKey
  publicBytes : PrivateKey → Bytes
  /-- `exchange` with the public key of 32 raw bytes, nothing where it raises `ValueError`. -/
  exchange : PrivateKey → Bytes → Option Bytes
  encrypt : AeadId → (key nonce plaintext aad : Bytes) → Bytes
  /-- `decrypt`, nothing where it raises `InvalidTag`. -/
  decrypt : AeadId → (key nonce ciphertext aad : Bytes) → Option Bytes
  stackFull : StackLimit

/-! ## Key derivation -/

def i2osp (value length : ℕ) : Bytes :=
  bigEndianBytes length value

def hpkeVersion : Bytes := utf8 (text "HPKE-v1")

/-- `_le`, `LabeledExpand`. -/
def labeledExpand (suite prk label info : Bytes) (length : ℕ) : Bytes :=
  hkdfExpand prk (i2osp length 2 ++ hpkeVersion ++ suite ++ label ++ info) length

/-- `_lx`, `LabeledExtract`. -/
def labeledExtract (suite salt label ikm : Bytes) : Bytes :=
  hkdfExtract salt (hpkeVersion ++ suite ++ label ++ ikm)

def kemId : ℕ := 0x0020

def kdfId : ℕ := 0x0001

def kemSuite : Bytes := utf8 (text "KEM") ++ i2osp kemId 2

def extractAndExpand (dh kemContext : Bytes) : Bytes :=
  let eaePrk := labeledExtract kemSuite [] (utf8 (text "eae_prk")) dh
  labeledExpand kemSuite eaePrk (utf8 (text "shared_secret")) kemContext 32

/-- `_key_schedule`: the key and the nonce. -/
def keySchedule (aeadId : AeadId) (sharedSecret info : Bytes) : Bytes × Bytes :=
  let suite := utf8 (text "HPKE") ++ i2osp kemId 2 ++ i2osp kdfId 2 ++ i2osp aeadId.code 2
  let pskIdHash := labeledExtract suite [] (utf8 (text "psk_id_hash")) []
  let infoHash := labeledExtract suite [] (utf8 (text "info_hash")) info
  let context := 0 :: (pskIdHash ++ infoHash)
  let secret := labeledExtract suite sharedSecret (utf8 (text "secret")) []
  (labeledExpand suite secret (utf8 (text "key")) context aeadId.nk,
    labeledExpand suite secret (utf8 (text "base_nonce")) context 12)

/-! ## Sealing and opening -/

section Hpke

variable (primitives : HpkePrimitives)

def deriveKeypair (ikm : Bytes) : primitives.PrivateKey × Bytes :=
  let prk := labeledExtract kemSuite [] (utf8 (text "dkp_prk")) ikm
  let sk := primitives.fromPrivateBytes (labeledExpand kemSuite prk (utf8 (text "sk")) [] 32)
  (sk, primitives.publicBytes sk)

/-- `_dh`.  Loading a raw key of another length raises `ValueError`. -/
def dh (sk : primitives.PrivateKey) (pk : Bytes) : Result Bytes :=
  if pk.length ≠ 32 then .error .other
  else match primitives.exchange sk pk with
    | none => .error .other
    | some shared =>
        if shared = List.replicate 32 0 then .error (.labelCrypto "low-order point")
        else .ok shared

/-- `hpke_seal`: the encapsulated key and the ciphertext. -/
def hpkeSeal (pkR info aad plaintext ikmE : Bytes) (aeadId : AeadId) :
    Result (Bytes × Bytes) := do
  let (skE, enc) := deriveKeypair primitives ikmE
  let shared := extractAndExpand (← dh primitives skE pkR) (enc ++ pkR)
  let (key, nonce) := keySchedule aeadId shared info
  return (enc, primitives.encrypt aeadId key nonce plaintext aad)

def hpkeOpen (skR : primitives.PrivateKey) (enc info aad ciphertext : Bytes)
    (aeadId : AeadId) : Result Bytes := do
  let pkR := primitives.publicBytes skR
  let shared := extractAndExpand (← dh primitives skR enc) (enc ++ pkR)
  let (key, nonce) := keySchedule aeadId shared info
  match primitives.decrypt aeadId key nonce ciphertext aad with
  | some plaintext => .ok plaintext
  | none => .error (.labelCrypto "authentication failed")

/-- Ideal encryption: sealing for a key pair works and is opened again, and only what was sealed
for the same key, info and associated data is opened. -/
structure Ideal : Prop where
  opens : ∀ sk info aad plaintext ikmE aeadId, ∃ enc ciphertext,
    hpkeSeal primitives (primitives.publicBytes sk) info aad plaintext ikmE aeadId =
      .ok (enc, ciphertext) ∧
    hpkeOpen primitives sk enc info aad ciphertext aeadId = .ok plaintext
  onlySealed : ∀ {sk enc info aad ciphertext aeadId plaintext},
    hpkeOpen primitives sk enc info aad ciphertext aeadId = .ok plaintext →
    ∃ ikmE, hpkeSeal primitives (primitives.publicBytes sk) info aad plaintext ikmE aeadId =
      .ok (enc, ciphertext)

variable {primitives}

/-- A raw key the library takes. -/
def Loads (sk : primitives.PrivateKey) (enc : Bytes) : Prop :=
  enc.length = 32 ∧ (primitives.exchange sk enc).isSome

theorem dh_ne_other_iff {sk : primitives.PrivateKey} {enc : Bytes} :
    dh primitives sk enc ≠ .error .other ↔ Loads sk enc := by
  rw [dh, Loads]
  by_cases hlength : enc.length = 32
  · rw [if_neg (not_not.mpr hlength)]
    cases hexchange : primitives.exchange sk enc with
    | none => simp
    | some shared =>
        dsimp only
        split_ifs <;> simp [hlength]
  · simp [hlength]

/-- Opening fails with the module's own error once the key has been loaded. -/
theorem hpkeOpen_ne_other_iff {sk : primitives.PrivateKey}
    {enc info aad ciphertext : Bytes} {aeadId : AeadId} :
    hpkeOpen primitives sk enc info aad ciphertext aeadId ≠ .error .other ↔ Loads sk enc := by
  rw [← dh_ne_other_iff, hpkeOpen]
  cases hdh : dh primitives sk enc with
  | error failure => simp
  | ok shared =>
      simp only [Traverse.ok_bind, ne_eq, reduceCtorEq, not_false_eq_true, iff_true]
      split <;> simp

end Hpke

end TraigentSchema.LabelsReference
