import TraigentSchema.Certification.Verification
import TraigentSchema.Library.Base64

/-!
# Issuer keys and signatures

How the verifiers turn a key projection of the verification materials into a
public key, and how they check a signature of one of the two algorithms.  The
cryptography itself is the platform's.
-/

namespace TraigentSchema.Certification

open TraigentSchema.Unicode
open TraigentSchema.Base64
open TraigentSchema.Python
open TraigentSchema.Traverse

/-- `_fail` of the relying-party verifier. -/
def refuse {A : Type} (code : String) : Checked A :=
  .error (.relyingParty code)

/-- `if not condition: _fail(code)`. -/
def demand (condition : Bool) (code : String) : Checked Unit :=
  if condition then .ok () else refuse code

@[simp]
theorem demand_eq_ok_iff {condition : Bool} {code : String} {u : Unit} :
    demand condition code = .ok u ↔ condition = true := by
  cases condition <;> simp [demand, refuse]

@[simp]
theorem refuse_ne_ok {A : Type} (code : String) (a : A) : refuse code ≠ .ok a := by
  simp [refuse]

/-- `v in {…}`, for a set of string literals; a list or a dict has no hash. -/
def isOneOf (v : PyValue) (literals : List String) : Checked Bool :=
  match v with
  | .leaf (.str s) => .ok (literals.any fun literal => s == text literal)
  | .leaf _ => .ok false
  | _ => .error .other

def issuerSpkiDomain : String := "traigent.agent_certificate.issuer_spki_der.v0"

def ed25519Name : PyValue := .str "ed25519"

def ecdsaName : PyValue := .str "ecdsa_p256_sha256"

def ecdsaOrder : ℕ := 0xFFFFFFFF00000000FFFFFFFFFFFFFFFFBCE6FAADA7179E84F3B9CAC2FC632551

def ecdsaHalfOrder : ℕ := ecdsaOrder / 2

/-- `int.from_bytes(raw, "big")`. -/
def fromBigEndian (raw : Bytes) : ℕ :=
  raw.foldl (fun n b => 256 * n + b.val) 0

/-- `_SIG_RE`: 86 characters of the alphabet and two of padding. -/
def isSignatureText (s : Text) : Bool :=
  (s.take 86).all (fun c => (base64Digit c).isSome) && s.drop 86 == [padding, padding]

def decodeSignature : PyValue → Checked Bytes
  | .leaf (.str s) => do
      demand (isSignatureText s) "SIGNATURE_BASE64"
      match b64decode s with
      | some raw => do
          demand (raw.length == 64 && b64encode raw == s) "SIGNATURE_BASE64"
          return raw
      | none => .error .other
  | _ => refuse "SIGNATURE_BASE64"

section Keys

variable (platform : Platform)

/-- The digest of a public key's DER under a domain. -/
def spkiDigest (digestDomain : String) (der : Bytes) : PyValue :=
  .leaf (.str (sha256Text platform (preimage digestDomain der)))

/-- `_material_public_key`.  A value without `encode` raises outside of the caught
exceptions; the other ways not to hold a key are one error. -/
def materialPublicKey (projection : PyValue) (digestDomain : String) :
    Checked platform.PublicKey := do
  match ← index projection "public_key_der_b64" with
  | .leaf (.str encoded) =>
      match b64decode encoded with
      | some der => do
          demand (b64encode der == encoded) "MATERIALS_KEY"
          match platform.loadDerPublicKey der with
          | some key => do
              demand (platform.publicBytes key == der) "MATERIALS_KEY"
              let digest ← index projection "public_key_digest"
              demand (pyEq digest (spkiDigest platform digestDomain der)) "MATERIALS_KEY"
              let algorithm ← index projection "algorithm"
              demand (!pyEq algorithm ed25519Name || platform.keyKind key == .ed25519)
                "MATERIALS_KEY"
              demand (!pyEq algorithm ecdsaName || platform.keyKind key == .ecdsaP256)
                "MATERIALS_KEY"
              return key
          | none => refuse "MATERIALS_KEY"
      | none => refuse "MATERIALS_KEY"
  | _ => .error .other

def verifySignature (publicKey : platform.PublicKey) (algorithm : PyValue)
    (material : Bytes) (encoded : PyValue) : Checked Unit := do
  let known ← isOneOf algorithm ["ed25519", "ecdsa_p256_sha256"]
  demand known "ALGORITHM"
  let raw ← decodeSignature encoded
  if pyEq algorithm ed25519Name then do
    demand (platform.keyKind publicKey == .ed25519) "KEY_ALGORITHM"
    demand (platform.ed25519Verify publicKey raw material) "SIGNATURE_INVALID"
  else do
    demand (platform.keyKind publicKey == .ecdsaP256) "KEY_ALGORITHM"
    let r := fromBigEndian (raw.take 32)
    let s := fromBigEndian (raw.drop 32)
    demand (decide (1 ≤ r ∧ r < ecdsaOrder ∧ 1 ≤ s ∧ s < ecdsaOrder)) "SIGNATURE_SCALAR"
    demand (decide (s ≤ ecdsaHalfOrder)) "SIGNATURE_HIGH_S"
    demand (platform.ecdsaVerify publicKey r s material) "SIGNATURE_INVALID"

end Keys

/-! ## What they accept -/

theorem isOneOf_eq_ok_true_iff {v : PyValue} {literals : List String} :
    isOneOf v literals = .ok true ↔ ∃ literal ∈ literals, v = .str literal := by
  cases v with
  | leaf x => cases x <;> simp [isOneOf, PyValue.str]
  | list items => simp [isOneOf, PyValue.str]
  | dict members => simp [isOneOf, PyValue.str]

variable {platform : Platform}

/-- A verified signature names one of the two algorithms. -/
theorem algorithm_of_verifySignature {publicKey : platform.PublicKey}
    {algorithm encoded : PyValue} {material : Bytes}
    (hverified : verifySignature platform publicKey algorithm material encoded = .ok ()) :
    algorithm = ed25519Name ∨ algorithm = ecdsaName := by
  obtain ⟨known, hknown, hrest⟩ := bind_eq_ok_iff.mp hverified
  obtain ⟨_, htrue, -⟩ := bind_eq_ok_iff.mp hrest
  rw [demand_eq_ok_iff.mp htrue] at hknown
  obtain ⟨literal, hliteral, rfl⟩ := isOneOf_eq_ok_true_iff.mp hknown
  simp only [List.mem_cons, List.not_mem_nil, or_false] at hliteral
  rcases hliteral with rfl | rfl
  · exact Or.inl rfl
  · exact Or.inr rfl

/-- The key is the one of the DER encoding in the projection, and the projection
states that encoding's digest. -/
theorem materialPublicKey_eq_ok_iff {projection : PyValue} {digestDomain : String}
    {key : platform.PublicKey} :
    materialPublicKey platform projection digestDomain = .ok key ↔
      ∃ der, projection.member "public_key_der_b64" = some (.leaf (.str (b64encode der))) ∧
        platform.loadDerPublicKey der = some key ∧ platform.publicBytes key = der ∧
        projection.member "public_key_digest" =
          some (spkiDigest platform digestDomain der) ∧
        ∃ algorithm, projection.member "algorithm" = some algorithm ∧
          (algorithm = ed25519Name → platform.keyKind key = .ed25519) ∧
          (algorithm = ecdsaName → platform.keyKind key = .ecdsaP256) := by
  have hguard : ∀ (algorithm : PyValue) (name : String) (kind : KeyKind),
      (!pyEq algorithm (.str name) || platform.keyKind key == kind) = true ↔
        (algorithm = .str name → platform.keyKind key = kind) := by
    intro algorithm name kind
    rw [PyValue.str, Bool.or_eq_true, Bool.not_eq_true', beq_iff_eq, ← Bool.not_eq_true,
      pyEq_str_right, ← imp_iff_not_or]
  constructor
  · intro hkey
    obtain ⟨encodedValue, hencoded, hbody⟩ := bind_eq_ok_iff.mp hkey
    split at hbody
    · rename_i encoded
      split at hbody
      · rename_i der hder
        obtain ⟨_, hcanonical, hload⟩ := bind_eq_ok_iff.mp hbody
        split at hload
        · rename_i key' hkey'
          simp only [bind_eq_ok_iff, demand_eq_ok_iff, index_eq_ok_iff_member, beq_iff_eq,
            pure_eq_ok, Except.ok.injEq] at hload hcanonical
          obtain ⟨_, hpublic, digest, hdigest, _, hdigestEq, algorithm, halgorithm, _,
            hed25519, _, hecdsa, rfl⟩ := hload
          rw [spkiDigest, pyEq_str_right] at hdigestEq
          refine ⟨der, ?_, hkey', hpublic, ?_, algorithm, halgorithm,
            (hguard _ _ _).mp hed25519, (hguard _ _ _).mp hecdsa⟩
          · rw [hcanonical, ← index_eq_ok_iff_member]
            exact hencoded
          · rw [hdigest, hdigestEq, spkiDigest]
        · exact absurd hload (refuse_ne_ok _ _)
      · exact absurd hbody (refuse_ne_ok _ _)
    · cases hbody
  · rintro ⟨der, hencoded, hload, hpublic, hdigest, algorithm, halgorithm, hed25519, hecdsa⟩
    have hdigestEq : pyEq (spkiDigest platform digestDomain der)
        (spkiDigest platform digestDomain der) = true := pyEq_str_right.mpr rfl
    rw [materialPublicKey, index_eq_ok_iff_member.mpr hencoded, ok_bind]
    simp only [b64decode_b64encode, hload, bind_eq_ok_iff, demand_eq_ok_iff,
      index_eq_ok_iff_member, beq_iff_eq, pure_eq_ok]
    exact ⟨(), trivial, (), hpublic, _, hdigest, (), hdigestEq, algorithm, halgorithm, (),
      (hguard _ _ _).mpr hed25519, (), (hguard _ _ _).mpr hecdsa, trivial⟩

end TraigentSchema.Certification
