import TraigentSchema.Certification.Documents
import TraigentSchema.Certification.Signatures
import TraigentSchema.Library.Sha256
import TraigentSchema.Python.FloatRepr

/-!
# What an issuer does

The other side of the verifiers: the key an issuer publishes, the signatures it makes
with it and the documents that carry their own digest.
-/

namespace TraigentSchema.Certification

open TraigentSchema.Unicode
open TraigentSchema.Base64
open TraigentSchema.Hashing
open TraigentSchema.Fp2
open TraigentSchema.Python
open TraigentSchema.Traverse

/-! ## Texts -/

theorem base64Char_not_surrogate : ∀ d : Fin 64, ¬ IsSurrogate (base64Char d) := by
  decide

theorem encodable_b64encode (raw : Bytes) : Encodable (b64encode raw) := by
  have hpadding : ¬ IsSurrogate padding := by decide
  fun_induction b64encode raw with
  | case1 a b c rest ih =>
      intro d hd
      simp only [List.mem_cons] at hd
      rcases hd with rfl | rfl | rfl | rfl | hd
      · exact base64Char_not_surrogate _
      · exact base64Char_not_surrogate _
      · exact base64Char_not_surrogate _
      · exact base64Char_not_surrogate _
      · exact ih d hd
  | case2 a b => simp [Unicode.Encodable, base64Char_not_surrogate, hpadding]
  | case3 a => simp [Unicode.Encodable, base64Char_not_surrogate, hpadding]
  | case4 => simp [Unicode.Encodable]

/-- Of `3 * groups + 1` bytes, all characters but the last two are digits. -/
theorem b64encode_one_left {groups : ℕ} {raw : Bytes} (hlength : raw.length = 3 * groups + 1) :
    ((b64encode raw).take (4 * groups + 2)).all (fun c => (base64Digit c).isSome) = true ∧
      (b64encode raw).drop (4 * groups + 2) = [padding, padding] := by
  induction groups generalizing raw with
  | zero =>
      obtain ⟨a, rfl⟩ := List.length_eq_one_iff.mp hlength
      simp [b64encode]
  | succ groups ih =>
      match raw, hlength with
      | a :: b :: c :: rest, hlength =>
          have hrest : rest.length = 3 * groups + 1 := by
            simp only [List.length_cons] at hlength
            omega
          obtain ⟨hdigits, hpadding⟩ := ih hrest
          have hindex : 4 * (groups + 1) + 2 = (4 * groups + 2) + 4 := by omega
          rw [hindex, b64encode]
          exact ⟨by simpa using hdigits, by simpa using hpadding⟩

theorem isSignatureText_b64encode {raw : Bytes} (hlength : raw.length = 64) :
    isSignatureText (b64encode raw) = true := by
  have hgroups : raw.length = 3 * 21 + 1 := hlength
  obtain ⟨hdigits, hpadding⟩ := b64encode_one_left hgroups
  rw [isSignatureText, hdigits, hpadding]
  rfl

theorem decodeSignature_b64encode {raw : Bytes} (hlength : raw.length = 64) :
    decodeSignature (.leaf (.str (b64encode raw))) = .ok raw := by
  simp [decodeSignature, isSignatureText_b64encode hlength, hlength, demand]

/-- An Ed25519 signature of 64 bytes that verifies. -/
theorem verifySignature_ed25519 {platform : Platform} {key : platform.PublicKey}
    {raw material : Bytes} (hkind : platform.keyKind key = .ed25519)
    (hlength : raw.length = 64) (hverify : platform.ed25519Verify key raw material = true) :
    verifySignature platform key ed25519Name material (.leaf (.str (b64encode raw))) =
      .ok () := by
  have hknown : isOneOf ed25519Name ["ed25519", "ecdsa_p256_sha256"] = .ok true :=
    isOneOf_eq_ok_true_iff.mpr ⟨_, by decide, rfl⟩
  have hname : pyEq ed25519Name ed25519Name = true := pyEq_str_right.mpr rfl
  simp [verifySignature, hknown, decodeSignature_b64encode hlength, hname, hkind, hverify,
    demand]

/-! ## Keys -/

section Issuer

variable (platform : Platform)

/-- A signing key under the names that the materials give it. -/
structure Issuer where
  keyRef : Text
  trustRingRef : Text
  algorithm : String
  der : Bytes
  key : platform.PublicKey
  sign : Bytes → Bytes
  encodable_keyRef : Encodable keyRef
  encodable_trustRingRef : Encodable trustRingRef
  load_der : platform.loadDerPublicKey der = some key
  publicBytes_key : platform.publicBytes key = der
  ed25519 : algorithm = "ed25519" → platform.keyKind key = .ed25519
  ecdsa : algorithm = "ecdsa_p256_sha256" → platform.keyKind key = .ecdsaP256
  verifies : ∀ material, verifySignature platform key (.str algorithm) material
    (.leaf (.str (b64encode (sign material)))) = .ok ()

variable {platform}

/-- The key as the verification materials project it. -/
abbrev Issuer.projection (issuer : Issuer platform) (spkiDomain : String) : PyValue :=
  .object [("key_ref", .leaf (.str issuer.keyRef)),
    ("trust_ring_ref", .leaf (.str issuer.trustRingRef)),
    ("algorithm", .str issuer.algorithm),
    ("public_key_der_b64", .leaf (.str (b64encode issuer.der))),
    ("public_key_digest", spkiDigest platform spkiDomain issuer.der)]

/-- The signature over a payload under a domain. -/
def Issuer.signature (issuer : Issuer platform) (domain : String) (payload : PyValue) :
    PyValue :=
  .leaf (.str (b64encode (issuer.sign (rolePreimage platform domain payload))))

theorem Issuer.materialPublicKey_projection (issuer : Issuer platform) (spkiDomain : String) :
    materialPublicKey platform (issuer.projection spkiDomain) spkiDomain = .ok issuer.key := by
  apply materialPublicKey_eq_ok_iff.mpr
  refine ⟨issuer.der, by simp [projection, List.lookup], issuer.load_der,
    issuer.publicBytes_key, by simp [projection, List.lookup], .str issuer.algorithm,
    by simp [projection, List.lookup], ?_, ?_⟩
  · intro halgorithm
    exact issuer.ed25519 (str_inj.mp halgorithm)
  · intro halgorithm
    exact issuer.ecdsa (str_inj.mp halgorithm)

end Issuer

/-! ## Documents with a digest -/

section Digests

variable (platform : Platform)

/-- The digest of a payload under a domain, as documents carry it. -/
def digestValue (domain : String) (payload : PyValue) : PyValue :=
  .leaf (.str (sha256Text platform (rolePreimage platform domain payload)))

/-- A document that carries its own digest. -/
abbrev selfDigested (domain name : String) (rows : List (String × PyValue)) : PyValue :=
  .object (rows ++ [(name, digestValue platform domain (.object rows))])

variable {platform} {depth : ℕ}

theorem document_digestValue (domain : String) (payload : PyValue) :
    Document PlainAtom depth (digestValue platform domain payload) :=
  document_leaf (encodable_sha256Text platform _)

theorem document_selfDigested {domain name : String} {rows : List (String × PyValue)}
    (hnodup : ((rows.map Prod.fst) ++ [name]).Nodup)
    (hrows : ∀ row ∈ rows, Document PlainAtom depth row.2) :
    Document PlainAtom (depth + 1) (selfDigested platform domain name rows) := by
  apply document_object
  · simpa using hnodup
  · intro row hrow
    rcases List.mem_append.mp hrow with hrow | hrow
    · exact hrows row hrow
    · rw [List.mem_singleton.mp hrow]
      exact document_digestValue _ _

theorem erase_selfDigested {domain name : String} {rows : List (String × PyValue)}
    (hname : name ∉ rows.map Prod.fst) :
    (selfDigested platform domain name rows).erase name = .object rows := by
  have hkeep : (rows.filter fun row => row.1 != name) = rows := by
    apply List.filter_eq_self.mpr
    intro row hrow
    have hne : row.1 ≠ name := fun heq => hname (List.mem_map.mpr ⟨row, hrow, heq⟩)
    simpa using hne
  rw [selfDigested, PyValue.erase_object, List.filter_append, hkeep]
  simp

end Digests

/-! ## A concrete platform -/

/-- The header of an Ed25519 `SubjectPublicKeyInfo`. -/
def ed25519Header : Bytes :=
  [0x30, 0x2a, 0x30, 0x05, 0x06, 0x03, 0x2b, 0x65, 0x70, 0x03, 0x21, 0x00]

/-- Two encodings of the neutral element of the curve, without and with a sign bit. -/
def neutralKey : Bytes := 1 :: List.replicate 31 0

def signedNeutralKey : Bytes := 1 :: List.replicate 30 0 ++ [0x80]

/-- The neutral element and the scalar zero: under a neutral key, where the challenge
drops out of the verification equation, the signature of every message. -/
def neutralSignature : Bytes := 1 :: List.replicate 63 0

/-- The base point and the scalar one: under a neutral key another such signature. -/
def baseSignature : Bytes :=
  0x58 :: List.replicate 31 0x66 ++ 1 :: List.replicate 31 0

def loadEd25519 (der : Bytes) : Option Bytes :=
  if der.take 12 = ed25519Header ∧ der.length = 44 then some (der.drop 12) else none

/-- SHA-256, shortest float texts, and of Ed25519 what concerns neutral keys. -/
noncomputable def neutralPlatform : Platform where
  float := .fewestDigits
  sha256 := Sha256.sha256
  PublicKey := Bytes
  loadDerPublicKey := loadEd25519
  publicBytes key := ed25519Header ++ key
  keyKind _ := .ed25519
  ed25519Verify key raw _ :=
    (key == neutralKey || key == signedNeutralKey) &&
      (raw == neutralSignature || raw == baseSignature)
  ecdsaVerify _ _ _ _ := false

theorem neutralKey_choice : neutralKey = neutralKey ∨ neutralKey = signedNeutralKey :=
  Or.inl rfl

/-- An issuer with a neutral key. -/
noncomputable def neutralIssuer (keyRef trustRingRef : String) (key : Bytes)
    (hkey : key = neutralKey ∨ key = signedNeutralKey) : Issuer neutralPlatform where
  keyRef := text keyRef
  trustRingRef := text trustRingRef
  algorithm := "ed25519"
  der := ed25519Header ++ key
  key := key
  sign _ := neutralSignature
  encodable_keyRef := encodable_text keyRef
  encodable_trustRingRef := encodable_text trustRingRef
  load_der := by rcases hkey with rfl | rfl <;> rfl
  publicBytes_key := rfl
  ed25519 _ := rfl
  ecdsa hname := by simp at hname
  verifies _ := verifySignature_ed25519 rfl rfl (by rcases hkey with rfl | rfl <;> rfl)

end TraigentSchema.Certification
