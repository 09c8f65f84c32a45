import TraigentSchema.Certification.Signatures
import TraigentSchema.Library.Framing

/-!
# The bytes an agent certificate's signatures are over

The issuer signs the unsigned manifest and the client co-signs the whole certificate
but for its own signature block.  Both sign canonical bytes behind a domain and a
length.
-/

namespace TraigentSchema.AgentCertificate

open TraigentSchema.Unicode
open TraigentSchema.Framing
open TraigentSchema.Certification
open TraigentSchema.Python
open TraigentSchema.Traverse

def issuerDomain : String := "traigent.agent_certificate.issuer_signature.v0"

def clientDomain : String := "traigent.agent_certificate.client_co_attestation.v0"

def clientCertificateDomain : String :=
  "traigent.agent_certificate.client_certificate_projection.v0"

/-- `try: … except Exception: _fail(code)`. -/
def orRefuse {A : Type} (attempt : Checked A) (code : String) : Checked A :=
  match attempt with
  | .ok a => .ok a
  | .error _ => refuse code

@[simp]
theorem orRefuse_eq_ok_iff {A : Type} {attempt : Checked A} {code : String} {a : A} :
    orRefuse attempt code = .ok a ↔ attempt = .ok a := by
  cases attempt <;> simp [orRefuse]

@[simp]
theorem orRefuse_bind_eq_ok_iff {A B : Type} {attempt : Checked A} {code : String}
    {f : A → Checked B} {b : B} :
    (orRefuse attempt code >>= f) = .ok b ↔ (attempt >>= f) = .ok b := by
  cases attempt <;> simp [orRefuse, refuse]

def lengthPrefixedFields (domain : Bytes) (fields : List Bytes) : Checked Bytes := do
  demand (!domain.isEmpty) "MATERIAL"
  demand (decide (∀ field ∈ fields, Framable field)) "MATERIAL"
  return domain ++ lengthPrefixedAll fields

def clientMaterial (projectionBytes : Bytes) : Checked Bytes := do
  demand (decide (Framable projectionBytes)) "MATERIAL"
  lengthPrefixedFields (utf8 (text clientDomain)) [projectionBytes]

def issuerMaterial (manifestBytes : Bytes) : Checked Bytes :=
  lengthPrefixedFields (utf8 (text issuerDomain)) [manifestBytes]

/-- The members of an unsigned manifest. -/
def manifestMembers : List String :=
  ["subject", "seal", "claims", "tiers", "evidence_digests", "non_claims", "privacy_mode",
    "sdk_identity", "compiler_register_versions", "key_ring_identifiers", "freshness",
    "disclosure_profile"]

section Materials

variable (platform : Platform)

/-- `_manifest_bytes`; the manifest's own schema is an argument. -/
def manifestBytes (manifestSchema : PyValue → Bool) (manifest : PyValue) : Checked Bytes := do
  demand (manifest.hasMembers manifestMembers) "MANIFEST_SHAPE"
  demand (manifestSchema manifest) "MANIFEST_SCHEMA"
  orRefuse (canonicalUtf8 platform manifest) "MANIFEST_NOT_FP2"

structure ClientCertificateProjection where
  projection : PyValue
  projectionBytes : Bytes
  signingBytes : Bytes
  signedManifestDigest : PyValue

/-- The certificate without the client's block. -/
def clientProjection (document : PyValue) : PyValue :=
  document.assign "signatures" ((document.field "signatures").erase "co_attestation")

def prepareClientProjection (document : PyValue) : Checked ClientCertificateProjection := do
  let signatures ← index document "signatures"
  demand signatures.isDict "CO_PROJECTION"
  let projection := clientProjection document
  let canonical ← orRefuse (canonicalUtf8 platform projection) "CO_PROJECTION"
  let digest ← orRefuse (roleDigest platform clientCertificateDomain projection)
    "CO_PROJECTION"
  let signingBytes ← clientMaterial canonical
  return { projection := projection, projectionBytes := canonical,
           signingBytes := signingBytes, signedManifestDigest := digest }

end Materials

/-! ## What the bytes are -/

theorem lengthPrefixedFields_eq_ok_iff {domain material : Bytes} {fields : List Bytes} :
    lengthPrefixedFields domain fields = .ok material ↔
      domain ≠ [] ∧ (∀ field ∈ fields, Framable field) ∧
        domain ++ lengthPrefixedAll fields = material := by
  simp [lengthPrefixedFields, unit_bind_eq_ok_iff]

theorem issuerMaterial_eq_ok_iff {canonical material : Bytes} :
    issuerMaterial canonical = .ok material ↔
      Framable canonical ∧
        utf8 (text issuerDomain) ++ lengthPrefixedAll [canonical] = material := by
  have hdomain : utf8 (text issuerDomain) ≠ [] := by decide
  simp [issuerMaterial, lengthPrefixedFields_eq_ok_iff, hdomain]

theorem clientMaterial_eq_ok_iff {canonical material : Bytes} :
    clientMaterial canonical = .ok material ↔
      Framable canonical ∧
        utf8 (text clientDomain) ++ lengthPrefixedAll [canonical] = material := by
  have hdomain : utf8 (text clientDomain) ≠ [] := by decide
  simp [clientMaterial, lengthPrefixedFields_eq_ok_iff, hdomain, unit_bind_eq_ok_iff]

theorem manifestBytes_eq_ok_iff {platform : Platform} {manifestSchema : PyValue → Bool}
    {manifest : PyValue} {canonical : Bytes} :
    manifestBytes platform manifestSchema manifest = .ok canonical ↔
      manifest.hasMembers manifestMembers = true ∧ manifestSchema manifest = true ∧
        canonicalUtf8 platform manifest = .ok canonical := by
  simp [manifestBytes, unit_bind_eq_ok_iff]

end TraigentSchema.AgentCertificate
