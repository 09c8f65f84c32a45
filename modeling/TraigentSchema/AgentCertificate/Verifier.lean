import TraigentSchema.AgentCertificate.Checks

/-!
# Verifying an agent certificate

The envelope is validated and compared with its signed manifest, the manifest with the
caller's pins; then the issuer's signature is checked, and the client's where a claim
needs one.
-/

namespace TraigentSchema.AgentCertificate

open TraigentSchema.Unicode
open TraigentSchema.Base64
open TraigentSchema.Certification
open TraigentSchema.Python
open TraigentSchema.Traverse

/-! ## Client keys -/

def clientKeyRefDomain : String := "traigent.agent_certificate.client_key_ref.v0"

def inRange (c : CodePoint) (low high : Char) : Bool :=
  decide ((codePoint low).val ≤ c.val ∧ c.val ≤ (codePoint high).val)

def isAlphanumeric (c : CodePoint) : Bool :=
  inRange c 'A' 'Z' || inRange c 'a' 'z' || inRange c '0' '9'

/-- `_PROJECT_REF_RE`. -/
def isProjectRef (s : Text) : Bool :=
  decide (1 ≤ s.length ∧ s.length ≤ 128) &&
    s.all fun c => isAlphanumeric c || (text "_.-").contains c

/-- `_CLIENT_KEY_REF_RE`. -/
def isClientKeyRef (s : Text) : Bool :=
  s.take 4 == text "ckr:" && (s.drop 4).length == 43 &&
    (s.drop 4).all fun c => isAlphanumeric c || (text "_-").contains c

/-- `base64.urlsafe_b64encode(raw).rstrip(b"=")`. -/
def urlsafeB64encode (raw : Bytes) : Text :=
  ((b64encode raw).map fun c =>
    if c = codePoint '+' then codePoint '-'
    else if c = codePoint '/' then codePoint '_' else c).rdropWhile fun c => c == padding

section ClientKeys

variable (platform : Platform)

def deriveClientKeyRef (projectRef : Text) (signatureAlgorithm : PyValue)
    (clientPublicKey : platform.PublicKey) : Checked PyValue := do
  demand (isProjectRef projectRef) "CLIENT_KEY_REF"
  let algorithm ← orRefuse (textOf signatureAlgorithm) "CLIENT_KEY_REF"
  demand (algorithm == text "ed25519" || algorithm == text "ecdsa_p256_sha256")
    "CLIENT_KEY_REF"
  demand (algorithm != text "ed25519" || platform.keyKind clientPublicKey == .ed25519)
    "CLIENT_KEY_REF"
  demand (algorithm != text "ecdsa_p256_sha256" ||
    platform.keyKind clientPublicKey == .ecdsaP256) "CLIENT_KEY_REF"
  let material ← lengthPrefixedFields (utf8 (text clientKeyRefDomain))
    [utf8 projectRef, utf8 algorithm, platform.publicBytes clientPublicKey]
  let result := text "ckr:" ++ urlsafeB64encode (platform.sha256 material).toList
  demand (isClientKeyRef result) "CLIENT_KEY_REF"
  return .leaf (.str result)

end ClientKeys

/-! ## The caller's side -/

structure VerificationContext (platform : Platform) where
  expectedNonce : Text
  expectedBuildSessionRef : Text
  expectedIssuerKeyRef : Text
  expectedIssuerAlgorithm : Text
  expectedTrustRingRef : Text
  expectedProjectRef : Text
  expectedClientKeyRef : Option Text
  expectedClientAlgorithm : Option Text
  clientPublicKey : Option platform.PublicKey

/-- A string, or `None`. -/
def optionalText : Option Text → PyValue
  | some s => .leaf (.str s)
  | none => .leaf .none

/-! ## The parts of a certificate -/

abbrev signaturesOf (certificate : PyValue) : PyValue :=
  certificate.field "signatures"

abbrev unsignedOf (certificate : PyValue) : PyValue :=
  ((signaturesOf certificate).field "unsigned_manifest").field "document"

abbrev coAttestationOf (certificate : PyValue) : PyValue :=
  (signaturesOf certificate).field "co_attestation"

abbrev ringOf (unsigned : PyValue) : PyValue :=
  unsigned.field "key_ring_identifiers"

section Verification

variable (environment : Environment)

/-! ## The envelope -/

/-- `{key: registers[key] for key in semantics}`. -/
def semanticsRows (semantics registers : PyValue) : Checked PyValue :=
  match semantics, registers with
  | .dict members, .dict signed => do
      let rows ← members.mapM fun m =>
        match signed.find? fun row => keyEq row.1 m.1 with
        | some row => Except.ok (m.1, row.2)
        | none => .error .other
      return .dict rows
  | _, _ => .error .other

/-- The semantics are the signed registers under their own keys. -/
def checkSemantics (certificate unsigned : PyValue) : Checked Unit := do
  let semantics ← index certificate "semantics"
  let registers ← index unsigned "compiler_register_versions"
  let signed ← semanticsRows semantics registers
  demand (pyEq semantics signed) "SEMANTICS"

/-- What `_validated_document` returns, but for the digests no caller reads. -/
structure ValidatedDocument where
  signatures : PyValue
  unsigned : PyValue
  manifestBytes : Bytes

def validatedDocument (certificate : PyValue) (policy : RelyingPartyPolicy) :
    Checked ValidatedDocument := do
  demand certificate.isDict "ENVELOPE_SHAPE"
  demand (environment.certificateSchema certificate) "SCHEMA"
  let signatures ← index certificate "signatures"
  let unsignedRef ← index signatures "unsigned_manifest"
  let unsigned ← index unsignedRef "document"
  let manifestBytes ← manifestBytes environment.platform environment.manifestSchema unsigned
  let manifestDigest ← relyingDigest environment unsignedDomain unsigned
  let audit ← index certificate "audit_report"
  let auditDigest ← relyingDigest environment auditDomain audit
  let statedDigest ← index unsignedRef "manifest_digest"
  demand (pyEq statedDigest manifestDigest) "MANIFEST_DIGEST"
  checkPolicy certificate unsigned policy
  let coverage ← indexItems unsignedRef "coverage"
  demand (pyEq (.list coverage) (.list (manifestCoverage.map PyValue.str))) "COVERAGE"
  let sessionRef ← index audit "build_session_ref"
  let subject ← index certificate "subject"
  let subjectSessionRef ← index subject "build_session_ref"
  demand (pyEq sessionRef subjectSessionRef) "SESSION_REF"
  let statement ← index audit "ledger_seal_statement_digest"
  let sealed ← index certificate "ledger_seal_projection"
  let sealStatement ← index sealed "seal_statement_digest"
  demand (pyEq statement sealStatement) "SEAL_DIGEST"
  checkSemantics certificate unsigned
  let profile ← index certificate "disclosure_profile"
  let signedProfile ← index unsigned "disclosure_profile"
  demand (pyEq profile signedProfile) "DISCLOSURE_PROFILE"
  checkStreams environment sealed
  checkProjections certificate unsigned auditDigest
  checkClaimsAndAudit environment certificate unsigned audit auditDigest
  return { signatures := signatures, unsigned := unsigned, manifestBytes := manifestBytes }

/-! ## Context -/

/-- The refs of a printed `G1` are the session's and the client key's. -/
def checkG1Binding (unsigned ring claim : PyValue) : Checked Unit := do
  let claimId ← index claim "claim_id"
  if pyEq claimId (.str "G1") then do
    let payload ← index claim "payload"
    let params ← index payload "params"
    let sessionRef ← index params "build_session_ref"
    let subject ← index unsigned "subject"
    let subjectSessionRef ← index subject "build_session_ref"
    demand (pyEq sessionRef subjectSessionRef) "G1_BINDING"
    let keyRef ← index params "client_key_ref"
    let ringKeyRef ← index ring "client_key_ref"
    demand (pyEq keyRef ringKeyRef) "G1_BINDING"
  else return ()

def checkClientRingContext (unsigned ring : PyValue)
    (context : VerificationContext environment.platform) : Checked Unit := do
  let keyRef ← index ring "client_key_ref"
  let algorithm ← index ring "client_signature_algorithm"
  demand (pyEq (optionalText context.expectedClientKeyRef) keyRef &&
    pyEq (optionalText context.expectedClientAlgorithm) algorithm) "CONTEXT"
  match context.clientPublicKey with
  | none => refuse "CLIENT_KEY_CONTEXT"
  | some clientPublicKey => do
      let derived ← deriveClientKeyRef environment.platform context.expectedProjectRef
        algorithm clientPublicKey
      demand (pyEq derived keyRef) "CLIENT_KEY_CONTEXT"
      let claims ← indexItems unsigned "claims"
      forM claims fun claim => checkG1Binding unsigned ring claim

def checkContext (unsigned signatures : PyValue)
    (context : VerificationContext environment.platform) : Checked Unit := do
  demand (isProjectRef context.expectedProjectRef) "PROJECT_CONTEXT"
  let ring ← index unsigned "key_ring_identifiers"
  let issuer ← index signatures "issuer_signature"
  let freshness ← index unsigned "freshness"
  let nonce ← index freshness "nonce"
  demand (pyEq (.leaf (.str context.expectedNonce)) nonce) "CONTEXT"
  let subject ← index unsigned "subject"
  let sessionRef ← index subject "build_session_ref"
  demand (pyEq (.leaf (.str context.expectedBuildSessionRef)) sessionRef) "CONTEXT"
  let projectRef ← index subject "project_ref"
  demand (pyEq (.leaf (.str context.expectedProjectRef)) projectRef) "CONTEXT"
  let issuerKeyRef ← index ring "issuer_key_ref"
  demand (pyEq (.leaf (.str context.expectedIssuerKeyRef)) issuerKeyRef) "CONTEXT"
  let issuerAlgorithm ← index ring "issuer_signature_algorithm"
  demand (pyEq (.leaf (.str context.expectedIssuerAlgorithm)) issuerAlgorithm) "CONTEXT"
  let trustRingRef ← index ring "trust_ring_ref"
  demand (pyEq (.leaf (.str context.expectedTrustRingRef)) trustRingRef) "CONTEXT"
  let statedKeyRef ← index issuer "issuer_key_ref"
  demand (pyEq statedKeyRef issuerKeyRef) "CONTEXT"
  let statedAlgorithm ← index issuer "algorithm"
  demand (pyEq statedAlgorithm issuerAlgorithm) "CONTEXT"
  let statedTrustRingRef ← index issuer "trust_ring_ref"
  demand (pyEq statedTrustRingRef trustRingRef) "CONTEXT"
  demand (ring.hasKey "client_key_ref" == ring.hasKey "client_signature_algorithm")
    "KEY_RING"
  if ring.hasKey "client_key_ref" then
    checkClientRingContext environment unsigned ring context
  else
    demand (context.expectedClientKeyRef.isNone && context.expectedClientAlgorithm.isNone)
      "CLIENT_KEY_CONTEXT"

/-! ## Co-attestation -/

def checkNoClientKeyContext (unsigned : PyValue)
    (context : VerificationContext environment.platform) : Checked Unit := do
  let ring ← index unsigned "key_ring_identifiers"
  demand (!ring.hasKey "client_key_ref" && !ring.hasKey "client_signature_algorithm" &&
      context.expectedClientKeyRef.isNone && context.expectedClientAlgorithm.isNone &&
      context.clientPublicKey.isNone)
    "CLIENT_KEY_CONTEXT"

/-- `_check_co_bindings`, once there is a client key. -/
def checkCoBindings (co unsigned : PyValue)
    (context : VerificationContext environment.platform) : Checked Unit := do
  let keyRef ← index co "client_key_ref"
  let ring ← index unsigned "key_ring_identifiers"
  let ringKeyRef ← index ring "client_key_ref"
  demand (pyEq keyRef ringKeyRef) "KEY_REF"
  let algorithm ← index co "algorithm"
  let ringAlgorithm ← index ring "client_signature_algorithm"
  demand (pyEq algorithm ringAlgorithm &&
    pyEq algorithm (optionalText context.expectedClientAlgorithm)) "ALGORITHM"
  let nonce ← index co "nonce"
  let freshness ← index unsigned "freshness"
  let signedNonce ← index freshness "nonce"
  demand (pyEq nonce signedNonce && pyEq nonce (.leaf (.str context.expectedNonce))) "NONCE"

/-- A printed claim that the client must have co-signed. -/
def requiresCoAttestation (claim : PyValue) : Checked Bool := do
  let claimId ← index claim "claim_id"
  if pyEq claimId (.str "G1") then return true
  else do
    let tier ← index claim "tier"
    return pyEq tier (.leaf (.int 1))

/-- `any(… for claim in claims)`, which stops at the first. -/
def anyRequires : List PyValue → Checked Bool
  | [] => .ok false
  | claim :: claims => do
      if ← requiresCoAttestation claim then return true else anyRequires claims

/-- The client's signature is over the certificate without the client's block. -/
def checkCoSignature (document co : PyValue) (clientPublicKey : environment.platform.PublicKey) :
    Checked Unit := do
  let prepared ← prepareClientProjection environment.platform document
  let stated ← index co "signed_manifest_digest"
  demand (pyEq stated prepared.signedManifestDigest) "CO_PROJECTION"
  let encoded ← index co "signature"
  let raw ← decodeSignature encoded
  let algorithm ← index co "algorithm"
  demand (!(pyEq algorithm ecdsaName &&
    decide (fromBigEndian (raw.drop 32) > ecdsaHalfOrder))) "CLIENT_SIGNATURE_NON_CANONICAL"
  verifySignature environment.platform clientPublicKey algorithm prepared.signingBytes encoded

def verifyCoAttestation (document signatures unsigned : PyValue)
    (context : VerificationContext environment.platform) : Checked Unit := do
  let claims ← indexItems document "claims"
  let requiresCo ← anyRequires claims
  let hasCo := signatures.hasKey "co_attestation"
  demand (requiresCo == hasCo) (if requiresCo then "CO_REQUIRED" else "CO_ZERO_CLAIMS")
  if hasCo then do
    let co ← index signatures "co_attestation"
    match context.clientPublicKey with
    | none => refuse "CLIENT_KEY_REQUIRED"
    | some clientPublicKey => do
        checkCoBindings environment co unsigned context
        checkCoSignature environment document co clientPublicKey
  else checkNoClientKeyContext environment unsigned context

/-! ## The verification -/

def verify (certificate : PyValue) (issuerPublicKey : environment.platform.PublicKey)
    (context : VerificationContext environment.platform) (policy : RelyingPartyPolicy) :
    Checked Unit := do
  let validated ← validatedDocument environment certificate policy
  checkContext environment validated.unsigned validated.signatures context
  let issuerSignature ← index validated.signatures "issuer_signature"
  let signedPayload ← index issuerSignature "signed_payload"
  demand (pyEq signedPayload (.list [PyValue.str "unsigned_manifest"])) "SIGNED_PAYLOAD"
  let algorithm ← index issuerSignature "algorithm"
  let material ← issuerMaterial validated.manifestBytes
  let encoded ← index issuerSignature "signature"
  verifySignature environment.platform issuerPublicKey algorithm material encoded
  verifyCoAttestation environment certificate validated.signatures validated.unsigned context

/-- `verify_certificate`: any other exception becomes the fixed error.  The result of a
verified certificate carries nothing of it. -/
def verifyCertificate (certificate : PyValue)
    (issuerPublicKey : environment.platform.PublicKey)
    (context : VerificationContext environment.platform) (policy : RelyingPartyPolicy) :
    Checked Unit :=
  match verify environment certificate issuerPublicKey context policy with
  | .error (.relyingParty code) => refuse code
  | .error _ => refuse "VERIFICATION_FAILED"
  | .ok result => .ok result

@[simp]
theorem verifyCertificate_eq_ok_iff {certificate : PyValue}
    {issuerPublicKey : environment.platform.PublicKey}
    {context : VerificationContext environment.platform} {policy : RelyingPartyPolicy}
    {u : Unit} :
    verifyCertificate environment certificate issuerPublicKey context policy = .ok u ↔
      verify environment certificate issuerPublicKey context policy = .ok u := by
  unfold verifyCertificate
  cases verify environment certificate issuerPublicKey context policy with
  | ok result => rfl
  | error failure => cases failure <;> simp

end Verification

end TraigentSchema.AgentCertificate
