import TraigentSchema.AgentCertificate.Verifier
import TraigentSchema.Fp2.Injective
import TraigentSchema.Python.JsonDumps

/-!
# Preparing a client's co-attestation

Before a client signs, the certificate that the issuer prepared is measured, validated
and compared with the client's own pins, and the issuer's signature is checked.  Only
then are the bytes to sign returned.
-/

namespace TraigentSchema.AgentCertificate

open TraigentSchema.Unicode
open TraigentSchema.Binary64
open TraigentSchema.Certification
open TraigentSchema.Fp2
open TraigentSchema.Python
open TraigentSchema.Traverse

/-! ## The measure of a response -/

/-- The levels and the nodes of a value, and the estimate of its encoded size. -/
structure Extent where
  depth : ℕ
  nodes : ℕ
  size : ℕ
  deriving DecidableEq, Repr

/-- `len(json.dumps(s, ensure_ascii=True))`. -/
def dumpedSize (s : Text) : ℕ :=
  (s.flatMap asciiEscape).length + 2

def preflightScalarSize : Atom → Checked ℕ
  | .str s => .ok (dumpedSize s)
  | .int i => do
      demand (decide (i.natAbs ≤ maxSafeInteger)) "CO_PROJECTION"
      return (integerText i).length
  | .none => .ok 5
  | .bool _ => .ok 5
  | .float (.finite negative m) => do
      demand (decide (m.value.den = 1 ∧ m.value.num ≤ maxSafeInteger)) "CO_PROJECTION"
      return (integerText (floatValue negative m).num).length
  | .float _ => refuse "CO_PROJECTION"
  | .foreign _ => refuse "CO_PROJECTION"

/-- The size of a key and of what stands around its member. -/
def preflightKeySize : Key → Checked ℕ
  | .str s => .ok (dumpedSize s + 2)
  | .foreign _ => refuse "CO_PROJECTION"

/-- A container around its children. -/
def Extent.around (size : ℕ) (children : List Extent) : Extent where
  depth := (children.map Extent.depth).foldr max 0 + 1
  nodes := (children.map Extent.nodes).sum + 1
  size := (children.map Extent.size).sum + size

/-- What the loop of `_preflight_client_projection` adds up: each of its errors is the
same, so that it does not matter at which node a limit is passed. -/
def preflightExtent : PyValue → Checked Extent :=
  Tree.fold
    (fun x => do
      let size ← preflightScalarSize x
      return ⟨1, 1, size⟩)
    (fun items => do
      let children ← items.mapM id
      return Extent.around (2 + items.length) children)
    (fun members => do
      let keys ← members.mapM fun member => preflightKeySize member.1
      let children ← members.mapM fun member => member.2
      return Extent.around (2 + keys.sum) children)

def maxClientCertificateProjectionBytes : ℕ :=
  1024 * 384 + 2 * 16 * 2048 + 64 * 1024

def maxClientCertificateNodes : ℕ := 100000

def maxClientCertificateValueDepth : ℕ := 64

def preflightClientProjection (value : PyValue) : Checked Unit := do
  demand value.isDict "CO_PROJECTION"
  let extent ← preflightExtent value
  demand (decide (extent.depth ≤ maxClientCertificateValueDepth ∧
    extent.nodes ≤ maxClientCertificateNodes ∧
    extent.size ≤ maxClientCertificateProjectionBytes)) "CO_PROJECTION"

/-! ## The client's pins -/

/-- Between `low` and `high` characters of a class. -/
def isRun (class_ : CodePoint → Bool) (low high : ℕ) (s : Text) : Bool :=
  decide (low ≤ s.length ∧ s.length ≤ high) && s.all class_

def isDecimal (c : CodePoint) : Bool :=
  inRange c '0' '9'

def isLowerHex (c : CodePoint) : Bool :=
  inRange c 'a' 'f' || isDecimal c

def isLowerAlphanumeric (c : CodePoint) : Bool :=
  inRange c 'a' 'z' || isDecimal c

/-- `_REF_RE`. -/
def isRef (s : Text) : Bool :=
  match s.splitOn (codePoint ':') with
  | [kind, ref] =>
      (kind.take 1).all (fun c => inRange c 'a' 'z') &&
        isRun (fun c => isLowerAlphanumeric c || (text "_.-").contains c) 2 64 kind &&
        isRun (fun c => isAlphanumeric c || (text "_-").contains c) 8 128 ref
  | _ => false

/-- `_SHA256_RE`. -/
def isSha256Text (s : Text) : Bool :=
  s.take 7 == text "sha256:" && isRun isLowerHex 64 64 (s.drop 7)

/-- `_SEMVER_RE`. -/
def isSemver (s : Text) : Bool :=
  match s.splitOn (codePoint '.') with
  | [major, minor, patch] => [major, minor, patch].all (isRun isDecimal 1 4)
  | _ => false

/-- `_VERIFIER_ID_RE`. -/
def isVerifierId (s : Text) : Bool :=
  s.take 9 == text "ver.cert." &&
    isRun (fun c => isLowerAlphanumeric c || c == codePoint '_') 1 64 (s.drop 9)

def isLiteralOf (literals : List String) (s : Text) : Bool :=
  literals.any fun literal => s == text literal

def signatureAlgorithms : List String := ["ed25519", "ecdsa_p256_sha256"]

/-- The fields of a `ClientCoAttestationContext`. -/
structure ClientPins (platform : Platform) where
  expectedProjectRef : Text
  expectedBuildSessionRef : Text
  expectedSessionCommitmentDigest : Text
  expectedNonce : Text
  expectedPrivacyMode : Text
  expectedSdkRef : Text
  expectedSdkVersion : Text
  expectedDisclosureProfileId : Text
  expectedIssuerKeyRef : Text
  expectedTrustRingRef : Text
  expectedIssuerAlgorithm : Text
  expectedCompilerRegisterVersions : CompilerRegisters
  expectedG1VerifierId : Text
  expectedG1VerifierVersion : Text
  manifestRootDigest : Text
  commitmentScheme : Text
  clientAttestorVersion : Text
  expectedClientAlgorithm : Text
  clientPublicKey : platform.PublicKey
  issuerPublicKey : platform.PublicKey

section Pins

variable {platform : Platform}

/-- The values with a pattern. -/
def ClientPins.patterned (pins : ClientPins platform) : List (Text × (Text → Bool)) :=
  [(pins.expectedProjectRef, isProjectRef), (pins.expectedBuildSessionRef, isRef),
    (pins.expectedSessionCommitmentDigest, isSha256Text),
    (pins.expectedNonce, isRun isLowerHex 32 64),
    (pins.expectedSdkRef, isRun isLowerHex 40 40), (pins.expectedSdkVersion, isSemver),
    (pins.expectedIssuerKeyRef, isRef), (pins.expectedTrustRingRef, isRef),
    (pins.expectedG1VerifierId, isVerifierId), (pins.expectedG1VerifierVersion, isSemver),
    (pins.manifestRootDigest, isSha256Text), (pins.clientAttestorVersion, isSemver)]

/-- The values of an enumeration. -/
def ClientPins.enumerated (pins : ClientPins platform) : List (Text × List String) :=
  [(pins.expectedPrivacyMode, ["offline", "current_online", "private_online"]),
    (pins.expectedDisclosureProfileId, ["public", "customer_internal", "auditor_only"]),
    (pins.commitmentScheme, ["sha256_secret_blinded_v1"]),
    (pins.expectedIssuerAlgorithm, signatureAlgorithms),
    (pins.expectedClientAlgorithm, signatureAlgorithms)]

def ClientPins.issuerKeyMatchesAlgorithm (pins : ClientPins platform) : Bool :=
  if pins.expectedIssuerAlgorithm = text "ed25519" then
    platform.keyKind pins.issuerPublicKey == .ed25519
  else platform.keyKind pins.issuerPublicKey == .ecdsaP256

/-- `_check_register_pins`; the keys are those of the structure. -/
def CompilerRegisters.wellPatterned (registers : CompilerRegisters) : Bool :=
  isSemver registers.compilerVersion &&
    [registers.semanticsManifestDigest, registers.claimTemplateCatalogDigest,
      registers.prohibitedRegisterDigest, registers.verifierCatalogDigest,
      registers.nonClaimReasonCatalogDigest].all isSha256Text

/-- What the constructor asks for. -/
def ClientPins.wellPatterned (pins : ClientPins platform) : Bool :=
  (pins.patterned.all fun row => row.2 row.1) &&
    (pins.enumerated.all fun row => isLiteralOf row.2 row.1) &&
    pins.issuerKeyMatchesAlgorithm && pins.expectedCompilerRegisterVersions.wellPatterned

end Pins

/-- `ClientCoAttestationContext`: the pins that its constructor lets through. -/
structure ClientCoAttestationContext (platform : Platform) extends ClientPins platform where
  wellPatterned : toClientPins.wellPatterned = true

/-! ## Intent -/

/-- `name in v`. -/
def containsName (v : PyValue) (name : String) : Checked Bool :=
  match v with
  | .dict _ => .ok (v.hasKey name)
  | .list items => .ok (items.any fun item => pyEq item (.str name))
  | .leaf (.str s) => .ok (decide (text name <:+: s))
  | .leaf _ => .error .other

/-- `set(v) == set(names)`. -/
def isNameSet (v : PyValue) (names : List String) : Checked Bool := do
  let items ← iterate v
  forM items requireHashable
  return (items.all fun item => names.any fun name => pyEq item (.str name)) &&
    names.all fun name => items.any fun item => pyEq item (.str name)

def resolveProjectionPath (root : PyValue) (path : List String) : Checked PyValue :=
  path.foldlM index root

def g1CrossBoundParamPaths : List (String × List String) :=
  [("build_session_ref", ["subject", "build_session_ref"]),
    ("client_key_ref", ["unsigned", "key_ring_identifiers", "client_key_ref"])]

def checkG1CrossBoundParams (document unsigned params : PyValue) : Checked Unit := do
  let subject ← index document "subject"
  let roots := PyValue.object [("subject", subject), ("unsigned", unsigned)]
  forM g1CrossBoundParamPaths fun (name, path) => do
    let param ← index params name
    let value ← resolveProjectionPath roots path
    demand (pyEq param value) "CO_PROJECTION"

/-- `_CLIENT_CO_ATTESTATION_PIN_BINDINGS` with the pinned values, but for the compiler
registers. -/
def ClientPins.bindings {platform : Platform} (pins : ClientPins platform)
    (derivedKeyRef : PyValue) : List (List String × PyValue) :=
  [(["subject", "project_ref"], .leaf (.str pins.expectedProjectRef)),
    (["subject", "build_session_ref"], .leaf (.str pins.expectedBuildSessionRef)),
    (["subject", "session_commitment_digest"],
      .leaf (.str pins.expectedSessionCommitmentDigest)),
    (["unsigned", "freshness", "nonce"], .leaf (.str pins.expectedNonce)),
    (["unsigned", "privacy_mode", "declared_mode"], .leaf (.str pins.expectedPrivacyMode)),
    (["unsigned", "sdk_identity", "sdk_ref"], .leaf (.str pins.expectedSdkRef)),
    (["unsigned", "sdk_identity", "sdk_version"], .leaf (.str pins.expectedSdkVersion)),
    (["unsigned", "disclosure_profile", "profile_id"],
      .leaf (.str pins.expectedDisclosureProfileId)),
    (["unsigned", "key_ring_identifiers", "issuer_key_ref"],
      .leaf (.str pins.expectedIssuerKeyRef)),
    (["unsigned", "key_ring_identifiers", "trust_ring_ref"],
      .leaf (.str pins.expectedTrustRingRef)),
    (["unsigned", "key_ring_identifiers", "issuer_signature_algorithm"],
      .leaf (.str pins.expectedIssuerAlgorithm)),
    (["g1", "verifier", "verifier_id"], .leaf (.str pins.expectedG1VerifierId)),
    (["g1", "verifier", "verifier_version"], .leaf (.str pins.expectedG1VerifierVersion)),
    (["g1", "payload", "params", "manifest_root_digest"],
      .leaf (.str pins.manifestRootDigest)),
    (["g1", "payload", "params", "commitment_scheme"], .leaf (.str pins.commitmentScheme)),
    (["g1", "payload", "params", "client_attestor_version"],
      .leaf (.str pins.clientAttestorVersion)),
    (["unsigned", "key_ring_identifiers", "client_signature_algorithm"],
      .leaf (.str pins.expectedClientAlgorithm)),
    (["unsigned", "key_ring_identifiers", "client_key_ref"], derivedKeyRef)]

section Preparation

variable (environment : Environment)

def checkClientPins (document unsigned g1Claim : PyValue)
    (pins : ClientPins environment.platform) (derivedKeyRef : PyValue) : Checked Unit := do
  let subject ← index document "subject"
  let roots := PyValue.object [("subject", subject), ("unsigned", unsigned), ("g1", g1Claim)]
  let values ← (pins.bindings derivedKeyRef).mapM fun row =>
    resolveProjectionPath roots row.1
  let registers ← index unsigned "compiler_register_versions"
  let stated ← select registers compilerRegisterKeys
  demand (pyEq (.list values) (.list ((pins.bindings derivedKeyRef).map Prod.snd)) &&
    pyEq stated (.object pins.expectedCompilerRegisterVersions.rows)) "CO_CONTEXT"

/-- The error of preparation for an error of the issuer's signature; any other error is
raised again. -/
def asPreparationError : Failure → Failure
  | .relyingParty code =>
      if code ∈ ["ALGORITHM", "KEY_ALGORITHM"] then .relyingParty "CO_CONTEXT"
      else if code ∈ ["SIGNATURE_BASE64", "SIGNATURE_SCALAR", "SIGNATURE_HIGH_S",
        "SIGNATURE_INVALID"] then .relyingParty "CO_PROJECTION"
      else .relyingParty code
  | failure => failure

def checkPrepareIssuerSignature (unsigned issuer : PyValue)
    (pins : ClientPins environment.platform) : Checked Unit :=
  Except.mapError asPreparationError (do
    let canonical ← manifestBytes environment.platform environment.manifestSchema unsigned
    let algorithm ← index issuer "algorithm"
    let material ← issuerMaterial canonical
    let encoded ← index issuer "signature"
    verifySignature environment.platform pins.issuerPublicKey algorithm material encoded)

/-- The printed `G1` claim, which must be the only one, on tier 1. -/
def theG1Claim (document : PyValue) : Checked PyValue := do
  let claims ← indexItems document "claims"
  forM claims fun claim => do
    let _ ← index claim "claim_id"
  let claim ← only (claims.filter fun claim => pyEq (claim.field "claim_id") (.str "G1"))
    "CO_G1_REQUIRED"
  let tier ← index claim "tier"
  demand (pyEq tier (.leaf (.int 1))) "CO_G1_REQUIRED"
  return claim

/-- The semantics are the five registers with a catalog. -/
def checkPreparedSemantics (document unsigned : PyValue) : Checked Unit := do
  let registers ← index unsigned "compiler_register_versions"
  let semantics ← index document "semantics"
  let sameKeys ← isNameSet semantics semanticsKeys
  demand sameKeys "CO_PROJECTION"
  let signed ← select registers semanticsKeys
  demand (pyEq semantics signed) "CO_PROJECTION"

/-- The issuer's block repeats the key ring. -/
def checkPreparedIssuer (issuer ring : PyValue) : Checked Unit := do
  let payload ← index issuer "signed_payload"
  demand (pyEq payload (.list [PyValue.str "unsigned_manifest"])) "CO_PROJECTION"
  let keyRef ← index issuer "issuer_key_ref"
  let ringKeyRef ← index ring "issuer_key_ref"
  demand (pyEq keyRef ringKeyRef) "CO_PROJECTION"
  let algorithm ← index issuer "algorithm"
  let ringAlgorithm ← index ring "issuer_signature_algorithm"
  demand (pyEq algorithm ringAlgorithm) "CO_PROJECTION"
  let trustRingRef ← index issuer "trust_ring_ref"
  let ringTrustRingRef ← index ring "trust_ring_ref"
  demand (pyEq trustRingRef ringTrustRingRef) "CO_PROJECTION"

def validateClientPreparationContext (document : PyValue)
    (pins : ClientPins environment.platform) : Checked Unit := do
  let signatures ← index document "signatures"
  let unsignedRef ← index signatures "unsigned_manifest"
  let unsigned ← index unsignedRef "document"
  let audit ← index document "audit_report"
  let g1Claim ← theG1Claim document
  let auditDigest ← relyingDigest environment auditDomain audit
  let statedDigest ← index unsignedRef "manifest_digest"
  let manifestDigest ← relyingDigest environment unsignedDomain unsigned
  demand (pyEq statedDigest manifestDigest) "CO_PROJECTION"
  let coverage ← indexItems unsignedRef "coverage"
  demand (pyEq (.list coverage) (.list (manifestCoverage.map PyValue.str))) "CO_PROJECTION"
  checkPreparedSemantics document unsigned
  let sealed ← index document "ledger_seal_projection"
  checkStreams environment sealed
  checkProjections document unsigned auditDigest
  checkClaimsAndAudit environment document unsigned audit auditDigest
  let payload ← index g1Claim "payload"
  let params ← index payload "params"
  let ring ← index unsigned "key_ring_identifiers"
  let issuer ← index signatures "issuer_signature"
  let namesKey ← containsName ring "client_key_ref"
  demand namesKey "CO_PROJECTION"
  let namesAlgorithm ← containsName ring "client_signature_algorithm"
  demand namesAlgorithm "CO_PROJECTION"
  let derivedKeyRef ← orRefuse (deriveClientKeyRef environment.platform
    pins.expectedProjectRef (.leaf (.str pins.expectedClientAlgorithm)) pins.clientPublicKey)
    "CO_CONTEXT"
  checkPreparedIssuer issuer ring
  checkG1CrossBoundParams document unsigned params
  let auditRoot ← index audit "client_evidence_manifest_root"
  let root ← index params "manifest_root_digest"
  demand (pyEq auditRoot root) "CO_PROJECTION"
  checkClientPins environment document unsigned g1Claim pins derivedKeyRef
  checkPrepareIssuerSignature environment unsigned issuer pins

def clientCoAttestationErrorCodes : List String :=
  ["CO_CONTEXT", "CO_G1_REQUIRED", "CO_PROJECTION", "CO_SCHEMA_DEPENDENCY"]

/-- An error of the verifier's vocabulary that preparation does not have becomes the
fixed one. -/
def inPreparationVocabulary : Failure → Failure
  | .relyingParty code =>
      if code ∈ clientCoAttestationErrorCodes then .relyingParty code
      else .relyingParty "CO_PROJECTION"
  | failure => failure

def prepareClientCoAttestation (prepareResponse : PyValue)
    (context : ClientCoAttestationContext environment.platform) :
    Checked ClientCertificateProjection := do
  preflightClientProjection prepareResponse
  demand (environment.preparationSchema prepareResponse) "CO_PROJECTION"
  Except.mapError inPreparationVocabulary
    (validateClientPreparationContext environment prepareResponse context.toClientPins)
  prepareClientProjection environment.platform prepareResponse

end Preparation

end TraigentSchema.AgentCertificate
