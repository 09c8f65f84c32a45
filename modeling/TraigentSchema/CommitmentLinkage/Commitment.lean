import TraigentSchema.AgentCertificate.Preparation
import TraigentSchema.Library.Framing

/-!
# Commitment linkage

A sidecar, signed on its own and bound to one process record, commits to the fingerprints a
client declared.  Here are the commitment function, the schema of the sidecar, its verifier
and the opening of one role's commitment.
-/

namespace TraigentSchema.CommitmentLinkage

open TraigentSchema.Unicode
open TraigentSchema.AgentCertificate
open TraigentSchema.Base64 (base64Digit padding)
open TraigentSchema.Certification hiding index
open TraigentSchema.Fp2
open TraigentSchema.Framing
open TraigentSchema.Hashing
open TraigentSchema.Python
open TraigentSchema.Traverse

/-- A failure with a fixed code. -/
structure CommitmentLinkageError where
  code : String
  deriving DecidableEq, Repr

abbrev Linked (A : Type) := Except CommitmentLinkageError A

/-- `_fail`. -/
def failWith {A : Type} (code : String) : Linked A :=
  .error ⟨code⟩

/-- `if not condition: _fail(code)`. -/
def check (condition : Bool) (code : String) : Linked Unit :=
  if condition then .ok () else failWith code

@[simp]
theorem check_eq_ok_iff {condition : Bool} {code : String} {u : Unit} :
    check condition code = .ok u ↔ condition = true := by
  cases condition <;> simp [check, failWith]

@[simp]
theorem failWith_ne_ok {A : Type} (code : String) (a : A) : failWith code ≠ .ok a := by
  simp [failWith]

/-- An exception other than the ones a step names is replaced at the public boundary. -/
def verificationFailed {A : Type} : Linked A :=
  failWith "VERIFICATION_FAILED"

/-- `try: … except Exception: _fail(code)`. -/
def orFailWith {A : Type} (attempt : Checked A) (code : String) : Linked A :=
  match attempt with
  | .ok a => .ok a
  | .error _ => failWith code

/-- `try: … except RelyingPartyVerificationError: _fail(code)`. -/
def orRefusedWith {A : Type} (attempt : Checked A) (code : String) : Linked A :=
  match attempt with
  | .ok a => .ok a
  | .error (.relyingParty _) => failWith code
  | .error _ => verificationFailed

def index (v : PyValue) (name : String) : Linked PyValue :=
  match v.member name with
  | some w => .ok w
  | none => verificationFailed

/-! ## The commitment function -/

/-- Evaluator roles are a closed, service-assigned vocabulary. -/
def roles : List String :=
  ["agent", "dataset", "config_space", "evaluator:primary", "evaluator:r0", "evaluator:r1",
    "evaluator:r2", "evaluator:r3", "evaluator:r4", "evaluator:r5", "evaluator:r6",
    "evaluator:r7"]

def bases : List String :=
  ["source_text", "name_only", "endpoint_only", "order_free_multiset", "config_space",
    "unavailable"]

def openingBytes : ℕ := 32

/-- A string of a kind. -/
def isStr (p : Text → Bool) : PyValue → Bool
  | .leaf (.str s) => p s
  | _ => false

def strText : PyValue → Text
  | .leaf (.str s) => s
  | _ => []

/-- `P`, the framed preimage of a commitment. -/
def commitmentPreimage (role basis fpDigest : Text) (opening : Bytes) : Bytes :=
  lengthPrefixed (utf8 (text "traigent.commitment-linkage.v1")) ++ lengthPrefixed (utf8 role) ++
    lengthPrefixed (utf8 basis) ++ lengthPrefixed (utf8 (text "fp1")) ++
    lengthPrefixed (utf8 fpDigest) ++ lengthPrefixed opening

section Functions

variable (platform : Platform)

/-- `compute_commitment`.  An opening that is not exactly `bytes` is none. -/
def computeCommitment (role basis fpDigest : PyValue) (opening : Option Bytes) :
    Linked Text := do
  check (isStr (isLiteralOf roles) role) "ROLE_SHAPE"
  check (isStr (isLiteralOf bases) basis && !pyEq basis (.str "unavailable")) "ROLE_SHAPE"
  check (isStr isSha256Text fpDigest) "FINGERPRINT_SHAPE"
  match opening with
  | none => failWith "OPENING_SHAPE"
  | some raw => do
      check (raw.length == openingBytes) "OPENING_SHAPE"
      return sha256Text platform
        (commitmentPreimage (strText role) (strText basis) (strText fpDigest) raw)

/-! ## The schema of the sidecar -/

/-- A pattern that ends in `$`, which also matches before a last line break. -/
def hasPattern (p : Text → Bool) : PyValue → Bool :=
  isStr fun s => p s || (s.getLast? == some (codePoint '\n') && p s.dropLast)

def isEnum (literals : List String) : PyValue → Bool :=
  isStr (isLiteralOf literals)

/-- An object with these members, the optional ones present or not, and no others. -/
def isClosed (v : PyValue) (required optional : List String) : Bool :=
  match v with
  | .dict members =>
      (members.all fun m => (required ++ optional).any fun name => m.1.isName name) &&
        required.all fun name => v.hasKey name
  | _ => false

/-- The bases an entry of a role may have. -/
def basesOf (role : PyValue) : List String :=
  if isEnum ["agent"] role then ["source_text", "name_only", "unavailable"]
  else if isEnum ["dataset"] role then ["order_free_multiset", "unavailable"]
  else if isEnum ["config_space"] role then ["config_space", "unavailable"]
  else if isStr (fun s => s.take 10 == text "evaluator:") role then
    ["source_text", "endpoint_only", "name_only", "unavailable"]
  else bases

/-- `CommitmentLinkageEntryV1`. -/
def entrySchema (entry : PyValue) : Bool :=
  let role := entry.field "role"
  let basis := entry.field "basis"
  isClosed entry ["role", "basis", "attestation"] ["commitment"] &&
    isEnum roles role && isEnum bases basis &&
    isEnum ["client_declared"] (entry.field "attestation") &&
    (!entry.hasKey "commitment" || hasPattern isSha256Text (entry.field "commitment")) &&
    (if isEnum ["unavailable"] basis then !entry.hasKey "commitment"
      else entry.hasKey "commitment") &&
    isEnum (basesOf role) basis &&
    (!isEnum ["config_space"] basis || isEnum ["config_space"] role)

/-- `UnsignedCommitmentLinkageV1`. -/
def unsignedLinkageSchema (unsigned : PyValue) : Bool :=
  isClosed unsigned
      ["schema_version", "process_record_digest", "project_ref", "build_session_ref", "entries"]
      [] &&
    isEnum ["traigent.commitment_linkage.unsigned.v1"] (unsigned.field "schema_version") &&
    hasPattern isSha256Text (unsigned.field "process_record_digest") &&
    hasPattern isProjectRef (unsigned.field "project_ref") &&
    hasPattern isRef (unsigned.field "build_session_ref") &&
    match unsigned.field "entries" with
    | .list entries =>
        decide (1 ≤ entries.length ∧ entries.length ≤ 16) && entries.all entrySchema
    | _ => false

/-- The pattern of `SignatureBytes`. -/
def isSignatureBytes (s : Text) : Bool :=
  (s.take 85).length == 85 && (s.take 85).all (fun c => (base64Digit c).isSome) &&
    ((s.drop 85).take 1).all (fun c => (text "AQgw").contains c) &&
    (s.drop 86) == [padding, padding]

/-- `CommitmentLinkageSignatureV1`. -/
def signatureSchema (signature : PyValue) : Bool :=
  isClosed signature
      ["schema_version", "algorithm", "issuer_key_ref", "trust_ring_ref", "signed_payload",
        "unsigned_linkage_digest", "signature"] [] &&
    isEnum ["traigent.commitment_linkage.signature.v1"] (signature.field "schema_version") &&
    isEnum signatureAlgorithms (signature.field "algorithm") &&
    hasPattern isRef (signature.field "issuer_key_ref") &&
    hasPattern isRef (signature.field "trust_ring_ref") &&
    isEnum ["unsigned_commitment_linkage"] (signature.field "signed_payload") &&
    hasPattern isSha256Text (signature.field "unsigned_linkage_digest") &&
    hasPattern isSignatureBytes (signature.field "signature")

/-- `CommitmentLinkageEnvelopeV1`. -/
def envelopeSchema (envelope : PyValue) : Bool :=
  isClosed envelope ["schema_version", "unsigned_linkage", "signature"] [] &&
    isEnum ["traigent.commitment_linkage.v1"] (envelope.field "schema_version") &&
    unsignedLinkageSchema (envelope.field "unsigned_linkage") &&
    signatureSchema (envelope.field "signature")

/-! ## The verifier -/

/-- `LinkageIssuerKeyV1`. -/
structure LinkageIssuerKey where
  keyRef : Text
  trustRingRef : Text
  algorithm : Text
  publicKeyDerB64 : Text
  publicKeyDigest : Text

/-- `_check_issuer_key_context`. -/
def LinkageIssuerKey.wellFormed (key : LinkageIssuerKey) : Bool :=
  isRef key.keyRef && isRef key.trustRingRef &&
    isLiteralOf ["ed25519", "ecdsa_p256_sha256"] key.algorithm &&
    !key.publicKeyDerB64.isEmpty && isSha256Text key.publicKeyDigest

/-- `CommitmentLinkageVerificationContext`, with what its constructor checks. -/
structure VerificationContext where
  expectedProcessRecordDigest : Text
  expectedProjectRef : Text
  expectedBuildSessionRef : Text
  issuerKey : LinkageIssuerKey
  processRecordDigest_shape : isSha256Text expectedProcessRecordDigest = true
  projectRef_shape : isProjectRef expectedProjectRef = true
  buildSessionRef_shape : isRef expectedBuildSessionRef = true
  issuerKey_wellFormed : issuerKey.wellFormed = true

/-- A row of `VerifiedCommitmentLinkage.entries`. -/
structure LinkageEntry where
  role : PyValue
  basis : PyValue
  /-- `None` where the entry has none. -/
  commitment : PyValue

structure VerifiedCommitmentLinkage where
  processRecordDigest : PyValue
  unsignedLinkageDigest : PyValue
  entries : List LinkageEntry

def strValue (s : Text) : PyValue := .leaf (.str s)

def isAscii (s : Text) : Bool :=
  s.all fun c => c.val < 0x80

/-- The projection `_material_public_key` is given. -/
def LinkageIssuerKey.projection (key : LinkageIssuerKey) : PyValue :=
  .object [("public_key_der_b64", strValue key.publicKeyDerB64),
    ("public_key_digest", strValue key.publicKeyDigest), ("algorithm", strValue key.algorithm)]

def checkSignature (unsigned signature : PyValue) (key : LinkageIssuerKey) : Linked Unit := do
  let issuerKeyRef ← index signature "issuer_key_ref"
  let trustRingRef ← index signature "trust_ring_ref"
  let algorithm ← index signature "algorithm"
  check (pyEq issuerKeyRef (strValue key.keyRef) && pyEq trustRingRef (strValue key.trustRingRef) &&
    pyEq algorithm (strValue key.algorithm)) "KEY_MISMATCH"
  check (isAscii key.publicKeyDerB64 && isAscii key.publicKeyDigest) "KEY_MATERIAL"
  let publicKey ←
    orRefusedWith (materialPublicKey platform key.projection issuerSpkiDomain) "KEY_MATERIAL"
  let canonical ← orFailWith (canonicalUtf8 platform unsigned) "CANONICALIZATION"
  let material := preimage "traigent.commitment_linkage.issuer_signature.v1" canonical
  let encoded ← index signature "signature"
  orRefusedWith (verifySignature platform publicKey algorithm material encoded)
    "SIGNATURE_INVALID"

/-- The row of an entry. -/
def entryRow (entry : PyValue) : Linked LinkageEntry := do
  let role ← index entry "role"
  let basis ← index entry "basis"
  return ⟨role, basis, entry.field "commitment"⟩

/-- `unsigned["entries"]`. -/
def entriesOf (unsigned : PyValue) : Linked (List PyValue) := do
  match ← index unsigned "entries" with
  | .list entries => .ok entries
  | _ => verificationFailed

def verify (envelope : PyValue) (context : VerificationContext) :
    Linked VerifiedCommitmentLinkage := do
  check (envelopeSchema envelope) "SCHEMA"
  let unsigned ← index envelope "unsigned_linkage"
  let signature ← index envelope "signature"
  let entries ← entriesOf unsigned
  let rowRoles ← entries.mapM fun entry => index entry "role"
  check (rowRoles.all (isStr (isLiteralOf roles))) "ROLE_SHAPE"
  check (decide (rowRoles.map strText).Nodup) "DUPLICATE_ROLE"
  let digest ← orFailWith
    (roleDigest platform "traigent.commitment_linkage.unsigned.v1" unsigned) "CANONICALIZATION"
  check (pyEq (signature.field "unsigned_linkage_digest") digest)
    "UNSIGNED_LINKAGE_DIGEST_MISMATCH"
  checkSignature platform unsigned signature context.issuerKey
  let processRecordDigest ← index unsigned "process_record_digest"
  check (pyEq processRecordDigest (strValue context.expectedProcessRecordDigest))
    "RECORD_BINDING_MISMATCH"
  check (pyEq (unsigned.field "project_ref") (strValue context.expectedProjectRef) &&
    pyEq (unsigned.field "build_session_ref") (strValue context.expectedBuildSessionRef))
    "SCOPE_MISMATCH"
  let rows ← entries.mapM entryRow
  return ⟨processRecordDigest, digest, rows⟩

def verifyCommitmentLinkage (envelope : PyValue) (context : VerificationContext) :
    Linked VerifiedCommitmentLinkage := do
  check envelope.isDict "ENVELOPE_SHAPE"
  verify platform envelope context

/-! ## Opening -/

inductive OpenResult where
  | openedMatch
  | openedMismatch
  | unavailable
  deriving DecidableEq, Repr

/-- `hmac.compare_digest` on the ASCII forms. -/
def compareDigest (expected : Text) : PyValue → Linked Bool
  | .leaf (.str commitment) =>
      if isAscii commitment then .ok (expected == commitment) else verificationFailed
  | _ => verificationFailed

/-- The loop of `_open_commitment`. -/
def scanEntries (role fpDigest : PyValue) (opening : Option Bytes) :
    List LinkageEntry → Linked OpenResult
  | [] => .ok .unavailable
  | entry :: entries =>
      if !pyEq entry.role role then scanEntries role fpDigest opening entries
      else if pyEq entry.basis (.str "unavailable") || pyEq entry.commitment (.leaf .none) then
        .ok .unavailable
      else do
        let expected ← computeCommitment platform entry.role entry.basis fpDigest opening
        let same ← compareDigest expected entry.commitment
        return if same then .openedMatch else .openedMismatch

def openCommitment (linkage : VerifiedCommitmentLinkage) (role fpDigest : PyValue)
    (opening : Option Bytes) : Linked OpenResult := do
  check (isStr (isLiteralOf roles) role) "ROLE_SHAPE"
  check (isStr isSha256Text fpDigest) "FINGERPRINT_SHAPE"
  check (opening.any fun raw => raw.length == openingBytes) "OPENING_SHAPE"
  scanEntries platform role fpDigest opening linkage.entries

def verifyAndOpenCommitment (envelope : PyValue) (context : VerificationContext)
    (role fpDigest : PyValue) (opening : Option Bytes) : Linked OpenResult := do
  let linkage ← verifyCommitmentLinkage platform envelope context
  openCommitment platform linkage role fpDigest opening

end Functions

end TraigentSchema.CommitmentLinkage
