import TraigentSchema.AgentCertificate.SignedMaterial

/-!
# The checks within one certificate

What the verifier and the client's preparation both ask of an agent certificate: the
seal states its own digest, the signed manifest repeats the envelope's sections, and
every printed claim has its evidence and its row in the audit report.
-/

namespace TraigentSchema.AgentCertificate

open TraigentSchema.Unicode
open TraigentSchema.Certification
open TraigentSchema.Python
open TraigentSchema.Traverse

/-! ## Constants -/

def auditDomain : String := "traigent.agent_certificate.audit_report.v1"

def claimMaterialDomain : String := "traigent.agent_certificate.claim_material.v1"

def unsignedDomain : String := "traigent.agent_certificate.unsigned_manifest.v1"

def sealDomain : String := "traigent.agent_certificate.seal_statement.v1"

def compilerRegisterKeys : List String :=
  ["compiler_version", "semantics_manifest_digest", "claim_template_catalog_digest",
    "prohibited_register_digest", "verifier_catalog_digest",
    "non_claim_reason_catalog_digest"]

def semanticsKeys : List String :=
  compilerRegisterKeys.tail

/-- `_STREAM_FAMILIES` with `_BUILD_LEDGER_STREAM_STATUSES`. -/
def streams : List (String × String × String) :=
  [("decision_stream", "decision", "empty_sealed"),
    ("receipt_event_stream", "receipt_event", "sealed"),
    ("transition_stream", "transition", "sealed")]

def zeroDigest : PyValue :=
  .leaf (.str (text "sha256:" ++ List.replicate 64 (codePoint '0')))

/-- `_AUDIT_ROWS` with `_ABSTENTION_CODES`. -/
def auditRows : List (String × String) :=
  [("B1", "verifier_not_run_or_not_pass"), ("REG1", "unregistered_claim_id"),
    ("C1", "verifier_not_run_or_not_pass"), ("D2", "verifier_not_run_or_not_pass"),
    ("F1", "verifier_not_run_or_not_pass"), ("G1", "verifier_not_run_or_not_pass"),
    ("G3", "verifier_not_run_or_not_pass")]

def nonClaims : List (String × String) :=
  [("A3", "tmpl.noncert.a3_no_deployment_binding.v1"),
    ("A4", "tmpl.noncert.a4_no_drift_detection.v1"),
    ("B2", "tmpl.noncert.b2_no_closeout_reconciliation.v1"),
    ("E2", "tmpl.noncert.e2_statistical_validity_suspended.v1"),
    ("E3", "tmpl.noncert.e3_winner_stability_suspended.v1"),
    ("F3", "tmpl.noncert.f3_no_offline_verifiability.v1"),
    ("G2", "tmpl.noncert.g2_no_selective_disclosure.v1"),
    ("H1", "tmpl.noncert.h1_no_criteria_epochs.v1"),
    ("NC_STEP_CAPTURE", "tmpl.noncert.nc_step_capture.v1"),
    ("NC_PRESEAL_RECORDER", "tmpl.noncert.nc_preseal_recorder.v1"),
    ("NC_TIER4_GAPCHECKED", "tmpl.noncert.nc_tier4_gapchecked.v1"),
    ("NC_TARGET_MINIMIZED", "tmpl.noncert.nc_target_minimized.v1"),
    ("NC_CURRENT_ONLINE_FREETEXT", "tmpl.noncert.nc_current_online_freetext.v1"),
    ("NC_BUILD_SESSION_SCOPE", "tmpl.noncert.nc_build_session_scope.v1")]

/-- `_COVERAGE`. -/
def manifestCoverage : List String :=
  ["subject", "seal", "claims", "tiers", "evidence_digests", "non_claims",
    "disclosure_profile", "privacy_mode", "sdk_identity", "compiler_register_versions",
    "key_ring_identifiers", "freshness"]

/-! ## What a verification runs against -/

/-- The interpreter and the packaged schemas: whether a validator finds no error, and
what `str.format` writes for a value that is no string. -/
structure Environment where
  platform : Platform
  certificateSchema : PyValue → Bool
  manifestSchema : PyValue → Bool
  preparationSchema : PyValue → Bool
  formatted : PyValue → Text

/-- The six compiler registers that a relying party and a client pin. -/
structure CompilerRegisters where
  compilerVersion : Text
  semanticsManifestDigest : Text
  claimTemplateCatalogDigest : Text
  prohibitedRegisterDigest : Text
  verifierCatalogDigest : Text
  nonClaimReasonCatalogDigest : Text

def CompilerRegisters.rows (registers : CompilerRegisters) : List (String × PyValue) :=
  [("compiler_version", .leaf (.str registers.compilerVersion)),
    ("semantics_manifest_digest", .leaf (.str registers.semanticsManifestDigest)),
    ("claim_template_catalog_digest", .leaf (.str registers.claimTemplateCatalogDigest)),
    ("prohibited_register_digest", .leaf (.str registers.prohibitedRegisterDigest)),
    ("verifier_catalog_digest", .leaf (.str registers.verifierCatalogDigest)),
    ("non_claim_reason_catalog_digest",
      .leaf (.str registers.nonClaimReasonCatalogDigest))]

/-- `RelyingPartyPolicy`: the constructor fixes the keys of both tuples. -/
structure RelyingPartyPolicy where
  compilerRegisterVersions : CompilerRegisters
  /-- The id and the version of the verifier bound to `B1` and to `G1`. -/
  verifierB1 : Text × Text
  verifierG1 : Text × Text

/-! ## Reading -/

/-- `v[name]`, iterated. -/
def indexItems (v : PyValue) (name : String) : Checked (List PyValue) := do
  let items ← index v name
  iterate items

/-- A value put into a set or used as a key. -/
def requireHashable : PyValue → Checked Unit
  | .leaf _ => .ok ()
  | _ => .error .other

/-- An operand of string concatenation. -/
def textOf : PyValue → Checked Text
  | .leaf (.str s) => .ok s
  | _ => .error .other

/-- `{key: v[key] for key in keys}`. -/
def select (v : PyValue) (keys : List String) : Checked PyValue := do
  let rows ← keys.mapM fun key => do
    let value ← index v key
    return (key, value)
  return .object rows

def isAuditKind (kind : PyValue) : Bool :=
  pyEq kind (.str "audit_report_digest")

/-- The evidence refs of a claim, once with the audit report's and once without. -/
def evidenceRefs (claim : PyValue) : Checked (List PyValue × List PyValue) := do
  let refs ← indexItems claim "evidence_refs"
  forM refs fun ref => do
    let _ ← index ref "evidence_kind"
  return (refs.filter fun ref => isAuditKind (ref.field "evidence_kind"),
    refs.filter fun ref => !isAuditKind (ref.field "evidence_kind"))

/-- The ref of a list that must hold just one. -/
def only (refs : List PyValue) (code : String) : Checked PyValue :=
  match refs with
  | [ref] => .ok ref
  | _ => refuse code

section Checks

variable (environment : Environment)

/-- `_role_digest` of this verifier. -/
def relyingDigest (domain : String) (document : PyValue) : Checked PyValue :=
  orRefuse (roleDigest environment.platform domain document) "CANONICALIZATION"

/-! ## Seal and streams -/

def sealMembers : List String :=
  ["seal_ref", "chain_schema_version", "build_session_ref", "expected_stream_projection",
    "seal_statement_digest"]

def computeSealDigest (sealed : PyValue) : Checked PyValue := do
  demand (sealed.hasMembers sealMembers) "SEAL_DIGEST"
  orRefuse (roleDigest environment.platform sealDomain (sealed.erase "seal_statement_digest"))
    "SEAL_DIGEST"

def checkStreams (sealed : PyValue) : Checked Unit := do
  let version ← get sealed "chain_schema_version"
  demand (pyEq version (.str "traigent.cert_build_ledger.v0")) "LEDGER_PROFILE"
  let stated ← get sealed "seal_statement_digest"
  let digest ← computeSealDigest environment sealed
  demand (pyEq stated digest) "SEAL_DIGEST"
  let projection ← get sealed "expected_stream_projection"
  demand (projection.hasMembers (streams.map Prod.fst)) "LEDGER_STREAM"
  forM streams fun (name, family, status) => do
    let stream ← index projection name
    demand (stream.isDict && pyEq (stream.field "stream_family") (.str family) &&
        pyEq (stream.field "chain_status") (.str status) &&
        stream.hasKey "root_commitment" &&
        !pyEq (stream.field "root_commitment") zeroDigest)
      "LEDGER_STREAM"

/-! ## Policy -/

/-- The binding of a claim id, if there is one. -/
def RelyingPartyPolicy.verifierOf (policy : RelyingPartyPolicy) (claimId : PyValue) :
    Option (Text × Text) :=
  if pyEq claimId (.str "B1") then some policy.verifierB1
  else if pyEq claimId (.str "G1") then some policy.verifierG1
  else none

/-- The verifier a claim names is the one its id is bound to. -/
def checkVerifierBinding (policy : RelyingPartyPolicy) (claim : PyValue) : Checked Unit := do
  let verifier ← orRefuse (index claim "verifier") "POLICY"
  let claimId ← orRefuse (index claim "claim_id") "POLICY"
  match policy.verifierOf claimId with
  | none => refuse "POLICY"
  | some (verifierId, verifierVersion) => do
      let statedId ← index verifier "verifier_id"
      let statedVersion ← index verifier "verifier_version"
      demand (pyEq statedId (.leaf (.str verifierId)) &&
        pyEq statedVersion (.leaf (.str verifierVersion))) "POLICY"

def checkPolicy (certificate unsigned : PyValue) (policy : RelyingPartyPolicy) :
    Checked Unit := do
  let registers ← index unsigned "compiler_register_versions"
  demand (pyEq registers (.object policy.compilerRegisterVersions.rows)) "POLICY"
  let semantics ← index certificate "semantics"
  let stated ← select semantics semanticsKeys
  demand (pyEq stated (.object policy.compilerRegisterVersions.rows.tail)) "POLICY"
  let claims ← indexItems certificate "claims"
  forM claims fun claim => checkVerifierBinding policy claim

/-! ## Projections -/

/-- The manifest's sections with the envelope's and the error of a difference. -/
def projections : List (String × String × String) :=
  [("subject", "subject", "SUBJECT_BINDING"),
    ("seal", "ledger_seal_projection", "SEAL_BINDING"),
    ("claims", "claims", "CLAIMS_BINDING"),
    ("non_claims", "non_claims", "NON_CLAIMS_BINDING"),
    ("disclosure_profile", "disclosure_profile", "DISCLOSURE_PROFILE_BINDING")]

def expectedNonClaims : PyValue :=
  .list (nonClaims.map fun row => PyValue.object [("record_type", .str "non_claim"),
    ("non_claim_id", .str row.1), ("reason_template_id", .str row.2)])

/-- The tiers of the printed claims. -/
def expectedTiers (claims : List PyValue) : Checked PyValue := do
  let rows ← claims.mapM fun claim => do
    let claimId ← index claim "claim_id"
    let tier ← index claim "tier"
    return PyValue.object [("claim_id", claimId), ("tier", tier)]
  return .list rows

def auditEvidence (auditDigest : PyValue) : PyValue :=
  .object [("evidence_kind", .str "audit_report_digest"), ("evidence_digest", auditDigest)]

/-- One turn of the loop over the evidence refs: what was seen, and what is expected. -/
def collectEvidence (state : List (PyValue × PyValue) × List PyValue) (ref : PyValue) :
    Checked (List (PyValue × PyValue) × List PyValue) := do
  let kind ← index ref "evidence_kind"
  let digest ← index ref "evidence_digest"
  requireHashable kind
  requireHashable digest
  if state.1.any fun marker => pyEq marker.1 kind && pyEq marker.2 digest then return state
  else return ((kind, digest) :: state.1, state.2 ++ [ref])

/-- The audit report's digest and every other evidence ref, once each. -/
def expectedEvidence (claims : List PyValue) (auditDigest : PyValue) : Checked PyValue := do
  let refs ← claims.mapM fun claim => indexItems claim "evidence_refs"
  let state ← refs.flatten.foldlM collectEvidence
    ([(PyValue.str "audit_report_digest", auditDigest)], [auditEvidence auditDigest])
  return .list state.2

def checkProjections (certificate unsigned auditDigest : PyValue) : Checked Unit := do
  forM projections fun (section_, name, code) => do
    let signed ← index unsigned section_
    let printed ← index certificate name
    demand (pyEq signed printed) code
  let subject ← index certificate "subject"
  let sessionRef ← index subject "build_session_ref"
  let sealed ← index certificate "ledger_seal_projection"
  let sealSessionRef ← index sealed "build_session_ref"
  demand (pyEq sessionRef sealSessionRef) "SESSION_REF"
  let printedNonClaims ← index certificate "non_claims"
  demand (pyEq printedNonClaims expectedNonClaims) "NON_CLAIMS"
  let claims ← indexItems certificate "claims"
  let tiers ← expectedTiers claims
  let signedTiers ← index unsigned "tiers"
  demand (pyEq signedTiers tiers) "TIERS"
  let evidence ← expectedEvidence claims auditDigest
  let signedEvidence ← index unsigned "evidence_digests"
  demand (pyEq signedEvidence evidence) "EVIDENCE_PROJECTION"

/-! ## Printed claims -/

def renderG1Text (params : PyValue) : Checked PyValue := do
  let written := fun value : PyValue => match value with
    | .leaf (.str s) => s
    | other => environment.formatted other
  let root ← orRefuse (index params "manifest_root_digest") "CLAIM_RENDERING"
  let scheme ← orRefuse (index params "commitment_scheme") "CLAIM_RENDERING"
  let version ← orRefuse (index params "client_attestor_version") "CLAIM_RENDERING"
  return .leaf (.str (
    text "The pinned client key co-signed the declaration that evidence-manifest root " ++
      written root ++ text " uses scheme " ++ written scheme ++
      text " and client attestor version " ++ written version ++
      text (". The declaration is unopened; correspondence to, possession of, and " ++
        "completeness of any underlying evidence are not proven.")))

def checkPrintedG1Claim (claim params : PyValue) (refs : List PyValue) (audit : PyValue) :
    Checked Unit := do
  let tier ← index claim "tier"
  demand (pyEq tier (.leaf (.int 1))) "CLAIM_STATUS"
  let root ← index params "manifest_root_digest"
  let auditRoot ← index audit "client_evidence_manifest_root"
  demand (!pyEq root zeroDigest && pyEq root auditRoot) "CLIENT_ROOT"
  let ref ← only refs "CLIENT_ROOT"
  let kind ← index ref "evidence_kind"
  let digest ← index ref "evidence_digest"
  demand (pyEq kind (.str "client_commitment_digest") && pyEq digest root) "CLIENT_ROOT"
  let rendered ← get claim "rendered_text"
  let expected ← renderG1Text environment params
  demand (pyEq rendered expected) "CLAIM_RENDERING"

def checkPrintedB1Claim (certificate claim params : PyValue) (refs : List PyValue)
    (audit : PyValue) : Checked Unit := do
  let tier ← index claim "tier"
  demand (pyEq tier (.leaf (.int 3))) "CLAIM_STATUS"
  let statement ← get audit "ledger_seal_statement_digest"
  let statedStatement ← index params "seal_statement_digest"
  let sealRef ← index params "seal_ref"
  let sealed ← index certificate "ledger_seal_projection"
  let certificateSealRef ← index sealed "seal_ref"
  demand (pyEq statedStatement statement && pyEq sealRef certificateSealRef) "SEAL_BINDING"
  let ref ← only refs "SEAL_BINDING"
  let kind ← index ref "evidence_kind"
  let digest ← index ref "evidence_digest"
  demand (pyEq kind (.str "seal_statement") && pyEq digest statement) "SEAL_BINDING"
  let sealText ← textOf sealRef
  let statementText ← textOf statedStatement
  let expected : Text := text "The issuer signed this seal statement: seal " ++ sealText ++
    text ", canonical seal-statement digest " ++ statementText ++ text "."
  let rendered ← get claim "rendered_text"
  demand (pyEq rendered (.leaf (.str expected))) "CLAIM_RENDERING"

/-- The body of the loop over the printed claims. -/
def checkPrintedClaim (certificate audit auditDigest claim : PyValue) : Checked Unit := do
  let refs ← evidenceRefs claim
  let auditRef ← only refs.1 "AUDIT_BINDING"
  let digest ← index auditRef "evidence_digest"
  demand (pyEq digest auditDigest) "AUDIT_BINDING"
  let verifier ← index claim "verifier"
  let result ← index verifier "result"
  demand (pyEq result (.str "PASS")) "CLAIM_STATUS"
  let payload ← index claim "payload"
  let params ← index payload "params"
  let claimId ← index claim "claim_id"
  if pyEq claimId (.str "G1") then checkPrintedG1Claim environment claim params refs.2 audit
  else checkPrintedB1Claim certificate claim params refs.2 audit

/-- The claims are printed under distinct ids, `B1` and `G1` at most. -/
def checkClaimIds (claims : List PyValue) : Checked Unit := do
  let ids ← claims.mapM fun claim => index claim "claim_id"
  forM ids requireHashable
  demand (decide (ids.Pairwise fun left right => pyEq left right = false) &&
    ids.all fun claimId => pyEq claimId (.str "B1") || pyEq claimId (.str "G1")) "CLAIM_ID"

/-- `_check_printed_claims`; the printed claims stand for their dict by id. -/
def checkPrintedClaims (certificate audit auditDigest : PyValue) :
    Checked (List PyValue) := do
  let claims ← indexItems certificate "claims"
  checkClaimIds claims
  forM claims fun claim => checkPrintedClaim environment certificate audit auditDigest claim
  return claims

/-- `by_id.get(claim_id)`. -/
def claimById (claims : List PyValue) (claimId : String) : Option PyValue :=
  claims.find? fun claim => pyEq (claim.field "claim_id") (.str claimId)

/-! ## The audit report -/

def claimMaterial (claim : PyValue) : Checked PyValue := do
  let claimId ← index claim "claim_id"
  let tier ← index claim "tier"
  let payload ← index claim "payload"
  let verifier ← index claim "verifier"
  let refs ← evidenceRefs claim
  let rendered ← index claim "rendered_text"
  return .object [("claim_id", claimId), ("tier", tier), ("payload", payload),
    ("verifier", verifier), ("evidence_refs", .list refs.2), ("rendered_text", rendered)]

/-- `_check_audit_row`, of the row with a claim id. -/
def checkAuditRow (claims : List PyValue) (claimId abstentionCode : String) (row : PyValue) :
    Checked Unit := do
  let basis ← index row "evidence_basis"
  match claimById claims claimId with
  | none => do
      demand (pyEq basis (.str "abstained")) "AUDIT_STATUS"
      let code ← index row "abstention_code"
      demand (pyEq code (.str abstentionCode)) "AUDIT_STATUS"
  | some claim => do
      let expectedBasis := if claimId = "B1" then "issuer_verified" else "client_declared"
      demand (pyEq basis (.str expectedBasis)) "AUDIT_STATUS"
      let rowVerifier ← index row "verifier"
      let verifier ← index claim "verifier"
      demand (pyEq rowVerifier verifier) "AUDIT_STATUS"
      let stated ← index row "claim_material_digest"
      let material ← claimMaterial claim
      let digest ← relyingDigest environment claimMaterialDomain material
      demand (pyEq stated digest) "CLAIM_MATERIAL"

def checkAuditRows (audit : PyValue) (claims : List PyValue) : Checked Unit := do
  let rows ← indexItems audit "claim_support_rows"
  let ids ← rows.mapM fun row => index row "claim_id"
  demand (pyEq (.list ids) (.list (auditRows.map fun expected => PyValue.str expected.1)))
    "AUDIT_ROWS"
  forM (rows.zip auditRows) fun (row, claimId, abstentionCode) =>
    checkAuditRow environment claims claimId abstentionCode row

def checkAuditBindings (certificate unsigned audit : PyValue) (claims : List PyValue) :
    Checked Unit := do
  let sessionRef ← index audit "build_session_ref"
  let subject ← index certificate "subject"
  let subjectSessionRef ← index subject "build_session_ref"
  demand (pyEq sessionRef subjectSessionRef) "SESSION_REF"
  let statement ← index audit "ledger_seal_statement_digest"
  let sealed ← index certificate "ledger_seal_projection"
  let sealStatement ← index sealed "seal_statement_digest"
  demand (pyEq statement sealStatement) "SEAL_DIGEST"
  let registers ← index audit "compiler_register_versions"
  let signedRegisters ← index unsigned "compiler_register_versions"
  demand (pyEq registers signedRegisters) "COMPILER_REGISTERS"
  let root ← index audit "client_evidence_manifest_root"
  match claimById claims "G1" with
  | some claim => do
      let payload ← index claim "payload"
      let params ← index payload "params"
      let claimRoot ← index params "manifest_root_digest"
      demand (pyEq root claimRoot) "CLIENT_ROOT"
  | none => demand (pyEq root (.leaf .none)) "CLIENT_ROOT"

def checkClaimsAndAudit (certificate unsigned audit auditDigest : PyValue) :
    Checked Unit := do
  let claims ← checkPrintedClaims environment certificate audit auditDigest
  checkAuditRows environment audit claims
  checkAuditBindings certificate unsigned audit claims

end Checks

end TraigentSchema.AgentCertificate
