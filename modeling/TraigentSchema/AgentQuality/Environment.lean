import TraigentSchema.AgentQuality.ObjectiveMeasurement
import TraigentSchema.Certification.Documents
import TraigentSchema.Certification.Signatures

/-!
# What an agent-quality verification is given

The installed registries, the bundle schema, the caller's pins and the verified
process record.  The schema validator and the process-record verifier stand for code
of their own: the first says whether a bundle validates, the second what a process
record proves under the context forwarded to it.
-/

namespace TraigentSchema.AgentQuality

open TraigentSchema.Unicode
open TraigentSchema.Certification
open TraigentSchema.Python
open TraigentSchema.Traverse

/-! ## Installed registries -/

/-- The four registries of the package. -/
inductive Registry where
  | aggregationPolicy
  | objectiveRegistry
  | nonClaimCatalog
  | quantileTable
  deriving DecidableEq, Repr

/-- `_AGENT_QUALITY_REGISTRY_DOMAINS`. -/
def Registry.domain : Registry → String
  | .aggregationPolicy => "traigent.agent_quality.aggregation_policy.v1"
  | .objectiveRegistry => "traigent.agent_quality.objective_registry.v1"
  | .nonClaimCatalog => "traigent.agent_quality.non_claim_catalog.v1"
  | .quantileTable => "traigent.agent_quality.quantile_table.v1"

/-- The id and the version the schema fixes, and the digest's name. -/
def Registry.identityRows (digest : PyValue) : Registry → List (String × PyValue)
  | .aggregationPolicy =>
      [("policy_id", .str "traigent.aggregation_policy.pillar1.v1"),
        ("policy_version", .str "1.0.0"), ("policy_digest", digest)]
  | .objectiveRegistry =>
      [("registry_id", .str "traigent.objective_registry.pillar1.v1"),
        ("registry_version", .str "1.0.0"), ("registry_digest", digest)]
  | .nonClaimCatalog =>
      [("catalog_id", .str "traigent.agent_quality.non_claim_catalog.v1"),
        ("catalog_version", .str "1.0.0"), ("catalog_digest", digest)]
  | .quantileTable =>
      [("table_id", .str "traigent.quantile_table.student_t.v1"),
        ("table_version", .str "1.0.0"), ("table_digest", digest)]

/-- The installed registries: their documents, and the entries read from them. -/
structure Package where
  document : Registry → PyValue
  objectiveEntries : List ObjectiveEntry
  nonClaimIds : List String
  quantileRows : List QuantileRow

/-- `_objective_registry_entries_by_id().get(objective_id)`; of two entries with one
id the later counts. -/
def Package.objectiveEntry (package : Package) (objectiveId : PyValue) :
    Option ObjectiveEntry :=
  package.objectiveEntries.reverse.find? fun entry =>
    pyEq objectiveId (.str entry.objectiveId)

/-- `_expected_registry_identity`. -/
def registryIdentity (platform : Platform) (package : Package) (registry : Registry) :
    Checked PyValue := do
  let digest ← roleDigest platform registry.domain (package.document registry)
  return .object (registry.identityRows digest)

/-! ## The caller's side -/

/-- What a verified process record proves. -/
structure VerifiedProcessRecord where
  projectRef : Text
  buildSessionRef : Text
  agentCommitmentRef : Text
  datasetCommitmentRef : Text
  evaluatorCommitmentRef : Text
  buildDefinitionCommitmentRef : Text
  deriving DecidableEq, Repr

/-- `AgentQualityVerificationContext`.  The process-record context and the trust status
are there as the verification they are forwarded to. -/
structure Context where
  verifyProcessRecord : PyValue → Checked VerifiedProcessRecord
  expectedProjectRef : Text
  expectedBuildSessionRef : Text
  expectedAgentCommitmentRef : Text
  expectedDatasetCommitmentRef : Text
  expectedEvaluatorCommitmentRef : Text
  expectedBuildDefinitionCommitmentRef : Text
  expectedMeasurementContractRef : Option Text
  expectedMeasurementContractRecordDigest : Option Text
  acceptAbstainedBundle : Bool
  expectedDeclaredPlanDigest : Text

/-- The outcome of iterating over a validator's errors. -/
inductive SchemaOutcome where
  | valid
  | invalid
  /-- An unresolvable reference, or another exception. -/
  | raised
  deriving DecidableEq, Repr

/-- What a verification runs against. -/
structure Environment where
  platform : Platform
  package : Package
  /-- `_agent_quality_validator().iter_errors`. -/
  schema : PyValue → SchemaOutcome

/-! ## Digest domains -/

/-- `_AGENT_QUALITY_DIGEST_DOMAINS[role]`. -/
def domain (role : String) : String :=
  "traigent.agent_quality." ++ role ++ ".v1"

def processRecordUnsignedManifestDomain : String :=
  "traigent.process_record.unsigned_manifest.v1"

def stripSelfDigest (payload : PyValue) (fieldName : String) : Checked PyValue :=
  if payload.isDict then .ok (payload.erase fieldName) else .error .other

@[simp]
theorem stripSelfDigest_eq_ok_iff {payload stripped : PyValue} {fieldName : String} :
    stripSelfDigest payload fieldName = .ok stripped ↔
      payload.isDict = true ∧ payload.erase fieldName = stripped := by
  unfold stripSelfDigest
  split <;> simp_all

@[simp]
theorem stripSelfDigest_bind_eq_ok_iff {B : Type} {payload : PyValue} {fieldName : String}
    {b : B} {f : PyValue → Checked B} :
    (stripSelfDigest payload fieldName >>= f) = .ok b ↔
      payload.isDict = true ∧ f (payload.erase fieldName) = .ok b := by
  simp [bind_eq_ok_iff]

/-! ## The parts of a bundle -/

abbrev manifestOf (bundle : PyValue) : PyValue :=
  bundle.field "unsigned_manifest"

abbrev planOf (bundle : PyValue) : PyValue :=
  (bundle.field "declared_plan_envelope").field "declared_plan"

abbrev planSignatureOf (bundle : PyValue) : PyValue :=
  (bundle.field "declared_plan_envelope").field "signature"

/-- The digest of a part under its role, as the documents state it. -/
def roleDigestText (platform : Platform) (role : String) (payload : PyValue) : PyValue :=
  .leaf (.str (sha256Text platform (rolePreimage platform (domain role) payload)))

end TraigentSchema.AgentQuality
