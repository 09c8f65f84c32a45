import TraigentSchema.AgentQuality.Composition

/-!
# Stage S8 and the verification as a whole

The manifest states the digest of every other part, and the issuer signs the
manifest.  The eight stages run in order; the result reports what they established.
-/

namespace TraigentSchema.AgentQuality

open TraigentSchema.Unicode
open TraigentSchema.Certification
open TraigentSchema.Python
open TraigentSchema.Traverse

/-! ## S8 -/

/-- The `const` of the manifest's coverage. -/
def manifestCoverage : List String :=
  ["base_process_record_unsigned_manifest_digest", "scope_binding_digest",
    "agent_commitment_ref", "dataset_commitment_ref", "evaluator_commitment_ref",
    "build_definition_commitment_ref", "measurement_contract_ref",
    "measurement_contract_record_digest", "aggregation_policy", "objective_registry",
    "non_claim_catalog", "quantile_table", "declared_plan_digest",
    "declared_plan_signature_digest", "split_derivation_digest",
    "evaluation_splits_digest", "measured_claims_digest",
    "non_certified_selection_estimates_digest", "primary_objective_id",
    "selection_arm_count", "holdout_scored_arm_count", "pillar_support",
    "assertion_digest", "non_claims_digest", "agent_quality_claim_support_rows_digest",
    "trust_ring_ref", "issuer_key_ref", "issuer_signature_algorithm"]

/-- The digests that only an issuer-verified row carries. -/
def supportRowDigests : List String :=
  ["assertion_digest", "measured_claims_digest", "evaluation_splits_digest",
    "declared_plan_digest", "verifier_result", "claim_material_digest"]

section Stages

variable (environment : Environment)

/-- The manifest states a part's digest. -/
def checkManifestDigest (manifest : PyValue) (field role : String) (payload : PyValue)
    (code : String) : Checked Unit := do
  let digest ← roleDigest environment.platform (domain role) payload
  let stated ← get manifest field
  ensure (pyEq stated digest) code "unsigned_manifest"

/-- Rows 57 to 62. -/
def checkManifestDigests (bundle manifest : PyValue) : Checked Unit := do
  let splitDerivation ← index bundle "split_derivation"
  let projection ← stripSelfDigest splitDerivation "split_derivation_digest"
  checkManifestDigest environment manifest "split_derivation_digest" "split_derivation"
    projection "SPLIT_DERIVATION_DIGEST_MISMATCH"
  let splits ← index bundle "evaluation_splits"
  checkManifestDigest environment manifest "evaluation_splits_digest" "evaluation_splits"
    splits "EVALUATION_SPLITS_DIGEST_MISMATCH"
  let claims ← index bundle "measured_claims"
  checkManifestDigest environment manifest "measured_claims_digest" "measured_claims"
    claims "MEASURED_CLAIMS_DIGEST_MISMATCH"
  let estimates ← index bundle "non_certified_selection_estimates"
  checkManifestDigest environment manifest "non_certified_selection_estimates_digest"
    "selection_estimates" estimates "SELECTION_ESTIMATES_DIGEST_MISMATCH"
  let nonClaims ← index bundle "non_claims"
  checkManifestDigest environment manifest "non_claims_digest" "non_claims" nonClaims
    "NON_CLAIMS_DIGEST_MISMATCH"
  let rows ← index bundle "claim_support_rows"
  checkManifestDigest environment manifest "agent_quality_claim_support_rows_digest"
    "claim_support_rows" rows "CLAIM_SUPPORT_ROWS_DIGEST_MISMATCH"

/-- `claim_material`, rendered from the assertion. -/
def claimMaterial (assertion assertionDigest : PyValue) : Checked PyValue := do
  let claimId ← index assertion "claim_id"
  let templateId ← index assertion "assertion_template_id"
  let renderedText ← index assertion "rendered_text"
  return .object [("claim_id", claimId), ("tier", .leaf (.int 3)),
    ("assertion_template_id", templateId), ("rendered_text", renderedText),
    ("assertion_digest", assertionDigest)]

/-- Row 63. -/
def checkSupportRow (manifest declaredPlan row assertionDigest materialDigest : PyValue) :
    Checked Unit := do
  let evidenceBasis ← get row "evidence_basis"
  let measuredDigest ← get manifest "measured_claims_digest"
  let splitsDigest ← get manifest "evaluation_splits_digest"
  let planDigest ← get declaredPlan "declared_plan_digest"
  if pyEq evidenceBasis (.str "issuer_verified") then
    ensure (pyEq (row.field "assertion_digest") assertionDigest &&
        pyEq (row.field "measured_claims_digest") measuredDigest &&
        pyEq (row.field "evaluation_splits_digest") splitsDigest &&
        pyEq (row.field "declared_plan_digest") planDigest &&
        pyEq (row.field "claim_material_digest") materialDigest &&
        pyEq (row.field "verifier_result") (.str "pass"))
      "CLAIM_SUPPORT_ROW_MISMATCH" "claim_support_rows"
  else if pyEq evidenceBasis (.str "abstained") then
    ensure (!supportRowDigests.any fun key => row.hasKey key)
      "CLAIM_SUPPORT_ROW_MISMATCH" "claim_support_rows"
  else fail "CLAIM_SUPPORT_ROW_MISMATCH" "claim_support_rows"

/-- Row 64: what the manifest repeats from the process record and the plan. -/
def checkManifestCopies (manifest declaredPlan planSignature processRecordManifest : PyValue) :
    Checked Unit := do
  let processRecordDigest ← roleDigest environment.platform
    processRecordUnsignedManifestDomain processRecordManifest
  let signatureDigest ← roleDigest environment.platform (domain "declared_plan_signature")
    planSignature
  let coverage ← getItems manifest "coverage"
  ensure (pyEq (.list coverage) (.list (manifestCoverage.map PyValue.str)) &&
      pyEq (manifest.field "base_process_record_unsigned_manifest_digest")
        processRecordDigest &&
      pyEq (manifest.field "declared_plan_digest")
        (declaredPlan.field "declared_plan_digest") &&
      pyEq (manifest.field "declared_plan_signature_digest") signatureDigest &&
      pyEq (manifest.field "primary_objective_id")
        (declaredPlan.field "primary_objective_id") &&
      pyEq (manifest.field "selection_arm_count")
        (declaredPlan.field "selection_arm_count") &&
      pyEq (manifest.field "holdout_scored_arm_count")
        (declaredPlan.field "holdout_scored_arm_count"))
    "UNSIGNED_MANIFEST_MISMATCH" "unsigned_manifest"

/-- Rows 65 to 67. -/
def checkIssuerSignature (manifest signature processRecord : PyValue) : Checked Unit := do
  let digest ← roleDigest environment.platform (domain "unsigned_manifest") manifest
  let stated ← get signature "unsigned_manifest_digest"
  ensure (pyEq stated digest) "UNSIGNED_MANIFEST_DIGEST_MISMATCH" "signature"
  ensure (pyEq (signature.field "issuer_key_ref") (manifest.field "issuer_key_ref") &&
      pyEq (signature.field "trust_ring_ref") (manifest.field "trust_ring_ref"))
    "KEY_RING_MISMATCH" "signature"
  let issuer ← orFail (recordIssuer processRecord) "KEY_RING_MISMATCH" "signature"
  ensure (issuer.isDict &&
      pyEq (manifest.field "issuer_key_ref") (issuer.field "key_ref") &&
      pyEq (manifest.field "trust_ring_ref") (issuer.field "trust_ring_ref") &&
      pyEq (manifest.field "issuer_signature_algorithm") (issuer.field "algorithm") &&
      pyEq (signature.field "algorithm") (issuer.field "algorithm"))
    "KEY_RING_MISMATCH" "signature"
  let key ← orFail (materialPublicKey environment.platform issuer issuerSpkiDomain)
    "KEY_RING_MISMATCH" "signature"
  let canonical ← canonicalUtf8 environment.platform manifest
  orFail (verifySignature environment.platform key (signature.field "algorithm")
      (preimage (domain "issuer_signature") canonical) (signature.field "signature"))
    "ISSUER_SIGNATURE_INVALID" "signature"

def stageS8ManifestDigestsSignature (bundle processRecord : PyValue) : Checked Unit := do
  let manifest ← index bundle "unsigned_manifest"
  let signature ← index bundle "signature"
  ensure (processRecord.hasKey "unsigned_manifest") "UNSIGNED_MANIFEST_MISMATCH"
    "unsigned_manifest"
  checkManifestDigests environment bundle manifest
  let assertion ← index bundle "assertion"
  let assertionDigest ← recomputedAssertionDigest environment assertion
  let material ← claimMaterial assertion assertionDigest
  let materialDigest ← roleDigest environment.platform (domain "claim_material") material
  let declaredPlan ← envelopeMember bundle "declared_plan"
  let row ← supportRow bundle
  checkSupportRow manifest declaredPlan row assertionDigest materialDigest
  let planSignature ← envelopeMember bundle "signature"
  checkManifestCopies environment manifest declaredPlan planSignature
    (processRecord.field "unsigned_manifest")
  checkIssuerSignature environment manifest signature processRecord

/-! ## Running the stages -/

/-- `AgentQualityVerificationResult`, without the fixed note. -/
structure VerificationResult where
  code : String
  claimId : PyValue
  evidenceBasis : String
  primaryObjectiveId : PyValue
  nominalCoveragePpm : PyValue
  holdoutItemCount : PyValue
  intervalVerificationLevel : String
  splitVerificationLevel : String
  datasetConditionCode : PyValue
  evaluatorConditionCode : PyValue

/-- The result, from the parts that the stages checked. -/
def verificationResult (bundle : PyValue) : Checked VerificationResult := do
  let manifest ← index bundle "unsigned_manifest"
  let row ← supportRow bundle
  let pillarSupport ← index manifest "pillar_support"
  let datasetConditionCode ← index (← at? pillarSupport 0) "condition_code"
  let evaluatorConditionCode ← index (← at? pillarSupport 1) "condition_code"
  let splits ← index bundle "evaluation_splits"
  let holdoutItemCount ← index (← at? splits 1) "item_count"
  let evidenceBasis ← get row "evidence_basis"
  let claimId ← index row "claim_id"
  let primaryObjectiveId ← index manifest "primary_objective_id"
  if pyEq evidenceBasis (.str "issuer_verified") then do
    let claims ← index bundle "measured_claims"
    let nominalCoveragePpm ← index (← at? claims 0) "nominal_coverage_ppm"
    return {
      code := "AGENT_QUALITY_VERIFIED"
      claimId := claimId
      evidenceBasis := "issuer_verified"
      primaryObjectiveId := primaryObjectiveId
      nominalCoveragePpm := nominalCoveragePpm
      holdoutItemCount := holdoutItemCount
      intervalVerificationLevel := "construction_recomputed_v1"
      splitVerificationLevel := "issuer_attested_v1"
      datasetConditionCode := datasetConditionCode
      evaluatorConditionCode := evaluatorConditionCode }
  else
    return {
      code := "AGENT_QUALITY_CLAIM_ABSTAINED"
      claimId := claimId
      evidenceBasis := "abstained"
      primaryObjectiveId := primaryObjectiveId
      nominalCoveragePpm := .leaf (.int 0)
      holdoutItemCount := holdoutItemCount
      intervalVerificationLevel := "issuer_attested_v1"
      splitVerificationLevel := "issuer_attested_v1"
      datasetConditionCode := datasetConditionCode
      evaluatorConditionCode := evaluatorConditionCode }

/-- `_run_agent_quality_checks`, without a split opening, which it refuses. -/
def runAgentQualityChecks (context : Context) (bundle processRecord : PyValue) :
    Checked VerificationResult := do
  stageS1Structural environment bundle
  stageS2ContextBinding environment context bundle processRecord
  stageS3RegistryIdentity environment bundle
  stageS4DeclaredPlanSignatures environment context bundle processRecord
  stageS5ObjectiveMeasurement environment.package bundle
  stageS6SplitsHeldOut environment bundle
  stageS7CompositionAbstention environment context bundle
  stageS8ManifestDigestsSignature environment bundle processRecord
  verificationResult bundle

def verifyAgentQualityCertificate (context : Context) (bundle processRecord : PyValue) :
    Checked VerificationResult :=
  contentFree (runAgentQualityChecks environment context bundle processRecord)
    "AGENT_QUALITY_VERIFICATION_FAILED" "bundle"

end Stages

/-! ## What the last stage and the whole verification establish -/

section Established

variable {environment : Environment} {context : Context} {bundle processRecord : PyValue}
  {result : VerificationResult}

/-- A part of the bundle that the manifest binds: the manifest's field, the role, and the
part without the digest it carries itself. -/
structure BoundPart where
  field : String
  role : String
  part : PyValue → PyValue

def splitDerivationPart : BoundPart :=
  ⟨"split_derivation_digest", "split_derivation", fun bundle =>
    (bundle.field "split_derivation").erase "split_derivation_digest"⟩

def evaluationSplitsPart : BoundPart :=
  ⟨"evaluation_splits_digest", "evaluation_splits", fun bundle =>
    bundle.field "evaluation_splits"⟩

def measuredClaimsPart : BoundPart :=
  ⟨"measured_claims_digest", "measured_claims", fun bundle =>
    bundle.field "measured_claims"⟩

def selectionEstimatesPart : BoundPart :=
  ⟨"non_certified_selection_estimates_digest", "selection_estimates", fun bundle =>
    bundle.field "non_certified_selection_estimates"⟩

def nonClaimsPart : BoundPart :=
  ⟨"non_claims_digest", "non_claims", fun bundle => bundle.field "non_claims"⟩

def claimSupportRowsPart : BoundPart :=
  ⟨"agent_quality_claim_support_rows_digest", "claim_support_rows", fun bundle =>
    bundle.field "claim_support_rows"⟩

def planSignaturePart : BoundPart :=
  ⟨"declared_plan_signature_digest", "declared_plan_signature", planSignatureOf⟩

def declaredPlanPart : BoundPart :=
  ⟨"declared_plan_digest", "declared_plan", fun bundle =>
    (planOf bundle).erase "declared_plan_digest"⟩

def assertionPart : BoundPart :=
  ⟨"assertion_digest", "assertion", fun bundle =>
    (bundle.field "assertion").erase "assertion_digest"⟩

/-- The parts that S8 binds; S4 binds the plan and S7 the assertion. -/
def boundParts : List BoundPart :=
  [splitDerivationPart, evaluationSplitsPart, measuredClaimsPart, selectionEstimatesPart,
    nonClaimsPart, claimSupportRowsPart, planSignaturePart]

/-- The manifest states the part's digest. -/
def BoundPart.Stated (environment : Environment) (bundle : PyValue) (row : BoundPart) :
    Prop :=
  (manifestOf bundle).field row.field =
    roleDigestText environment.platform row.role (row.part bundle)

/-- Where the support row repeats digests: on an issuer-verified row, of the assertion,
the claims, the splits, the plan and the claim material. -/
structure RowBinds (environment : Environment) (bundle row : PyValue) : Prop where
  basis : row.field "evidence_basis" = .str "issuer_verified" ∨
    row.field "evidence_basis" = .str "abstained"
  assertion : row.field "evidence_basis" = .str "issuer_verified" →
    row.field "assertion_digest" = assertionDigest environment bundle
  measuredClaims : row.field "evidence_basis" = .str "issuer_verified" →
    pyEq (row.field "measured_claims_digest")
      ((manifestOf bundle).field "measured_claims_digest") = true
  evaluationSplits : row.field "evidence_basis" = .str "issuer_verified" →
    pyEq (row.field "evaluation_splits_digest")
      ((manifestOf bundle).field "evaluation_splits_digest") = true
  declaredPlan : row.field "evidence_basis" = .str "issuer_verified" →
    pyEq (row.field "declared_plan_digest")
      ((planOf bundle).field "declared_plan_digest") = true
  claimMaterial : row.field "evidence_basis" = .str "issuer_verified" →
    ∃ material, claimMaterial (bundle.field "assertion") (assertionDigest environment bundle) =
        .ok material ∧
      row.field "claim_material_digest" =
        roleDigestText environment.platform "claim_material" material
  abstained : row.field "evidence_basis" = .str "abstained" →
    ∀ key ∈ supportRowDigests, row.hasKey key = false

/-- S8: the manifest states the digests of the parts and repeats the plan's values, and
the process record's issuer signed it under the algorithm it names. -/
structure ManifestBinds (environment : Environment) (bundle processRecord : PyValue) :
    Prop where
  parts : ∀ row ∈ boundParts, row.Stated environment bundle
  row : ∃ row, supportRow bundle = .ok row ∧ RowBinds environment bundle row
  primaryObjective : pyEq ((manifestOf bundle).field "primary_objective_id")
    ((planOf bundle).field "primary_objective_id") = true
  selectionArms : pyEq ((manifestOf bundle).field "selection_arm_count")
    ((planOf bundle).field "selection_arm_count") = true
  holdoutArms : pyEq ((manifestOf bundle).field "holdout_scored_arm_count")
    ((planOf bundle).field "holdout_scored_arm_count") = true
  signedManifest : (bundle.field "signature").field "unsigned_manifest_digest" =
    roleDigestText environment.platform "unsigned_manifest" (manifestOf bundle)
  keyRef : pyEq ((bundle.field "signature").field "issuer_key_ref")
    ((manifestOf bundle).field "issuer_key_ref") = true
  ringRef : pyEq ((bundle.field "signature").field "trust_ring_ref")
    ((manifestOf bundle).field "trust_ring_ref") = true
  issuer : ∃ issuer key, recordIssuer processRecord = .ok issuer ∧
    pyEq ((manifestOf bundle).field "issuer_key_ref") (issuer.field "key_ref") = true ∧
    pyEq ((manifestOf bundle).field "trust_ring_ref") (issuer.field "trust_ring_ref") = true ∧
    pyEq ((manifestOf bundle).field "issuer_signature_algorithm")
      (issuer.field "algorithm") = true ∧
    pyEq ((bundle.field "signature").field "algorithm") (issuer.field "algorithm") = true ∧
    verifySignature environment.platform key ((bundle.field "signature").field "algorithm")
      (rolePreimage environment.platform (domain "issuer_signature") (manifestOf bundle))
      ((bundle.field "signature").field "signature") = .ok ()

@[simp]
theorem checkManifestDigest_eq_ok_iff {manifest payload : PyValue} {field role code : String}
    {u : Unit} :
    checkManifestDigest environment manifest field role payload code = .ok u ↔
      Canonicalizable payload ∧ manifest.isDict = true ∧
        manifest.field field = roleDigestText environment.platform role payload := by
  simp only [checkManifestDigest, roleDigest_bind_eq_ok_iff, get_bind_eq_ok_iff,
    ensure_eq_ok_iff, pyEq_str_right, roleDigestText]

theorem rowBinds_of_ok {row material materialDigest : PyValue}
    (hmaterial : claimMaterial (bundle.field "assertion")
      (assertionDigest environment bundle) = .ok material)
    (hdigest : roleDigestText environment.platform "claim_material" material =
      materialDigest)
    (hrow : checkSupportRow (manifestOf bundle) (planOf bundle) row
      (assertionDigest environment bundle) materialDigest = .ok ()) :
    RowBinds environment bundle row := by
  subst hdigest
  simp only [checkSupportRow, get_bind_eq_ok_iff] at hrow
  obtain ⟨-, -, -, -, hrow⟩ := hrow
  by_cases hverified : row.field "evidence_basis" = .str "issuer_verified"
  · rw [if_pos (pyEq_literal_right.mpr hverified)] at hrow
    simp only [ensure_eq_ok_iff, Bool.and_eq_true, roleDigestText, pyEq_str_right] at hrow
    obtain ⟨⟨⟨⟨⟨hassertion, hclaims⟩, hsplits⟩, hplan⟩, hmaterialDigest⟩, -⟩ := hrow
    exact {
      basis := Or.inl hverified
      assertion := fun _ => hassertion
      measuredClaims := fun _ => hclaims
      evaluationSplits := fun _ => hsplits
      declaredPlan := fun _ => hplan
      claimMaterial := fun _ => ⟨material, hmaterial, hmaterialDigest⟩
      abstained := fun habstained => by
        rw [hverified, str_inj] at habstained
        simp at habstained }
  · rw [if_neg (mt pyEq_literal_right.mp hverified)] at hrow
    split_ifs at hrow with habstained
    · have hnone : ∀ key ∈ supportRowDigests, row.hasKey key = false := by
        simpa using hrow
      exact {
        basis := Or.inr (pyEq_literal_right.mp habstained)
        assertion := fun hother => absurd hother hverified
        measuredClaims := fun hother => absurd hother hverified
        evaluationSplits := fun hother => absurd hother hverified
        declaredPlan := fun hother => absurd hother hverified
        claimMaterial := fun hother => absurd hother hverified
        abstained := fun _ => hnone }
    · exact absurd hrow (fail_ne_ok _ _ _)

theorem manifestBinds_of_stageS8
    (hstage : stageS8ManifestDigestsSignature environment bundle processRecord = .ok ()) :
    ManifestBinds environment bundle processRecord := by
  simp only [stageS8ManifestDigestsSignature, index_bind_eq_ok_iff, unit_bind_eq_ok_iff,
    recomputedAssertionDigest_bind_eq_ok_iff] at hstage
  obtain ⟨-, -, -, hdigests, -, -, -, hstage⟩ := hstage
  obtain ⟨material, hmaterial, hstage⟩ := bind_eq_ok_iff.mp hstage
  simp only [roleDigest_bind_eq_ok_iff, envelopeMember_bind_eq_ok_iff] at hstage
  obtain ⟨-, -, -, hstage⟩ := hstage
  obtain ⟨row, hrow, hstage⟩ := bind_eq_ok_iff.mp hstage
  simp only [unit_bind_eq_ok_iff, envelopeMember_bind_eq_ok_iff] at hstage
  obtain ⟨hsupport, -, -, hcopies, hsignature⟩ := hstage
  simp only [checkManifestDigests, index_bind_eq_ok_iff, stripSelfDigest_bind_eq_ok_iff,
    unit_bind_eq_ok_iff, checkManifestDigest_eq_ok_iff] at hdigests
  obtain ⟨-, -, ⟨-, -, hderivation⟩, -, ⟨-, -, hsplits⟩, -, ⟨-, -, hclaims⟩, -,
    ⟨-, -, hestimates⟩, -, ⟨-, -, hnonClaims⟩, -, -, -, hrows⟩ := hdigests
  simp only [checkManifestCopies, roleDigest_bind_eq_ok_iff] at hcopies
  obtain ⟨-, -, hcopies⟩ := hcopies
  obtain ⟨coverage, -, hcopies⟩ := bind_eq_ok_iff.mp hcopies
  simp only [ensure_eq_ok_iff, Bool.and_eq_true, pyEq_str_right] at hcopies
  obtain ⟨⟨⟨⟨⟨-, -⟩, hplanSignature⟩, hprimary⟩, hselection⟩, hholdout⟩ := hcopies
  simp only [checkIssuerSignature, roleDigest_bind_eq_ok_iff, get_bind_eq_ok_iff,
    unit_bind_eq_ok_iff, ensure_eq_ok_iff, orFail_bind_eq_ok_iff, pyEq_str_right,
    Bool.and_eq_true] at hsignature
  obtain ⟨-, -, hsigned, ⟨hkeyRef, hringRef⟩, hsignature⟩ := hsignature
  obtain ⟨issuer, hissuer, hsignature⟩ := bind_eq_ok_iff.mp hsignature
  simp only [unit_bind_eq_ok_iff, ensure_eq_ok_iff, orFail_bind_eq_ok_iff,
    Bool.and_eq_true] at hsignature
  obtain ⟨⟨⟨⟨⟨-, hissuerKey⟩, hissuerRing⟩, hissuerAlgorithm⟩, halgorithm⟩, hsignature⟩ :=
    hsignature
  obtain ⟨key, -, hsignature⟩ := bind_eq_ok_iff.mp hsignature
  simp only [canonicalUtf8_bind_eq_ok_iff, orFail_eq_ok_iff] at hsignature
  exact {
    parts := by
      simp only [boundParts, List.forall_mem_cons, List.not_mem_nil, false_imp_iff,
        implies_true, and_true]
      exact ⟨hderivation, hsplits, hclaims, hestimates, hnonClaims, hrows, hplanSignature⟩
    row := ⟨row, hrow, rowBinds_of_ok hmaterial rfl hsupport⟩
    primaryObjective := hprimary
    selectionArms := hselection
    holdoutArms := hholdout
    signedManifest := hsigned
    keyRef := hkeyRef
    ringRef := hringRef
    issuer := ⟨issuer, key, hissuer, hissuerKey, hissuerRing, hissuerAlgorithm, halgorithm,
      hsignature.2⟩ }

/-- Everything the eight stages establish of an accepted bundle. -/
structure Accepted (environment : Environment) (context : Context)
    (bundle processRecord : PyValue) : Prop where
  structural : Structural environment bundle
  contextBound : ∃ verified, ContextBound environment context bundle processRecord verified
  registries : RegistriesInstalled environment bundle
  planSigned : PlanSigned environment context bundle processRecord
  measured : stageS5ObjectiveMeasurement environment.package bundle = .ok ()
  splits : SplitsHeldOut environment bundle
  composed : Composed environment context bundle
  manifestBinds : ManifestBinds environment bundle processRecord

theorem accepted_of_verify
    (hverify : verifyAgentQualityCertificate environment context bundle processRecord =
      .ok result) :
    Accepted environment context bundle processRecord := by
  rw [verifyAgentQualityCertificate, contentFree_eq_ok_iff] at hverify
  simp only [runAgentQualityChecks, unit_bind_eq_ok_iff] at hverify
  obtain ⟨hs1, hs2, hs3, hs4, hs5, hs6, hs7, hs8, -⟩ := hverify
  exact {
    structural := stageS1_eq_ok_iff.mp hs1
    contextBound := contextBound_of_stageS2 hs2
    registries := registriesInstalled_of_stageS3 hs3
    planSigned := planSigned_of_stageS4 hs4
    measured := hs5
    splits := splitsHeldOut_of_stageS6 hs6
    composed := composed_of_stageS7 hs7
    manifestBinds := manifestBinds_of_stageS8 hs8 }

end Established

end TraigentSchema.AgentQuality
