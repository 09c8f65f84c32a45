import TraigentSchema.AgentQuality.MeasuredClaims

/-!
# Stages S6 and S7: the splits, the support row and the assertion

The two splits are of one derivation, the declared plan's, and partition its universe
in plausible sizes; the support row is issuer verified unless the caller accepts an
abstention; the pillar support binds the manifest's own commitments.
-/

namespace TraigentSchema.AgentQuality

open TraigentSchema.Unicode
open TraigentSchema.Certification
open TraigentSchema.Python
open TraigentSchema.Traverse

/-! ## S6 -/

/-- `_split_size_bound`: the rounded expected size of the holdout, and the tolerance.
The root of a negative number raises. -/
def splitSizeBound (universeCount holdoutFractionPpm : ℤ) : Checked (ℤ × ℤ) :=
  let roundVal := (universeCount * holdoutFractionPpm + tScale / 2) / tScale
  let npq := universeCount * holdoutFractionPpm * (tScale - holdoutFractionPpm) /
    (tScale * tScale)
  if npq < 0 then .error .other
  else .ok (roundVal, 6 * (Nat.sqrt npq.toNat : ℤ) + 1)

/-- Rows 40 and 42: the selection record and the holdout record. -/
def splitRecords (splits : PyValue) : Checked (PyValue × PyValue) :=
  match splits with
  | .list [selection, holdout] => do
      ensure (pyEq (PyValue.field selection "split_id") (.str "selection"))
        "SPLIT_SET_SHAPE" "evaluation_splits"
      ensure (pyEq (PyValue.field holdout "split_id") (.str "holdout"))
        "HOLDOUT_MISSING" "evaluation_splits.holdout"
      return (selection, holdout)
  | _ => fail "SPLIT_SET_SHAPE" "evaluation_splits"

/-- The records agree on a field. -/
def recordsAgree (selection holdout : PyValue) (name : String) : Checked Unit :=
  ensure (pyEq (selection.field name) (holdout.field name)) "SPLIT_SET_SHAPE"
    "evaluation_splits"

/-- Row 43: the floor of the schema and of every certified objective. -/
def minimumRequired (package : Package) (claims : List PyValue) : ℤ :=
  (claims.filterMap fun claim =>
    match claim.field "objective_id" with
    | .leaf (.str objectiveId) => package.objectiveEntry (.leaf (.str objectiveId))
    | _ => none).foldl (fun required entry => max required entry.minimumSampleSize) 30

section Stages

variable (environment : Environment)

/-- Row 44: one derivation, recomputed, stated five times. -/
def checkSplitDerivation (declaredPlan splitDerivation selection holdout : PyValue) :
    Checked Unit := do
  let stripped ← stripSelfDigest splitDerivation "split_derivation_digest"
  let digest ← roleDigest environment.platform (domain "split_derivation") stripped
  let declared ← get declaredPlan "split_derivation"
  ensure (pyEq (splitDerivation.field "split_derivation_digest") digest &&
      pyEq (selection.field "split_derivation_digest") digest &&
      pyEq (holdout.field "split_derivation_digest") digest &&
      pyEq (declared.field "split_derivation_digest") digest &&
      pyEq declared splitDerivation)
    "SPLIT_DERIVATION_MISMATCH" "split_derivation"

/-- Rows 45 to 47: the sizes add up and are plausible, the commitments differ. -/
def checkSplitSizes (splitDerivation selection holdout : PyValue) (holdoutCount : ℤ) :
    Checked Unit :=
  match asInt (selection.field "item_count"),
      asInt (splitDerivation.field "evaluated_universe_item_count") with
  | some selectionCount, some universeCount => do
      ensure (decide (selectionCount + holdoutCount = universeCount))
        "SPLIT_PARTITION_INCOMPLETE" "evaluation_splits"
      ensure (!pyEq (selection.field "split_commitment_digest")
          (holdout.field "split_commitment_digest"))
        "SPLIT_COMMITMENT_COLLISION" "evaluation_splits"
      match asInt (splitDerivation.field "holdout_fraction_ppm") with
      | some holdoutFractionPpm => do
          let (roundVal, tolerance) ← splitSizeBound universeCount holdoutFractionPpm
          ensure (decide (|holdoutCount - roundVal| ≤ tolerance)) "SPLIT_SIZE_IMPLAUSIBLE"
            "evaluation_splits.holdout"
      | none => fail "SPLIT_SIZE_IMPLAUSIBLE" "evaluation_splits.holdout"
  | _, _ => fail "SPLIT_PARTITION_INCOMPLETE" "evaluation_splits"

def stageS6SplitsHeldOut (bundle : PyValue) : Checked Unit := do
  let manifest ← index bundle "unsigned_manifest"
  let declaredPlan ← envelopeMember bundle "declared_plan"
  let splitDerivation ← index bundle "split_derivation"
  let splits ← get bundle "evaluation_splits"
  let (selection, holdout) ← splitRecords splits
  recordsAgree selection holdout "commitment_scheme"
  recordsAgree selection holdout "canonicalization_profile"
  recordsAgree selection holdout "split_derivation_digest"
  let claims ← getItems bundle "measured_claims"
  forM claims fun claim =>
    ensure (pyEq (claim.field "evaluated_split_id") (.str "holdout"))
      "HOLDOUT_NOT_USED" "measured_claims"
  match asInt (holdout.field "item_count") with
  | none => fail "HOLDOUT_TOO_SMALL" "evaluation_splits.holdout"
  | some holdoutCount => do
      ensure (decide (minimumRequired environment.package claims ≤ holdoutCount))
        "HOLDOUT_TOO_SMALL" "evaluation_splits.holdout"
      checkSplitDerivation environment declaredPlan splitDerivation selection holdout
      checkSplitSizes splitDerivation selection holdout holdoutCount
      let manifestArms ← get manifest "holdout_scored_arm_count"
      let planArms ← get declaredPlan "holdout_scored_arm_count"
      ensure (pyEq manifestArms (.leaf (.int 1)) && pyEq planArms (.leaf (.int 1)))
        "HOLDOUT_REUSED" "unsigned_manifest"
      let manifestSelected ← get manifest "selection_arm_count"
      let planSelected ← get declaredPlan "selection_arm_count"
      ensure (pyEq manifestSelected planSelected) "ARM_COUNT_MISMATCH" "unsigned_manifest"
      let estimates ← getItems bundle "non_certified_selection_estimates"
      uniqueKeys "SELECTION_ESTIMATE_DUPLICATE" "non_certified_selection_estimates" []
        (estimates.map fun estimate => estimate.field "objective_id")

/-! ## S7 -/

/-- `_emittable_pillar_statuses()`. -/
def emittablePillarStatuses : List String := ["condition_declared_unverified"]

/-- One entry of the pillar support. -/
def checkPillarEntry (subject conditionCode field : String) (expectedRef entry : PyValue) :
    Checked Unit :=
  if entry.isDict then do
    ensure (pyEq (entry.field "support_subject") (.str subject)) "PILLAR_SUPPORT_SHAPE" field
    let emittable ← isOneOf (entry.field "status") emittablePillarStatuses
    ensure (emittable && pyEq (entry.field "condition_code") (.str conditionCode) &&
        pyEq (entry.field "bound_commitment_ref") expectedRef)
      "PILLAR_SUPPORT_SHAPE" field
    ensure (!pyEq (entry.field "status") (.str "condition_declared_unverified") ||
        !(entry.hasKey "bound_manifest_digest" || entry.hasKey "evidence_ref" ||
          entry.hasKey "trust_anchor_ref"))
      "PILLAR_SUPPORT_SHAPE" field
  else fail "PILLAR_SUPPORT_SHAPE" field

/-- The entries for the dataset and for the evaluator. -/
def checkPillarSupport (manifest pillarSupport : PyValue) : Checked Unit :=
  match pillarSupport with
  | .list [dataset, evaluator] => do
      checkPillarEntry "dataset" "dataset_certificate_not_verified" "pillar_support.dataset"
        (manifest.field "dataset_commitment_ref") dataset
      checkPillarEntry "evaluator" "evaluator_certificate_not_verified"
        "pillar_support.evaluator" (manifest.field "evaluator_commitment_ref") evaluator
  | _ => fail "PILLAR_SUPPORT_SHAPE" "pillar_support"

/-- The text the schema fixes for the assertion. -/
def assertionText : String :=
  "For the committed agent, evaluation dataset, evaluator, and registered measurement " ++
  "contract named in this certificate, each certified objective is reported as an " ++
  "interval whose endpoints a relying party recomputes offline from the printed " ++
  "sufficient statistics at the stated nominal coverage. The sufficient statistics are " ++
  "the issuer's attestation, not a recomputed fact. The claim is declared against the " ++
  "split labelled holdout. The aggregation policy is the one stated in a separately " ++
  "signed declared plan, bound here by digest. No comparison, ranking, generalisation, " ++
  "safety, or fitness conclusion is asserted, and the dataset's and the evaluator's own " ++
  "validity are not assessed."

/-- `bundle["claim_support_rows"][0]`. -/
def supportRow (bundle : PyValue) : Checked PyValue := do
  let rows ← index bundle "claim_support_rows"
  at? rows 0

/-- The assertion's digest, recomputed. -/
def recomputedAssertionDigest (assertion : PyValue) : Checked PyValue := do
  let stripped ← stripSelfDigest assertion "assertion_digest"
  roleDigest environment.platform (domain "assertion") stripped

def stageS7CompositionAbstention (context : Context) (bundle : PyValue) :
    Checked Unit := do
  let manifest ← index bundle "unsigned_manifest"
  let row ← supportRow bundle
  let evidenceBasis ← get row "evidence_basis"
  ensure (pyEq evidenceBasis (.str "issuer_verified") || context.acceptAbstainedBundle)
    "CLAIM_NOT_VERIFIED" "claim_support_rows"
  let pillarSupport ← get manifest "pillar_support"
  checkPillarSupport manifest pillarSupport
  let assertion ← index bundle "assertion"
  let digest ← recomputedAssertionDigest environment assertion
  let manifestDigest ← get manifest "assertion_digest"
  ensure (pyEq digest (assertion.field "assertion_digest") && pyEq digest manifestDigest)
    "ASSERTION_DIGEST_MISMATCH" "assertion"
  ensure (pyEq (assertion.field "rendered_text") (.str assertionText))
    "ASSERTION_DIGEST_MISMATCH" "assertion"

end Stages

/-! ## What the stages establish -/

section Established

variable {environment : Environment} {context : Context} {bundle : PyValue}

/-- The digest of the bundle's own split derivation. -/
abbrev splitDerivationDigest (environment : Environment) (bundle : PyValue) : PyValue :=
  roleDigestText environment.platform "split_derivation"
    ((bundle.field "split_derivation").erase "split_derivation_digest")

/-- S6: two records of one derivation, which is the declared plan's. -/
structure SplitsHeldOut (environment : Environment) (bundle : PyValue) : Prop where
  derivationDict : (bundle.field "split_derivation").isDict = true
  ownDigest : (bundle.field "split_derivation").field "split_derivation_digest" =
    splitDerivationDigest environment bundle
  records : ∃ selection holdout : PyValue,
    bundle.field "evaluation_splits" = .list [selection, holdout] ∧
    pyEq (selection.field "commitment_scheme") (holdout.field "commitment_scheme") = true ∧
    pyEq (selection.field "canonicalization_profile")
      (holdout.field "canonicalization_profile") = true ∧
    selection.field "split_derivation_digest" = splitDerivationDigest environment bundle ∧
    holdout.field "split_derivation_digest" = splitDerivationDigest environment bundle ∧
    ∃ selectionCount holdoutCount : ℤ,
      asInt (selection.field "item_count") = some selectionCount ∧
      asInt (holdout.field "item_count") = some holdoutCount ∧
      asInt ((bundle.field "split_derivation").field "evaluated_universe_item_count") =
        some (selectionCount + holdoutCount)
  evaluatedSplit : ∃ claims, getItems bundle "measured_claims" = .ok claims ∧
    ∀ claim ∈ claims, claim.field "evaluated_split_id" = .str "holdout"
  declaredDigest :
    ((planOf bundle).field "split_derivation").field "split_derivation_digest" =
      splitDerivationDigest environment bundle
  declared : pyEq ((planOf bundle).field "split_derivation")
    (bundle.field "split_derivation") = true
  selectionArms : pyEq ((manifestOf bundle).field "selection_arm_count")
    ((planOf bundle).field "selection_arm_count") = true

theorem splitRecords_eq_ok {splits selection holdout : PyValue}
    (hrecords : splitRecords splits = .ok (selection, holdout)) :
    splits = .list [selection, holdout] := by
  unfold splitRecords at hrecords
  split at hrecords
  · simp only [unit_bind_eq_ok_iff, pure_eq_ok, Except.ok.injEq, Prod.mk.injEq]
      at hrecords
    rw [hrecords.2.2.1, hrecords.2.2.2]
  · exact absurd hrecords (fail_ne_ok _ _ _)

theorem splitSizes_of_ok {splitDerivation selection holdout : PyValue} {holdoutCount : ℤ}
    (hsizes : checkSplitSizes splitDerivation selection holdout holdoutCount = .ok ()) :
    ∃ selectionCount, asInt (selection.field "item_count") = some selectionCount ∧
      asInt (splitDerivation.field "evaluated_universe_item_count") =
        some (selectionCount + holdoutCount) := by
  unfold checkSplitSizes at hsizes
  split at hsizes
  · rename_i selectionCount universeCount hselection huniverse
    simp only [unit_bind_eq_ok_iff, ensure_eq_ok_iff, decide_eq_true_eq] at hsizes
    exact ⟨selectionCount, hselection, hsizes.1 ▸ huniverse⟩
  · exact absurd hsizes (fail_ne_ok _ _ _)

theorem splitsHeldOut_of_stageS6 (hstage : stageS6SplitsHeldOut environment bundle = .ok ()) :
    SplitsHeldOut environment bundle := by
  simp only [stageS6SplitsHeldOut, envelopeMember_bind_eq_ok_iff, index_bind_eq_ok_iff,
    get_bind_eq_ok_iff] at hstage
  obtain ⟨-, -, -, -, -, hstage⟩ := hstage
  obtain ⟨⟨selection, holdout⟩, hrecords, hstage⟩ := bind_eq_ok_iff.mp hstage
  simp only [unit_bind_eq_ok_iff, recordsAgree, ensure_eq_ok_iff] at hstage
  obtain ⟨hscheme, hprofile, -, hstage⟩ := hstage
  obtain ⟨claims, hclaims, hstage⟩ := bind_eq_ok_iff.mp hstage
  simp only [unit_bind_eq_ok_iff, forM_eq_ok_iff, ensure_eq_ok_iff, pyEq_literal_right]
    at hstage
  obtain ⟨hevaluated, hstage⟩ := hstage
  split at hstage
  · exact absurd hstage (fail_ne_ok _ _ _)
  · rename_i holdoutCount hcount
    simp only [unit_bind_eq_ok_iff, ensure_eq_ok_iff, get_bind_eq_ok_iff] at hstage
    obtain ⟨-, hderivation, hsizes, -, -, -, -, -, harms, -⟩ := hstage
    obtain ⟨selectionCount, hselectionCount, huniverse⟩ := splitSizes_of_ok hsizes
    simp only [checkSplitDerivation, stripSelfDigest_bind_eq_ok_iff,
      roleDigest_bind_eq_ok_iff, get_bind_eq_ok_iff, ensure_eq_ok_iff, Bool.and_eq_true,
      pyEq_str_right] at hderivation
    obtain ⟨hdict, -, -, ⟨⟨⟨hown, hselection⟩, hholdout⟩, hdeclaredDigest⟩, hdeclared⟩ :=
      hderivation
    exact {
      derivationDict := hdict
      ownDigest := hown
      records := ⟨selection, holdout, splitRecords_eq_ok hrecords, hscheme, hprofile,
        hselection, hholdout, selectionCount, holdoutCount, hselectionCount, hcount,
        huniverse⟩
      evaluatedSplit := ⟨claims, hclaims, hevaluated⟩
      declaredDigest := hdeclaredDigest
      declared := hdeclared
      selectionArms := harms }

/-- The digest of the bundle's own assertion. -/
abbrev assertionDigest (environment : Environment) (bundle : PyValue) : PyValue :=
  roleDigestText environment.platform "assertion"
    ((bundle.field "assertion").erase "assertion_digest")

/-- S7: the pillar support binds the manifest's commitments, and the assertion's digest
is its own and the manifest's. -/
structure Composed (environment : Environment) (context : Context) (bundle : PyValue) :
    Prop where
  pillars : ∃ dataset evaluator : PyValue,
    (manifestOf bundle).field "pillar_support" = .list [dataset, evaluator] ∧
    pyEq (dataset.field "bound_commitment_ref")
      ((manifestOf bundle).field "dataset_commitment_ref") = true ∧
    pyEq (evaluator.field "bound_commitment_ref")
      ((manifestOf bundle).field "evaluator_commitment_ref") = true
  assertionDict : (bundle.field "assertion").isDict = true
  ownDigest : (bundle.field "assertion").field "assertion_digest" =
    assertionDigest environment bundle
  manifestDigest : (manifestOf bundle).field "assertion_digest" =
    assertionDigest environment bundle

theorem pillarEntry_of_ok {subject conditionCode field : String} {expectedRef entry : PyValue}
    (hentry : checkPillarEntry subject conditionCode field expectedRef entry = .ok ()) :
    pyEq (entry.field "bound_commitment_ref") expectedRef = true := by
  unfold checkPillarEntry at hentry
  split_ifs at hentry
  · rw [unit_bind_eq_ok_iff] at hentry
    obtain ⟨emittable, -, hentry⟩ := bind_eq_ok_iff.mp hentry.2
    simp only [unit_bind_eq_ok_iff, ensure_eq_ok_iff, Bool.and_eq_true] at hentry
    exact hentry.1.2
  · exact absurd hentry (fail_ne_ok _ _ _)

theorem pillarSupport_of_ok {manifest pillarSupport : PyValue}
    (hsupport : checkPillarSupport manifest pillarSupport = .ok ()) :
    ∃ dataset evaluator : PyValue, pillarSupport = .list [dataset, evaluator] ∧
      pyEq (dataset.field "bound_commitment_ref")
        (manifest.field "dataset_commitment_ref") = true ∧
      pyEq (evaluator.field "bound_commitment_ref")
        (manifest.field "evaluator_commitment_ref") = true := by
  unfold checkPillarSupport at hsupport
  split at hsupport
  · rename_i dataset evaluator
    rw [unit_bind_eq_ok_iff] at hsupport
    exact ⟨dataset, evaluator, rfl, pillarEntry_of_ok hsupport.1,
      pillarEntry_of_ok hsupport.2⟩
  · exact absurd hsupport (fail_ne_ok _ _ _)

@[simp]
theorem recomputedAssertionDigest_bind_eq_ok_iff {B : Type} {assertion : PyValue} {b : B}
    {f : PyValue → Checked B} :
    (recomputedAssertionDigest environment assertion >>= f) = .ok b ↔
      assertion.isDict = true ∧ Canonicalizable (assertion.erase "assertion_digest") ∧
        f (roleDigestText environment.platform "assertion"
          (assertion.erase "assertion_digest")) = .ok b := by
  rw [recomputedAssertionDigest, bind_assoc, stripSelfDigest_bind_eq_ok_iff,
    roleDigest_bind_eq_ok_iff]
  rfl

theorem composed_of_stageS7
    (hstage : stageS7CompositionAbstention environment context bundle = .ok ()) :
    Composed environment context bundle := by
  simp only [stageS7CompositionAbstention, index_bind_eq_ok_iff] at hstage
  obtain ⟨-, hstage⟩ := hstage
  obtain ⟨row, -, hstage⟩ := bind_eq_ok_iff.mp hstage
  simp only [get_bind_eq_ok_iff, index_bind_eq_ok_iff, unit_bind_eq_ok_iff,
    ensure_eq_ok_iff, recomputedAssertionDigest_bind_eq_ok_iff, Bool.and_eq_true,
    roleDigestText, pyEq_str_left] at hstage
  obtain ⟨-, -, -, hpillars, -, hdict, -, -, ⟨hown, hmanifest⟩, -⟩ := hstage
  exact {
    pillars := pillarSupport_of_ok hpillars
    assertionDict := hdict
    ownDigest := hown
    manifestDigest := hmanifest }

end Established

end TraigentSchema.AgentQuality
