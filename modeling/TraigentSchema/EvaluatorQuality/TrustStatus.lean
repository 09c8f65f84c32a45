import TraigentSchema.Certification.Issuer
import TraigentSchema.ProcessRecord.Timestamp

/-!
# The trust status of an evaluator-quality issuer

A snapshot, signed by an anchor that the caller pins, lists which issuer keys are active.  It is
accepted for one day from its effective time on, and every entry it has for the issuer's key must
read `active`.
-/

namespace TraigentSchema.EvaluatorQuality

open TraigentSchema.Unicode
open TraigentSchema.Base64
open TraigentSchema.Fp2
open TraigentSchema.Python
open TraigentSchema.Certification
open TraigentSchema.Traverse

/-! ## The envelope -/

/-- `_EVALUATOR_TRUST_STATUS_ENVELOPE_VERSION`. -/
def trustStatusEnvelopeVersion : String := "traigent.evaluator_quality.trust_status_envelope.v1"

/-- `_EVALUATOR_TRUST_STATUS_VERSION`. -/
def trustStatusVersion : String := "traigent.evaluator_quality.trust_status.v1"

/-- `_EVALUATOR_TRUST_POLICY_ID`. -/
def trustPolicyId : String := "traigent.trust_policy.evaluator_quality.v1"

/-- `_EVALUATOR_TRUST_MAX_AGE_SECONDS`. -/
def trustMaxAgeSeconds : ℤ := 86400

/-- `_EVALUATOR_TRUST_SKEW_SECONDS`. -/
def trustSkewSeconds : ℤ := 0

/-- `_MAX_EVALUATOR_TRUST_STATUS_ENTRIES`. -/
def maxTrustStatusEntries : ℕ := 64

/-- `type(v) is str`. -/
def isExactStr : PyValue → Bool
  | .leaf (.str _) => true
  | _ => false

/-- `hash(v)`, for its exception. -/
def requireHash : PyValue → Checked Unit
  | .leaf _ => .ok ()
  | _ => .error .other

/-- The key and the ring an entry is about. -/
def entryPair (entry : PyValue) : PyValue × PyValue :=
  (entry.field "key_ref", entry.field "trust_ring_ref")

/-- `==` on pairs. -/
def pairEq (pair other : PyValue × PyValue) : Bool :=
  pyEq pair.1 other.1 && pyEq pair.2 other.2

/-- The loop over the entries, which stops at the first one out of shape. -/
def entriesShape (seen : List (PyValue × PyValue)) : List PyValue → Checked Bool
  | [] => .ok true
  | entry :: entries =>
      if entry.isDict && entry.hasKey "key_ref" && entry.hasKey "trust_ring_ref" &&
          entry.hasKey "status" then do
        requireHash (entry.field "key_ref")
        requireHash (entry.field "trust_ring_ref")
        if seen.any fun other => pairEq other (entryPair entry) then return false
        else entriesShape (entryPair entry :: seen) entries
      else .ok false

/-- The members of an envelope and of its snapshot that are read before the entries. -/
def headerShape (envelope : PyValue) : Bool :=
  let snapshot := envelope.field "snapshot"
  envelope.isDict && pyEq (envelope.field "schema_version") (.str trustStatusEnvelopeVersion) &&
    snapshot.isDict && (envelope.field "signature").isDict &&
    pyEq (snapshot.field "schema_version") (.str trustStatusVersion) &&
    pyEq (snapshot.field "trust_policy_id") (.str trustPolicyId) &&
    pyEq (snapshot.field "max_age_seconds") (.leaf (.int trustMaxAgeSeconds)) &&
    isExactStr (snapshot.field "effective_time") &&
    isExactStr (snapshot.field "trust_anchor_ref")

/-- The members of the signature are strings. -/
def signatureShape (signature : PyValue) : Bool :=
  ["algorithm", "signature", "trust_anchor_ref", "snapshot_digest"].all fun name =>
    isExactStr (signature.field name)

def evaluatorTrustStatusShape (envelope : PyValue) : Checked (Option PyValue) :=
  if headerShape envelope then
    match (envelope.field "snapshot").field "key_status" with
    | .list entries =>
        if 1 ≤ entries.length ∧ entries.length ≤ maxTrustStatusEntries then do
          let wellShaped ← entriesShape [] entries
          if wellShaped && signatureShape (envelope.field "signature") then
            return some (envelope.field "snapshot")
          else return none
        else .ok none
    | _ => .ok none
  else .ok none

/-! ## The checks -/

/-- `TrustAnchorKeyV1`. -/
structure TrustAnchorKey where
  keyRef : PyValue
  algorithm : PyValue
  publicKeyDerB64 : PyValue
  publicKeyDigest : PyValue

abbrev TrustAnchorKey.projection (anchor : TrustAnchorKey) : PyValue :=
  .object [("public_key_der_b64", anchor.publicKeyDerB64),
    ("public_key_digest", anchor.publicKeyDigest), ("algorithm", anchor.algorithm)]

def utcMicroseconds (value : PyValue) : Checked ℤ :=
  match value with
  | .leaf (.str s) =>
      match ProcessRecord.parseUtcTimestamp s with
      | none => Certification.fail "REVOCATION_STATUS_UNAVAILABLE" "signature"
      | some (year, month, day, hour, minute, second, fracUs) =>
          let days : ℤ := (toordinal year month day : ℤ) - epochOrdinal
          let seconds : ℤ := days * 86400 + hour * 3600 + minute * 60 + second
          .ok (seconds * 1000000 + fracUs)
  | _ => .error .other

section Checks

variable (platform : Platform)

/-- The signature is one that the anchor has made for the snapshot. -/
def checkSignedBy (anchor : TrustAnchorKey) (snapshot signature : PyValue) : Checked Unit := do
  ensure (pyEq (snapshot.field "trust_anchor_ref") anchor.keyRef &&
    pyEq (signature.field "trust_anchor_ref") anchor.keyRef) "TRUST_ANCHOR_MISMATCH" "signature"
  let key ← orFail (materialPublicKey platform anchor.projection issuerSpkiDomain) "CONTEXT"
    "context"
  let canonical ← orFail (canonicalUtf8 platform snapshot) "EVALUATOR_CANONICALIZATION" "bundle"
  orFail (verifySignature platform key (signature.field "algorithm")
    (preimage trustStatusVersion canonical) (signature.field "signature"))
    "TRUST_STATUS_SIGNATURE_INVALID" "signature"

/-- The snapshot is one that the pinned anchor has signed. -/
def checkAnchored (anchor : Option TrustAnchorKey) (snapshot signature : PyValue) :
    Checked Unit := do
  let digest ← orFail (roleDigest platform trustStatusVersion snapshot)
    "EVALUATOR_CANONICALIZATION" "bundle"
  ensure (pyEq (signature.field "snapshot_digest") digest) "TRUST_STATUS_DIGEST_MISMATCH"
    "signature"
  match anchor with
  | none => Certification.fail "CONTEXT" "context"
  | some anchor => checkSignedBy platform anchor snapshot signature

/-- The snapshot is neither from the future nor too old. -/
def checkFresh (effectiveTime verificationTime : PyValue) : Checked Unit := do
  let effective ← utcMicroseconds effectiveTime
  let verification ← utcMicroseconds verificationTime
  ensure (decide (effective ≤ verification + trustSkewSeconds * 1000000))
    "REVOCATION_STATUS_UNAVAILABLE" "signature"
  ensure (decide (verification - effective ≤ trustMaxAgeSeconds * 1000000))
    "REVOCATION_STATUS_UNAVAILABLE" "signature"

/-- `_verify_evaluator_trust_status`, with the anchor and the clock of the context. -/
def verifyEvaluatorTrustStatus (anchor : Option TrustAnchorKey) (verificationTime : Text)
    (envelope : PyValue) : Checked PyValue := do
  match envelope with
  | .leaf .none => Certification.fail "REVOCATION_STATUS_UNAVAILABLE" "signature"
  | _ => do
      match ← evaluatorTrustStatusShape envelope with
      | none => Certification.fail "TRUST_STATUS_SHAPE" "signature"
      | some snapshot => do
          checkAnchored platform anchor snapshot (envelope.field "signature")
          checkFresh (snapshot.field "effective_time") (.leaf (.str verificationTime))
          return snapshot

/-- The loop of `_check_evaluator_trust_status_coverage`. -/
def scanKeyStatus (issuer : PyValue × PyValue) : List PyValue → Checked Unit
  | [] => Certification.fail "REVOCATION_STATUS_UNAVAILABLE" "signature"
  | entry :: entries =>
      if pairEq (entryPair entry) issuer then
        ensure (pyEq (entry.field "status") (.str "active")) "KEY_REVOKED" "signature"
      else scanKeyStatus issuer entries

def checkEvaluatorTrustStatusCoverage (snapshot : PyValue) (issuer : PyValue × PyValue) :
    Checked Unit := do
  let entries ← iterate (snapshot.field "key_status")
  scanKeyStatus issuer entries

/-- The trust status of an issuer's key under a ring, as the public verification checks it. -/
def checkTrustStatus (anchor : Option TrustAnchorKey) (verificationTime keyRef ringRef : Text)
    (envelope : PyValue) : Checked PyValue := do
  let snapshot ← verifyEvaluatorTrustStatus platform anchor verificationTime envelope
  checkEvaluatorTrustStatusCoverage snapshot (.leaf (.str keyRef), .leaf (.str ringRef))
  return snapshot

/-- The members of `EvaluatorQualityVerificationContext` that are about the trust status: either
the caller opts out of it, or an anchor is pinned. -/
structure TrustContext where
  allowUncheckedTrustStatus : Bool
  verificationTime : Text
  trustAnchor : Option TrustAnchorKey
  isTime : (ProcessRecord.parseUtcTimestamp verificationTime).isSome = true
  pinned : trustAnchor.isNone = allowUncheckedTrustStatus

/-- The checks of `__post_init__` on these members. -/
def TrustContext.postInit (allowUncheckedTrustStatus : Bool) (verificationTime : Text)
    (trustAnchor : Option TrustAnchorKey) : Checked TrustContext :=
  if isTime : (ProcessRecord.parseUtcTimestamp verificationTime).isSome = true then
    if pinned : trustAnchor.isNone = allowUncheckedTrustStatus then
      .ok ⟨allowUncheckedTrustStatus, verificationTime, trustAnchor, isTime, pinned⟩
    else Certification.fail "CONTEXT" "context"
  else Certification.fail "CONTEXT" "context"

/-- `trust_status_evidence` and `trust_status_effective_time` of a result. -/
def trustStatusEvidence (context : TrustContext) (keyRef ringRef : Text) (envelope : PyValue) :
    Checked (String × PyValue) :=
  if context.allowUncheckedTrustStatus then .ok ("not_checked", .str "")
  else do
    let snapshot ← checkTrustStatus platform context.trustAnchor context.verificationTime keyRef
      ringRef envelope
    return ("checked_active", snapshot.field "effective_time")

/-- `trust_status is not None`. -/
def isSupplied : PyValue → Bool
  | .leaf .none => false
  | _ => true

/-- `except EvaluatorQualityVerificationError: raise`, and the fixed error for the others. -/
def ownErrorsOnly {A : Type} (attempt : Checked A) : Checked A :=
  match attempt with
  | .ok a => .ok a
  | .error (.verification code field) => Certification.fail code field
  | .error _ => Certification.fail "EVALUATOR_VERIFICATION_FAILED" "bundle"

/-- `verify_evaluator_quality_certificate`, as far as it is about the trust status.  The checks of
the bundle come to its issuer's key and ring, or fail. -/
def verifyEvaluatorQualityCertificate (bundleChecks : Checked (Text × Text))
    (context : TrustContext) (trustStatus : PyValue) : Checked (String × PyValue) := do
  ensure (!(context.allowUncheckedTrustStatus && isSupplied trustStatus)) "CONTEXT" "context"
  ownErrorsOnly do
    let (keyRef, ringRef) ← bundleChecks
    trustStatusEvidence platform context keyRef ringRef trustStatus

end Checks

/-! ## The entries -/

/-- The pair of an issuer. -/
abbrev issuerPair (keyRef ringRef : Text) : PyValue × PyValue :=
  (.leaf (.str keyRef), .leaf (.str ringRef))

section Entries

variable {keyRef ringRef : Text} {entries : List PyValue} {entry : PyValue}

/-- The pair of an issuer equals itself only. -/
theorem pairEq_issuerPair_iff {pair : PyValue × PyValue} :
    pairEq pair (issuerPair keyRef ringRef) = true ↔ pair = issuerPair keyRef ringRef := by
  rw [pairEq, Bool.and_eq_true, pyEq_str_right, pyEq_str_right, Prod.ext_iff]

theorem not_seen_of_entriesShape {seen : List (PyValue × PyValue)}
    (hshape : entriesShape seen entries = .ok true)
    (hseen : issuerPair keyRef ringRef ∈ seen) :
    ∀ entry ∈ entries, entryPair entry ≠ issuerPair keyRef ringRef := by
  induction entries generalizing seen with
  | nil => simp
  | cons first entries ih =>
      rw [entriesShape] at hshape
      split at hshape
      · simp only [unit_bind_eq_ok_iff] at hshape
        obtain ⟨_, _, hshape⟩ := hshape
        split at hshape
        · cases hshape
        · next hnew =>
            rw [List.forall_mem_cons]
            refine ⟨fun hfirst => hnew ?_, ih hshape (List.mem_cons_of_mem _ hseen)⟩
            rw [hfirst, List.any_eq_true]
            exact ⟨_, hseen, pairEq_issuerPair_iff.mpr rfl⟩
      · cases hshape

/-- The first entry of the issuer's key is the only one, so that the lookup does not depend on the
order of the entries. -/
theorem scanKeyStatus_eq_ok_iff {seen : List (PyValue × PyValue)} {u : Unit}
    (hshape : entriesShape seen entries = .ok true) :
    scanKeyStatus (issuerPair keyRef ringRef) entries = .ok u ↔
      (∃ entry ∈ entries, entryPair entry = issuerPair keyRef ringRef) ∧
        ∀ entry ∈ entries, entryPair entry = issuerPair keyRef ringRef →
          entry.field "status" = .str "active" := by
  induction entries generalizing seen with
  | nil => simp [scanKeyStatus]
  | cons first entries ih =>
      rw [entriesShape] at hshape
      split at hshape
      · simp only [unit_bind_eq_ok_iff] at hshape
        obtain ⟨_, _, hshape⟩ := hshape
        split at hshape
        · cases hshape
        · rw [scanKeyStatus, List.forall_mem_cons]
          split
          · next hmatch =>
              have hfirst := pairEq_issuerPair_iff.mp hmatch
              have hothers := not_seen_of_entriesShape hshape
                (show issuerPair keyRef ringRef ∈ _ by rw [hfirst]; exact List.mem_cons_self)
              rw [ensure_eq_ok_iff, pyEq_literal_right]
              constructor
              · exact fun hactive => ⟨⟨first, List.mem_cons_self, hfirst⟩, fun _ => hactive,
                  fun entry hentry hpair => absurd hpair (hothers entry hentry)⟩
              · exact fun hactive => hactive.2.1 hfirst
          · next hmatch =>
              have hfirst : entryPair first ≠ issuerPair keyRef ringRef :=
                fun hpair => hmatch (pairEq_issuerPair_iff.mpr hpair)
              rw [ih hshape]
              simp [hfirst]
      · cases hshape

end Entries

/-! ## Acceptance -/

/-- What is established of an accepted trust status. -/
structure CheckedActive (platform : Platform) (anchor : Option TrustAnchorKey)
    (keyRef ringRef : Text) (envelope snapshot : PyValue) (entries : List PyValue)
    (effectiveTime : Text) : Prop where
  shape : evaluatorTrustStatusShape envelope = .ok (some snapshot)
  isEffectiveTime : snapshot.field "effective_time" = .leaf (.str effectiveTime)
  isKeyStatus : snapshot.field "key_status" = .list entries
  signed : checkAnchored platform anchor snapshot (envelope.field "signature") = .ok ()
  listed : ∃ entry ∈ entries, entryPair entry = issuerPair keyRef ringRef
  active : ∀ entry ∈ entries, entryPair entry = issuerPair keyRef ringRef →
    entry.field "status" = .str "active"

/-- The clock reads an instant of the day that begins with another. -/
def WithinDay (effectiveTime verificationTime : Text) : Prop :=
  ∃ i j : Instant, Denotes effectiveTime i ∧ Denotes verificationTime j ∧
    i.microseconds ≤ j.microseconds ∧ j.microseconds ≤ i.microseconds + 86400000000

section Acceptance

variable {platform : Platform} {anchor : Option TrustAnchorKey} {keyRef ringRef : Text}
  {envelope snapshot : PyValue} {verificationTime effectiveTime : Text}

/-- A text has microseconds exactly when it denotes an instant. -/
theorem utcMicroseconds_eq_ok_iff {s : Text} {n : ℤ} :
    utcMicroseconds (.leaf (.str s)) = .ok n ↔ ∃ i, Denotes s i ∧ (n : ℚ) = i.microseconds := by
  rw [← ProcessRecord.utcMicroseconds_eq_ok_iff, utcMicroseconds, ProcessRecord.utcMicroseconds]
  cases ProcessRecord.parseUtcTimestamp s with
  | none => simp [Certification.fail]
  | some fields => simp

theorem exists_microseconds {s : Text} {i : Instant} (hs : Denotes s i) :
    ∃ n : ℤ, (n : ℚ) = i.microseconds := by
  obtain ⟨_, _, rfl⟩ := denotes_iff.mp hs
  exact ⟨readMicroseconds s, cast_readMicroseconds s⟩

/-- The status is fresh within a day of its time, and a little before it. -/
theorem checkFresh_eq_ok_iff {u : Unit} :
    checkFresh (.leaf (.str effectiveTime)) (.leaf (.str verificationTime)) = .ok u ↔
      WithinDay effectiveTime verificationTime := by
  simp only [checkFresh, bind_eq_ok_iff, utcMicroseconds_eq_ok_iff, ensure_eq_ok_iff,
    trustSkewSeconds, trustMaxAgeSeconds]
  constructor
  · rintro ⟨m, ⟨i, hi, hm⟩, n, ⟨j, hj, hn⟩, _, hfuture, hage⟩
    have hfuture := of_decide_eq_true hfuture
    have hage := of_decide_eq_true hage
    refine ⟨i, j, hi, hj, ?_, ?_⟩
    · rw [← hm, ← hn]
      exact_mod_cast (by omega : m ≤ n)
    · rw [← hm, ← hn]
      exact_mod_cast (by omega : n ≤ m + 86400000000)
  · rintro ⟨i, j, hi, hj, hfuture, hage⟩
    obtain ⟨m, hm⟩ := exists_microseconds hi
    obtain ⟨n, hn⟩ := exists_microseconds hj
    rw [← hm, ← hn] at hfuture hage
    have hfuture' : m ≤ n := by exact_mod_cast hfuture
    have hage' : n ≤ m + 86400000000 := by exact_mod_cast hage
    exact ⟨m, ⟨i, hi, hm⟩, n, ⟨j, hj, hn⟩, (), decide_eq_true (by omega),
      decide_eq_true (by omega)⟩

/-- What the shape of an accepted envelope is. -/
theorem of_evaluatorTrustStatusShape
    (hshape : evaluatorTrustStatusShape envelope = .ok (some snapshot)) :
    (∃ effectiveTime, snapshot.field "effective_time" = .leaf (.str effectiveTime)) ∧
      ∃ entries, snapshot.field "key_status" = .list entries ∧
        entriesShape [] entries = .ok true := by
  rw [evaluatorTrustStatusShape] at hshape
  split at hshape
  · next hheader =>
      split at hshape
      · next entries hentries =>
          split at hshape
          · obtain ⟨wellShaped, hloop, hshape⟩ := bind_eq_ok_iff.mp hshape
            split at hshape
            · next hwell =>
                cases hshape
                simp only [Bool.and_eq_true] at hwell
                simp only [headerShape, Bool.and_eq_true] at hheader
                refine ⟨?_, entries, hentries, hwell.1 ▸ hloop⟩
                have hstr := hheader.1.2
                cases htime : (envelope.field "snapshot").field "effective_time" with
                | leaf x =>
                    cases x with
                    | str s => exact ⟨s, rfl⟩
                    | _ => simp [htime, isExactStr] at hstr
                | list items => simp [htime, isExactStr] at hstr
                | dict members => simp [htime, isExactStr] at hstr
            · cases hshape
          · cases hshape
      · cases hshape
  · cases hshape

/-- The status is accepted when it has the shape, is anchored and is fresh. -/
theorem verifyEvaluatorTrustStatus_eq_ok_iff :
    verifyEvaluatorTrustStatus platform anchor verificationTime envelope = .ok snapshot ↔
      evaluatorTrustStatusShape envelope = .ok (some snapshot) ∧
        checkAnchored platform anchor snapshot (envelope.field "signature") = .ok () ∧
        checkFresh (snapshot.field "effective_time") (.leaf (.str verificationTime)) = .ok () := by
  by_cases hnone : envelope = .leaf .none
  · subst hnone
    simp [verifyEvaluatorTrustStatus, evaluatorTrustStatusShape, headerShape, PyValue.isDict,
      Certification.fail]
  · rw [verifyEvaluatorTrustStatus, bind_eq_ok_iff]
    swap
    · exact hnone
    constructor
    · rintro ⟨shaped, hshape, hrest⟩
      cases shaped with
      | none => exact absurd hrest (fail_ne_ok _ _ _)
      | some found =>
          simp only [unit_bind_eq_ok_iff] at hrest
          obtain ⟨hanchored, hfresh, hfound⟩ := hrest
          cases hfound
          exact ⟨hshape, hanchored, hfresh⟩
    · rintro ⟨hshape, hanchored, hfresh⟩
      refine ⟨_, hshape, ?_⟩
      simp only [unit_bind_eq_ok_iff]
      exact ⟨hanchored, hfresh, rfl⟩

/-- A trust status is accepted exactly when the pinned anchor has signed the snapshot, the clock
reads an instant of its day, and the issuer's key is listed, everywhere as active. -/
theorem checkTrustStatus_iff_active :
    checkTrustStatus platform anchor verificationTime keyRef ringRef envelope = .ok snapshot ↔
      ∃ entries effectiveTime,
        CheckedActive platform anchor keyRef ringRef envelope snapshot entries effectiveTime ∧
          WithinDay effectiveTime verificationTime := by
  rw [checkTrustStatus, bind_eq_ok_iff]
  constructor
  · rintro ⟨found, hfound, hcoverage⟩
    obtain ⟨hcovered, hequal⟩ := unit_bind_eq_ok_iff.mp hcoverage
    cases hequal
    obtain ⟨hshape, hanchored, hfresh⟩ := verifyEvaluatorTrustStatus_eq_ok_iff.mp hfound
    obtain ⟨⟨effectiveTime, htime⟩, entries, hentries, hloop⟩ := of_evaluatorTrustStatusShape hshape
    rw [checkEvaluatorTrustStatusCoverage, hentries, iterate, ok_bind,
      scanKeyStatus_eq_ok_iff hloop] at hcovered
    rw [htime, checkFresh_eq_ok_iff] at hfresh
    exact ⟨entries, effectiveTime, ⟨hshape, htime, hentries, hanchored, hcovered.1, hcovered.2⟩,
      hfresh⟩
  · rintro ⟨entries, effectiveTime, hchecked, hwithin⟩
    obtain ⟨_, found, hfound, hloop⟩ := of_evaluatorTrustStatusShape hchecked.shape
    rw [hchecked.isKeyStatus, Tree.list.injEq] at hfound
    cases hfound
    refine ⟨snapshot, verifyEvaluatorTrustStatus_eq_ok_iff.mpr ?_, ?_⟩
    · rw [hchecked.isEffectiveTime, checkFresh_eq_ok_iff]
      exact ⟨hchecked.shape, hchecked.signed, hwithin⟩
    · rw [unit_bind_eq_ok_iff, checkEvaluatorTrustStatusCoverage, hchecked.isKeyStatus, iterate,
        ok_bind, scanKeyStatus_eq_ok_iff hloop]
      exact ⟨⟨hchecked.listed, hchecked.active⟩, rfl⟩

end Acceptance

/-! ## Publishing -/

/-- What an anchor states about a key. -/
structure KeyStatus where
  keyRef : Text
  ringRef : Text
  status : String

namespace KeyStatus

abbrev entry (row : KeyStatus) : PyValue :=
  .object [("key_ref", .leaf (.str row.keyRef)), ("trust_ring_ref", .leaf (.str row.ringRef)),
    ("status", .str row.status)]

@[simp]
theorem entryPair_entry (row : KeyStatus) :
    entryPair row.entry = issuerPair row.keyRef row.ringRef := by
  simp [entryPair, List.lookup]

/-- Entries about different keys have the shape of a list of entries. -/
theorem entriesShape_map {rows : List KeyStatus} {seen : List (PyValue × PyValue)}
    (hnodup : (rows.map fun row => (row.keyRef, row.ringRef)).Nodup)
    (hnew : ∀ row ∈ rows, issuerPair row.keyRef row.ringRef ∉ seen) :
    entriesShape seen (rows.map entry) = .ok true := by
  induction rows generalizing seen with
  | nil => rfl
  | cons row rows ih =>
      rw [List.map_cons, List.nodup_cons] at hnodup
      have hunseen : (seen.any fun other => pairEq other (entryPair row.entry)) = false := by
        rw [entryPair_entry, List.any_eq_false]
        intro other hother hequal
        exact hnew row List.mem_cons_self (pairEq_issuerPair_iff.mp hequal ▸ hother)
      have hrest : entriesShape (entryPair row.entry :: seen) (rows.map entry) = .ok true := by
        apply ih hnodup.2
        intro other hother hmem
        rw [entryPair_entry, List.mem_cons] at hmem
        rcases hmem with hsame | hmem
        · apply hnodup.1
          simp only [Prod.mk.injEq, Tree.leaf.injEq, Atom.str.injEq] at hsame
          exact List.mem_map.mpr ⟨other, hother, by rw [hsame.1, hsame.2]⟩
        · exact hnew other (List.mem_cons_of_mem _ hother) hmem
      rw [List.map_cons, entriesShape, if_pos (by simp [List.lookup]), hunseen]
      simpa [requireHash, List.lookup] using hrest

end KeyStatus

section Publishing

variable {platform : Platform} (issuer : Issuer platform) (effectiveTime : Text)
  (rows : List KeyStatus)

/-- The pin of an anchor. -/
def anchorOf : TrustAnchorKey where
  keyRef := .leaf (.str issuer.keyRef)
  algorithm := .str issuer.algorithm
  publicKeyDerB64 := .leaf (.str (b64encode issuer.der))
  publicKeyDigest := spkiDigest platform issuerSpkiDomain issuer.der

abbrev publishedSnapshot : PyValue :=
  .object [("schema_version", .str trustStatusVersion), ("trust_policy_id", .str trustPolicyId),
    ("max_age_seconds", .leaf (.int trustMaxAgeSeconds)),
    ("effective_time", .leaf (.str effectiveTime)),
    ("trust_anchor_ref", .leaf (.str issuer.keyRef)),
    ("key_status", .list (rows.map KeyStatus.entry))]

abbrev publishedSignature : PyValue :=
  .object [("algorithm", .str issuer.algorithm),
    ("signature",
      issuer.signature trustStatusVersion (publishedSnapshot issuer effectiveTime rows)),
    ("trust_anchor_ref", .leaf (.str issuer.keyRef)),
    ("snapshot_digest",
      digestValue platform trustStatusVersion (publishedSnapshot issuer effectiveTime rows))]

/-- The envelope an anchor publishes. -/
def publishedTrustStatus : PyValue :=
  .object [("schema_version", .str trustStatusEnvelopeVersion),
    ("snapshot", publishedSnapshot issuer effectiveTime rows),
    ("signature", publishedSignature issuer effectiveTime rows)]

/-- The texts have an encoding, and at most 64 different keys are listed. -/
structure Publishable (effectiveTime : Text) (rows : List KeyStatus) : Prop where
  encodable : Unicode.Encodable effectiveTime
  encodableRows : ∀ row ∈ rows, Unicode.Encodable row.keyRef ∧ Unicode.Encodable row.ringRef
  distinct : (rows.map fun row => (row.keyRef, row.ringRef)).Nodup
  nonempty : 1 ≤ rows.length
  bounded : rows.length ≤ maxTrustStatusEntries

variable {issuer effectiveTime rows}

theorem Publishable.canonicalizable (hpublishable : Publishable effectiveTime rows) :
    Canonicalizable (publishedSnapshot issuer effectiveTime rows) := by
  have hentries : ∀ row ∈ rows, Document PlainAtom 1 row.entry := by
    intro row hrow
    obtain ⟨hkey, hring⟩ := hpublishable.encodableRows row hrow
    apply document_object (by simp)
    simp only [List.forall_mem_cons]
    exact ⟨document_text hkey, document_text hring, document_str _, by simp⟩
  have hdocument : Document PlainAtom 3 (publishedSnapshot issuer effectiveTime rows) := by
    apply document_object (by simp)
    simp only [List.forall_mem_cons]
    exact ⟨document_str _, document_str _, document_int (by decide),
      document_text hpublishable.encodable, document_text issuer.encodable_keyRef,
      document_list_map hentries, by simp⟩
  exact hdocument.canonicalizable_of_plain (by decide)

/-- What the issuer publishes is anchored under the issuer's own key. -/
theorem checkAnchored_published (hpublishable : Publishable effectiveTime rows) :
    checkAnchored platform (some (anchorOf issuer)) (publishedSnapshot issuer effectiveTime rows)
      (publishedSignature issuer effectiveTime rows) = .ok () := by
  have hcanonicalizable : Canonicalizable (publishedSnapshot issuer effectiveTime rows) :=
    hpublishable.canonicalizable
  have hdigest : roleDigest platform trustStatusVersion
      (publishedSnapshot issuer effectiveTime rows) =
      .ok (digestValue platform trustStatusVersion (publishedSnapshot issuer effectiveTime rows)) :=
    (roleDigest_eq_ok_iff platform).mpr ⟨hcanonicalizable, rfl⟩
  have hcanonical : canonicalUtf8 platform (publishedSnapshot issuer effectiveTime rows) =
      .ok (utf8 (canonicalText platform.float (publishedSnapshot issuer effectiveTime rows))) :=
    (canonicalUtf8_eq_ok_iff platform).mpr ⟨hcanonicalizable, rfl⟩
  have hkey : materialPublicKey platform (anchorOf issuer).projection issuerSpkiDomain =
      .ok issuer.key := by
    apply materialPublicKey_eq_ok_iff.mpr
    exact ⟨issuer.der, by simp [anchorOf, List.lookup], issuer.load_der, issuer.publicBytes_key,
      by simp [anchorOf, List.lookup], .str issuer.algorithm, by simp [anchorOf, List.lookup],
      fun halgorithm => issuer.ed25519 (str_inj.mp halgorithm),
      fun halgorithm => issuer.ecdsa (str_inj.mp halgorithm)⟩
  have hstated : pyEq (digestValue platform trustStatusVersion
      (publishedSnapshot issuer effectiveTime rows)) (digestValue platform trustStatusVersion
      (publishedSnapshot issuer effectiveTime rows)) = true := pyEq_str_right.mpr rfl
  have hanchor : pyEq (.leaf (.str issuer.keyRef)) (.leaf (.str issuer.keyRef)) = true :=
    pyEq_str_right.mpr rfl
  have hsignature := issuer.verifies
    (rolePreimage platform trustStatusVersion (publishedSnapshot issuer effectiveTime rows))
  simp only [checkAnchored, checkSignedBy, orFail_bind_eq_ok_iff, hdigest, ok_bind, hkey,
    hcanonical, unit_bind_eq_ok_iff, ensure_eq_ok_iff, orFail_eq_ok_iff, Bool.and_eq_true]
  simp only [PyValue.field_object, List.lookup]
  exact ⟨hstated, ⟨hanchor, hanchor⟩, hsignature⟩

/-- What the issuer publishes has the shape the verifier reads. -/
theorem evaluatorTrustStatusShape_published (hpublishable : Publishable effectiveTime rows) :
    evaluatorTrustStatusShape (publishedTrustStatus issuer effectiveTime rows) =
      .ok (some (publishedSnapshot issuer effectiveTime rows)) := by
  have hloop : entriesShape [] (rows.map KeyStatus.entry) = .ok true :=
    KeyStatus.entriesShape_map hpublishable.distinct (by simp)
  have hheader : headerShape (publishedTrustStatus issuer effectiveTime rows) = true := by
    have hself : ∀ literal : String, pyEq (.str literal) (.str literal) = true :=
      fun _ => pyEq_literal_right.mpr rfl
    simp [headerShape, publishedTrustStatus, List.lookup, hself, isExactStr]
  have hsignature : signatureShape (publishedSignature issuer effectiveTime rows) = true := by
    simp [signatureShape, List.lookup, isExactStr, Issuer.signature, digestValue, PyValue.str]
  have hfields : (publishedTrustStatus issuer effectiveTime rows).field "snapshot" =
        publishedSnapshot issuer effectiveTime rows ∧
      (publishedTrustStatus issuer effectiveTime rows).field "signature" =
        publishedSignature issuer effectiveTime rows ∧
      (publishedSnapshot issuer effectiveTime rows).field "key_status" =
        .list (rows.map KeyStatus.entry) := by
    simp [publishedTrustStatus, List.lookup]
  obtain ⟨hsnapshot, hsigned, hentries⟩ := hfields
  rw [evaluatorTrustStatusShape, if_pos hheader, hsnapshot, hsigned, hentries]
  simp [hpublishable.nonempty, hpublishable.bounded, hloop, hsignature]

/-- What an anchor publishes is accepted on its day for the keys it lists as active. -/
theorem checkTrustStatus_published (hpublishable : Publishable effectiveTime rows)
    {verificationTime : Text} (hwithin : WithinDay effectiveTime verificationTime)
    {row : KeyStatus} (hrow : row ∈ rows) (hactive : row.status = "active") :
    checkTrustStatus platform (some (anchorOf issuer)) verificationTime row.keyRef row.ringRef
        (publishedTrustStatus issuer effectiveTime rows) =
      .ok (publishedSnapshot issuer effectiveTime rows) := by
  apply checkTrustStatus_iff_active.mpr
  have hsigned : (publishedTrustStatus issuer effectiveTime rows).field "signature" =
      publishedSignature issuer effectiveTime rows := by
    simp [publishedTrustStatus, List.lookup]
  refine ⟨rows.map KeyStatus.entry, effectiveTime, ?_, hwithin⟩
  exact {
    shape := evaluatorTrustStatusShape_published hpublishable
    isEffectiveTime := by simp [List.lookup]
    isKeyStatus := by simp [List.lookup]
    signed := by
      rw [hsigned]
      exact checkAnchored_published hpublishable
    listed := ⟨row.entry, List.mem_map_of_mem hrow, row.entryPair_entry⟩
    active := by
      intro entry hentry hpair
      obtain ⟨other, hother, rfl⟩ := List.mem_map.mp hentry
      rw [KeyStatus.entryPair_entry] at hpair
      simp only [issuerPair, Prod.mk.injEq, Tree.leaf.injEq, Atom.str.injEq] at hpair
      have hsame : other = row := List.inj_on_of_nodup_map hpublishable.distinct hother hrow
        (Prod.ext hpair.1 hpair.2)
      simp [hsame, List.lookup, hactive] }

end Publishing

/-! ## The evidence and its day -/

section Window

variable {platform : Platform} {anchor : Option TrustAnchorKey} {keyRef ringRef : Text}
  {envelope snapshot : PyValue} {verificationTime : Text}

/-- An accepted snapshot was signed by the pinned anchor, has the issuer's key in one or more
entries, all of them active, and is accepted by the clocks of one day and by no others: once it is
stale it stays so, and no clock accepts it ahead of its time. -/
theorem trustStatus_accepted_for_a_day
    (hok : checkTrustStatus platform anchor verificationTime keyRef ringRef envelope =
      .ok snapshot) :
    ∃ entries effectiveTime i,
      CheckedActive platform anchor keyRef ringRef envelope snapshot entries effectiveTime ∧
      Denotes effectiveTime i ∧
      ∀ clock j, Denotes clock j →
        (checkTrustStatus platform anchor clock keyRef ringRef envelope = .ok snapshot ↔
          i.microseconds ≤ j.microseconds ∧ j.microseconds ≤ i.microseconds + 86400000000) := by
  obtain ⟨entries, effectiveTime, hchecked, i, _, hi, _⟩ := checkTrustStatus_iff_active.mp hok
  refine ⟨entries, effectiveTime, i, hchecked, hi, fun clock j hj => ?_⟩
  have hunique : ∀ {s : Text} {k l : Instant}, Denotes s k → Denotes s l → k = l := by
    intro s k l hk hl
    rw [(denotes_iff.mp hk).2.2, (denotes_iff.mp hl).2.2]
  rw [checkTrustStatus_iff_active]
  constructor
  · rintro ⟨entries', time, hchecked', k, l, hk, hl, hwindow⟩
    have htime : time = effectiveTime := by
      have hfields := hchecked'.isEffectiveTime.symm.trans hchecked.isEffectiveTime
      simpa using hfields
    rw [htime] at hk
    rw [hunique hi hk, hunique hj hl]
    exact hwindow
  · exact fun hwindow => ⟨entries, effectiveTime, hchecked, i, j, hi, hj, hwindow⟩

/-- `__post_init__` lets through exactly the members of a context. -/
theorem TrustContext.postInit_eq_ok_iff {allowUnchecked : Bool} {context : TrustContext} :
    TrustContext.postInit allowUnchecked verificationTime anchor = .ok context ↔
      context.allowUncheckedTrustStatus = allowUnchecked ∧
        context.verificationTime = verificationTime ∧ context.trustAnchor = anchor := by
  unfold TrustContext.postInit
  constructor
  · intro hok
    split_ifs at hok
    · cases hok
      exact ⟨rfl, rfl, rfl⟩
    · cases hok
    · cases hok
  · rintro ⟨rfl, rfl, rfl⟩
    rw [dif_pos context.isTime, dif_pos context.pinned]

/-- There are two ways to evidence: the anchor is opted out of, or the status is verified. -/
theorem trustStatusEvidence_iff (context : TrustContext) (evidence : String × PyValue) :
    trustStatusEvidence platform context keyRef ringRef envelope = .ok evidence ↔
      (context.trustAnchor = none ∧ evidence = ("not_checked", .str "")) ∨
        ∃ anchor snapshot entries effectiveTime, context.trustAnchor = some anchor ∧
          CheckedActive platform (some anchor) keyRef ringRef envelope snapshot entries
            effectiveTime ∧
          WithinDay effectiveTime context.verificationTime ∧
          evidence = ("checked_active", .leaf (.str effectiveTime)) := by
  have hpinned := context.pinned
  rw [trustStatusEvidence, ← hpinned]
  cases hanchor : context.trustAnchor with
  | none => simp [eq_comm]
  | some anchor =>
      simp only [Option.isNone_some, Bool.false_eq_true, if_false, bind_eq_ok_iff,
        checkTrustStatus_iff_active, reduceCtorEq, false_and, false_or, Option.some.injEq]
      constructor
      · rintro ⟨snapshot, ⟨entries, effectiveTime, hchecked, hwithin⟩, hevidence⟩
        refine ⟨anchor, snapshot, entries, effectiveTime, rfl, hchecked, hwithin, ?_⟩
        rw [← hchecked.isEffectiveTime]
        exact (Except.ok.inj hevidence).symm
      · rintro ⟨_, snapshot, entries, effectiveTime, rfl, hchecked, hwithin, rfl⟩
        refine ⟨snapshot, ⟨entries, effectiveTime, hchecked, hwithin⟩, ?_⟩
        rw [hchecked.isEffectiveTime]
        rfl

@[simp]
theorem isSupplied_eq_false_iff : isSupplied envelope = false ↔ envelope = .leaf .none := by
  unfold isSupplied
  split <;> simp_all

/-- The entry turns foreign exceptions into its own, and leaves results alone. -/
@[simp]
theorem ownErrorsOnly_eq_ok_iff {A : Type} {attempt : Checked A} {a : A} :
    ownErrorsOnly attempt = .ok a ↔ attempt = .ok a := by
  unfold ownErrorsOnly
  split <;> simp

/-- The evidence is `checked_active` exactly when an anchor is pinned that has signed the snapshot
and the clock of the context reads an instant of its day.  It is `not_checked` exactly when
neither an anchor is pinned nor an envelope supplied: an envelope does not go unchecked, it is
refused before the bundle is looked at. -/
theorem trustStatusEvidence_justified (bundleChecks : Checked (Text × Text))
    (context : TrustContext) (envelope : PyValue) :
    (∀ evidence, verifyEvaluatorQualityCertificate platform bundleChecks context envelope =
        .ok evidence ↔
      ∃ keyRef ringRef, bundleChecks = .ok (keyRef, ringRef) ∧
        ((context.trustAnchor = none ∧ envelope = .leaf .none ∧
            evidence = ("not_checked", .str "")) ∨
          ∃ anchor snapshot entries effectiveTime, context.trustAnchor = some anchor ∧
            CheckedActive platform (some anchor) keyRef ringRef envelope snapshot entries
              effectiveTime ∧
            WithinDay effectiveTime context.verificationTime ∧
            evidence = ("checked_active", .leaf (.str effectiveTime)))) ∧
    (context.trustAnchor = none → envelope ≠ .leaf .none →
      verifyEvaluatorQualityCertificate platform bundleChecks context envelope =
        Certification.fail "CONTEXT" "context") := by
  have hguard : (!(context.allowUncheckedTrustStatus && isSupplied envelope)) = true ↔
      (context.trustAnchor = none → envelope = .leaf .none) := by
    rw [← context.pinned, ← isSupplied_eq_false_iff]
    cases context.trustAnchor <;> simp
  constructor
  · intro evidence
    rw [verifyEvaluatorQualityCertificate, unit_bind_eq_ok_iff]
    simp only [ensure_eq_ok_iff, ownErrorsOnly_eq_ok_iff, bind_eq_ok_iff, Prod.exists,
      trustStatusEvidence_iff, hguard]
    constructor
    · rintro ⟨hsupplied, keyRef, ringRef, hbundle, ⟨hnone, hevidence⟩ | hchecked⟩
      · exact ⟨keyRef, ringRef, hbundle, .inl ⟨hnone, hsupplied hnone, hevidence⟩⟩
      · exact ⟨keyRef, ringRef, hbundle, .inr hchecked⟩
    · rintro ⟨keyRef, ringRef, hbundle, ⟨hnone, henvelope, hevidence⟩ | hchecked⟩
      · exact ⟨fun _ => henvelope, keyRef, ringRef, hbundle, .inl ⟨hnone, hevidence⟩⟩
      · obtain ⟨anchor, snapshot, entries, effectiveTime, hanchor, hrest⟩ := hchecked
        refine ⟨fun hnone => ?_, keyRef, ringRef, hbundle, .inr ?_⟩
        · rw [hanchor] at hnone
          cases hnone
        · exact ⟨anchor, snapshot, entries, effectiveTime, hanchor, hrest⟩
  · intro hnone henvelope
    have hrefused : (!(context.allowUncheckedTrustStatus && isSupplied envelope)) = false :=
      Bool.eq_false_iff.mpr fun hpassed => henvelope (hguard.mp hpassed hnone)
    rw [verifyEvaluatorQualityCertificate, hrefused]
    rfl

end Window

section Published

variable {platform : Platform} {issuer : Issuer platform} {effectiveTime : Text}
  {rows : List KeyStatus}

/-- A key is accepted under a published status exactly on its day and when the anchor lists it as
active. -/
theorem published_trustStatus_iff (hpublishable : Publishable effectiveTime rows)
    (verificationTime keyRef ringRef : Text) :
    checkTrustStatus platform (some (anchorOf issuer)) verificationTime keyRef ringRef
        (publishedTrustStatus issuer effectiveTime rows) =
        .ok (publishedSnapshot issuer effectiveTime rows) ↔
      WithinDay effectiveTime verificationTime ∧
        ∃ row ∈ rows, row.keyRef = keyRef ∧ row.ringRef = ringRef ∧ row.status = "active" := by
  constructor
  · intro hok
    obtain ⟨entries, time, hchecked, hwithin⟩ := checkTrustStatus_iff_active.mp hok
    have hentries : entries = rows.map KeyStatus.entry := by
      have hfound := hchecked.isKeyStatus
      simpa [List.lookup, eq_comm] using hfound
    have htime : time = effectiveTime := by
      have hfound := hchecked.isEffectiveTime
      simpa [List.lookup, eq_comm] using hfound
    obtain ⟨entry, hentry, hpair⟩ := hchecked.listed
    have hactive := hchecked.active entry hentry hpair
    rw [hentries] at hentry
    obtain ⟨row, hrow, rfl⟩ := List.mem_map.mp hentry
    rw [KeyStatus.entryPair_entry] at hpair
    simp only [issuerPair, Prod.mk.injEq, Tree.leaf.injEq, Atom.str.injEq] at hpair
    refine ⟨htime ▸ hwithin, row, hrow, hpair.1, hpair.2, ?_⟩
    simpa [List.lookup] using hactive
  · rintro ⟨hwithin, row, hrow, rfl, rfl, hactive⟩
    exact checkTrustStatus_published hpublishable hwithin hrow hactive

end Published

/-! ## A published status -/

def exampleActiveKey : KeyStatus := ⟨text "key:new", text "ring:a", "active"⟩

def exampleRevokedKey : KeyStatus := ⟨text "key:old", text "ring:a", "revoked"⟩

def exampleKeyStatuses : List KeyStatus := [exampleRevokedKey, exampleActiveKey]

def exampleEffectiveTime : Text := text "2026-01-01T00:00:00Z"

def exampleClock : Text := text "2026-01-01T12:00:00Z"

theorem publishable_example : Publishable exampleEffectiveTime exampleKeyStatuses where
  encodable := encodable_text _
  encodableRows := by
    intro row hrow
    simp only [exampleKeyStatuses, List.mem_cons, List.not_mem_nil, or_false] at hrow
    rcases hrow with rfl | rfl <;> exact ⟨encodable_text _, encodable_text _⟩
  distinct := by decide
  nonempty := by decide
  bounded := by decide

theorem withinDay_example : WithinDay exampleEffectiveTime exampleClock :=
  checkFresh_eq_ok_iff.mp (show checkFresh (.leaf (.str exampleEffectiveTime))
    (.leaf (.str exampleClock)) = .ok () by decide +kernel)

noncomputable def exampleAnchor : Issuer neutralPlatform :=
  neutralIssuer "anchor:1" "ring:anchor" neutralKey neutralKey_choice

theorem mem_exampleKeyStatuses : exampleActiveKey ∈ exampleKeyStatuses :=
  List.mem_cons_of_mem _ List.mem_cons_self

theorem checkTrustStatus_example :
    checkTrustStatus neutralPlatform (some (anchorOf exampleAnchor)) exampleClock
        exampleActiveKey.keyRef exampleActiveKey.ringRef
        (publishedTrustStatus exampleAnchor exampleEffectiveTime exampleKeyStatuses) =
      .ok (publishedSnapshot exampleAnchor exampleEffectiveTime exampleKeyStatuses) :=
  checkTrustStatus_published publishable_example withinDay_example mem_exampleKeyStatuses rfl

theorem isTime_exampleClock :
    (ProcessRecord.parseUtcTimestamp exampleClock).isSome = true := by
  decide +kernel

/-- A caller that pins the anchor of the example. -/
noncomputable def pinningContext : TrustContext where
  allowUncheckedTrustStatus := false
  verificationTime := exampleClock
  trustAnchor := some (anchorOf exampleAnchor)
  isTime := isTime_exampleClock
  pinned := rfl

/-- A caller that opts out. -/
def optedOutContext : TrustContext where
  allowUncheckedTrustStatus := true
  verificationTime := exampleClock
  trustAnchor := none
  isTime := isTime_exampleClock
  pinned := rfl

theorem checkedActive_example :
    CheckedActive neutralPlatform (some (anchorOf exampleAnchor)) exampleActiveKey.keyRef
      exampleActiveKey.ringRef
      (publishedTrustStatus exampleAnchor exampleEffectiveTime exampleKeyStatuses)
      (publishedSnapshot exampleAnchor exampleEffectiveTime exampleKeyStatuses)
      (exampleKeyStatuses.map KeyStatus.entry) exampleEffectiveTime := by
  obtain ⟨entries, time, hchecked, -⟩ := checkTrustStatus_iff_active.mp checkTrustStatus_example
  obtain rfl : exampleKeyStatuses.map KeyStatus.entry = entries := by
    simpa [List.lookup] using hchecked.isKeyStatus
  obtain rfl : exampleEffectiveTime = time := by
    simpa [List.lookup] using hchecked.isEffectiveTime
  exact hchecked

/-- The pinned anchor's envelope is evidence, no envelope is none, and an envelope that comes with
the opt-out is refused. -/
theorem trustStatusEvidence_justified_example :
    let bundleChecks : Checked (Text × Text) := .ok (text "key:new", text "ring:a")
    let envelope := publishedTrustStatus exampleAnchor exampleEffectiveTime exampleKeyStatuses
    verifyEvaluatorQualityCertificate neutralPlatform bundleChecks pinningContext envelope =
        .ok ("checked_active", .leaf (.str exampleEffectiveTime)) ∧
      verifyEvaluatorQualityCertificate neutralPlatform bundleChecks optedOutContext
        (.leaf .none) = .ok ("not_checked", .str "") ∧
      verifyEvaluatorQualityCertificate neutralPlatform bundleChecks optedOutContext envelope =
        Certification.fail "CONTEXT" "context" := by
  intro bundleChecks envelope
  refine ⟨?_, ?_, ?_⟩
  · refine ((trustStatusEvidence_justified bundleChecks pinningContext envelope).1 _).mpr ?_
    exact ⟨_, _, rfl, .inr ⟨_, _, _, _, rfl, checkedActive_example, withinDay_example, rfl⟩⟩
  · refine ((trustStatusEvidence_justified bundleChecks optedOutContext _).1 _).mpr ?_
    exact ⟨_, _, rfl, .inl ⟨rfl, rfl, rfl⟩⟩
  · exact (trustStatusEvidence_justified bundleChecks optedOutContext envelope).2 rfl
      (by simp [envelope, publishedTrustStatus, PyValue.object])

theorem trustStatus_accepted_for_a_day_example :
    ∃ entries effectiveTime i,
      CheckedActive neutralPlatform (some (anchorOf exampleAnchor)) (text "key:new") (text "ring:a")
        (publishedTrustStatus exampleAnchor exampleEffectiveTime exampleKeyStatuses)
        (publishedSnapshot exampleAnchor exampleEffectiveTime exampleKeyStatuses) entries
        effectiveTime ∧ Denotes effectiveTime i :=
  have hok := checkTrustStatus_example
  have ⟨entries, effectiveTime, i, hchecked, hi, _⟩ := trustStatus_accepted_for_a_day hok
  ⟨entries, effectiveTime, i, hchecked, hi⟩

/-- The revoked key of the example is not accepted. -/
theorem published_trustStatus_iff_revoked :
    checkTrustStatus neutralPlatform (some (anchorOf exampleAnchor)) exampleClock (text "key:old")
        (text "ring:a")
        (publishedTrustStatus exampleAnchor exampleEffectiveTime exampleKeyStatuses) ≠
      .ok (publishedSnapshot exampleAnchor exampleEffectiveTime exampleKeyStatuses) := by
  intro hok
  obtain ⟨_, row, hrow, hkey, _, hactive⟩ :=
    (published_trustStatus_iff publishable_example exampleClock _ _).mp hok
  simp only [exampleKeyStatuses, List.mem_cons, List.not_mem_nil, or_false] at hrow
  rcases hrow with rfl | rfl
  · exact absurd hactive (by decide)
  · exact absurd hkey (by decide)

end TraigentSchema.EvaluatorQuality
