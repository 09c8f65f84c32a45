import TraigentSchema.AgentCertificate.SignedMaterial
import TraigentSchema.AgentQuality.Environment
import TraigentSchema.Certification.Issuer

/-!
# No signature serves two artifacts

The package verifies signatures over eleven kinds of artifact in two framings: the
agent certificate puts a length behind its domain, all others a zero byte.  No domain
begins another, so that the signed bytes determine the kind and, behind the domain,
the canonical text.
-/

namespace TraigentSchema.SignatureSeparation

open TraigentSchema.Unicode
open TraigentSchema.Framing
open TraigentSchema.Fp2
open TraigentSchema.JsonReading
open TraigentSchema.Certification
open TraigentSchema.AgentCertificate
open TraigentSchema.Python
open TraigentSchema.Traverse

/-- What the package verifies signatures over. -/
inductive ArtifactKind where
  | agentCertificateManifest
  | clientCoAttestation
  | commitmentLinkage
  | processRecordManifest
  | processTrustStatus
  | datasetPreregistration
  | datasetManifest
  | evaluatorManifest
  | evaluatorTrustStatus
  | agentQualityPlan
  | agentQualityManifest
  deriving DecidableEq, Repr

instance : Fintype ArtifactKind where
  elems := {.agentCertificateManifest, .clientCoAttestation, .commitmentLinkage,
    .processRecordManifest, .processTrustStatus, .datasetPreregistration, .datasetManifest,
    .evaluatorManifest, .evaluatorTrustStatus, .agentQualityPlan, .agentQualityManifest}
  complete kind := by cases kind <;> decide

/-- The domain constant of each kind. -/
def signatureDomain : ArtifactKind → String
  | .agentCertificateManifest => issuerDomain
  | .clientCoAttestation => clientDomain
  | .commitmentLinkage => "traigent.commitment_linkage.issuer_signature.v1"
  | .processRecordManifest => "traigent.process_record.issuer_signature.v1"
  | .processTrustStatus => "traigent.process_record.trust_status.v1"
  | .datasetPreregistration => "traigent.dataset_record.prereg_signature.v1"
  | .datasetManifest => "traigent.dataset_record.issuer_signature.v1"
  | .evaluatorManifest => "traigent.evaluator_quality.issuer_signature.v1"
  | .evaluatorTrustStatus => "traigent.evaluator_quality.trust_status.v1"
  | .agentQualityPlan => AgentQuality.domain "declared_plan_signature"
  | .agentQualityManifest => AgentQuality.domain "issuer_signature"

section Material

variable (platform : Platform) (manifestSchema : PyValue → Bool)

/-- The bytes passed to the signature primitive for a payload. -/
def signatureMaterial (kind : ArtifactKind) (payload : PyValue) : Checked Bytes :=
  match kind with
  | .agentCertificateManifest => do
      let canonical ← manifestBytes platform manifestSchema payload
      issuerMaterial canonical
  | .clientCoAttestation => do
      let canonical ← canonicalUtf8 platform payload
      clientMaterial canonical
  | kind => do
      let canonical ← canonicalUtf8 platform payload
      return preimage (signatureDomain kind) canonical

end Material

/-! ## Domains -/

def domainBytes (kind : ArtifactKind) : Bytes :=
  utf8 (text (signatureDomain kind))

theorem domainBytes_not_isPrefix :
    ∀ kind kind', domainBytes kind <+: domainBytes kind' → kind = kind' := by
  decide +kernel

theorem domainBytes_ne_nil : ∀ kind, domainBytes kind ≠ [] := by
  decide

theorem domainBytes_prefixFree : PrefixFree domainBytes fun _ => True :=
  prefixFree_of_not_isPrefix domainBytes_ne_nil domainBytes_not_isPrefix

/-! ## Framings -/

/-- What stands behind the domain. -/
def framed (kind : ArtifactKind) (canonical : Bytes) : Bytes :=
  match kind with
  | .agentCertificateManifest => lengthPrefixedAll [canonical]
  | .clientCoAttestation => lengthPrefixedAll [canonical]
  | _ => 0 :: canonical

/-- The lengths a frame can hold: the zero byte takes any. -/
def Fits : ArtifactKind → Bytes → Prop
  | .agentCertificateManifest, canonical => Framable canonical
  | .clientCoAttestation, canonical => Framable canonical
  | _, _ => True

theorem framed_injective {kind : ArtifactKind} {left right : Bytes} (hleft : Fits kind left)
    (hright : Fits kind right) (heq : framed kind left = framed kind right) :
    left = right := by
  cases kind with
  | agentCertificateManifest => exact lengthPrefixedAll_singleton_inj hleft hright heq
  | clientCoAttestation => exact lengthPrefixedAll_singleton_inj hleft hright heq
  | _ => exact List.cons_injective heq

section Separation

variable {platform : Platform} {manifestSchema : PyValue → Bool}

/-- The signed bytes are the domain of the kind before the framed canonical text. -/
theorem signatureMaterial_eq {kind : ArtifactKind} {payload : PyValue} {material : Bytes}
    (hmaterial : signatureMaterial platform manifestSchema kind payload = .ok material) :
    Canonicalizable payload ∧
      Fits kind (utf8 (canonicalText platform.float payload)) ∧
      material = domainBytes kind ++ framed kind (utf8 (canonicalText platform.float payload)) := by
  cases kind with
  | agentCertificateManifest =>
      obtain ⟨canonical, hcanonical, hissuer⟩ := bind_eq_ok_iff.mp hmaterial
      obtain ⟨hpayload, rfl⟩ :=
        (canonicalUtf8_eq_ok_iff platform).mp (manifestBytes_eq_ok_iff.mp hcanonical).2.2
      obtain ⟨hfits, rfl⟩ := issuerMaterial_eq_ok_iff.mp hissuer
      exact ⟨hpayload, hfits, rfl⟩
  | clientCoAttestation =>
      obtain ⟨canonical, hcanonical, hclient⟩ := bind_eq_ok_iff.mp hmaterial
      obtain ⟨hpayload, rfl⟩ := (canonicalUtf8_eq_ok_iff platform).mp hcanonical
      obtain ⟨hfits, rfl⟩ := clientMaterial_eq_ok_iff.mp hclient
      exact ⟨hpayload, hfits, rfl⟩
  | _ =>
      obtain ⟨canonical, hcanonical, hpure⟩ := bind_eq_ok_iff.mp hmaterial
      obtain ⟨hpayload, rfl⟩ := (canonicalUtf8_eq_ok_iff platform).mp hcanonical
      exact ⟨hpayload, trivial, (Except.ok.inj hpure).symm⟩

/-- One byte string is signed for one kind and one canonical text only. -/
theorem signatureMaterial_injective {kind kind' : ArtifactKind} {payload payload' : PyValue}
    {material : Bytes}
    (hmaterial : signatureMaterial platform manifestSchema kind payload = .ok material)
    (hmaterial' : signatureMaterial platform manifestSchema kind' payload' = .ok material) :
    kind = kind' ∧ Agree platform.float payload payload' := by
  obtain ⟨-, hfits, heq⟩ := signatureMaterial_eq hmaterial
  obtain ⟨-, hfits', heq'⟩ := signatureMaterial_eq hmaterial'
  obtain ⟨hkind, hframed⟩ :=
    tagged_injective domainBytes_prefixFree trivial trivial (heq.symm.trans heq')
  subst hkind
  exact ⟨rfl, utf8_injective (framed_injective hfits hfits' hframed)⟩

theorem signatureMaterial_eq_iff {kind kind' : ArtifactKind} {payload payload' : PyValue}
    {material material' : Bytes}
    (hmaterial : signatureMaterial platform manifestSchema kind payload = .ok material)
    (hmaterial' : signatureMaterial platform manifestSchema kind' payload' = .ok material') :
    material = material' ↔ kind = kind' ∧ Agree platform.float payload payload' := by
  constructor
  · rintro rfl
    exact signatureMaterial_injective hmaterial hmaterial'
  · rintro ⟨rfl, hagree⟩
    rw [(signatureMaterial_eq hmaterial).2.2, (signatureMaterial_eq hmaterial').2.2, hagree]

/-- The signed bytes of two artifacts are equal exactly when the kinds and the payloads
are, and a signature that holds for the bytes of one artifact only verifies for no
other. -/
theorem signature_separation {kind kind' : ArtifactKind} {payload payload' : PyValue}
    {material material' : Bytes} (hwellFormed : payload.WellFormed)
    (hwellFormed' : payload'.WellFormed)
    (hmaterial : signatureMaterial platform manifestSchema kind payload = .ok material)
    (hmaterial' : signatureMaterial platform manifestSchema kind' payload' = .ok material') :
    (material = material' ↔ kind = kind' ∧ jsonValue payload = jsonValue payload') ∧
      ∀ (publicKey : platform.PublicKey) (algorithm encoded : PyValue),
        (∀ bytes, verifySignature platform publicKey algorithm bytes encoded = .ok () →
          bytes = material) →
        verifySignature platform publicKey algorithm material' encoded = .ok () →
        kind = kind' ∧ jsonValue payload = jsonValue payload' := by
  have hpayload : HasCanonicalText payload :=
    ⟨(signatureMaterial_eq hmaterial).1.2, hwellFormed⟩
  have hpayload' : HasCanonicalText payload' :=
    ⟨(signatureMaterial_eq hmaterial').1.2, hwellFormed'⟩
  have hiff : material = material' ↔
      kind = kind' ∧ jsonValue payload = jsonValue payload' := by
    rw [signatureMaterial_eq_iff hmaterial hmaterial',
      ← hpayload.jsonValue_eq_iff platform.float hpayload']
    exact Iff.rfl
  refine ⟨hiff, ?_⟩
  intro publicKey algorithm encoded hown hverified
  exact hiff.mp (hown material' hverified).symm

end Separation

/-! ## A payload in three materials -/

/-- An agent's runs, with the members in some order. -/
def runsPayload (runs : ℤ) : PyValue :=
  .object [("subject", .str "agent"), ("runs", .leaf (.int runs))]

def reorderedPayload (runs : ℤ) : PyValue :=
  .object [("runs", .leaf (.int runs)), ("subject", .str "agent")]

theorem document_runs {runs : ℤ} (hruns : runs.natAbs ≤ maxSafeInteger) :
    Document PlainAtom 1 (runsPayload runs) ∧ Document PlainAtom 1 (reorderedPayload runs) := by
  have hrow : ∀ row ∈ [("subject", PyValue.str "agent"), ("runs", .leaf (.int runs))],
      Document PlainAtom 0 row.2 := by
    simp [document_str, document_int hruns]
  refine ⟨document_object (by simp) hrow, document_object (by simp) fun row hmem => ?_⟩
  exact hrow row ((List.Perm.swap _ _ []).mem_iff.mp hmem)

theorem jsonValue_reordered (runs : ℤ) :
    jsonValue (runsPayload runs) = jsonValue (reorderedPayload runs) := by
  rw [runsPayload, reorderedPayload, PyValue.object, PyValue.object, jsonValue_dict,
    jsonValue_dict]
  apply objectValue_eq_of_perm
  · simp [jsonMembers]
    decide
  · exact List.Perm.swap _ _ []

theorem jsonValue_runs_injective : Function.Injective fun runs => jsonValue (runsPayload runs) := by
  intro runs runs' heq
  simp only [runsPayload, PyValue.object, jsonValue_dict] at heq
  have hmember := congrFun (JsonValue.obj.inj heq) (text "runs")
  simpa [jsonMembers, objectValue, keyText, jsonAtom, List.lookup_cons] using hmember

/-- What is signed for a payload of some kind. -/
noncomputable def materialOf (kind : ArtifactKind) (payload : PyValue) : Bytes :=
  domainBytes kind ++ framed kind (utf8 (canonicalText FloatRepr.fewestDigits payload))

theorem framable_runs :
    ∀ runs ∈ [(1 : ℤ), 2],
      Framable (utf8 (canonicalText FloatRepr.fewestDigits (runsPayload runs))) := by
  intro runs hruns
  simp only [runsPayload, PyValue.object, List.map, canonicalText_dict, PyValue.str,
    canonicalText_leaf]
  revert runs hruns
  decide +kernel

/-- Both framings take the payloads, in either order of the members. -/
theorem signatureMaterial_runs {runs : ℤ} (hruns : runs ∈ [1, 2]) {payload : PyValue}
    (hpayload : payload = runsPayload runs ∨ payload = reorderedPayload runs) :
    ∀ kind ∈ [ArtifactKind.clientCoAttestation, .datasetManifest],
      signatureMaterial neutralPlatform (fun _ => true) kind payload =
        .ok (materialOf kind payload) := by
  have hsmall : ∀ runs ∈ [(1 : ℤ), 2], runs.natAbs ≤ maxSafeInteger := by decide
  have hdocuments := document_runs (hsmall runs hruns)
  have hdocument : Document PlainAtom 1 payload := by
    rcases hpayload with rfl | rfl
    · exact hdocuments.1
    · exact hdocuments.2
  have hcanonical := (canonicalUtf8_eq_ok_iff neutralPlatform).mpr
    ⟨hdocument.canonicalizable_of_plain (by decide), rfl⟩
  have hframable : Framable (utf8 (canonicalText FloatRepr.fewestDigits payload)) := by
    rcases hpayload with rfl | rfl
    · exact framable_runs runs hruns
    · have hsupported := hdocuments.1.canonicalizable_of_plain (by decide)
      have hsupported' := hdocuments.2.canonicalizable_of_plain (by decide)
      rw [← canonicalText_eq_of_jsonValue_eq _ hsupported.2 hsupported'.2
        hdocuments.1.wellFormed hdocuments.2.wellFormed (jsonValue_reordered runs)]
      exact framable_runs runs hruns
  intro kind hkind
  simp only [List.mem_cons, List.not_mem_nil, or_false] at hkind
  rcases hkind with rfl | rfl
  · exact bind_eq_ok_iff.mpr ⟨_, hcanonical, clientMaterial_eq_ok_iff.mpr ⟨hframable, rfl⟩⟩
  · exact bind_eq_ok_iff.mpr ⟨_, hcanonical, rfl⟩

/-- What a client signs is the same for the members in another order, and differs from what is
signed for other members and from what is signed for the manifest of a dataset. -/
theorem signature_separation_runs :
    materialOf .clientCoAttestation (runsPayload 1) =
      materialOf .clientCoAttestation (reorderedPayload 1) ∧
    materialOf .clientCoAttestation (runsPayload 1) ≠
      materialOf .clientCoAttestation (runsPayload 2) ∧
    materialOf .clientCoAttestation (runsPayload 1) ≠
      materialOf .datasetManifest (runsPayload 1) := by
  have hfirst := (@document_runs 1 (by decide)).1.wellFormed
  have hreordered := (@document_runs 1 (by decide)).2.wellFormed
  have hsecond := (@document_runs 2 (by decide)).1.wellFormed
  have hmaterial := @signatureMaterial_runs 1 (by simp) _ (Or.inl rfl)
  refine ⟨?_, fun hsame => ?_, fun hsame => ?_⟩
  · apply (signature_separation hfirst hreordered (hmaterial _ (by simp))
      (signatureMaterial_runs (by simp) (Or.inr rfl) _ (by simp))).1.mpr
    exact ⟨rfl, jsonValue_reordered 1⟩
  · have hvalue := ((signature_separation hfirst hsecond (hmaterial _ (by simp))
      (signatureMaterial_runs (by simp) (Or.inl rfl) _ (by simp))).1.mp hsame).2
    exact absurd (jsonValue_runs_injective hvalue) (by decide)
  · have hkind := ((signature_separation hfirst hfirst (hmaterial _ (by simp))
      (hmaterial .datasetManifest (by simp))).1.mp hsame).1
    cases hkind

end TraigentSchema.SignatureSeparation
