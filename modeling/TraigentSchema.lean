import TraigentSchema.Library.Unicode
import TraigentSchema.Library.Utf8Decoding
import TraigentSchema.Library.Framing
import TraigentSchema.Library.UriReference
import TraigentSchema.Library.Base64
import TraigentSchema.Library.SortedBy
import TraigentSchema.Library.VariantLoop
import TraigentSchema.Library.GraphWalk
import TraigentSchema.Library.MerkleTree
import TraigentSchema.Library.FileTree
import TraigentSchema.Library.Binary64
import TraigentSchema.Library.Decimal
import TraigentSchema.Library.Hashing
import TraigentSchema.Library.Sha256
import TraigentSchema.Library.Hkdf
import TraigentSchema.Library.Bisection
import TraigentSchema.Library.HalfEven
import TraigentSchema.Library.JsonNumber
import TraigentSchema.Library.Traverse
import TraigentSchema.Library.Histories
import TraigentSchema.Library.JsonText
import TraigentSchema.Library.JsonScanning
import TraigentSchema.Library.JsonReading
import TraigentSchema.Library.Tree
import TraigentSchema.Python.Value
import TraigentSchema.Python.Mapping
import TraigentSchema.Python.Heap
import TraigentSchema.Python.HeapWalk
import TraigentSchema.Python.WalkErrors
import TraigentSchema.Python.JsonDecoder
import TraigentSchema.Python.FloatRepr
import TraigentSchema.Fp2.Scalar
import TraigentSchema.Fp2.NumberText
import TraigentSchema.Fp2.NumberToString
import TraigentSchema.Fp2.Canonical
import TraigentSchema.Fp2.Document
import TraigentSchema.Fp2.Utf8Form
import TraigentSchema.Fp2.Encoder
import TraigentSchema.Fp2.EncoderCorrect
import TraigentSchema.Fp2.Acceptance
import TraigentSchema.Fp2.Injective
import TraigentSchema.Python.JsonDumps
import TraigentSchema.Python.Equality
import TraigentSchema.Fp2.Members
import TraigentSchema.Certification.Verification
import TraigentSchema.Certification.Documents
import TraigentSchema.Certification.Signatures
import TraigentSchema.Certification.Issuer
import TraigentSchema.ContentIdentity.DatasetVersion
import TraigentSchema.AgentCertificate.SignedMaterial
import TraigentSchema.AgentCertificate.Checks
import TraigentSchema.AgentCertificate.Verifier
import TraigentSchema.AgentCertificate.Acceptance
import TraigentSchema.AgentCertificate.TamperEvidence
import TraigentSchema.AgentCertificate.CoAttestation
import TraigentSchema.AgentCertificate.Preparation
import TraigentSchema.AgentCertificate.Preflight
import TraigentSchema.CommitmentLinkage.Commitment
import TraigentSchema.CommitmentLinkage.Opening
import TraigentSchema.AgentQuality.QuantileTable
import TraigentSchema.AgentQuality.Wilson
import TraigentSchema.AgentQuality.ObjectiveMeasurement
import TraigentSchema.AgentQuality.HalfWidth
import TraigentSchema.AgentQuality.Environment
import TraigentSchema.AgentQuality.Registries
import TraigentSchema.AgentQuality.Binding
import TraigentSchema.AgentQuality.MeasuredClaims
import TraigentSchema.AgentQuality.Composition
import TraigentSchema.AgentQuality.Verifier
import TraigentSchema.AgentQuality.TamperEvidence
import TraigentSchema.AgentQuality.Issuance
import TraigentSchema.SignatureSeparation
import TraigentSchema.ExampleIdentity.CanonicalBytes
import TraigentSchema.ExampleIdentity.StrictJson
import TraigentSchema.ExampleIdentity.FixedPoint
import TraigentSchema.ExampleIdentity.Multiset
import TraigentSchema.ExampleIdentity.InclusionProof
import TraigentSchema.ExampleIdentity.MultisetRoot
import TraigentSchema.ExampleIdentity.InclusionAgreement
import TraigentSchema.ExampleIdentity.SetRelations
import TraigentSchema.ExampleIdentity.Identification
import TraigentSchema.ExampleIdentity.ExampleContent
import TraigentSchema.EvaluatorQuality.StrictWalk
import TraigentSchema.EvaluatorQuality.PlanContainment
import TraigentSchema.EvaluatorQuality.Aggregation
import TraigentSchema.EvaluatorQuality.Verdicts
import TraigentSchema.BestConfigProfile.CanonicalBytes
import TraigentSchema.BestConfigProfile.Prevalidation
import TraigentSchema.BestConfigProfile.LoadsStrict
import TraigentSchema.LabelsReference.Encodings
import TraigentSchema.LabelsReference.Padding
import TraigentSchema.LabelsReference.Bindings
import TraigentSchema.LabelsReference.ChainSafety
import TraigentSchema.Validator.EndpointResolution
import TraigentSchema.Validator.DateTime
import TraigentSchema.Certification.UtcTimestamp
import TraigentSchema.ProcessRecord.Timestamp
import TraigentSchema.EvaluatorQuality.TrustStatus
import TraigentSchema.DatasetRecord.Ordering
import TraigentSchema.ContentClassManifest.Ratchet
import TraigentSchema.Invariants.Prevalidation
import TraigentSchema.Invariants.ExactEquality
import TraigentSchema.Invariants.Relations
import TraigentSchema.Invariants.Pointers
import TraigentSchema.LabelsReference.Agreement
import TraigentSchema.LabelsReference.Hpke
import TraigentSchema.LabelsReference.Envelopes
import TraigentSchema.Draft7.Schema
import TraigentSchema.Draft7.Recursion
import TraigentSchema.BreakingSchemaCheck.CompareNode
import TraigentSchema.BreakingSchemaCheck.ValueKeywords
import TraigentSchema.BreakingSchemaCheck.ObjectStructure
import TraigentSchema.BreakingSchemaCheck.RecursiveSchemas
import TraigentSchema.BreakingSchemaCheck.PropagateRoles
import TraigentSchema.BreakingSchemaCheck.References
import TraigentSchema.BreakingSchemaCheck.ReferenceAgreement
import TraigentSchema.PathSafety.TarMembers
import TraigentSchema.PathSafety.Prevalidation
import TraigentSchema.PathSafety.Extraction
