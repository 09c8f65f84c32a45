import TraigentSchema.ExampleIdentity.Multiset
import TraigentSchema.Fp2.Members
import TraigentSchema.Library.Hkdf

/-!
# Identifying examples

An example is projected to its input, its context, its expected output and the metadata that is
no annotation, and identified by a pair of keyed digests of two objects of these.  Two examples
get one pair exactly when they project to one content, as JSON values, or where the keyed hash
collides.
-/

namespace TraigentSchema.ExampleIdentity

open TraigentSchema.Fp2
open TraigentSchema.Hashing
open TraigentSchema.Hkdf (hmac)
open TraigentSchema.JsonReading
open TraigentSchema.Python
open TraigentSchema.SortedBy
open TraigentSchema.Traverse
open TraigentSchema.Unicode

/-! ## Projection -/

/-- An argument, where nothing stands for `ABSENT`. -/
abbrev Argument := Option PyValue

/-- `None` is absent. -/
def present : Argument → Argument
  | some (.leaf .none) => none
  | v => v

def reservedMetadataKeys : List String :=
  ["context", "example_id", "external_id", "source_ref", "tags", "split", "splits", "difficulty",
    "confidence", "status", "score", "explanation", "created_at", "updated_at", "supersedes"]

def isReserved (key : Key) : Bool :=
  reservedMetadataKeys.any fun name => key.isName name

structure ExampleProjection where
  input : Argument
  context : Argument
  expected : Argument
  metadata : Argument

/-- `value or None`, of a dict. -/
def orNone (members : List (Key × PyValue)) : Argument :=
  if members.isEmpty then none else some (.dict members)

def isPlainString : Key → Bool
  | .str _ => true
  | .foreign _ => false

/-- The members of the metadata that is given, none for `None`. -/
def metadataMembers : PyValue → Except ContentIdentityError (List (Key × PyValue))
  | .leaf .none => .ok []
  | .dict members => .ok members
  | _ => .error ⟨"metadata must be a mapping or None"⟩

/-- The metadata that is kept. -/
def kept (members : List (Key × PyValue)) : List (Key × PyValue) :=
  members.filter fun member => !isReserved member.1

def projectSdkExample (inputData expectedOutput : Argument) (metadata : PyValue) :
    Except ContentIdentityError ExampleProjection := do
  let members ← metadataMembers metadata
  if (kept members).all fun member => isPlainString member.1 then
    return {
      input := inputData
      context := present (PyValue.member (.dict members) "context")
      expected := present expectedOutput
      metadata := orNone (kept members) }
  else .error ⟨"metadata keys must be plain strings"⟩

/-! ## Payloads -/

/-- The object with the rows that are there. -/
def objectOf (rows : List (String × Argument)) : PyValue :=
  .object (rows.filterMap fun row => row.2.map (Prod.mk row.1))

def idPayload (input : PyValue) (context : Argument) : PyValue :=
  objectOf [("input", some input), ("context", context)]

def versionPayload (exampleId : Text) (expected metadata : Argument) : PyValue :=
  objectOf [("example_id", some (.leaf (.str exampleId))), ("expected", expected),
    ("metadata", metadata)]

def exampleIdPayload (input context : Argument) : Except ContentIdentityError PyValue :=
  match input with
  | none => .error ⟨"input is required"⟩
  | some input => .ok (idPayload input (present context))

/-- The names of the reserved keys that are there, as `sorted` lists them. -/
def reservedNames (members : List (Key × PyValue)) : List String :=
  sortedBy id (reservedMetadataKeys.filter fun name => members.any fun member =>
    member.1.isName name)

def reservedKeysError (names : List String) : ContentIdentityError :=
  ⟨"metadata contains reserved annotation keys that never participate in example_version: [" ++
    String.intercalate ", " (names.map fun name => s!"'{name}'") ++
    "]; project the example first (project_sdk_example)"⟩

def checkMetadata (metadata : Argument) : Except ContentIdentityError Argument :=
  match present metadata with
  | none => .ok none
  | some (.dict members) =>
      if members.any fun member => isReserved member.1 then
        .error (reservedKeysError (reservedNames members))
      else .ok (orNone members)
  | some _ => .error ⟨"metadata must be a plain dict or None"⟩

def exampleVersionPayload (exampleId : Text) (expected metadata : Argument) :
    Except ContentIdentityError PyValue :=
  match tokenMatch "ex1" exampleId with
  | none => .error ⟨"example_id is not a v1 example id"⟩
  | some _ => do
      let metadata ← checkMetadata metadata
      return versionPayload exampleId (present expected) metadata

/-! ## Identifiers -/

def domainExampleId : String :=
  "traigent.content_identity.example_id.v1"

def domainExampleVersion : String :=
  "traigent.content_identity.example_version.v1"

structure TenantIdentityKeys where
  keyId : Text
  exampleIdKey : Bytes
  exampleVersionKey : Bytes

/-- A tree that `canonical_bytes` accepts. -/
def Admissible (v : PyValue) : Prop :=
  v.nesting ≤ maxDepth ∧ Strict v

instance : DecidablePred Admissible := fun v =>
  inferInstanceAs (Decidable (_ ∧ v.Admits StrictAtom PlainKey))

section Identify

variable (sha256 : Hash) (float : FloatRepr)

/-- `_framed`, of a tree. -/
def framedTree (domain : String) (payload : PyValue) : Except ContentIdentityError Bytes :=
  if Admissible payload then
    .ok (utf8 (text domain) ++ 0 :: utf8 (canonicalText float payload))
  else .error ⟨"value cannot be canonicalized"⟩

def hmacHex (key : Bytes) (domain : String) (payload : PyValue) :
    Except ContentIdentityError Text := do
  return hexdigest (hmac sha256 key (← framedTree float domain payload))

def checkKeys (keys : TenantIdentityKeys) : Except ContentIdentityError Unit :=
  if IsKeyId keys.keyId then .ok ()
  else .error ⟨"keys must be TenantIdentityKeys from derive_tenant_keys"⟩

def computeExampleId (keys : TenantIdentityKeys) (input context : Argument) :
    Except ContentIdentityError Text := do
  checkKeys keys
  let payload ← exampleIdPayload input context
  return token "ex1" keys.keyId
    (← hmacHex sha256 float keys.exampleIdKey domainExampleId payload)

def computeExampleVersion (keys : TenantIdentityKeys) (exampleId : Text)
    (expected metadata : Argument) : Except ContentIdentityError Text := do
  checkKeys keys
  let payload ← exampleVersionPayload exampleId expected metadata
  match tokenMatch "ex1" exampleId with
  | none => .error ⟨"example_id is not a valid ex1 identifier"⟩
  | some (keyId, _) =>
      if keyId ≠ keys.keyId then .error ⟨"example_id was minted under a different key id"⟩
      else
        return token "exv1" keys.keyId
          (← hmacHex sha256 float keys.exampleVersionKey domainExampleVersion payload)

def identifyExample (keys : TenantIdentityKeys) (projection : ExampleProjection) :
    Except ContentIdentityError (Text × Text) := do
  let exampleId ← computeExampleId sha256 float keys projection.input projection.context
  let exampleVersion ← computeExampleVersion sha256 float keys exampleId projection.expected
    projection.metadata
  return (exampleId, exampleVersion)

end Identify

/-! ## What is identified -/

/-- What a projection leaves. -/
structure Projected (projection : ExampleProjection) : Prop where
  context : present projection.context = projection.context
  expected : present projection.expected = projection.expected
  metadata : checkMetadata projection.metadata = .ok projection.metadata

theorem present_present (v : Argument) : present (present v) = present v := by
  match v with
  | none => rfl
  | some (.leaf x) => cases x <;> rfl
  | some (.list items) => rfl
  | some (.dict members) => rfl

/-- No reserved key is kept, and so none is refused. -/
theorem checkMetadata_kept (members : List (Key × PyValue)) :
    checkMetadata (orNone (kept members)) = .ok (orNone (kept members)) := by
  have hnone : (kept members).any (fun member => isReserved member.1) = false := by
    simp [kept, List.any_filter]
  by_cases hempty : (kept members).isEmpty = true
  · simp [orNone, hempty, checkMetadata, present]
  · simp [orNone, hempty, checkMetadata, present, hnone]

/-- What is projected, of which metadata. -/
theorem projectSdkExample_eq_ok_iff {inputData expectedOutput : Argument} {metadata : PyValue}
    {projection : ExampleProjection} :
    projectSdkExample inputData expectedOutput metadata = .ok projection ↔
      ∃ members, metadataMembers metadata = .ok members ∧
        (∀ member ∈ kept members, isPlainString member.1 = true) ∧
        projection = {
          input := inputData
          context := present (PyValue.member (.dict members) "context")
          expected := present expectedOutput
          metadata := orNone (kept members) } := by
  simp only [projectSdkExample, bind_eq_ok_iff, List.all_eq_true]
  refine exists_congr fun members => and_congr_right fun _ => ?_
  split_ifs with hplain
  · rw [and_iff_right hplain, pure_eq_ok, Except.ok.injEq]
    exact eq_comm
  · constructor
    · intro herror
      cases herror
    · rintro ⟨hall, -⟩
      exact absurd hall hplain

theorem projected_of_project {inputData expectedOutput : Argument} {metadata : PyValue}
    {projection : ExampleProjection}
    (hproject : projectSdkExample inputData expectedOutput metadata = .ok projection) :
    Projected projection := by
  obtain ⟨members, -, -, rfl⟩ := projectSdkExample_eq_ok_iff.mp hproject
  exact ⟨present_present _, present_present _, checkMetadata_kept members⟩

section Identified

variable {sha256 : Hash} {float : FloatRepr}

/-- The bytes of a payload that are hashed. -/
def framing (float : FloatRepr) (domain : String) (payload : PyValue) : Bytes :=
  utf8 (text domain) ++ 0 :: utf8 (canonicalText float payload)

/-- The token of a payload under a key. -/
def tokenOf (sha256 : Hash) (float : FloatRepr) (tag : String) (keyId : Text) (key : Bytes)
    (domain : String) (payload : PyValue) : Text :=
  token tag keyId (hexdigest (hmac sha256 key (framing float domain payload)))

variable (sha256) (float) in
/-- What the identifiers of an example of some input are. -/
structure Identifies (keys : TenantIdentityKeys) (projection : ExampleProjection)
    (input : PyValue) (pair : Text × Text) : Prop where
  isKeyId : IsKeyId keys.keyId
  hasInput : projection.input = some input
  idAdmissible : Admissible (idPayload input projection.context)
  versionAdmissible :
    Admissible (versionPayload pair.1 projection.expected projection.metadata)
  exampleId : tokenOf sha256 float "ex1" keys.keyId keys.exampleIdKey domainExampleId
    (idPayload input projection.context) = pair.1
  exampleVersion : tokenOf sha256 float "exv1" keys.keyId keys.exampleVersionKey
    domainExampleVersion (versionPayload pair.1 projection.expected projection.metadata) = pair.2

theorem hmacHex_eq_ok_iff {key : Bytes} {domain : String} {payload : PyValue} {digest : Text} :
    hmacHex sha256 float key domain payload = .ok digest ↔
      Admissible payload ∧ hexdigest (hmac sha256 key (framing float domain payload)) = digest := by
  rw [hmacHex, framedTree]
  by_cases hadmissible : Admissible payload
  · simp [hadmissible, framing]
  · simp [hadmissible]

theorem checkKeys_eq_ok_iff {keys : TenantIdentityKeys} {u : Unit} :
    checkKeys keys = .ok u ↔ IsKeyId keys.keyId := by
  rw [checkKeys]
  split_ifs with hkey <;> simp [hkey]

theorem computeExampleId_eq_ok_iff {keys : TenantIdentityKeys} {input context : Argument}
    {exampleId : Text} (hcontext : present context = context) :
    computeExampleId sha256 float keys input context = .ok exampleId ↔
      ∃ value, IsKeyId keys.keyId ∧ input = some value ∧ Admissible (idPayload value context) ∧
        tokenOf sha256 float "ex1" keys.keyId keys.exampleIdKey domainExampleId
          (idPayload value context) = exampleId := by
  simp only [computeExampleId, bind_eq_ok_iff, checkKeys_eq_ok_iff, hmacHex_eq_ok_iff,
    pure_eq_ok, Except.ok.injEq]
  constructor
  · rintro ⟨-, hkey, payload, hpayload, digest, ⟨hadmissible, rfl⟩, rfl⟩
    cases input with
    | none => cases hpayload
    | some value =>
        rw [exampleIdPayload, hcontext, Except.ok.injEq] at hpayload
        subst hpayload
        exact ⟨value, hkey, rfl, hadmissible, rfl⟩
  · rintro ⟨value, hkey, rfl, hadmissible, rfl⟩
    exact ⟨(), hkey, idPayload value context, by rw [exampleIdPayload, hcontext], _,
      ⟨hadmissible, rfl⟩, rfl⟩

theorem tokenMatch_tokenOf {keyId : Text} {tag : String} {secret : Bytes} {domain : String}
    {payload : PyValue} (hkey : IsKeyId keyId) :
    tokenMatch tag (tokenOf sha256 float tag keyId secret domain payload) =
      some (keyId, hexdigest (hmac sha256 secret (framing float domain payload))) :=
  tokenMatch_eq_some_iff.mpr ⟨hkey, isHashHex_hexdigest _, rfl⟩

theorem computeExampleVersion_eq_ok_iff {keys : TenantIdentityKeys} {exampleId digest : Text}
    {expected metadata : Argument} {version : Text}
    (hmatch : tokenMatch "ex1" exampleId = some (keys.keyId, digest))
    (hexpected : present expected = expected) (hmetadata : checkMetadata metadata = .ok metadata) :
    computeExampleVersion sha256 float keys exampleId expected metadata = .ok version ↔
      IsKeyId keys.keyId ∧ Admissible (versionPayload exampleId expected metadata) ∧
        tokenOf sha256 float "exv1" keys.keyId keys.exampleVersionKey domainExampleVersion
          (versionPayload exampleId expected metadata) = version := by
  have hpayload : exampleVersionPayload exampleId expected metadata =
      .ok (versionPayload exampleId expected metadata) := by
    simp only [exampleVersionPayload, hmatch, hmetadata, hexpected]
    rfl
  simp only [computeExampleVersion, hpayload, hmatch, bind_eq_ok_iff, checkKeys_eq_ok_iff,
    pure_eq_ok, Except.ok.injEq]
  constructor
  · rintro ⟨-, hkey, payload, rfl, hversion⟩
    rw [if_neg (fun hne => hne rfl)] at hversion
    obtain ⟨_, ⟨hadmissible, rfl⟩, rfl⟩ := by
      simpa only [bind_eq_ok_iff, hmacHex_eq_ok_iff, pure_eq_ok, Except.ok.injEq] using hversion
    exact ⟨hkey, hadmissible, rfl⟩
  · rintro ⟨hkey, hadmissible, rfl⟩
    refine ⟨(), hkey, _, rfl, ?_⟩
    rw [if_neg (fun hne => hne rfl)]
    simp only [bind_eq_ok_iff, hmacHex_eq_ok_iff, Except.ok.injEq]
    exact ⟨_, ⟨hadmissible, rfl⟩, rfl⟩

/-- What the identifiers of a projected example are. -/
theorem identifyExample_eq_ok_iff {keys : TenantIdentityKeys} {projection : ExampleProjection}
    {pair : Text × Text} (hprojected : Projected projection) :
    identifyExample sha256 float keys projection = .ok pair ↔
      ∃ input, Identifies sha256 float keys projection input pair := by
  obtain ⟨exampleId, exampleVersion⟩ := pair
  simp only [identifyExample, bind_eq_ok_iff, computeExampleId_eq_ok_iff hprojected.context,
    pure_eq_ok, Except.ok.injEq, Prod.mk.injEq]
  constructor
  · rintro ⟨_, ⟨input, hkey, hinput, hid, rfl⟩, _, hversion, rfl, rfl⟩
    obtain ⟨-, hadmissible, hversion⟩ := (computeExampleVersion_eq_ok_iff
      (tokenMatch_tokenOf hkey) hprojected.expected hprojected.metadata).mp hversion
    exact ⟨input, hkey, hinput, hid, hadmissible, rfl, hversion⟩
  · rintro ⟨input, hkey, hinput, hid, hadmissible, hexampleId, hversion⟩
    dsimp only at hexampleId hversion hadmissible
    subst hexampleId
    exact ⟨_, ⟨input, hkey, hinput, hid, rfl⟩, _, (computeExampleVersion_eq_ok_iff
      (tokenMatch_tokenOf hkey) hprojected.expected hprojected.metadata).mpr
        ⟨hkey, hadmissible, hversion⟩, rfl, rfl⟩

end Identified

end TraigentSchema.ExampleIdentity
