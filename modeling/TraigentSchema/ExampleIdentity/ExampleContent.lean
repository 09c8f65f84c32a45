import TraigentSchema.ExampleIdentity.Identification
import TraigentSchema.ExampleIdentity.InclusionProof
import TraigentSchema.Library.Sha256

/-!
# Identifiers and content

The payloads of an example have the JSON values of its content in them and no others.  So two
examples of one content get one pair of identifiers, and two of one pair have one content unless
the keyed hash collides.  Annotations are no content.
-/

namespace TraigentSchema.ExampleIdentity

open TraigentSchema.Fp2
open TraigentSchema.Hashing
open TraigentSchema.Hkdf (hmac)
open TraigentSchema.JsonReading
open TraigentSchema.Python
open TraigentSchema.Traverse
open TraigentSchema.Unicode

/-! ## The JSON value of a payload -/

/-- An object of optional members is the object of the members that are there. -/
theorem jsonValue_objectOf (rows : List (String × Argument)) :
    jsonValue (objectOf rows) = objectValue (rows.filterMap fun row =>
      (row.2.map jsonValue).map (Prod.mk (text row.1))) := by
  rw [objectOf, PyValue.object, jsonValue_dict, jsonMembers, List.map_map, List.map_filterMap]
  simp only [Option.map_map]
  rfl

section Payload

variable {input input' : PyValue} {context context' expected expected' : Argument}
  {metadata metadata' : Argument} {exampleId : Text}

/-- The payload of the identifier depends on the values of the input and the context. -/
theorem jsonValue_idPayload_congr (hinput : jsonValue input = jsonValue input')
    (hcontext : context.map jsonValue = context'.map jsonValue) :
    jsonValue (idPayload input context) = jsonValue (idPayload input' context') := by
  simp only [idPayload, jsonValue_objectOf, List.filterMap_cons, Option.map_some, hinput, hcontext]

/-- The payload of the version depends on the values of what is expected and of the metadata. -/
theorem jsonValue_versionPayload_congr
    (hexpected : expected.map jsonValue = expected'.map jsonValue)
    (hmetadata : metadata.map jsonValue = metadata'.map jsonValue) :
    jsonValue (versionPayload exampleId expected metadata) =
      jsonValue (versionPayload exampleId expected' metadata') := by
  simp only [versionPayload, jsonValue_objectOf, List.filterMap_cons, hexpected, hmetadata]

theorem member_idPayload (input : PyValue) (context : Argument) :
    (idPayload input context).member "input" = some input ∧
      (idPayload input context).member "context" = context := by
  cases context <;> simp [idPayload, objectOf, List.lookup_cons]

theorem member_versionPayload (exampleId : Text) (expected metadata : Argument) :
    (versionPayload exampleId expected metadata).member "expected" = expected ∧
      (versionPayload exampleId expected metadata).member "metadata" = metadata := by
  cases expected <;> cases metadata <;> simp [versionPayload, objectOf, List.lookup_cons]

theorem wellFormed_objectOf {rows : List (String × Argument)}
    (hnames : (rows.map fun row => text row.1).Nodup)
    (hrows : ∀ row ∈ rows, ∀ v ∈ row.2, v.WellFormed) : (objectOf rows).WellFormed := by
  rw [objectOf, PyValue.object, Tree.wellFormed_dict]
  constructor
  · rw [List.Nodup, List.pairwise_map] at hnames
    rw [List.Nodup, List.pairwise_map, List.pairwise_map, List.pairwise_filterMap]
    refine hnames.imp fun {row row'} hne member hmember member' hmember' heq => hne ?_
    obtain ⟨v, -, rfl⟩ := Option.map_eq_some_iff.mp hmember
    obtain ⟨v', -, rfl⟩ := Option.map_eq_some_iff.mp hmember'
    exact Key.str.inj heq
  · simp only [List.forall_mem_map, List.mem_filterMap, Option.map_eq_some_iff]
    rintro _ ⟨row, hrow, v, hv, rfl⟩
    exact hrows row hrow v hv

/-- An object is admissible when what is present in it is. -/
theorem admissible_objectOf_iff {rows : List (String × Argument)} :
    Admissible (objectOf rows) ↔
      ∀ row ∈ rows, ∀ v ∈ row.2, v.nesting ≤ 99 ∧ Strict v := by
  have hmember : ∀ member : Key × PyValue, member ∈ (rows.filterMap fun row =>
      row.2.map (Prod.mk row.1)).map (fun row => (Key.str (text row.1), row.2)) ↔
        ∃ row ∈ rows, ∃ v ∈ row.2, (Key.str (text row.1), v) = member := by
    intro member
    simp only [List.mem_map, List.mem_filterMap, Option.map_eq_some_iff, Option.mem_def]
    constructor
    · rintro ⟨_, ⟨row, hrow, v, hv, rfl⟩, rfl⟩
      exact ⟨row, hrow, v, hv, rfl⟩
    · rintro ⟨row, hrow, v, hv, rfl⟩
      exact ⟨_, ⟨row, hrow, v, hv, rfl⟩, rfl⟩
  rw [Admissible, objectOf, PyValue.object, maxDepth, Tree.nesting_dict_le_iff, Strict,
    Tree.admits_dict]
  simp only [hmember]
  constructor
  · rintro ⟨hnesting, hstrict⟩ row hrow v hv
    exact ⟨hnesting _ ⟨row, hrow, v, hv, rfl⟩, (hstrict _ ⟨row, hrow, v, hv, rfl⟩).2⟩
  · intro hrows
    constructor
    · rintro _ ⟨row, hrow, v, hv, rfl⟩
      exact (hrows row hrow v hv).1
    · rintro _ ⟨row, hrow, v, hv, rfl⟩
      exact ⟨encodable_text row.1, (hrows row hrow v hv).2⟩

theorem hasCanonicalText_of_admissible {v : PyValue} (hadmissible : Admissible v)
    (hwellFormed : v.WellFormed) : HasCanonicalText v :=
  ⟨(strict_iff.mp hadmissible.2).1, hwellFormed⟩

end Payload

section Token

variable {sha256 : Hash} {float : FloatRepr} {tag : String} {keyId : Text} {key : Bytes}
  {domain : String} {v w : PyValue}

/-- Payloads of one JSON value have one token. -/
theorem tokenOf_congr (hv : HasCanonicalText v) (hw : HasCanonicalText w)
    (heq : jsonValue v = jsonValue w) :
    tokenOf sha256 float tag keyId key domain v = tokenOf sha256 float tag keyId key domain w := by
  simp only [tokenOf, framing, (hv.jsonValue_eq_iff float hw).mpr heq]

/-- Payloads of one token have one JSON value, or collide. -/
theorem jsonValue_eq_or_collision (hv : HasCanonicalText v) (hw : HasCanonicalText w)
    (htoken : tokenOf sha256 float tag keyId key domain v =
      tokenOf sha256 float tag keyId key domain w) :
    jsonValue v = jsonValue w ∨
      Collision (hmac sha256 key) [framing float domain v] [framing float domain w] := by
  have hdigest : hmac sha256 key (framing float domain v) =
      hmac sha256 key (framing float domain w) := by
    have hrest := List.cons_injective (List.append_cancel_left htoken)
    exact hexdigest_injective (List.cons_injective (List.append_cancel_left hrest))
  refine (eq_or_collision hdigest).imp_left fun hframing => ?_
  have hutf8 := List.cons_injective (List.append_cancel_left hframing)
  exact (hv.jsonValue_eq_iff float hw).mp (utf8_injective hutf8)

end Token

/-! ## Examples -/

/-- An example of an SDK, in whose dicts no key comes twice. -/
structure SdkExample where
  inputData : Argument
  expectedOutput : Argument
  metadata : PyValue
  wellFormed_inputData : ∀ v ∈ inputData, v.WellFormed
  wellFormed_expectedOutput : ∀ v ∈ expectedOutput, v.WellFormed
  wellFormed_metadata : metadata.WellFormed

/-- What an example is identified by. -/
@[ext]
structure Content where
  input : Option JsonValue
  context : Option JsonValue
  expected : Option JsonValue
  metadata : Option JsonValue

def ExampleProjection.content (projection : ExampleProjection) : Content where
  input := projection.input.map jsonValue
  context := projection.context.map jsonValue
  expected := projection.expected.map jsonValue
  metadata := projection.metadata.map jsonValue

namespace SdkExample

def project (e : SdkExample) : Except ContentIdentityError ExampleProjection :=
  projectSdkExample e.inputData e.expectedOutput e.metadata

def identify (sha256 : Hash) (float : FloatRepr) (keys : TenantIdentityKeys) (e : SdkExample) :
    Except ContentIdentityError (Text × Text) := do
  identifyExample sha256 float keys (← e.project)

def members (e : SdkExample) : List (Key × PyValue) :=
  match e.metadata with
  | .dict members => members
  | _ => []

/-- `None` and the empty dict are left out, and so are the reserved keys. -/
def normalised (e : SdkExample) : ExampleProjection where
  input := e.inputData
  context := present (PyValue.member (.dict e.members) "context")
  expected := present e.expectedOutput
  metadata := orNone (kept e.members)

def content (e : SdkExample) : Content :=
  e.normalised.content

/-- The metadata is `None` or a dict, whose keys are strings but for reserved ones. -/
def Projectable (e : SdkExample) : Prop :=
  metadataMembers e.metadata = .ok e.members ∧
    ∀ member ∈ kept e.members, isPlainString member.1 = true

theorem members_of_metadataMembers {e : SdkExample} {members : List (Key × PyValue)}
    (hmembers : metadataMembers e.metadata = .ok members) : e.members = members := by
  cases hmetadata : e.metadata with
  | leaf x =>
      rw [hmetadata] at hmembers
      cases x <;> simp_all [metadataMembers, SdkExample.members]
  | list items =>
      rw [hmetadata] at hmembers
      cases hmembers
  | dict rows =>
      rw [hmetadata] at hmembers
      rw [SdkExample.members, hmetadata]
      exact Except.ok.inj hmembers

/-- The projection of an example is its normal form, when it has one. -/
theorem project_eq_ok_iff {e : SdkExample} {projection : ExampleProjection} :
    e.project = .ok projection ↔ e.Projectable ∧ projection = e.normalised := by
  rw [project, projectSdkExample_eq_ok_iff]
  constructor
  · rintro ⟨members, hmembers, hplain, rfl⟩
    obtain rfl := members_of_metadataMembers hmembers
    exact ⟨⟨hmembers, hplain⟩, rfl⟩
  · rintro ⟨⟨hmembers, hplain⟩, rfl⟩
    exact ⟨_, hmembers, hplain, rfl⟩

theorem projected_normalised (e : SdkExample) : Projected e.normalised :=
  ⟨present_present _, present_present _, checkMetadata_kept _⟩

variable {sha256 : Hash} {float : FloatRepr} {keys : TenantIdentityKeys} {pair : Text × Text}

/-- An example is identified exactly when it can be projected and has an input. -/
theorem identify_eq_ok_iff {e : SdkExample} :
    e.identify sha256 float keys = .ok pair ↔
      e.Projectable ∧ ∃ input, Identifies sha256 float keys e.normalised input pair := by
  simp only [identify, bind_eq_ok_iff, project_eq_ok_iff]
  constructor
  · rintro ⟨_, ⟨hprojectable, rfl⟩, hidentify⟩
    exact ⟨hprojectable, (identifyExample_eq_ok_iff e.projected_normalised).mp hidentify⟩
  · rintro ⟨hprojectable, hidentify⟩
    exact ⟨_, ⟨hprojectable, rfl⟩,
      (identifyExample_eq_ok_iff e.projected_normalised).mpr hidentify⟩

theorem wellFormed_members (e : SdkExample) : Tree.WellFormed (.dict e.members : PyValue) := by
  have hmetadata := e.wellFormed_metadata
  unfold members
  split
  · rename_i members heq
    rwa [heq] at hmetadata
  · simp

theorem wellFormed_present {v : Argument} (hv : ∀ w ∈ v, w.WellFormed) :
    ∀ w ∈ present v, w.WellFormed := by
  unfold present
  split
  · simp
  · exact hv

theorem wellFormed_orNone {members : List (Key × PyValue)}
    (hmembers : Tree.WellFormed (.dict members : PyValue)) :
    ∀ v ∈ orNone members, v.WellFormed := by
  unfold orNone
  split_ifs
  · simp
  · simpa using hmembers

/-- Dropping annotations repeats no key. -/
theorem wellFormed_kept {members : List (Key × PyValue)}
    (hmembers : Tree.WellFormed (.dict members : PyValue)) :
    Tree.WellFormed (.dict (kept members) : PyValue) := by
  rw [Tree.wellFormed_dict] at hmembers ⊢
  exact ⟨hmembers.1.sublist (List.filter_sublist.map _),
    fun member hmember => hmembers.2 member (List.mem_of_mem_filter hmember)⟩

theorem wellFormed_context (e : SdkExample) : ∀ v ∈ e.normalised.context, v.WellFormed :=
  wellFormed_present fun _ hv => PyValue.wellFormed_member e.wellFormed_members hv

theorem hasCanonicalText_idPayload (e : SdkExample) {input : PyValue}
    (hinput : e.normalised.input = some input)
    (hadmissible : Admissible (idPayload input e.normalised.context)) :
    HasCanonicalText (idPayload input e.normalised.context) := by
  apply hasCanonicalText_of_admissible hadmissible
  apply wellFormed_objectOf
  · simp only [List.map_cons, List.map_nil]
    decide
  simp only [List.forall_mem_cons]
  refine ⟨fun v hv => e.wellFormed_inputData v ?_, e.wellFormed_context, by simp⟩
  rwa [← hinput] at hv

theorem hasCanonicalText_versionPayload (e : SdkExample) {exampleId : Text}
    (hadmissible : Admissible
      (versionPayload exampleId e.normalised.expected e.normalised.metadata)) :
    HasCanonicalText (versionPayload exampleId e.normalised.expected e.normalised.metadata) := by
  apply hasCanonicalText_of_admissible hadmissible
  apply wellFormed_objectOf
  · simp only [List.map_cons, List.map_nil]
    decide
  simp only [List.forall_mem_cons]
  exact ⟨by simp, wellFormed_present e.wellFormed_expectedOutput,
    wellFormed_orNone (wellFormed_kept e.wellFormed_members), by simp⟩

section Two

variable {left right : SdkExample} {pair pair' : Text × Text} {input input' : PyValue}

/-- Inputs and contexts of one JSON value have one example id. -/
theorem exampleId_congr
    (hleft : Identifies sha256 float keys left.normalised input pair)
    (hright : Identifies sha256 float keys right.normalised input' pair')
    (hinput : left.content.input = right.content.input)
    (hcontext : left.content.context = right.content.context) : pair.1 = pair'.1 := by
  have hvalue : jsonValue input = jsonValue input' := by
    simpa [content, ExampleProjection.content, hleft.hasInput, hright.hasInput] using hinput
  rw [← hleft.exampleId, ← hright.exampleId]
  exact tokenOf_congr (left.hasCanonicalText_idPayload hleft.hasInput hleft.idAdmissible)
    (right.hasCanonicalText_idPayload hright.hasInput hright.idAdmissible)
    (jsonValue_idPayload_congr hvalue hcontext)

/-- Examples of one id have inputs and contexts of one JSON value, or collide. -/
theorem content_of_exampleId
    (hleft : Identifies sha256 float keys left.normalised input pair)
    (hright : Identifies sha256 float keys right.normalised input' pair')
    (hid : pair.1 = pair'.1) :
    (left.content.input = right.content.input ∧ left.content.context = right.content.context) ∨
      Collision (hmac sha256 keys.exampleIdKey)
        [framing float domainExampleId (idPayload input left.normalised.context)]
        [framing float domainExampleId (idPayload input' right.normalised.context)] := by
  have hv := left.hasCanonicalText_idPayload hleft.hasInput hleft.idAdmissible
  have hw := right.hasCanonicalText_idPayload hright.hasInput hright.idAdmissible
  rw [← hleft.exampleId, ← hright.exampleId] at hid
  refine (jsonValue_eq_or_collision hv hw hid).imp_left fun heq => ?_
  have hmember : ∀ name, ((idPayload input left.normalised.context).member name).map jsonValue =
      ((idPayload input' right.normalised.context).member name).map jsonValue := by
    intro name
    rw [← jsonMember_jsonValue hv, ← jsonMember_jsonValue hw, heq]
  have hinput := hmember "input"
  have hcontext := hmember "context"
  rw [(member_idPayload _ _).1, (member_idPayload _ _).1, ← hleft.hasInput,
    ← hright.hasInput] at hinput
  rw [(member_idPayload _ _).2, (member_idPayload _ _).2] at hcontext
  exact ⟨hinput, hcontext⟩

/-- The version depends on the identifier and on the values of the payload. -/
theorem exampleVersion_congr
    (hleft : Identifies sha256 float keys left.normalised input pair)
    (hright : Identifies sha256 float keys right.normalised input' pair')
    (hid : pair.1 = pair'.1) (hexpected : left.content.expected = right.content.expected)
    (hmetadata : left.content.metadata = right.content.metadata) : pair.2 = pair'.2 := by
  have hadmissible := hright.versionAdmissible
  rw [← hleft.exampleVersion, ← hright.exampleVersion]
  rw [← hid] at hadmissible ⊢
  exact tokenOf_congr (left.hasCanonicalText_versionPayload hleft.versionAdmissible)
    (right.hasCanonicalText_versionPayload hadmissible)
    (jsonValue_versionPayload_congr hexpected hmetadata)

/-- Examples of one id and one version have expected outputs and metadata of one JSON value, or
collide. -/
theorem content_of_exampleVersion
    (hleft : Identifies sha256 float keys left.normalised input pair)
    (hright : Identifies sha256 float keys right.normalised input' pair')
    (hversion : pair.2 = pair'.2) :
    (left.content.expected = right.content.expected ∧
      left.content.metadata = right.content.metadata) ∨
      Collision (hmac sha256 keys.exampleVersionKey)
        [framing float domainExampleVersion
          (versionPayload pair.1 left.normalised.expected left.normalised.metadata)]
        [framing float domainExampleVersion
          (versionPayload pair'.1 right.normalised.expected right.normalised.metadata)] := by
  have hv := left.hasCanonicalText_versionPayload hleft.versionAdmissible
  have hw := right.hasCanonicalText_versionPayload hright.versionAdmissible
  rw [← hleft.exampleVersion, ← hright.exampleVersion] at hversion
  refine (jsonValue_eq_or_collision hv hw hversion).imp_left fun heq => ?_
  have hmember : ∀ name, ((versionPayload pair.1 left.normalised.expected
      left.normalised.metadata).member name).map jsonValue = ((versionPayload pair'.1
        right.normalised.expected right.normalised.metadata).member name).map jsonValue := by
    intro name
    rw [← jsonMember_jsonValue hv, ← jsonMember_jsonValue hw, heq]
  have hexpected := hmember "expected"
  have hmetadata := hmember "metadata"
  rw [(member_versionPayload _ _ _).1, (member_versionPayload _ _ _).1] at hexpected
  rw [(member_versionPayload _ _ _).2, (member_versionPayload _ _ _).2] at hmetadata
  exact ⟨hexpected, hmetadata⟩

end Two

/-! ## Annotations -/

/-- The examples have one input, one expected output and one context, and keep the same metadata
in some order. -/
structure SameButAnnotations (left right : SdkExample) : Prop where
  inputData : left.inputData = right.inputData
  expected : left.normalised.expected = right.normalised.expected
  isMapping : metadataMembers left.metadata = .ok left.members
  isMapping' : metadataMembers right.metadata = .ok right.members
  context : left.normalised.context = right.normalised.context
  kept : (kept left.members).Perm (kept right.members)

theorem SameButAnnotations.symm {left right : SdkExample} (hsame : SameButAnnotations left right) :
    SameButAnnotations right left :=
  ⟨hsame.inputData.symm, hsame.expected.symm, hsame.isMapping', hsame.isMapping,
    hsame.context.symm, hsame.kept.symm⟩

/-- A dict in another order has the nesting and the scalars it had. -/
theorem admissible_orNone_of_perm {members members' : List (Key × PyValue)}
    (hperm : members.Perm members')
    (hmembers : ∀ v ∈ orNone members, v.nesting ≤ 99 ∧ Strict v) :
    ∀ v ∈ orNone members', v.nesting ≤ 99 ∧ Strict v := by
  intro v hv
  rw [orNone, Option.mem_def, Option.ite_none_left_eq_some, Option.some.injEq] at hv
  obtain ⟨hne, rfl⟩ := hv
  have hfilled : ¬members.isEmpty = true := by rwa [hperm.isEmpty_eq]
  obtain ⟨hnesting, hstrict⟩ := hmembers (.dict members) (by simp [orNone, hfilled])
  rw [Tree.nesting_dict_le_iff] at hnesting ⊢
  rw [Strict, Tree.admits_dict] at hstrict ⊢
  exact ⟨fun member hmember => hnesting member (hperm.mem_iff.mpr hmember),
    fun member hmember => hstrict member (hperm.mem_iff.mpr hmember)⟩

/-- Metadata in another order is the same object. -/
theorem jsonValue_orNone_of_perm {members members' : List (Key × PyValue)}
    (hperm : members.Perm members') (hnodup : (members.map Prod.fst).Nodup)
    (hmembers : ∀ v ∈ orNone members, Strict v) :
    (orNone members).map jsonValue = (orNone members').map jsonValue := by
  by_cases hempty : members.isEmpty = true
  · have hempty' : members'.isEmpty = true := by rwa [← hperm.isEmpty_eq]
    simp [orNone, hempty, hempty']
  · have hempty' : ¬members'.isEmpty = true := by rwa [← hperm.isEmpty_eq]
    have hstrict := hmembers (.dict members) (by simp [orNone, hempty])
    rw [Strict, Tree.admits_dict] at hstrict
    have hnames := nodup_jsonMembers hnodup fun member hmember => (hstrict member hmember).1
    have hvalue : jsonValue (.dict members) = jsonValue (.dict members') := by
      rw [jsonValue_dict, jsonValue_dict]
      exact objectValue_eq_of_perm hnames (hperm.map _)
    simp [orNone, hempty, hempty', hvalue]

/-- Annotations have no share in the identifiers. -/
theorem identify_of_sameButAnnotations {left right : SdkExample}
    (hsame : SameButAnnotations left right)
    (hleft : left.identify sha256 float keys = .ok pair) :
    right.identify sha256 float keys = .ok pair := by
  obtain ⟨hprojectable, input, hidentifies⟩ := identify_eq_ok_iff.mp hleft
  have hexpected := hsame.expected
  have hadmissible := admissible_objectOf_iff.mp hidentifies.versionAdmissible
  simp only [List.forall_mem_cons] at hadmissible
  have hmetadata := admissible_orNone_of_perm hsame.kept hadmissible.2.2.1
  have hadmissible' : Admissible
      (versionPayload pair.1 right.normalised.expected right.normalised.metadata) := by
    apply admissible_objectOf_iff.mpr
    simp only [List.forall_mem_cons]
    exact ⟨hadmissible.1, hexpected ▸ hadmissible.2.1, hmetadata, by simp⟩
  have hvalue : left.normalised.metadata.map jsonValue =
      right.normalised.metadata.map jsonValue :=
    jsonValue_orNone_of_perm hsame.kept
      ((Tree.wellFormed_dict _).mp (wellFormed_kept left.wellFormed_members)).1
      fun v hv => (hadmissible.2.2.1 v hv).2
  rw [identify_eq_ok_iff]
  refine ⟨⟨hsame.isMapping', fun member hmember =>
    hprojectable.2 member (hsame.kept.mem_iff.mpr hmember)⟩, input, ?_⟩
  exact {
    isKeyId := hidentifies.isKeyId
    hasInput := hsame.inputData.symm.trans hidentifies.hasInput
    idAdmissible := hsame.context ▸ hidentifies.idAdmissible
    versionAdmissible := hadmissible'
    exampleId := hsame.context ▸ hidentifies.exampleId
    exampleVersion := by
      rw [← hidentifies.exampleVersion]
      exact (tokenOf_congr (left.hasCanonicalText_versionPayload hidentifies.versionAdmissible)
        (right.hasCanonicalText_versionPayload hadmissible')
        (jsonValue_versionPayload_congr (congrArg _ hexpected) hvalue)).symm }

/-! ## What the identifiers say -/

/-- What is hashed for the id of an example that has an input. -/
def idBytes (float : FloatRepr) (e : SdkExample) : Bytes :=
  framing float domainExampleId
    (idPayload (e.normalised.input.getD (.leaf .none)) e.normalised.context)

/-- What is hashed for the version of an example of some id. -/
def versionBytes (float : FloatRepr) (exampleId : Text) (e : SdkExample) : Bytes :=
  framing float domainExampleVersion
    (versionPayload exampleId e.normalised.expected e.normalised.metadata)

/-- Two identified examples have one id exactly when their inputs and their contexts are the same
JSON values, and one pair exactly when all of their content is, but for collisions of the keyed
hash on what was hashed for them. -/
theorem identifiers_eq_iff (sha256 : Hash) (float : FloatRepr) (keys : TenantIdentityKeys)
    (left right : SdkExample) (pair pair' : Text × Text)
    (hleft : left.identify sha256 float keys = .ok pair)
    (hright : right.identify sha256 float keys = .ok pair') :
    (left.content.input = right.content.input ∧ left.content.context = right.content.context →
      pair.1 = pair'.1) ∧
    (pair.1 = pair'.1 →
      (left.content.input = right.content.input ∧
        left.content.context = right.content.context) ∨
      Collision (hmac sha256 keys.exampleIdKey) [left.idBytes float] [right.idBytes float]) ∧
    (left.content = right.content → pair = pair') ∧
    (pair = pair' →
      left.content = right.content ∨
      Collision (hmac sha256 keys.exampleIdKey) [left.idBytes float] [right.idBytes float] ∨
      Collision (hmac sha256 keys.exampleVersionKey) [left.versionBytes float pair.1]
        [right.versionBytes float pair'.1]) := by
  obtain ⟨-, input, hidentifies⟩ := identify_eq_ok_iff.mp hleft
  obtain ⟨-, input', hidentifies'⟩ := identify_eq_ok_iff.mp hright
  have hbytes : left.idBytes float =
      framing float domainExampleId (idPayload input left.normalised.context) := by
    rw [idBytes, hidentifies.hasInput, Option.getD_some]
  have hbytes' : right.idBytes float =
      framing float domainExampleId (idPayload input' right.normalised.context) := by
    rw [idBytes, hidentifies'.hasInput, Option.getD_some]
  have hid := content_of_exampleId hidentifies hidentifies'
  rw [← hbytes, ← hbytes'] at hid
  refine ⟨fun hsame => exampleId_congr hidentifies hidentifies' hsame.1 hsame.2, hid, ?_, ?_⟩
  · intro hsame
    have hfirst := exampleId_congr hidentifies hidentifies' (congrArg Content.input hsame)
      (congrArg Content.context hsame)
    exact Prod.ext hfirst (exampleVersion_congr hidentifies hidentifies' hfirst
      (congrArg Content.expected hsame) (congrArg Content.metadata hsame))
  · intro hpair
    rcases hid (congrArg Prod.fst hpair) with ⟨hinput, hcontext⟩ | hcollision
    · refine (content_of_exampleVersion hidentifies hidentifies'
        (congrArg Prod.snd hpair)).imp ?_ Or.inr
      rintro ⟨hexpected, hmetadata⟩
      exact Content.ext hinput hcontext hexpected hmetadata
    · exact Or.inr (Or.inl hcollision)

/-- No annotation changes what an example is identified by, none is refused after projection, and
neither does the order of the metadata. -/
theorem identify_annotations (sha256 : Hash) (float : FloatRepr) (keys : TenantIdentityKeys)
    (left right : SdkExample) (hsame : SameButAnnotations left right) :
    (∀ pair, left.identify sha256 float keys = .ok pair ↔
      right.identify sha256 float keys = .ok pair) ∧
    ∀ projection, left.project = .ok projection →
      checkMetadata projection.metadata = .ok projection.metadata := by
  constructor
  · intro pair
    exact ⟨identify_of_sameButAnnotations hsame, identify_of_sameButAnnotations hsame.symm⟩
  · intro projection hproject
    exact (projected_of_project hproject).metadata

end SdkExample

/-! An example, and the same one with tags, without a context and in another order. -/

def greeting : SdkExample where
  inputData := some (PyValue.str "hello")
  expectedOutput := none
  metadata := .object [("topic", .str "greeting"), ("level", .leaf (.int 2))]
  wellFormed_inputData := by simp [PyValue.str]
  wellFormed_expectedOutput := by simp
  wellFormed_metadata := by simp [PyValue.object, PyValue.str]

def taggedGreeting : SdkExample where
  inputData := some (PyValue.str "hello")
  expectedOutput := some (.leaf .none)
  metadata := .object [("tags", .list [PyValue.str "a"]), ("level", .leaf (.int 2)),
    ("context", .leaf .none), ("topic", .str "greeting")]
  wellFormed_inputData := by simp [PyValue.str]
  wellFormed_expectedOutput := by simp
  wellFormed_metadata := by simp [PyValue.object, PyValue.str]

def zeroKeys : TenantIdentityKeys :=
  ⟨zeroKeyId, [], []⟩

theorem kept_greeting : kept greeting.members =
    [(.str (text "topic"), PyValue.str "greeting"), (.str (text "level"), .leaf (.int 2))] :=
  List.filter_eq_self.mpr (by decide)

theorem kept_taggedGreeting : kept taggedGreeting.members =
    [(.str (text "level"), .leaf (.int 2)), (.str (text "topic"), PyValue.str "greeting")] := rfl

theorem sameButAnnotations_greeting : SdkExample.SameButAnnotations greeting taggedGreeting where
  inputData := rfl
  expected := rfl
  isMapping := rfl
  isMapping' := rfl
  context := rfl
  kept := by
    rw [kept_greeting, kept_taggedGreeting]
    exact List.Perm.swap _ _ []

theorem strict_str {s : Text} (hs : Unicode.Encodable s) : Strict (.leaf (.str s)) :=
  (Tree.admits_leaf _).mpr ⟨hs, trivial⟩

theorem strict_kept_greeting : Strict (.dict (kept greeting.members)) := by
  have hlevel : Strict (.leaf (.int 2)) := (Tree.admits_leaf _).mpr (by decide)
  rw [kept_greeting, Strict, Tree.admits_dict]
  simp only [List.forall_mem_cons]
  exact ⟨⟨encodable_text "topic", strict_str (encodable_text "greeting")⟩,
    ⟨encodable_text "level", hlevel⟩, by simp⟩

theorem identify_greeting :
    ∃ pair, greeting.identify Sha256.sha256 FloatRepr.fewestDigits zeroKeys = .ok pair := by
  have hid : ∃ exampleId, tokenOf Sha256.sha256 FloatRepr.fewestDigits "ex1" zeroKeyId []
      domainExampleId (idPayload (PyValue.str "hello") greeting.normalised.context) = exampleId :=
    ⟨_, rfl⟩
  obtain ⟨exampleId, hid⟩ := hid
  refine ⟨(exampleId, tokenOf Sha256.sha256 FloatRepr.fewestDigits "exv1" zeroKeyId []
    domainExampleVersion (versionPayload exampleId greeting.normalised.expected
      greeting.normalised.metadata)), SdkExample.identify_eq_ok_iff.mpr
    ⟨⟨rfl, by simp [kept_greeting, isPlainString]⟩, PyValue.str "hello", ?_⟩⟩
  exact {
    isKeyId := isKeyId_zeroKeyId
    hasInput := rfl
    idAdmissible := by
      apply admissible_objectOf_iff.mpr
      simp only [List.forall_mem_cons]
      have hcontext : greeting.normalised.context = none := rfl
      refine ⟨?_, by simp [hcontext], by simp⟩
      simpa [PyValue.str] using strict_str (encodable_text "hello")
    versionAdmissible := by
      apply admissible_objectOf_iff.mpr
      simp only [List.forall_mem_cons]
      refine ⟨?_, by simp [SdkExample.normalised, greeting, present], ?_, by simp⟩
      · rw [← hid]
        simpa using strict_str (encodable_token (tokenMatch_tokenOf isKeyId_zeroKeyId))
      · have hstrict := strict_kept_greeting
        rw [kept_greeting] at hstrict
        rw [SdkExample.normalised, kept_greeting]
        simpa [orNone] using And.intro (by decide) hstrict
    exampleId := hid
    exampleVersion := rfl }

theorem identify_taggedGreeting :
    ∃ pair, taggedGreeting.identify Sha256.sha256 FloatRepr.fewestDigits zeroKeys = .ok pair :=
  identify_greeting.imp fun _ hpair =>
    SdkExample.identify_of_sameButAnnotations sameButAnnotations_greeting hpair

/-- The tags, the context and the order of the metadata leave the identifiers as they were. -/
theorem identify_annotations_greeting :
    ∃ pair, greeting.identify Sha256.sha256 FloatRepr.fewestDigits zeroKeys = .ok pair ∧
      taggedGreeting.identify Sha256.sha256 FloatRepr.fewestDigits zeroKeys = .ok pair :=
  identify_greeting.imp fun pair hpair => ⟨hpair,
    ((SdkExample.identify_annotations Sha256.sha256 FloatRepr.fewestDigits zeroKeys greeting
      taggedGreeting sameButAnnotations_greeting).1 pair).mp hpair⟩

theorem identifiers_eq_iff_greeting :
    ∃ pair pair', greeting.identify Sha256.sha256 FloatRepr.fewestDigits zeroKeys = .ok pair ∧
      taggedGreeting.identify Sha256.sha256 FloatRepr.fewestDigits zeroKeys = .ok pair' ∧
        pair = pair' := by
  obtain ⟨pair, hpair⟩ := identify_greeting
  obtain ⟨pair', hpair'⟩ := identify_taggedGreeting
  have hcontent : greeting.content = taggedGreeting.content := by
    refine Content.ext rfl rfl rfl ?_
    apply SdkExample.jsonValue_orNone_of_perm sameButAnnotations_greeting.kept
    · rw [kept_greeting]
      simp
    · intro v hv
      rw [kept_greeting] at hv
      rw [← Option.some.inj hv, ← kept_greeting]
      exact strict_kept_greeting
  exact ⟨pair, pair', hpair, hpair', (SdkExample.identifiers_eq_iff Sha256.sha256
    FloatRepr.fewestDigits zeroKeys greeting taggedGreeting pair pair' hpair hpair').2.2.1 hcontent⟩

end TraigentSchema.ExampleIdentity
