import TraigentSchema.Python.Mapping

/-!
# Endpoint resolution

A validator registers the operations of its contract catalogs under `METHOD:path` and
validates a request against the schema of the template its endpoint stands for.  The
templates are kept in sets, whose order of iteration is the interpreter's choice; it
appears here as a list of the candidate keys.
-/

namespace TraigentSchema.Validator

open TraigentSchema.Unicode
open TraigentSchema.Python

def colon : CodePoint := codePoint ':'

def slash : CodePoint := codePoint '/'

/-- A text `METHOD:path`. -/
structure OperationKey where
  text : Text
  colon_mem : colon ∈ text
  deriving DecidableEq

/-- `key.split(":", 1)`. -/
def OperationKey.split (key : OperationKey) : Text × Text :=
  (key.text.takeWhile (· ≠ colon), (key.text.dropWhile (· ≠ colon)).drop 1)

/-- A `dict` over operations, the last assignment first. -/
abbrev OperationDict (V : Type) := List (OperationKey × V)

namespace OperationDict

variable {V : Type}

def get (d : OperationDict V) (key : OperationKey) : Option V :=
  (d.find? fun row => row.1 = key).map Prod.snd

def set (d : OperationDict V) (key : OperationKey) (value : V) : OperationDict V :=
  (key, value) :: d

def keys (d : OperationDict V) : Finset OperationKey :=
  (d.map Prod.fst).toFinset

end OperationDict

/-- The request schemas of a validator. -/
structure Catalog where
  endpointSchemas : OperationDict Text := []
  inlineRequestSchemas : OperationDict PyValue := []
  inlineRequestSchemaBaseIds : OperationDict Text := []
  knownEndpoints : Finset OperationKey := ∅

section Registration

/-- `d.get(name, default)`; only a dict has it. -/
def getOr (d : PyValue) (name : String) (default : PyValue) : Option PyValue :=
  if d.isDict then some ((d.member name).getD default) else none

/-- The last segment of a reference, without the extension of a file. -/
def schemaNameOf (schemaRef : Text) : Text :=
  let name := ((schemaRef.splitOn slash).getLast?).getD []
  if text ".json" <:+ name then name.take (name.length - 5) else name

/-- Whether a value counts as true. -/
def truthy : PyValue → Bool
  | .leaf .none => false
  | .leaf (.bool b) => b
  | .leaf (.int i) => i != 0
  | .leaf (.float (.finite _ m)) => m != .zero
  | .leaf (.str s) => !s.isEmpty
  | .leaf _ => true
  | .list items => !items.isEmpty
  | .dict members => !members.isEmpty

/-- `_register_operation`; nothing where reading the operation raises an exception. -/
def registerOperation (catalog : Catalog) (key : OperationKey) (spec : PyValue)
    (inlineBaseId : Text) : Option Catalog := do
  let requestBody ← getOr spec "requestBody" (.dict [])
  let content ← getOr requestBody "content" (.dict [])
  let jsonContent ← getOr content "application/json" (.dict [])
  let jsonSchema ← getOr jsonContent "schema" (.dict [])
  let schemaRef ← getOr jsonSchema "$ref" (.str "")
  let known := { catalog with knownEndpoints := insert key catalog.knownEndpoints }
  if truthy schemaRef then
    match schemaRef with
    | .leaf (.str s) =>
        some { known with endpointSchemas := known.endpointSchemas.set key (schemaNameOf s) }
    | _ => none
  else if truthy jsonSchema then
    some { known with
      inlineRequestSchemas := known.inlineRequestSchemas.set key jsonSchema
      inlineRequestSchemaBaseIds := known.inlineRequestSchemaBaseIds.set key inlineBaseId }
  else some known

variable (upper : Text → Text)

/-- `f"{method.upper()}:{path}"`. -/
def operationKey (method path : Text) : OperationKey where
  text := upper method ++ colon :: path
  colon_mem := List.mem_append_right _ List.mem_cons_self

/-- The operations under one path; what is not a dict is skipped. -/
def parsePath (inlineBaseId path : Text) (catalog : Catalog) :
    List (Key × PyValue) → Option Catalog
  | [] => some catalog
  | (.str method, .dict members) :: rest => do
      let next ← registerOperation catalog (operationKey upper method path)
        (.dict members) inlineBaseId
      parsePath inlineBaseId path next rest
  | _ :: rest => parsePath inlineBaseId path catalog rest

/-- The loop of `_parse_openapi`. -/
def parsePaths (inlineBaseId : Text) (catalog : Catalog) :
    List (Key × PyValue) → Option Catalog
  | [] => some catalog
  | (.str path, .dict methods) :: rest => do
      let next ← parsePath upper inlineBaseId path catalog methods
      parsePaths inlineBaseId next rest
  | _ :: rest => parsePaths inlineBaseId catalog rest

def parseOpenapi (inlineBaseId : Text) (catalog : Catalog) (openapi : PyValue) :
    Option Catalog := do
  match ← getOr openapi "paths" (.dict []) with
  | .dict paths => parsePaths upper inlineBaseId catalog paths
  | _ => none

end Registration

/-! ## Matching -/

/-- A template segment in braces takes any segment that is not empty. -/
def segmentMatches (templatePart endpointPart : Text) : Bool :=
  if templatePart.head? = some (codePoint '\x7b') ∧
      templatePart.getLast? = some (codePoint '\x7d') then
    !endpointPart.isEmpty
  else templatePart == endpointPart

def templateMatchesEndpoint (template endpoint : Text) : Bool :=
  let templateParts := template.splitOn slash
  let endpointParts := endpoint.splitOn slash
  templateParts.length == endpointParts.length &&
    (templateParts.zip endpointParts).all fun row => segmentMatches row.1 row.2

namespace Catalog

variable (catalog : Catalog)

def candidateKeys : Finset OperationKey :=
  catalog.endpointSchemas.keys ∪ catalog.inlineRequestSchemas.keys ∪ catalog.knownEndpoints

/-- The keys in the order in which the interpreter iterates over their set. -/
structure IterationOrder where
  keys : List OperationKey
  nodup : keys.Nodup
  mem_iff : ∀ key, key ∈ keys ↔ key ∈ catalog.candidateKeys

/-- What a request is validated against. -/
inductive RequestSchema where
  | inline (schema : PyValue) (baseId : Option Text)
  | named (schemaName : Text)
  /-- A known route without a request schema. -/
  | noBody
  | unmapped

/-- The schema under a key: an inline one first. -/
def schemaUnder (key : OperationKey) : RequestSchema :=
  let inlineSchema := catalog.inlineRequestSchemas.get key
  let schemaName := catalog.endpointSchemas.get key
  if inlineSchema.any truthy then
    .inline (inlineSchema.getD (.dict [])) (catalog.inlineRequestSchemaBaseIds.get key)
  else if schemaName.any fun name => !name.isEmpty then .named (schemaName.getD [])
  else if key ∈ catalog.knownEndpoints then .noBody
  else .unmapped

section Resolution

variable (upper : Text → Text) (method endpoint : Text)

/-- The candidate is a template of the method and matches the endpoint. -/
def isMatch (key : OperationKey) : Bool :=
  key.split.1 == upper method && templateMatchesEndpoint key.split.2 endpoint

def normalizeEndpoint (order : catalog.IterationOrder) : Text :=
  if operationKey upper method endpoint ∈ catalog.candidateKeys then endpoint
  else match order.keys.find? (isMatch upper method endpoint) with
    | some key => key.split.2
    | none => endpoint

/-- The schema that `validate_request` applies. -/
def requestSchema (order : catalog.IterationOrder) : RequestSchema :=
  catalog.schemaUnder
    (operationKey upper method (catalog.normalizeEndpoint upper method endpoint order))

end Resolution

end Catalog

/-! ## Which template is chosen -/

section Choice

theorem segmentMatches_self (part : Text) : segmentMatches part part = true := by
  unfold segmentMatches
  split_ifs with hbraces
  · cases part with
    | nil => simp at hbraces
    | cons c part => rfl
  · exact beq_self_eq_true part

/-- An endpoint that is registered itself matches its own template. -/
theorem templateMatchesEndpoint_self (template : Text) :
    templateMatchesEndpoint template template = true := by
  have hzip : ∀ parts : List Text,
      ((parts.zip parts).all fun row => segmentMatches row.1 row.2) = true := by
    intro parts
    induction parts with
    | nil => rfl
    | cons part parts ih =>
        rw [List.zip_cons_cons, List.all_cons, ih, segmentMatches_self]
        rfl
  rw [templateMatchesEndpoint, beq_self_eq_true, Bool.true_and]
  exact hzip _

/-- What `partition` cuts out is the separator. -/
theorem eq_partition {s : Text} {c : CodePoint} (hmem : c ∈ s) :
    s = s.takeWhile (· ≠ c) ++ c :: (s.dropWhile (· ≠ c)).drop 1 := by
  induction s with
  | nil => cases hmem
  | cons d s ih =>
      by_cases heq : d = c
      · subst heq
        simp
      · have htail : c ∈ s := by
          cases hmem with
          | head => exact absurd rfl heq
          | tail _ htail => exact htail
        simp only [List.takeWhile_cons, List.dropWhile_cons, ne_eq, heq, not_false_eq_true,
          decide_true, if_true, List.cons_append, List.cons.injEq, true_and]
        exact ih htail

theorem OperationKey.text_eq (key : OperationKey) :
    key.text = key.split.1 ++ colon :: key.split.2 :=
  eq_partition key.colon_mem

variable {catalog : Catalog} {upper : Text → Text} {method endpoint : Text}

theorem operationKey_split {key : OperationKey}
    (hmatch : Catalog.isMatch upper method endpoint key = true) :
    operationKey upper method key.split.2 = key := by
  rw [Catalog.isMatch, Bool.and_eq_true, beq_iff_eq] at hmatch
  have htext := key.text_eq
  rw [hmatch.1] at htext
  cases key
  simp only [operationKey, OperationKey.mk.injEq]
  exact htext.symm

/-- Some order of iteration begins with a given candidate. -/
theorem exists_order_cons {key : OperationKey} (hkey : key ∈ catalog.candidateKeys) :
    ∃ order : catalog.IterationOrder,
      order.keys = key :: (catalog.candidateKeys.erase key).toList := by
  refine ⟨⟨key :: (catalog.candidateKeys.erase key).toList, ?_, fun other => ?_⟩, rfl⟩
  · rw [List.nodup_cons]
    exact ⟨by simp, Finset.nodup_toList _⟩
  · rw [List.mem_cons, Finset.mem_toList, Finset.mem_erase]
    constructor
    · rintro (rfl | ⟨-, hother⟩)
      · exact hkey
      · exact hother
    · intro hother
      by_cases hne : other = key
      · exact .inl hne
      · exact .inr ⟨hne, hother⟩

/-- What the loop over the candidates finds. -/
theorem find_isMatch (order : catalog.IterationOrder) :
    (∃ key ∈ catalog.candidateKeys, Catalog.isMatch upper method endpoint key = true ∧
      order.keys.find? (Catalog.isMatch upper method endpoint) = some key) ∨
    ((∀ key ∈ catalog.candidateKeys, ¬ Catalog.isMatch upper method endpoint key = true) ∧
      order.keys.find? (Catalog.isMatch upper method endpoint) = none) := by
  cases hfind : order.keys.find? (Catalog.isMatch upper method endpoint) with
  | none =>
      refine .inr ⟨fun key hkey => ?_, rfl⟩
      exact List.find?_eq_none.mp hfind key ((order.mem_iff key).mpr hkey)
  | some key =>
      refine .inl ⟨key, (order.mem_iff key).mp (List.mem_of_find?_eq_some hfind), ?_, rfl⟩
      exact List.find?_some hfind

variable (catalog upper method endpoint)

/-- The template chosen for a request and its schema do not depend on the order of
iteration, and a schema that is applied is that of a registered template of the method
which matches the endpoint. -/
structure ResolvesUniquely : Prop where
  template : ∀ order order' : catalog.IterationOrder,
    catalog.normalizeEndpoint upper method endpoint order =
      catalog.normalizeEndpoint upper method endpoint order'
  schema : ∀ order order' : catalog.IterationOrder,
    catalog.requestSchema upper method endpoint order =
      catalog.requestSchema upper method endpoint order'
  matching : ∀ order : catalog.IterationOrder,
    catalog.requestSchema upper method endpoint order ≠ .unmapped →
    ∃ template, operationKey upper method template ∈ catalog.candidateKeys ∧
      templateMatchesEndpoint template endpoint = true ∧
      catalog.requestSchema upper method endpoint order =
        catalog.schemaUnder (operationKey upper method template)

/-- The endpoint is registered itself, or no two templates of the method match it. -/
def Unambiguous : Prop :=
  operationKey upper method endpoint ∈ catalog.candidateKeys ∨
  ∀ key ∈ catalog.candidateKeys, ∀ key' ∈ catalog.candidateKeys,
    Catalog.isMatch upper method endpoint key = true →
    Catalog.isMatch upper method endpoint key' = true → key = key'

variable {catalog upper method endpoint}

theorem normalizeEndpoint_eq (hambiguous : Unambiguous catalog upper method endpoint)
    (order order' : catalog.IterationOrder) :
    catalog.normalizeEndpoint upper method endpoint order =
      catalog.normalizeEndpoint upper method endpoint order' := by
  cases hambiguous with
  | inl hdirect =>
      rw [Catalog.normalizeEndpoint, Catalog.normalizeEndpoint, if_pos hdirect,
        if_pos hdirect]
  | inr hunique =>
      have hfind : order.keys.find? (Catalog.isMatch upper method endpoint) =
          order'.keys.find? (Catalog.isMatch upper method endpoint) := by
        obtain ⟨key, hkey, hmatch, hfound⟩ | ⟨hnone, hmissing⟩ := find_isMatch order
        · obtain ⟨key', hkey', hmatch', hfound'⟩ | ⟨hnone', -⟩ := find_isMatch order'
          · rw [hfound, hfound', hunique key hkey key' hkey' hmatch hmatch']
          · exact absurd hmatch (hnone' key hkey)
        · obtain ⟨key', hkey', hmatch', -⟩ | ⟨-, hmissing'⟩ := find_isMatch order'
          · exact absurd hmatch' (hnone key' hkey')
          · rw [hmissing, hmissing']
      rw [Catalog.normalizeEndpoint, Catalog.normalizeEndpoint, hfind]

/-- Every key with a schema is a candidate. -/
theorem schemaUnder_of_not_mem {key : OperationKey} (hkey : key ∉ catalog.candidateKeys) :
    catalog.schemaUnder key = .unmapped := by
  have hget : ∀ {V : Type} {d : OperationDict V}, key ∉ d.keys → d.get key = none := by
    intro V d hmissing
    rw [OperationDict.get, Option.map_eq_none_iff, List.find?_eq_none]
    intro row hrow hrowKey
    apply hmissing
    rw [OperationDict.keys, List.mem_toFinset]
    exact List.mem_map.mpr ⟨row, hrow, of_decide_eq_true hrowKey⟩
  simp only [Catalog.candidateKeys, Finset.mem_union, not_or] at hkey
  simp [Catalog.schemaUnder, hget hkey.1.1, hget hkey.1.2, hkey.2]

theorem requestSchema_matching (order : catalog.IterationOrder)
    (happlied : catalog.requestSchema upper method endpoint order ≠ .unmapped) :
    ∃ template, operationKey upper method template ∈ catalog.candidateKeys ∧
      templateMatchesEndpoint template endpoint = true ∧
      catalog.requestSchema upper method endpoint order =
        catalog.schemaUnder (operationKey upper method template) := by
  by_cases hdirect : operationKey upper method endpoint ∈ catalog.candidateKeys
  · refine ⟨endpoint, hdirect, templateMatchesEndpoint_self endpoint, ?_⟩
    rw [Catalog.requestSchema, Catalog.normalizeEndpoint, if_pos hdirect]
  · obtain ⟨key, hkey, hmatch, hfound⟩ | ⟨-, hmissing⟩ := find_isMatch order
    · refine ⟨key.split.2, ?_, ?_, ?_⟩
      · rwa [operationKey_split hmatch]
      · rw [Catalog.isMatch, Bool.and_eq_true] at hmatch
        exact hmatch.2
      · rw [Catalog.requestSchema, Catalog.normalizeEndpoint, if_neg hdirect, hfound]
    · refine absurd ?_ happlied
      rw [Catalog.requestSchema, Catalog.normalizeEndpoint, if_neg hdirect, hmissing]
      exact schemaUnder_of_not_mem hdirect

/-- Resolution is unique exactly where the endpoint is registered itself or no two
templates of its method match it. -/
theorem resolvesUniquely_iff (catalog : Catalog) (upper : Text → Text)
    (method endpoint : Text) :
    ResolvesUniquely catalog upper method endpoint ↔
      Unambiguous catalog upper method endpoint := by
  constructor
  · intro hunique
    by_cases hdirect : operationKey upper method endpoint ∈ catalog.candidateKeys
    · exact .inl hdirect
    · refine .inr fun key hkey key' hkey' hmatch hmatch' => ?_
      have hchosen : ∀ {other : OperationKey}, other ∈ catalog.candidateKeys →
          Catalog.isMatch upper method endpoint other = true →
          ∃ order, catalog.normalizeEndpoint upper method endpoint order = other.split.2 := by
        intro other hother hother'
        obtain ⟨order, horder⟩ := exists_order_cons hother
        refine ⟨order, ?_⟩
        rw [Catalog.normalizeEndpoint, if_neg hdirect, horder, List.find?_cons, hother']
      obtain ⟨order, horder⟩ := hchosen hkey hmatch
      obtain ⟨order', horder'⟩ := hchosen hkey' hmatch'
      have hpath : key.split.2 = key'.split.2 := by
        rw [← horder, ← horder', hunique.template order order']
      rw [← operationKey_split hmatch, ← operationKey_split hmatch', hpath]
  · intro hunambiguous
    exact {
      template := normalizeEndpoint_eq hunambiguous
      schema := fun order order' => by
        rw [Catalog.requestSchema, Catalog.requestSchema,
          normalizeEndpoint_eq hunambiguous order order']
      matching := requestSchema_matching }

end Choice

/-! ## Two templates for one endpoint -/

/-- `str.upper` on ASCII. -/
def asciiUpper (s : Text) : Text :=
  s.map fun c => if 97 ≤ c.val ∧ c.val ≤ 122 then c - 32 else c

/-- An operation with a request schema by reference. -/
def exampleSpec (schemaRef : String) : PyValue :=
  .object [("requestBody", .object [("content", .object [("application/json",
    .object [("schema", .object [("$ref", .str schemaRef)])])])])]

def exampleOpenapi : PyValue :=
  .object [("paths", .object [
    ("/runs/\x7brun_id\x7d", .object [("post", exampleSpec "#/schemas/Run")]),
    ("/\x7bkind\x7d/latest", .object [("post", exampleSpec "#/schemas/Latest")])])]

def exampleCatalog : Catalog :=
  (parseOpenapi asciiUpper [] {} exampleOpenapi).getD {}

def exampleKeys : List OperationKey :=
  [operationKey asciiUpper (text "post") (text "/runs/\x7brun_id\x7d"),
    operationKey asciiUpper (text "post") (text "/\x7bkind\x7d/latest")]

theorem candidateKeys_exampleCatalog : exampleCatalog.candidateKeys = exampleKeys.toFinset := by
  decide +kernel

/-- The order of registration, or the other one. -/
def exampleOrder (keys : List OperationKey) (hnodup : keys.Nodup)
    (hkeys : keys.toFinset = exampleKeys.toFinset) : exampleCatalog.IterationOrder where
  keys := keys
  nodup := hnodup
  mem_iff key := by rw [candidateKeys_exampleCatalog, ← hkeys, List.mem_toFinset]

/-- One order of iteration validates `/runs/latest` as a run, the other one does not. -/
theorem resolution_depends_on_order :
    ¬ ResolvesUniquely exampleCatalog asciiUpper (text "post") (text "/runs/latest") := by
  intro hunique
  have hschema := hunique.schema
    (exampleOrder exampleKeys (by decide +kernel) rfl)
    (exampleOrder exampleKeys.reverse (by decide +kernel) (by decide +kernel))
  have hrun : exampleCatalog.requestSchema asciiUpper (text "post") (text "/runs/latest")
      (exampleOrder exampleKeys (by decide +kernel) rfl) = .named (text "Run") := by
    rfl
  have hlatest : exampleCatalog.requestSchema asciiUpper (text "post") (text "/runs/latest")
      (exampleOrder exampleKeys.reverse (by decide +kernel) (by decide +kernel)) =
        .named (text "Latest") := by
    rfl
  rw [hrun, hlatest, Catalog.RequestSchema.named.injEq, text_inj] at hschema
  exact absurd hschema (by decide)

end TraigentSchema.Validator
