import TraigentSchema.Certification.Verification
import TraigentSchema.Library.Sha256
import TraigentSchema.Library.SortedBy

/-!
# The content digest of a dataset version

The rows of a version are projected to their input and their expected output, ordered by their
ids and, between equal ids, by their own canonical bytes, and hashed as one list.  The ids order
the rows and are not hashed.  The digest is one of the multiset of rows; and against the same ids
it determines the rows.
-/

namespace TraigentSchema.ContentIdentity

open TraigentSchema.Certification (Canonicalizable preimage preimage_injective)
open TraigentSchema.Fp2
open TraigentSchema.Hashing
open TraigentSchema.JsonReading (JsonValue)
open TraigentSchema.Python
open TraigentSchema.SortedBy
open TraigentSchema.Traverse
open TraigentSchema.Unicode

def datasetVersionContentDigestDomain : String :=
  "traigent.dataset_version.content.v1"

inductive DigestError where
  | typeError (message : String)
  | raised (error : Raised)
  /-- `fp2.canonicalize` refused a payload. -/
  | unsupportedPayload

/-- `type(value).__name__`. -/
def typeName : PyValue → Except String String
  | .leaf x => x.typeName
  | .list _ => .ok "list"
  | .dict _ => .ok "dict"

/-- A `TypeError` whose message ends in the name of a type, which is read on the way. -/
def wrongType (message : String) (name : Except String String) : DigestError :=
  match name with
  | .ok typeName => .typeError (message ++ typeName)
  | .error e => .raised (.other e)

/-! ## Rows -/

/-- A text, or a list of texts. -/
inductive InputText where
  | text (s : Text)
  | texts (items : List Text)

def InputText.value : InputText → PyValue
  | .text s => .leaf (.str s)
  | .texts items => .list (items.map fun s => .leaf (.str s))

/-- What is read of an example. -/
structure Row where
  exampleId : Text
  inputText : InputText
  expectedOutput : Option Text

def strOf : PyValue → Option Text
  | .leaf (.str s) => some s
  | _ => none

def inputTextOf : PyValue → Option InputText
  | .leaf (.str s) => some (.text s)
  | .list items => (items.mapM strOf).map .texts
  | _ => none

def expectedOutputOf : PyValue → Option (Option Text)
  | .leaf .none => some none
  | .leaf (.str s) => some (some s)
  | _ => none

/-- A field of the type it must have. -/
def checked {B : Type} (message : String) (read : PyValue → Option B) (v : PyValue) :
    Except DigestError B :=
  match read v with
  | some b => .ok b
  | none => .error (wrongType message (typeName v))

/-- `_validate_example`, with what it looked at. -/
def validateExample (index : ℕ) (item : PyValue) : Except DigestError Row := do
  let exampleId ← checked s!"preimage[{index}].example_id must be str, got " strOf
    (item.field "example_id")
  let inputText ← checked s!"preimage[{index}].input_text must be str or list[str], got "
    inputTextOf (item.field "input_text")
  let expectedOutput ← checked s!"preimage[{index}].expected_output must be str or None, got "
    expectedOutputOf (item.field "expected_output")
  return { exampleId, inputText, expectedOutput }

/-- The loop over the examples, from an index on. -/
def validateExamples : (index : ℕ) → List PyValue → Except DigestError (List Row)
  | _, [] => .ok []
  | index, item :: items =>
      if item.isDict then do
        let row ← validateExample index item
        return row :: (← validateExamples (index + 1) items)
      else .error (wrongType s!"preimage[{index}] must be a mapping, got " (typeName item))

/-- The payload of a row. -/
def Row.projection (row : Row) : PyValue :=
  .object [("input_text", row.inputText.value),
    ("expected_output", .leaf (row.expectedOutput.elim .none .str))]

/-! ## The digest -/

inductive Preimage where
  | sequence (examples : List PyValue)
  /-- A `str`, `bytes`, a mapping, or no sequence at all. -/
  | other (typeName : Except String String)

section Digest

variable (sha256 : Hash) (float : FloatRepr)

/-- `fp2.canonicalize(payload).encode("utf-8")`. -/
def canonicalUtf8 (payload : PyValue) : Except DigestError Bytes :=
  if Canonicalizable payload then .ok (utf8 (canonicalText float payload))
  else .error .unsupportedPayload

def roleDigest (domain : String) (payload : PyValue) : Except DigestError Text := do
  return text "sha256:" ++ hexdigest (sha256 (preimage domain (← canonicalUtf8 float payload)))

/-- A row with its sort key. -/
def decorate (row : Row) : Except DigestError ((Bytes ×ₗ Bytes) × Row) := do
  let idKey ← (utf16SortKey row.exampleId).mapError .raised
  return (toLex (idKey, ← canonicalUtf8 float row.projection), row)

def computeDatasetVersionContentDigest : Preimage → Except DigestError Text
  | .other name => .error (wrongType "preimage must be a sequence of mappings, got " name)
  | .sequence examples => do
      let rows ← validateExamples 0 examples
      let ordered := sortedBy Prod.fst (← rows.mapM (decorate float))
      roleDigest sha256 float datasetVersionContentDigestDomain
        (.list (ordered.map fun row => row.2.projection))

end Digest

/-! ## Reading rows -/

/-- An example whose row this is. -/
structure Shows (item : PyValue) (row : Row) : Prop where
  isDict : item.isDict = true
  exampleId : strOf (item.field "example_id") = some row.exampleId
  inputText : inputTextOf (item.field "input_text") = some row.inputText
  expectedOutput : expectedOutputOf (item.field "expected_output") = some row.expectedOutput

theorem checked_eq_ok_iff {B : Type} {message : String} {read : PyValue → Option B}
    {v : PyValue} {b : B} : checked message read v = .ok b ↔ read v = some b := by
  rw [checked]
  cases read v <;> simp

/-- An item is a valid example when it shows a row. -/
theorem validateExample_eq_ok_iff {index : ℕ} {item : PyValue} {row : Row}
    (hdict : item.isDict = true) : validateExample index item = .ok row ↔ Shows item row := by
  simp only [validateExample, bind_eq_ok_iff, checked_eq_ok_iff, pure_eq_ok, Except.ok.injEq]
  constructor
  · rintro ⟨exampleId, hid, inputText, hinput, expectedOutput, hexpected, rfl⟩
    exact ⟨hdict, hid, hinput, hexpected⟩
  · intro hshows
    exact ⟨_, hshows.exampleId, _, hshows.inputText, _, hshows.expectedOutput, rfl⟩

/-- Examples are valid when each of them shows a row. -/
theorem validateExamples_eq_ok_iff {index : ℕ} {examples : List PyValue} {rows : List Row} :
    validateExamples index examples = .ok rows ↔ List.Forall₂ Shows examples rows := by
  induction examples generalizing index rows with
  | nil => simp [validateExamples, eq_comm]
  | cons item items ih =>
      rw [validateExamples]
      split_ifs with hdict
      · simp only [bind_eq_ok_iff, validateExample_eq_ok_iff hdict, ih, pure_eq_ok,
          Except.ok.injEq]
        rw [List.forall₂_cons_left_iff]
        constructor
        · rintro ⟨row, hrow, rest, hrest, rfl⟩
          exact ⟨row, rest, hrow, hrest, rfl⟩
        · rintro ⟨row, rest, hrow, hrest, rfl⟩
          exact ⟨row, hrow, rest, hrest, rfl⟩
      · constructor
        · intro herror
          cases herror
        · intro hrows
          cases hrows with
          | cons hhead _ => exact absurd hhead.isDict hdict

/-! ## Payloads -/

theorem InputText.nesting_value (input : InputText) : input.value.nesting ≤ 1 := by
  cases input with
  | text s => simp [InputText.value]
  | texts items =>
      rw [InputText.value, Tree.nesting_list_le_iff]
      simp

/-- A projection is an object of texts, at most with one list in it. -/
theorem Row.nesting_projection (row : Row) : row.projection.nesting ≤ 2 := by
  rw [Row.projection, PyValue.object, Tree.nesting_dict_le_iff]
  simp [row.inputText.nesting_value]

/-- The id can be ordered and the projection can be written. -/
def Row.Writable (row : Row) : Prop :=
  Encodable row.exampleId ∧ Supported row.projection

theorem InputText.wellFormed_value (input : InputText) : input.value.WellFormed := by
  cases input <;> simp [InputText.value]

theorem Row.wellFormed_projection (row : Row) : row.projection.WellFormed := by
  rw [Row.projection, PyValue.object, Tree.wellFormed_dict]
  constructor
  · simp
  · simp [row.inputText.wellFormed_value]

theorem Row.Writable.hasCanonicalText {row : Row} (hwritable : row.Writable) :
    HasCanonicalText row.projection :=
  ⟨hwritable.2, row.wellFormed_projection⟩

theorem Row.canonicalizable_projection {row : Row} (hwritable : row.Writable) :
    Canonicalizable row.projection :=
  ⟨row.nesting_projection.trans (by decide), hwritable.2⟩

/-- The payload of ordered rows. -/
def payload (rows : List Row) : PyValue :=
  .list (rows.map Row.projection)

/-- Writable rows have a payload that is canonicalizable. -/
theorem canonicalizable_payload {rows : List Row} (hwritable : ∀ row ∈ rows, row.Writable) :
    Canonicalizable (payload rows) := by
  constructor
  · have hnesting : (payload rows).nesting ≤ 2 + 1 := by
      rw [payload, Tree.nesting_list_le_iff, List.forall_mem_map]
      exact fun row _ => row.nesting_projection
    exact hnesting.trans (by decide)
  · rw [payload, supported_list, List.forall_mem_map]
    exact fun row hrow => (hwritable row hrow).2

theorem hasCanonicalText_payload {rows : List Row} (hwritable : ∀ row ∈ rows, row.Writable) :
    HasCanonicalText (payload rows) where
  supported := (canonicalizable_payload hwritable).2
  wellFormed := by
    rw [payload, Tree.wellFormed_list, List.forall_mem_map]
    exact fun row _ => row.wellFormed_projection

section Order

variable (float : FloatRepr)

/-- The sort key of a row. -/
def Row.key (row : Row) : Bytes ×ₗ Bytes :=
  toLex (utf16BigEndian row.exampleId, utf8 (canonicalText float row.projection))

/-- A row is decorated when it can be written. -/
theorem decorate_eq_ok_iff {row : Row} {decorated : (Bytes ×ₗ Bytes) × Row} :
    decorate float row = .ok decorated ↔ row.Writable ∧ (row.key float, row) = decorated := by
  by_cases hid : Encodable row.exampleId
  · by_cases hpayload : Supported row.projection
    · have hwritable : row.Writable := ⟨hid, hpayload⟩
      simp [decorate, utf16SortKey_of_encodable hid, Except.mapError, canonicalUtf8,
        row.canonicalizable_projection hwritable, hwritable, Row.key]
    · have hrefused : ¬Canonicalizable row.projection := fun h => hpayload h.2
      simp [decorate, utf16SortKey_of_encodable hid, Except.mapError, canonicalUtf8, hrefused,
        Row.Writable, hpayload]
  · obtain ⟨message, herror⟩ := utf16SortKey_of_not_encodable hid
    simp [decorate, herror, Except.mapError, Row.Writable, hid]

theorem mapM_decorate_eq_ok_iff {rows : List Row} {decorated : List ((Bytes ×ₗ Bytes) × Row)} :
    rows.mapM (decorate float) = .ok decorated ↔
      (∀ row ∈ rows, row.Writable) ∧ rows.map (fun row => (row.key float, row)) = decorated := by
  simp only [mapM_eq_ok_iff, decorate_eq_ok_iff]
  induction rows generalizing decorated with
  | nil => cases decorated <;> simp
  | cons row rows ih =>
      cases decorated with
      | nil => simp
      | cons head rest =>
          rw [List.forall₂_cons, ih, List.forall_mem_cons, List.map_cons, List.cons.injEq]
          tauto

/-- The rows in order. -/
def ordered (rows : List Row) : List Row :=
  sortedBy (Row.key float) rows

/-- The bytes that are hashed for rows. -/
def hashedBytes (rows : List Row) : Bytes :=
  preimage datasetVersionContentDigestDomain
    (utf8 (canonicalText float (payload (ordered float rows))))

variable (sha256 : Hash)

/-- The digest is of the rows in order, when all of them can be written. -/
theorem compute_eq_ok_iff {examples : List PyValue} {digest : Text} :
    computeDatasetVersionContentDigest sha256 float (.sequence examples) = .ok digest ↔
      ∃ rows, List.Forall₂ Shows examples rows ∧ (∀ row ∈ rows, row.Writable) ∧
        text "sha256:" ++ hexdigest (sha256 (hashedBytes float rows)) = digest := by
  simp only [computeDatasetVersionContentDigest, bind_eq_ok_iff, validateExamples_eq_ok_iff,
    mapM_decorate_eq_ok_iff]
  refine exists_congr fun rows => and_congr_right fun _ => ?_
  have hsorted : ((sortedBy Prod.fst (rows.map fun row => (row.key float, row))).map
      fun row => row.2.projection) = (ordered float rows).map Row.projection := by
    rw [ordered, ← map_sortedBy (Row.key float) Prod.fst (fun row => (row.key float, row)) rows
      fun _ _ _ _ => Iff.rfl, List.map_map]
    rfl
  constructor
  · rintro ⟨_, ⟨hwritable, rfl⟩, hdigest⟩
    have hordered : Canonicalizable (payload (ordered float rows)) :=
      canonicalizable_payload fun row hrow => hwritable row (mem_sortedBy.mp hrow)
    rw [hsorted, ← payload, roleDigest, canonicalUtf8, if_pos hordered] at hdigest
    exact ⟨hwritable, Except.ok.inj hdigest⟩
  · rintro ⟨hwritable, hdigest⟩
    have hordered : Canonicalizable (payload (ordered float rows)) :=
      canonicalizable_payload fun row hrow => hwritable row (mem_sortedBy.mp hrow)
    refine ⟨_, ⟨hwritable, rfl⟩, ?_⟩
    rw [hsorted, ← payload, roleDigest, canonicalUtf8, if_pos hordered]
    exact congrArg Except.ok hdigest

end Order

/-! ## The payload determines the rows -/

theorem InputText.jsonValue_injective {input input' : InputText}
    (heq : jsonValue input.value = jsonValue input'.value) : input = input' := by
  cases input with
  | text s =>
      cases input' with
      | text s' => simpa [InputText.value, jsonAtom] using heq
      | texts items' => simp [InputText.value, jsonAtom] at heq
  | texts items =>
      cases input' with
      | text s' => simp [InputText.value, jsonAtom] at heq
      | texts items' =>
          have hinjective : Function.Injective fun s => jsonValue (.leaf (.str s)) := by
            intro s s' hs
            simpa [jsonAtom] using hs
          simp only [InputText.value, jsonValue_list, List.map_map, JsonValue.arr.injEq] at heq
          rw [List.map_injective_iff.mpr hinjective heq]

section Sensitive

variable {float : FloatRepr}

@[simp]
theorem Row.projection_inputText (row : Row) :
    row.projection.field "input_text" = row.inputText.value := by
  simp [Row.projection]

@[simp]
theorem Row.projection_expectedOutput (row : Row) :
    row.projection.field "expected_output" = .leaf (row.expectedOutput.elim .none .str) := by
  simp [Row.projection, List.lookup_cons]

/-- Rows of one id and one text are one row. -/
theorem Row.eq_of_agree {row row' : Row} (hwritable : row.Writable) (hwritable' : row'.Writable)
    (hid : row.exampleId = row'.exampleId)
    (hagree : Agree float row.projection row'.projection) : row = row' := by
  have hvalue := hwritable.hasCanonicalText
  have hvalue' := hwritable'.hasCanonicalText
  have hfield : ∀ name, jsonValue (row.projection.field name) =
      jsonValue (row'.projection.field name) := fun name =>
    (hvalue.field.jsonValue_eq_iff float hvalue'.field).mp (Agree.field hvalue hvalue' hagree)
  have hinput : row.inputText = row'.inputText := by
    apply InputText.jsonValue_injective
    simpa using hfield "input_text"
  have hexpected : row.expectedOutput = row'.expectedOutput := by
    have houtput := hfield "expected_output"
    rw [row.projection_expectedOutput, row'.projection_expectedOutput] at houtput
    cases hleft : row.expectedOutput <;> cases hright : row'.expectedOutput <;>
      simp_all [jsonAtom]
  cases row
  cases row'
  simp_all

/-- Writable rows of one key are one row. -/
theorem Row.key_injOn {row row' : Row} (hwritable : row.Writable) (hwritable' : row'.Writable)
    (heq : row.key float = row'.key float) : row = row' := by
  obtain ⟨hid, htext⟩ := Prod.mk.inj (toLex.injective heq)
  exact Row.eq_of_agree hwritable hwritable' (utf16BigEndian_injOn hwritable.1 hwritable'.1 hid)
    (utf8_injective htext)

/-- The ids of ordered rows are those of any rows with the same ids. -/
theorem map_exampleId_ordered {rows rows' : List Row} (hwritable : ∀ row ∈ rows, row.Writable)
    (hwritable' : ∀ row ∈ rows', row.Writable)
    (hids : (rows.map Row.exampleId).Perm (rows'.map Row.exampleId)) :
    (ordered float rows).map Row.exampleId = (ordered float rows').map Row.exampleId := by
  have hsorted : ∀ rows : List Row, ((ordered float rows).map fun row =>
      utf16BigEndian row.exampleId).Pairwise (· ≤ ·) := fun rows =>
    List.pairwise_map.mpr
      ((pairwise_sortedBy (Row.key float) rows).imp fun hle => Prod.Lex.monotone_fst _ _ hle)
  have hperm : ((ordered float rows).map Row.exampleId).Perm
      ((ordered float rows').map Row.exampleId) := calc
    ((ordered float rows).map Row.exampleId).Perm (rows.map Row.exampleId) :=
      (sortedBy_perm _ rows).map _
    (rows.map Row.exampleId).Perm (rows'.map Row.exampleId) := hids
    (rows'.map Row.exampleId).Perm ((ordered float rows').map Row.exampleId) :=
      ((sortedBy_perm _ rows').map _).symm
  have hkeys : ((ordered float rows).map Row.exampleId).map utf16BigEndian =
      ((ordered float rows').map Row.exampleId).map utf16BigEndian := by
    have hkeysPerm := hperm.map utf16BigEndian
    rw [List.map_map, List.map_map] at hkeysPerm ⊢
    exact hkeysPerm.eq_of_pairwise' (hsorted rows) (hsorted rows')
  have hencodable : ∀ {rows : List Row}, (∀ row ∈ rows, row.Writable) →
      ∀ id ∈ (ordered float rows).map Row.exampleId, Encodable id := by
    intro rows hrows id hid
    obtain ⟨row, hrow, rfl⟩ := List.mem_map.mp hid
    exact (hrows row (mem_sortedBy.mp hrow)).1
  rw [map_eq_map_iff_forall₂] at hkeys
  have hids' : List.Forall₂ (· = ·) ((ordered float rows).map Row.exampleId)
      ((ordered float rows').map Row.exampleId) :=
    forall₂_imp_of_mem hkeys fun id hid id' hid' heq =>
      utf16BigEndian_injOn (hencodable hwritable id hid) (hencodable hwritable' id' hid') heq
  rwa [List.forall₂_eq_eq_eq] at hids'

/-- Rows with one multiset of ids and one payload are one multiset of rows. -/
theorem perm_of_payload {rows rows' : List Row} (hwritable : ∀ row ∈ rows, row.Writable)
    (hwritable' : ∀ row ∈ rows', row.Writable)
    (hids : (rows.map Row.exampleId).Perm (rows'.map Row.exampleId))
    (hpayload : Agree float (payload (ordered float rows)) (payload (ordered float rows'))) :
    rows.Perm rows' := by
  have hmem : ∀ {rows : List Row}, (∀ row ∈ rows, row.Writable) →
      ∀ row ∈ ordered float rows, row.Writable := fun hrows row hrow =>
    hrows row (mem_sortedBy.mp hrow)
  have hjson := ((hasCanonicalText_payload (hmem hwritable)).jsonValue_eq_iff float
    (hasCanonicalText_payload (hmem hwritable'))).mp hpayload
  simp only [payload, jsonValue_list, List.map_map, JsonValue.arr.injEq] at hjson
  have hsame : (ordered float rows).map Row.exampleId = (ordered float rows').map Row.exampleId :=
    map_exampleId_ordered hwritable hwritable' hids
  have hlength : (ordered float rows).length = (ordered float rows').length := by
    simpa using congrArg List.length hsame
  have hrows : ordered float rows = ordered float rows' := by
    apply List.ext_getElem hlength
    intro i hi hi'
    have hleft := hmem hwritable _ (List.getElem_mem hi)
    have hright := hmem hwritable' _ (List.getElem_mem hi')
    refine Row.eq_of_agree hleft hright ?_
      ((hleft.hasCanonicalText.jsonValue_eq_iff float hright.hasCanonicalText).mpr ?_)
    · have hat := List.getElem_of_eq hsame (i := i) (by simpa using hi)
      rwa [List.getElem_map, List.getElem_map] at hat
    · have hat := List.getElem_of_eq hjson (i := i) (by simpa using hi)
      rwa [List.getElem_map, List.getElem_map] at hat
  calc
    rows.Perm (ordered float rows) := (sortedBy_perm _ rows).symm
    (ordered float rows).Perm (ordered float rows') := .of_eq hrows
    (ordered float rows').Perm rows' := sortedBy_perm _ rows'

/-- Sorting makes the hashed bytes those of every order of the rows. -/
theorem hashedBytes_eq_of_perm {rows rows' : List Row} (hwritable : ∀ row ∈ rows, row.Writable)
    (hperm : rows.Perm rows') : hashedBytes float rows = hashedBytes float rows' := by
  have hordered : ordered float rows = ordered float rows' :=
    sortedBy_eq_of_perm _ hperm fun left hleft right hright heq =>
      Row.key_injOn (hwritable left hleft) (hwritable right hright) heq
  rw [hashedBytes, hashedBytes, hordered]

end Sensitive

/-- An example determines its row. -/
theorem Shows.unique {item : PyValue} {row row' : Row} (hshows : Shows item row)
    (hshows' : Shows item row') : row = row' := by
  have hid := hshows.exampleId.symm.trans hshows'.exampleId
  have hinput := hshows.inputText.symm.trans hshows'.inputText
  have houtput := hshows.expectedOutput.symm.trans hshows'.expectedOutput
  cases row
  cases row'
  simp_all

section Faithful

variable (sha256 : Hash) (float : FloatRepr)

theorem hash_eq_of_compute {examples : List PyValue} {rows : List Row} {digest : Text}
    (hrows : List.Forall₂ Shows examples rows)
    (hdigest : computeDatasetVersionContentDigest sha256 float (.sequence examples) = .ok digest) :
    (∀ row ∈ rows, row.Writable) ∧
      text "sha256:" ++ hexdigest (sha256 (hashedBytes float rows)) = digest := by
  obtain ⟨shown, hshown, hwritable, hhash⟩ := (compute_eq_ok_iff float sha256).mp hdigest
  have hunique : Relator.RightUnique Shows := fun _ _ _ => Shows.unique
  obtain rfl : rows = shown := List.right_unique_forall₂' hunique hrows hshown
  exact ⟨hwritable, hhash⟩

/-- The digest is that of the rows, whichever examples show them. -/
theorem compute_congr {examples examples' : List PyValue} {rows rows' : List Row}
    (hrows : List.Forall₂ Shows examples rows) (hrows' : List.Forall₂ Shows examples' rows')
    (hperm : rows.Perm rows') {digest : Text}
    (hdigest : computeDatasetVersionContentDigest sha256 float (.sequence examples) = .ok digest) :
    computeDatasetVersionContentDigest sha256 float (.sequence examples') = .ok digest := by
  obtain ⟨hwritable, rfl⟩ := hash_eq_of_compute sha256 float hrows hdigest
  refine (compute_eq_ok_iff float sha256).mpr ⟨rows', hrows', ?_, ?_⟩
  · exact fun row hrow => hwritable row (hperm.mem_iff.mpr hrow)
  · rw [hashedBytes_eq_of_perm hwritable hperm]

/-- Another order of the examples is accepted as well. -/
theorem exists_digest_of_perm {examples examples' : List PyValue}
    (hperm : examples.Perm examples')
    (hdigest : ∃ digest,
      computeDatasetVersionContentDigest sha256 float (.sequence examples) = .ok digest) :
    ∃ digest,
      computeDatasetVersionContentDigest sha256 float (.sequence examples') = .ok digest := by
  obtain ⟨digest, hdigest⟩ := hdigest
  obtain ⟨rows, hrows, -⟩ := (compute_eq_ok_iff float sha256).mp hdigest
  obtain ⟨rows', hrows', hrowsPerm⟩ := List.perm_comp_forall₂ hperm.symm hrows
  exact ⟨digest, compute_congr sha256 float hrows hrows' hrowsPerm.symm hdigest⟩

end Faithful

/-! Two rows of one id, in both orders. -/

def firstExample : PyValue :=
  .object [("example_id", .str "a"), ("input_text", .str "x")]

def secondExample : PyValue :=
  .object [("input_text", .list [PyValue.str "y"]), ("example_id", .str "a"),
    ("expected_output", .str "z"), ("note", .leaf (.bool true))]

def firstRow : Row :=
  ⟨text "a", .text (text "x"), none⟩

def secondRow : Row :=
  ⟨text "a", .texts [text "y"], some (text "z")⟩

theorem shows_firstExample : Shows firstExample firstRow where
  isDict := rfl
  exampleId := by simp [firstExample, firstRow, PyValue.str, strOf]
  inputText := by simp [firstExample, firstRow, PyValue.str, inputTextOf, List.lookup_cons]
  expectedOutput := by simp [firstExample, firstRow, expectedOutputOf, List.lookup_cons]

theorem shows_secondExample : Shows secondExample secondRow where
  isDict := rfl
  exampleId := by simp [secondExample, secondRow, PyValue.str, strOf, List.lookup_cons]
  inputText := by simp [secondExample, secondRow, PyValue.str, inputTextOf, strOf]
  expectedOutput := by
    simp [secondExample, secondRow, PyValue.str, expectedOutputOf, List.lookup_cons]

theorem writable_firstRow : firstRow.Writable :=
  ⟨encodable_text "a", by simp [firstRow, Row.projection, PyValue.object, InputText.value,
    PlainKey, SupportedAtom, encodable_text]⟩

theorem writable_secondRow : secondRow.Writable :=
  ⟨encodable_text "a", by simp [secondRow, Row.projection, PyValue.object, InputText.value,
    PlainKey, SupportedAtom, encodable_text]⟩

end TraigentSchema.ContentIdentity
