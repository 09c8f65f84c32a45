import TraigentSchema.Fp2.Injective
import TraigentSchema.Fp2.Utf8Form
import TraigentSchema.Invariants.ExactEquality
import TraigentSchema.LabelsReference.Bindings

/-!
# One canonical JSON for both ends

The label reference has its own canonical JSON, a recursion over the library's string
escaper.  On every value without floats that the package canonicalizes it writes the same
text, and what is bound into a label, a wrap or a signature can be read back from the bytes.
-/

namespace TraigentSchema.LabelsReference

open TraigentSchema.Unicode
open TraigentSchema.Fp2
open TraigentSchema.Invariants
open TraigentSchema.JsonText hiding memberText objectText
open TraigentSchema.Python
open TraigentSchema.SortedBy
open TraigentSchema.Traverse

/-! ## Strings -/

/-- The two tables of escapes agree. -/
theorem escapeDct_getD (c : CodePoint) : (escapeDct c).getD [c] = encodeCharacter c := by
  rw [encodeCharacter, escapes, escapeDct]
  by_cases hcontrol : c.val < 0x20
  · obtain ⟨n, hn⟩ := c
    dsimp only at hcontrol ⊢
    interval_cases n <;> rfl
  · split_ifs <;> first | rfl | omega

theorem dumpsString_eq_quoted (s : Text) : dumpsString s = quoted s := by
  simp only [dumpsString, quoted, escapeDct_getD]

/-! ## Trees -/

/-- The scalars with a branch in `enc` that does not raise. -/
def JcsAtom : Atom → Prop
  | .int i => i.natAbs < 10 ^ maxStrDigits
  | .float _ => False
  | .foreign _ => False
  | _ => True

theorem JcsAtom.written {x : Atom} (hx : JcsAtom x) : WrittenAtom x := by
  cases x with
  | float value => exact hx.elim
  | foreign o => exact hx.elim
  | _ => trivial

/-- A scalar that the module writes is written as its canonical text. -/
theorem encAtom_eq_ok_iff (float : FloatRepr) {x : Atom} {t : Text} :
    encAtom x = .ok t ↔ JcsAtom x ∧ t = atomText float x := by
  cases x with
  | none => simp [encAtom, JcsAtom, atomText, eq_comm]
  | bool b => cases b <;> simp [encAtom, JcsAtom, atomText, eq_comm]
  | int i =>
      rw [encAtom]
      split_ifs with hlong
      · simp [JcsAtom, hlong]
      · simp [JcsAtom, not_le.mp hlong, atomText, eq_comm]
  | float value => simp [encAtom, JcsAtom]
  | str s => simp [encAtom, JcsAtom, atomText, dumpsString_eq_quoted, eq_comm]
  | foreign o =>
      simp only [encAtom, JcsAtom, false_and, iff_false]
      cases o.typeName <;> simp

/-- The sort key of a plain text is its UTF-16. -/
theorem sortKey_eq_ok_iff {key : Key} {bytes : Bytes} :
    sortKey key = .ok bytes ↔ PlainKey key ∧ utf16BigEndian (keyText key) = bytes := by
  cases key with
  | str s =>
      rw [sortKey, PlainKey, keyText]
      split_ifs with hs <;> simp [hs]
  | foreign o => simp [sortKey, PlainKey]

theorem forall₂_and_eq_iff {A B : Type*} {P : A → Prop} {f : A → B} {rows : List A}
    {values : List B} : List.Forall₂ (fun a b => P a ∧ b = f a) rows values ↔
      (∀ a ∈ rows, P a) ∧ values = rows.map f := by
  have hmap : List.Forall₂ (fun a b => b = f a) rows values ↔ values = rows.map f := by
    rw [← List.forall₂_eq_eq_eq, List.forall₂_map_right_iff]
    exact ⟨List.Forall₂.flip, List.Forall₂.flip⟩
  rw [List.forall₂_and_left, hmap]

theorem encList_eq_ok_iff {results : List (Result Text)} {t : Text} :
    encList results = .ok t ↔
      ∃ texts, List.Forall₂ (fun result text => result = .ok text) results texts ∧
        arrayText texts = t := by
  simp only [encList, bind_eq_ok_iff, pure_eq_ok, Except.ok.injEq, mapM_eq_ok_iff, id]

theorem encMember_eq_ok_iff {member : Bytes × Key × Result Text} {t : Text} :
    encMember member = .ok t ↔
      ∃ value, member.2.2 = .ok value ∧ memberText (member.2.1, value) = t := by
  have hcolon : text ":" = [colon] := rfl
  simp [encMember, bind_eq_ok_iff, memberText, dumpsString_eq_quoted, hcolon]

/-- The keys of a dict that can be sorted, and the sorted members. -/
theorem encDict_eq_ok_iff {members : List (Key × Result Text)} {t : Text} :
    encDict members = .ok t ↔ (∀ member ∈ members, PlainKey member.1) ∧
      ∃ texts, List.Forall₂ (fun member text =>
          ∃ value, member.2 = .ok value ∧ memberText (member.1, value) = text)
        (orderedMembers members) texts ∧
        text "\x7b" ++ commaSeparated texts ++ text "\x7d" = t := by
  have hdecorated : ∀ decorated,
      members.mapM (fun member => do return (← sortKey member.1, member)) = .ok decorated ↔
        (∀ member ∈ members, PlainKey member.1) ∧ decorated = members.map fun member =>
          (utf16BigEndian (keyText member.1), member) := by
    intro decorated
    rw [mapM_eq_ok_iff, ← forall₂_and_eq_iff]
    apply iff_of_eq
    congr 1
    funext member row
    simp only [bind_eq_ok_iff, pure_eq_ok, Except.ok.injEq, sortKey_eq_ok_iff, eq_iff_iff]
    constructor
    · rintro ⟨key, ⟨hplain, rfl⟩, rfl⟩
      exact ⟨hplain, rfl⟩
    · rintro ⟨hplain, rfl⟩
      exact ⟨_, ⟨hplain, rfl⟩, rfl⟩
  have hsorted : sortedBy Prod.fst (members.map fun member =>
      (utf16BigEndian (keyText member.1), member)) =
        (orderedMembers members).map fun member =>
          (utf16BigEndian (keyText member.1), member) := by
    rw [orderedMembers]
    exact (map_sortedBy _ _ (fun member : Key × Result Text =>
      (utf16BigEndian (keyText member.1), member)) members fun left _ right _ =>
        (utf16BigEndian_le_iff _ _).symm).symm
  rw [encDict, bind_eq_ok_iff]
  constructor
  · rintro ⟨decorated, hmembers, hrest⟩
    obtain ⟨hplain, rfl⟩ := (hdecorated decorated).mp hmembers
    obtain ⟨texts, htexts, hsum⟩ := bind_eq_ok_iff.mp hrest
    rw [hsorted, mapM_eq_ok_iff, List.forall₂_map_left_iff] at htexts
    simp only [encMember_eq_ok_iff] at htexts
    exact ⟨hplain, texts, htexts, Except.ok.inj hsum⟩
  · rintro ⟨hplain, texts, htexts, hsum⟩
    refine ⟨_, (hdecorated _).mpr ⟨hplain, rfl⟩, bind_eq_ok_iff.mpr ⟨texts, ?_, ?_⟩⟩
    · rw [hsorted, mapM_eq_ok_iff, List.forall₂_map_left_iff]
      simpa only [encMember_eq_ok_iff] using htexts
    · rw [hsum]
      rfl

/-- What `enc` takes, and what it writes. -/
theorem enc_eq_ok_iff (float : FloatRepr) {v : PyValue} {t : Text} :
    enc v = .ok t ↔ v.Admits JcsAtom PlainKey ∧ t = canonicalText float v := by
  induction v using Tree.induct generalizing t with
  | leaf x => rw [enc_leaf, Tree.admits_leaf, canonicalText_leaf, encAtom_eq_ok_iff]
  | list items ih =>
      rw [enc_list, encList_eq_ok_iff, Tree.admits_list, canonicalText_list]
      have hitems : ∀ texts, List.Forall₂ (fun result text => result = .ok text)
          (items.map enc) texts ↔ (∀ item ∈ items, item.Admits JcsAtom PlainKey) ∧
            texts = items.map (canonicalText float) := by
        intro texts
        rw [List.forall₂_map_left_iff, ← forall₂_and_eq_iff]
        constructor <;> intro hall
        · exact forall₂_imp_of_mem hall fun item hitem _ _ htext => (ih item hitem).mp htext
        · exact forall₂_imp_of_mem hall fun item hitem _ _ htext => (ih item hitem).mpr htext
      simp only [hitems]
      constructor
      · rintro ⟨_, ⟨hall, rfl⟩, rfl⟩
        exact ⟨hall, rfl⟩
      · rintro ⟨hall, rfl⟩
        exact ⟨_, ⟨hall, rfl⟩, rfl⟩
  | dict members ih =>
      rw [enc_dict, encDict_eq_ok_iff, Tree.admits_dict, canonicalText_dict, objectText,
        ← orderedMembers, orderedMembers_map, orderedMembers_map, List.map_map]
      have hbraces : ∀ texts, text "\x7b" ++ commaSeparated texts ++ text "\x7d" =
          leftBrace :: (commaSeparated texts ++ [rightBrace]) := fun _ => rfl
      have hrows : ∀ texts, List.Forall₂ (fun member text =>
          ∃ value, member.2 = .ok value ∧ memberText (member.1, value) = text)
            ((orderedMembers members).map fun member => (member.1, enc member.2)) texts ↔
          (∀ member ∈ orderedMembers members, member.2.Admits JcsAtom PlainKey) ∧
            texts = (orderedMembers members).map fun member =>
              memberText (member.1, canonicalText float member.2) := by
        intro texts
        rw [List.forall₂_map_left_iff, ← forall₂_and_eq_iff]
        constructor <;> intro hall
        · refine forall₂_imp_of_mem hall fun member hmember _ _ htext => ?_
          obtain ⟨value, hvalue, rfl⟩ := htext
          obtain ⟨hadmits, rfl⟩ := (ih member (mem_orderedMembers.mp hmember)).mp hvalue
          exact ⟨hadmits, rfl⟩
        · refine forall₂_imp_of_mem hall fun member hmember _ _ htext => ?_
          exact ⟨_, (ih member (mem_orderedMembers.mp hmember)).mpr ⟨htext.1, rfl⟩,
            htext.2.symm⟩
      simp only [hrows, hbraces, mem_orderedMembers, List.mem_map, forall_exists_index, and_imp,
        forall_apply_eq_imp_iff₂]
      constructor
      · rintro ⟨hplain, _, ⟨hall, rfl⟩, rfl⟩
        exact ⟨fun member hmember => ⟨hplain member hmember, hall member hmember⟩, rfl⟩
      · rintro ⟨hall, rfl⟩
        exact ⟨fun member hmember => (hall member hmember).1, _,
          ⟨fun member hmember => (hall member hmember).2, rfl⟩, rfl⟩

/-! ## The bytes of a text -/

/-- No float anywhere in the tree. -/
def FloatFree (v : PyValue) : Prop :=
  v.Admits (fun x => ∀ value, x ≠ .float value) fun _ => True

/-- The bytes are those of the canonical text, where this can be encoded. -/
theorem jcs_eq_ok_iff (float : FloatRepr) {v : PyValue} {bytes : Bytes} :
    jcs v = .ok bytes ↔ v.Admits JcsAtom PlainKey ∧ Encodable (canonicalText float v) ∧
      utf8 (canonicalText float v) = bytes := by
  simp only [jcs, bind_eq_ok_iff, enc_eq_ok_iff float, encodeUtf8]
  constructor
  · rintro ⟨_, ⟨hadmits, rfl⟩, hbytes⟩
    split_ifs at hbytes with hencodable
    exact ⟨hadmits, hencodable, Except.ok.inj hbytes⟩
  · rintro ⟨hadmits, hencodable, hbytes⟩
    exact ⟨_, ⟨hadmits, rfl⟩, by rw [if_pos hencodable, hbytes]⟩

/-- A safe integer is short enough to be written. -/
theorem jcsAtom_of_supported {x : Atom} (hx : SupportedAtom x)
    (hfloat : ∀ value, x ≠ .float value) : JcsAtom x := by
  cases x with
  | int value =>
      have hsafe : value.natAbs ≤ maxSafeInteger := hx
      have hshort : maxSafeInteger < 10 ^ 16 := by decide
      have hlong : (10 : ℕ) ^ 16 ≤ 10 ^ maxStrDigits :=
        Nat.pow_le_pow_right (by norm_num) (by decide)
      exact lt_of_le_of_lt hsafe (lt_of_lt_of_le hshort hlong)
  | float value => exact absurd rfl (hfloat value)
  | foreign o => exact hx.elim
  | _ => trivial

/-- Without floats the bytes are those of the canonical text. -/
theorem jcs_of_supported (float : FloatRepr) {v : PyValue} (hv : Supported v)
    (hfree : FloatFree v) : jcs v = .ok (utf8 (canonicalText float v)) := by
  have hadmits : v.Admits JcsAtom PlainKey := (Tree.admits_and.mpr ⟨hv, hfree⟩).imp
    (fun _ hx => jcsAtom_of_supported hx.1 hx.2) fun _ hk => hk.1
  exact (jcs_eq_ok_iff float).mpr ⟨hadmits, encodable_canonicalText float hv, rfl⟩

/-- The reference encoder writes what the package's encoder does. -/
theorem jcs_of_canonicalize (float : FloatRepr) {A : Type} [DecidableEq A] {h : Heap A}
    {root : Ref A} {v : PyValue} {literal : Text} (hfloat : FloatFree v)
    (hunfolds : Unfolds h root v) (hcanonical : canonicalize float h root = .ok literal) :
    jcs v = .ok (utf8 literal) := by
  obtain ⟨w, hw, -, hsupported, rfl⟩ := canonicalize_eq_ok_iff.mp hcanonical
  rw [← hunfolds.unique hw] at hsupported ⊢
  exact jcs_of_supported float hsupported hfloat

/-! ## What the bytes bind -/

theorem integerLiteral_injective : Function.Injective integerLiteral := by
  intro i j heq
  have hsign : decide (i < 0) = decide (j < 0) := congrArg JsonNumber.NumberLiteral.negative heq
  have hdigits : Decimal.decimalText i.natAbs = Decimal.decimalText j.natAbs :=
    congrArg JsonNumber.NumberLiteral.integer heq
  have hmagnitude : i.natAbs = j.natAbs := Decimal.decimalText_injective hdigits
  rw [decide_eq_decide] at hsign
  omega

/-- Scalars of one text are one exact value. -/
theorem exactAtom_of_scalar_eq (float : FloatRepr) {x y : Atom} (hx : JcsAtom x)
    (hy : JcsAtom y) (heq : canonicalScalar float x = canonicalScalar float y) :
    exactAtom x = exactAtom y := by
  cases x with
  | float value => exact hx.elim
  | foreign o => exact hx.elim
  | int i =>
      cases y with
      | float value => exact hy.elim
      | foreign o => exact hy.elim
      | int j => rw [integerLiteral_injective (Scalar.number.inj heq)]
      | _ => cases heq
  | _ =>
      cases y with
      | float value => exact hy.elim
      | foreign o => exact hy.elim
      | _ => cases heq <;> rfl

/-- The order of the members of a dict is not part of its value. -/
theorem exactValue_dict_of_perm {left right : List (Key × PyValue)}
    (hperm : left.Perm right) (hnodup : (left.map Prod.fst).Nodup)
    (hkeys : ∀ row ∈ left, StrKey row.1) :
    exactValue (.dict left) = exactValue (.dict right) := by
  rw [exactValue_dict, exactValue_dict]
  congr 1
  funext name
  rw [lookupKey_map, lookupKey_map]
  congr 1
  ext w
  have hname : StrKey (.str name) := trivial
  rw [lookupKey_eq_some_iff hnodup hkeys hname,
    lookupKey_eq_some_iff ((hperm.map Prod.fst).nodup_iff.mp hnodup)
      (fun row hrow => hkeys row (hperm.mem_iff.mpr hrow)) hname, hperm.mem_iff]

theorem strKey_of_plainKey {key : Key} (hkey : PlainKey key) : StrKey key := by
  cases key with
  | str s => trivial
  | foreign o => exact hkey.elim

/-- The order of the members is no part of the value. -/
theorem exactValue_orderedMembers {members : List (Key × PyValue)}
    (hnodup : (members.map Prod.fst).Nodup) (hkeys : ∀ row ∈ members, PlainKey row.1) :
    exactValue (.dict (orderedMembers members)) = exactValue (.dict members) := by
  have hperm : (orderedMembers members).Perm members := sortedBy_perm _ _
  exact exactValue_dict_of_perm hperm ((hperm.map Prod.fst).nodup_iff.mpr hnodup)
    fun row hrow => strKey_of_plainKey (hkeys row (hperm.mem_iff.mp hrow))

/-- Trees with one JSON document are one value. -/
theorem exactValue_of_document_eq (float : FloatRepr) {v w : PyValue}
    (hv : v.Admits JcsAtom PlainKey) (hw : w.Admits JcsAtom PlainKey)
    (hvf : v.WellFormed) (hwf : w.WellFormed)
    (heq : canonicalDocument float v = canonicalDocument float w) :
    exactValue v = exactValue w := by
  induction v using Tree.induct generalizing w with
  | leaf x =>
      cases w with
      | leaf y =>
          rw [canonicalDocument_leaf, canonicalDocument_leaf, Tree.leaf.injEq] at heq
          rw [exactValue_leaf, exactValue_leaf, exactAtom_of_scalar_eq float
            ((Tree.admits_leaf x).mp hv) ((Tree.admits_leaf y).mp hw) heq]
      | list items => simp at heq
      | dict members => simp [canonicalDocument_dict] at heq
  | list items ih =>
      cases w with
      | leaf y => simp at heq
      | dict members => simp [canonicalDocument_dict] at heq
      | list items' =>
          rw [Tree.admits_list] at hv hw
          rw [Tree.wellFormed_list] at hvf hwf
          rw [canonicalDocument_list, canonicalDocument_list, Tree.list.injEq,
            map_eq_map_iff_forall₂] at heq
          rw [exactValue_list, exactValue_list, ExactValue.list.injEq, map_eq_map_iff_forall₂]
          exact forall₂_imp_of_mem heq fun item hitem item' hitem' hsame =>
            ih item hitem (hv item hitem) (hw item' hitem') (hvf item hitem)
              (hwf item' hitem') hsame
  | dict members ih =>
      cases w with
      | leaf y => simp [canonicalDocument_dict] at heq
      | list items => simp [canonicalDocument_dict] at heq
      | dict members' =>
          rw [Tree.admits_dict] at hv hw
          rw [Tree.wellFormed_dict] at hvf hwf
          rw [canonicalDocument_dict, canonicalDocument_dict, Tree.dict.injEq,
            map_eq_map_iff_forall₂] at heq
          have hrows : ((orderedMembers members).map fun row => (row.1, exactValue row.2)) =
              (orderedMembers members').map fun row => (row.1, exactValue row.2) := by
            rw [map_eq_map_iff_forall₂]
            refine forall₂_imp_of_mem heq fun row hrow row' hrow' hsame => ?_
            have hmem := mem_orderedMembers.mp hrow
            have hmem' := mem_orderedMembers.mp hrow'
            obtain ⟨hkey, hvalue⟩ := Prod.mk.inj hsame
            exact Prod.ext (keyText_injOn (hv row hmem).1 (hw row' hmem').1 hkey)
              (ih row hmem (hv row hmem).2 (hw row' hmem').2 (hvf.2 row hmem)
                (hwf.2 row' hmem') hvalue)
          rw [← exactValue_orderedMembers hvf.1 fun row hrow => (hv row hrow).1,
            ← exactValue_orderedMembers hwf.1 fun row hrow => (hw row hrow).1,
            exactValue_dict, exactValue_dict, hrows]

/-- Values with the same bytes are the same typed value. -/
theorem jcs_injective {v w : PyValue} {bytes : Bytes} (hvf : v.WellFormed) (hwf : w.WellFormed)
    (hv : jcs v = .ok bytes) (hw : jcs w = .ok bytes) : exactValue v = exactValue w := by
  obtain ⟨hadmits, -, hbytes⟩ := (jcs_eq_ok_iff .fewestDigits).mp hv
  obtain ⟨hadmits', -, hbytes'⟩ := (jcs_eq_ok_iff .fewestDigits).mp hw
  have htext : canonicalText .fewestDigits v = canonicalText .fewestDigits w :=
    utf8_injective (hbytes.trans hbytes'.symm)
  have hread : ∀ {u : PyValue}, u.Admits JcsAtom PlainKey →
      parse (canonicalText .fewestDigits u) = some (canonicalDocument .fewestDigits u) := by
    intro u hu
    rw [← compact_of_written .fewestDigits (hu.imp (fun _ hx => hx.written) fun _ hk => hk)]
    exact parse_compact readsBack_encodeCharacter _
  have hdocument := hread hadmits
  rw [htext, hread hadmits', Option.some.injEq] at hdocument
  exact exactValue_of_document_eq .fewestDigits hadmits hadmits' hvf hwf hdocument.symm

/-! ## The bound contexts -/

/-- A value of the interpreter: no dict in it has a key twice. -/
abbrev Value := {v : PyValue // v.WellFormed}

/-- Equality of typed values: `1`, `True` and `"1"` are three, and the members of a dict have
no order. -/
def Value.Same (v w : Value) : Prop :=
  exactValue v.val = exactValue w.val

theorem Value.same_leaf {x y : Atom} {hx : (Tree.leaf x : PyValue).WellFormed}
    {hy : (Tree.leaf y : PyValue).WellFormed} (hfloat : ∀ value, x ≠ .float value)
    (hfloat' : ∀ value, y ≠ .float value) :
    Value.Same ⟨.leaf x, hx⟩ ⟨.leaf y, hy⟩ ↔ x = y := by
  have hexact : ∀ {z : Atom}, (∀ value, z ≠ .float value) → exactAtom z = z := by
    intro z hz
    cases z with
    | float value => exact absurd rfl (hz value)
    | _ => rfl
  simp only [Value.Same, exactValue_leaf, ExactValue.leaf.injEq, hexact hfloat, hexact hfloat']

def labelVersion : PyValue := .leaf (.int 1)

/-- The arguments of `label_aad`. -/
structure LabelContext where
  tenantRef : Value
  projectRef : Value
  purpose : Value
  objectRef : Value
  keyEpoch : Value
  revision : Value

/-- What the associated data of a label are. -/
def labelRecord (context : LabelContext) : PyValue :=
  .object [
    ("schema_version", labelVersion),
    ("tenant_ref", context.tenantRef),
    ("project_ref", context.projectRef),
    ("purpose", context.purpose),
    ("object_ref", context.objectRef),
    ("key_epoch", context.keyEpoch),
    ("revision", context.revision)]

def labelAad (context : LabelContext) : Result Bytes :=
  jcs (labelRecord context)

/-- `label_aad`, on the stack of the interpreter. -/
def labelAadWithin (full : StackLimit) (context : LabelContext) : Result Bytes :=
  jcsWithin full (labelRecord context)

/-- The arguments of `member_wrap_info`. -/
structure MemberWrapContext where
  tenantRef : Value
  projectRef : Value
  epoch : Value
  recipientKeyId : Value

def memberWrapInfo (context : MemberWrapContext) : Result Bytes :=
  jcs (.object [
    ("tenant_ref", context.tenantRef),
    ("project_ref", context.projectRef),
    ("epoch", context.epoch),
    ("recipient_key_id", context.recipientKeyId),
    ("purpose", .str "member_wrap"),
    ("version", labelVersion)])

/-- The arguments of `recovery_aad`. -/
structure RecoveryContext where
  tenantRef : Value
  projectRef : Value
  epoch : Value
  subject : Value

def recoverySubjects : List PyValue := [.str "root_key", .str "project_key"]

def recoveryAad (context : RecoveryContext) : Result Bytes := do
  require (recoverySubjects.any fun subject => pyEq subject context.subject)
    "unknown recovery wrap subject"
  jcs (.object [
    ("tenant_ref", context.tenantRef),
    ("project_ref", context.projectRef),
    ("epoch", context.epoch),
    ("subject", context.subject),
    ("purpose", .str "recovery_wrap"),
    ("version", labelVersion)])

/-- The arguments of `local_aad`. -/
structure LocalContext where
  tenantRef : Value
  memberKeyId : Value

def localAad (context : LocalContext) : Result Bytes :=
  jcs (.object [
    ("tenant_ref", context.tenantRef),
    ("member_key_id", context.memberKeyId),
    ("purpose", .str "local_member_key"),
    ("version", labelVersion)])

/-- What `sign_body` signs. -/
def bindingMessage (body : Value) : Result Bytes := do
  return bindingDomain ++ (← jcs body)

theorem wellFormed_object {rows : List (String × PyValue)} (hnodup : (rows.map Prod.fst).Nodup)
    (hrows : ∀ row ∈ rows, row.2.WellFormed) : (PyValue.object rows).WellFormed := by
  apply (Tree.wellFormed_dict _).mpr
  constructor
  · have hkeys : (rows.map fun row => ((Key.str (text row.1), row.2) : Key × PyValue)).map
        Prod.fst = (rows.map Prod.fst).map fun name => Key.str (text name) := by
      simp
    rw [hkeys]
    exact hnodup.map fun left right heq => text_injective (Key.str.inj heq)
  · intro member hmember
    obtain ⟨row, hrow, rfl⟩ := List.mem_map.mp hmember
    exact hrows row hrow

theorem lookupKey_object (rows : List (String × PyValue)) (name : String) :
    lookupKey (rows.map fun row => ((Key.str (text row.1), exactValue row.2) : Key × ExactValue))
      (.str (text name)) = (rows.lookup name).map exactValue := by
  induction rows with
  | nil => rfl
  | cons row rows ih =>
      rw [lookupKey] at ih ⊢
      rw [List.map_cons, List.find?_cons, List.lookup_cons]
      by_cases hname : name = row.1
      · simp [keyEq, hname]
      · have hkey : keyEq (.str (text name)) (.str (text row.1)) = false := by
          simpa [keyEq] using hname
        have hskip : (name == row.1) = false := by simpa using hname
        rw [hkey, hskip]
        exact ih

/-- Two records with the same bytes have the same value under every name. -/
theorem jcs_object_injective {rows rows' : List (String × PyValue)} {bytes : Bytes}
    (hnodup : (rows.map Prod.fst).Nodup) (hnodup' : (rows'.map Prod.fst).Nodup)
    (hrows : ∀ row ∈ rows, row.2.WellFormed) (hrows' : ∀ row ∈ rows', row.2.WellFormed)
    (heq : jcs (.object rows) = .ok bytes) (heq' : jcs (.object rows') = .ok bytes)
    (name : String) :
    (rows.lookup name).map exactValue = (rows'.lookup name).map exactValue := by
  have hsame := jcs_injective (wellFormed_object hnodup hrows) (wellFormed_object hnodup' hrows')
    heq heq'
  rw [PyValue.object, PyValue.object, exactValue_dict, exactValue_dict, ExactValue.dict.injEq,
    List.map_map, List.map_map] at hsame
  rw [← lookupKey_object, ← lookupKey_object]
  exact congrFun hsame (text name)

/-- Names are plain keys, so that a record is written when its values are. -/
theorem exists_jcs_object {rows : List (String × PyValue)}
    (hrows : ∀ row ∈ rows, Supported row.2 ∧ FloatFree row.2) :
    ∃ bytes, jcs (.object rows) = .ok bytes := by
  refine ⟨_, jcs_of_supported .fewestDigits ?_ ?_⟩
  · rw [PyValue.object, Supported, Tree.admits_dict]
    intro member hmember
    obtain ⟨row, hrow, rfl⟩ := List.mem_map.mp hmember
    exact ⟨encodable_text row.1, (hrows row hrow).1⟩
  · rw [PyValue.object, FloatFree, Tree.admits_dict]
    intro member hmember
    obtain ⟨row, hrow, rfl⟩ := List.mem_map.mp hmember
    exact ⟨trivial, (hrows row hrow).2⟩

theorem written_str (literal : String) :
    Supported (PyValue.str literal) ∧ FloatFree (PyValue.str literal) := by
  simp [PyValue.str, Supported, FloatFree, SupportedAtom, encodable_text]

theorem written_labelVersion : Supported labelVersion ∧ FloatFree labelVersion := by
  simp [labelVersion, Supported, FloatFree, SupportedAtom, maxSafeInteger]

/-- A value the package canonicalizes, with no float in it. -/
def Value.Written (v : Value) : Prop :=
  Supported v.val ∧ FloatFree v.val

section Contexts

variable {bytes : Bytes}

/-- Equal associated data come from the same label context. -/
theorem labelAad_injective {context context' : LabelContext}
    (heq : labelAad context = .ok bytes) (heq' : labelAad context' = .ok bytes) :
    context.tenantRef.Same context'.tenantRef ∧ context.projectRef.Same context'.projectRef ∧
      context.purpose.Same context'.purpose ∧ context.objectRef.Same context'.objectRef ∧
      context.keyEpoch.Same context'.keyEpoch ∧ context.revision.Same context'.revision := by
  have hvalue := jcs_object_injective (by simp) (by simp)
    (by simp [labelVersion, Subtype.prop]) (by simp [labelVersion, Subtype.prop]) heq heq'
  exact ⟨Option.some.inj (hvalue "tenant_ref"), Option.some.inj (hvalue "project_ref"),
    Option.some.inj (hvalue "purpose"), Option.some.inj (hvalue "object_ref"),
    Option.some.inj (hvalue "key_epoch"), Option.some.inj (hvalue "revision")⟩

/-- The stack cuts the data off or leaves them as they are. -/
theorem labelAad_of_within {full : StackLimit} {context : LabelContext}
    (heq : labelAadWithin full context = .ok bytes) : labelAad context = .ok bytes :=
  (cutOff_jcsWithin full _).eq_ok heq

theorem memberWrapInfo_injective {context context' : MemberWrapContext}
    (heq : memberWrapInfo context = .ok bytes) (heq' : memberWrapInfo context' = .ok bytes) :
    context.tenantRef.Same context'.tenantRef ∧ context.projectRef.Same context'.projectRef ∧
      context.epoch.Same context'.epoch ∧
      context.recipientKeyId.Same context'.recipientKeyId := by
  have hvalue := jcs_object_injective (by simp) (by simp)
    (by simp [labelVersion, PyValue.str, Subtype.prop])
    (by simp [labelVersion, PyValue.str, Subtype.prop]) heq heq'
  exact ⟨Option.some.inj (hvalue "tenant_ref"), Option.some.inj (hvalue "project_ref"),
    Option.some.inj (hvalue "epoch"), Option.some.inj (hvalue "recipient_key_id")⟩

theorem recoveryAad_injective {context context' : RecoveryContext}
    (heq : recoveryAad context = .ok bytes) (heq' : recoveryAad context' = .ok bytes) :
    context.tenantRef.Same context'.tenantRef ∧ context.projectRef.Same context'.projectRef ∧
      context.epoch.Same context'.epoch ∧ context.subject.Same context'.subject := by
  obtain ⟨-, hbytes⟩ := unit_bind_eq_ok_iff.mp heq
  obtain ⟨-, hbytes'⟩ := unit_bind_eq_ok_iff.mp heq'
  have hvalue := jcs_object_injective (by simp) (by simp)
    (by simp [labelVersion, PyValue.str, Subtype.prop])
    (by simp [labelVersion, PyValue.str, Subtype.prop]) hbytes hbytes'
  exact ⟨Option.some.inj (hvalue "tenant_ref"), Option.some.inj (hvalue "project_ref"),
    Option.some.inj (hvalue "epoch"), Option.some.inj (hvalue "subject")⟩

theorem localAad_injective {context context' : LocalContext}
    (heq : localAad context = .ok bytes) (heq' : localAad context' = .ok bytes) :
    context.tenantRef.Same context'.tenantRef ∧
      context.memberKeyId.Same context'.memberKeyId := by
  have hvalue := jcs_object_injective (by simp) (by simp)
    (by simp [labelVersion, PyValue.str, Subtype.prop])
    (by simp [labelVersion, PyValue.str, Subtype.prop]) heq heq'
  exact ⟨Option.some.inj (hvalue "tenant_ref"), Option.some.inj (hvalue "member_key_id")⟩

/-- Equal messages come from the same binding. -/
theorem bindingMessage_injective {body body' : Value}
    (heq : bindingMessage body = .ok bytes) (heq' : bindingMessage body' = .ok bytes) :
    body.Same body' := by
  obtain ⟨message, hmessage, hbytes⟩ := bind_eq_ok_iff.mp heq
  obtain ⟨message', hmessage', hbytes'⟩ := bind_eq_ok_iff.mp heq'
  have hsame : bindingDomain ++ message = bindingDomain ++ message' :=
    (Except.ok.inj hbytes).trans (Except.ok.inj hbytes').symm
  rw [List.append_cancel_left hsame] at hmessage
  exact jcs_injective body.property body'.property hmessage hmessage'

end Contexts

/-- Contexts of values that can be written have bytes, of all five kinds. -/
theorem contexts_written :
    (∀ context : LabelContext, (∀ v ∈ [context.tenantRef, context.projectRef, context.purpose,
      context.objectRef, context.keyEpoch, context.revision], v.Written) →
      ∃ bytes, labelAad context = .ok bytes) ∧
    (∀ context : MemberWrapContext, (∀ v ∈ [context.tenantRef, context.projectRef, context.epoch,
      context.recipientKeyId], v.Written) → ∃ bytes, memberWrapInfo context = .ok bytes) ∧
    (∀ context : RecoveryContext, (∀ v ∈ [context.tenantRef, context.projectRef, context.epoch],
      v.Written) → context.subject.val ∈ recoverySubjects →
      ∃ bytes, recoveryAad context = .ok bytes) ∧
    (∀ context : LocalContext, (∀ v ∈ [context.tenantRef, context.memberKeyId], v.Written) →
      ∃ bytes, localAad context = .ok bytes) ∧
    ∀ body : Value, body.Written → ∃ bytes, bindingMessage body = .ok bytes := by
  refine ⟨fun context hwritten => ?_, fun context hwritten => ?_,
    fun context hwritten hsubject => ?_, fun context hwritten => ?_, fun body hwritten => ?_⟩
  · rw [labelAad, labelRecord]
    apply exists_jcs_object
    simp only [List.forall_mem_cons] at hwritten ⊢
    exact ⟨written_labelVersion, hwritten.1, hwritten.2.1, hwritten.2.2.1, hwritten.2.2.2.1,
      hwritten.2.2.2.2.1, hwritten.2.2.2.2.2.1, by simp⟩
  · rw [memberWrapInfo]
    apply exists_jcs_object
    simp only [List.forall_mem_cons] at hwritten ⊢
    exact ⟨hwritten.1, hwritten.2.1, hwritten.2.2.1, hwritten.2.2.2.1, written_str _,
      written_labelVersion, by simp⟩
  · have hknown : (recoverySubjects.any fun subject => pyEq subject context.subject) = true := by
      rw [List.any_eq_true]
      refine ⟨_, hsubject, ?_⟩
      rcases List.mem_pair.mp hsubject with heq | heq <;> rw [heq] <;> exact pyEq_str_right.mpr rfl
    have hwrittenSubject : context.subject.Written := by
      rcases List.mem_pair.mp hsubject with heq | heq <;> rw [Value.Written, heq] <;>
        exact written_str _
    rw [recoveryAad, hknown]
    apply exists_jcs_object
    simp only [List.forall_mem_cons] at hwritten ⊢
    exact ⟨hwritten.1, hwritten.2.1, hwritten.2.2.1, hwrittenSubject, written_str _,
      written_labelVersion, by simp⟩
  · rw [localAad]
    apply exists_jcs_object
    simp only [List.forall_mem_cons] at hwritten ⊢
    exact ⟨hwritten.1, hwritten.2.1, written_str _, written_labelVersion, by simp⟩
  · rw [bindingMessage, jcs_of_supported .fewestDigits hwritten.1 hwritten.2]
    exact ⟨_, rfl⟩

/-- The two canonicalizers agree on every value without floats that the package's takes, and
every context the reference binds can be told from its bytes. -/
theorem canonicalizers_agree (float : FloatRepr) :
    (∀ (A : Type) [DecidableEq A] (h : Heap A) (root : Ref A) (v : PyValue) (literal : Text),
      FloatFree v → Unfolds h root v → canonicalize float h root = .ok literal →
        jcs v = .ok (utf8 literal)) ∧
    (∀ context context' bytes, labelAad context = .ok bytes → labelAad context' = .ok bytes →
      context.tenantRef.Same context'.tenantRef ∧ context.projectRef.Same context'.projectRef ∧
        context.purpose.Same context'.purpose ∧ context.objectRef.Same context'.objectRef ∧
        context.keyEpoch.Same context'.keyEpoch ∧ context.revision.Same context'.revision) ∧
    (∀ context context' bytes, memberWrapInfo context = .ok bytes →
      memberWrapInfo context' = .ok bytes →
      context.tenantRef.Same context'.tenantRef ∧ context.projectRef.Same context'.projectRef ∧
        context.epoch.Same context'.epoch ∧
        context.recipientKeyId.Same context'.recipientKeyId) ∧
    (∀ context context' bytes, recoveryAad context = .ok bytes →
      recoveryAad context' = .ok bytes →
      context.tenantRef.Same context'.tenantRef ∧ context.projectRef.Same context'.projectRef ∧
        context.epoch.Same context'.epoch ∧ context.subject.Same context'.subject) ∧
    (∀ context context' bytes, localAad context = .ok bytes → localAad context' = .ok bytes →
      context.tenantRef.Same context'.tenantRef ∧
        context.memberKeyId.Same context'.memberKeyId) ∧
    (∀ body body' bytes, bindingMessage body = .ok bytes → bindingMessage body' = .ok bytes →
      body.Same body') :=
  ⟨fun _ _ _ _ _ _ => jcs_of_canonicalize float, fun _ _ _ => labelAad_injective,
    fun _ _ _ => memberWrapInfo_injective, fun _ _ _ => recoveryAad_injective,
    fun _ _ _ => localAad_injective, fun _ _ _ => bindingMessage_injective⟩

def strArgument (literal : String) : Value :=
  ⟨.str literal, by simp [PyValue.str]⟩

def leafArgument (x : Atom) : Value :=
  ⟨.leaf x, Tree.wellFormed_leaf x⟩

/-- The context of a label in the first revision, with an epoch still to be given. -/
def firstRevision (epoch : Atom) : LabelContext where
  tenantRef := strArgument "t1"
  projectRef := strArgument "p1"
  purpose := strArgument "experiment_name"
  objectRef := strArgument "e1"
  keyEpoch := leafArgument epoch
  revision := leafArgument (.int 1)

/-- An astral character is written as it is, and the epochs `1` and `True` are told apart. -/
theorem canonicalizers_agree_astral :
    jcs (.str "\n\x7f🔒") = .ok (utf8 (text "\"\\n\x7f🔒\"")) ∧
      ∃ bytes, labelAad (firstRevision (.int 1)) = .ok bytes ∧
        labelAad (firstRevision (.bool true)) ≠ .ok bytes := by
  obtain ⟨hagree, hlabel, -⟩ := canonicalizers_agree .fewestDigits
  refine ⟨?_, ?_⟩
  · apply hagree Empty emptyHeap (.atom (.str (text "\n\x7f🔒"))) _ _
    · simp [FloatFree, PyValue.str]
    · simp [PyValue.str]
    · exact canonicalize_of_unfolds (v := .str "\n\x7f🔒") (by simp [PyValue.str])
        (by simp [PyValue.str]) (encodable_text _)
  · obtain ⟨bytes, hbytes⟩ : ∃ bytes, labelAad (firstRevision (.int 1)) = .ok bytes := by
      apply contexts_written.1
      simp [Value.Written, Supported, FloatFree, SupportedAtom, strArgument, leafArgument,
        firstRevision, PyValue.str, maxSafeInteger, encodable_text]
    refine ⟨bytes, hbytes, fun hother => ?_⟩
    have hsame := (hlabel _ _ _ hbytes hother).2.2.2.2.1
    cases (Value.same_leaf (by simp) (by simp)).mp hsame

end TraigentSchema.LabelsReference
