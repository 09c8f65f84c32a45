import TraigentSchema.Fp2.Acceptance
import TraigentSchema.Fp2.Document
import TraigentSchema.Library.JsonReading

/-!
# The canonical text determines the JSON value

Reading a canonical text gives the JSON value of the tree that was encoded, so
two trees share a text only if they are one JSON value; and trees that are one
JSON value, whatever their number types and the order of their members, share
their text.
-/

namespace TraigentSchema.Fp2

open TraigentSchema.Unicode
open TraigentSchema.Binary64
open TraigentSchema.JsonReading
open TraigentSchema.JsonText (commaSeparated)
open TraigentSchema.Python
open TraigentSchema.SortedBy
open TraigentSchema.Traverse

def floatValue (negative : Bool) (m : Magnitude) : ℚ :=
  if negative then -m.value else m.value

/-- The JSON value of a scalar; only the supported ones have one. -/
def jsonAtom : Atom → JsonValue
  | .none => .null
  | .bool b => .bool b
  | .int value => .num value
  | .float (.finite negative m) => .num (floatValue negative m)
  | .float _ => .null
  | .str s => .str s
  | .foreign _ => .null

/-- The JSON value of a supported tree. -/
def jsonValue : PyValue → JsonValue :=
  Tree.fold jsonAtom .arr
    (fun members => objectValue (members.map fun member => (keyText member.1, member.2)))

@[simp]
theorem jsonValue_leaf (x : Atom) : jsonValue (.leaf x) = jsonAtom x := by
  simp [jsonValue]

@[simp]
theorem jsonValue_list (items : List PyValue) :
    jsonValue (.list items) = .arr (items.map jsonValue) := by
  simp [jsonValue]

/-- The members of a dict as members of a JSON object. -/
def jsonMembers (members : List (Key × PyValue)) : List (Text × JsonValue) :=
  members.map fun member => (keyText member.1, jsonValue member.2)

theorem jsonValue_dict (members : List (Key × PyValue)) :
    jsonValue (.dict members) = objectValue (jsonMembers members) := by
  rw [jsonValue, Tree.fold_dict, List.map_map]
  rfl

/-! ## Reading back -/

theorem keyText_injOn {left right : Key} (hleft : PlainKey left) (hright : PlainKey right)
    (heq : keyText left = keyText right) : left = right :=
  plainKey_injOn hleft hright (congrArg utf16BigEndian heq)

theorem nodup_jsonMembers {members : List (Key × PyValue)}
    (hnodup : (members.map Prod.fst).Nodup)
    (hplain : ∀ member ∈ members, PlainKey member.1) :
    ((jsonMembers members).map Prod.fst).Nodup := by
  have hmap : (jsonMembers members).map Prod.fst =
      (members.map Prod.fst).map keyText := by
    simp [jsonMembers]
  rw [hmap]
  refine hnodup.map_on fun left hleft right hright heq => ?_
  obtain ⟨member, hmember, rfl⟩ := List.mem_map.mp hleft
  obtain ⟨member', hmember', rfl⟩ := List.mem_map.mp hright
  exact keyText_injOn (hplain member hmember) (hplain member' hmember') heq

theorem numberValue_integerLiteral {value : ℤ} (hsafe : value.natAbs ≤ maxSafeInteger) :
    numberValue (integerLiteral value) = some (.num value) := by
  have hbound : value.natAbs ≤ 2 ^ 53 := by
    unfold maxSafeInteger at hsafe
    omega
  obtain ⟨m, hm⟩ := exists_magnitude_natCast hbound
  have hnearest : nearest (integerLiteral value).magnitude = some m := by
    rw [integerLiteral_magnitude, ← hm, nearest_value]
  rw [numberValue, hnearest, Option.map_some, hm]
  congr 2
  by_cases hneg : value < 0
  · simp [integerLiteral, hneg, Nat.cast_natAbs, abs_of_neg]
  · simp [integerLiteral, hneg, Nat.cast_natAbs, abs_of_nonneg (not_lt.mp hneg)]

theorem numberValue_floatLiteral (float : FloatRepr) (negative : Bool) (m : Magnitude) :
    numberValue (floatLiteral float negative m) =
      some (.num (floatValue negative m)) := by
  rw [numberValue, floatLiteral_nearest, Option.map_some]
  by_cases hm : m = .zero
  · subst hm
    simp [floatValue]
  · rw [floatLiteral_negative float hm, floatValue]

theorem scalarValue_canonicalScalar (float : FloatRepr) {x : Atom}
    (hx : SupportedAtom x) : scalarValue (canonicalScalar float x) = some (jsonAtom x) := by
  cases x with
  | none => rfl
  | bool b => rfl
  | int value => exact numberValue_integerLiteral hx
  | float value =>
      cases value with
      | finite negative m => exact numberValue_floatLiteral float negative m
      | nan => exact absurd hx (by simp [SupportedAtom])
      | infinity _ => exact absurd hx (by simp [SupportedAtom])
  | str s => rfl
  | foreign o => exact absurd hx (by simp [SupportedAtom])

theorem objectValue_eq_of_perm {left right : List (Text × JsonValue)}
    (hnodup : (left.map Prod.fst).Nodup) (hperm : left.Perm right) :
    objectValue left = objectValue right :=
  (objectValue_inj hnodup ((hperm.map Prod.fst).nodup_iff.mp hnodup)).mpr
    fun _ => hperm.mem_iff

/-- The canonical document of a tree means the tree's JSON value. -/
theorem reading_canonicalDocument (float : FloatRepr) {v : PyValue} (hv : Supported v)
    (hformed : v.WellFormed) :
    reading (canonicalDocument float v) = some (jsonValue v) := by
  induction v using Tree.induct with
  | leaf x => simpa using scalarValue_canonicalScalar float (by simpa using hv)
  | list items ih =>
      rw [supported_list] at hv
      rw [Tree.wellFormed_list] at hformed
      rw [canonicalDocument_list, jsonValue_list]
      refine reading_list ?_
      rw [List.forall₂_map_left_iff, List.forall₂_map_right_iff, List.forall₂_same]
      exact fun item hitem => ih item hitem (hv item hitem) (hformed item hitem)
  | dict members ih =>
      rw [supported_dict] at hv
      rw [Tree.wellFormed_dict] at hformed
      rw [canonicalDocument_dict, jsonValue_dict]
      have hperm : (orderedMembers members).Perm members := sortedBy_perm _ _
      have hnodup := nodup_jsonMembers hformed.1 fun member hmember => (hv member hmember).1
      have hobject : objectValue (jsonMembers members) =
          objectValue (jsonMembers (orderedMembers members)) :=
        objectValue_eq_of_perm hnodup (hperm.symm.map _)
      rw [hobject]
      refine reading_dict ?_
      unfold jsonMembers
      rw [List.forall₂_map_left_iff, List.forall₂_map_right_iff, List.forall₂_same]
      intro member hmember
      have hmem := mem_orderedMembers.mp hmember
      exact ⟨rfl, ih member hmem (hv member hmem).2 (hformed.2 member hmem)⟩

/-- The canonical text is valid JSON for the value that was encoded. -/
theorem readJson_canonicalText (float : FloatRepr) {v : PyValue} (hv : Supported v)
    (hformed : v.WellFormed) :
    readJson (canonicalText float v) = some (jsonValue v) := by
  rw [readJson, parse_canonicalText float hv]
  exact reading_canonicalDocument float hv hformed

/-! ## One JSON value, one text -/

theorem floatValue_eq_zero_iff {negative : Bool} {m : Magnitude} :
    floatValue negative m = 0 ↔ m = .zero := by
  rw [← m.value_eq_zero_iff, floatValue]
  split_ifs <;> simp

theorem floatValue_injOn {negative negative' : Bool} {m m' : Magnitude}
    (heq : floatValue negative m = floatValue negative' m') (hm : m ≠ .zero) :
    negative = negative' ∧ m = m' := by
  have hpos : 0 < m.value :=
    lt_of_le_of_ne m.value_nonneg fun h => hm (m.value_eq_zero_iff.mp h.symm)
  have hnonneg := m'.value_nonneg
  unfold floatValue at heq
  cases negative <;> cases negative' <;> simp only [Bool.false_eq_true, ↓reduceIte] at heq
  · exact ⟨rfl, Magnitude.value_injective heq⟩
  · linarith
  · linarith
  · exact ⟨rfl, Magnitude.value_injective (neg_injective heq)⟩

/-- A float equal to a safe integer is written as the integer is. -/
theorem ecmascriptNumberToString_of_integer (float : FloatRepr) {negative : Bool}
    {m : Magnitude} {value : ℤ} (hsafe : value.natAbs ≤ maxSafeInteger)
    (heq : floatValue negative m = value) :
    ecmascriptNumberToString float negative m = integerText value := by
  by_cases hm : m = .zero
  · have hzero : value = 0 := by
      rw [floatValue_eq_zero_iff.mpr hm] at heq
      exact_mod_cast heq.symm
    rw [ecmascriptNumberToString, if_pos hm, hzero]
    rfl
  · have hpos : 0 < m.value :=
      lt_of_le_of_ne m.value_nonneg fun h => hm (m.value_eq_zero_iff.mp h.symm)
    have habs : m.value = value.natAbs := by
      rw [Nat.cast_natAbs, Int.cast_abs, ← heq, floatValue]
      split_ifs <;> simp [abs_of_pos hpos]
    have hnatAbs : 0 < value.natAbs := by
      rw [habs] at hpos
      exact_mod_cast hpos
    have hlayout := layoutDigits_shortestDigits float habs hnatAbs hsafe
    have hsign : negative = true ↔ value < 0 := by
      have hcast : (value : ℚ) < 0 ↔ value < 0 := Int.cast_lt_zero
      rw [← hcast, ← heq, floatValue]
      cases negative <;> simp [hpos, hpos.le]
    unfold ecmascriptNumberToString integerText
    rw [if_neg hm]
    simp only [hlayout, hsign]

theorem supportedAtom_cases {x : Atom} (hx : SupportedAtom x) :
    x = .none ∨ (∃ b, x = .bool b) ∨ (∃ s, x = .str s) ∨
      (∃ value : ℤ, x = .int value ∧ value.natAbs ≤ maxSafeInteger) ∨
      ∃ negative m, x = .float (.finite negative m) := by
  cases x with
  | none => exact Or.inl rfl
  | bool b => exact Or.inr (Or.inl ⟨b, rfl⟩)
  | str s => exact Or.inr (Or.inr (Or.inl ⟨s, rfl⟩))
  | int value => exact Or.inr (Or.inr (Or.inr (Or.inl ⟨value, rfl, hx⟩)))
  | float value =>
      cases value with
      | finite negative m => exact Or.inr (Or.inr (Or.inr (Or.inr ⟨negative, m, rfl⟩)))
      | nan => exact absurd hx (by simp [SupportedAtom])
      | infinity _ => exact absurd hx (by simp [SupportedAtom])
  | foreign o => exact absurd hx (by simp [SupportedAtom])

/-- Scalars of one JSON value have one text. -/
theorem atomText_eq_of_jsonAtom_eq (float : FloatRepr) {x y : Atom}
    (hx : SupportedAtom x) (hy : SupportedAtom y) (heq : jsonAtom x = jsonAtom y) :
    atomText float x = atomText float y := by
  rcases supportedAtom_cases hx with
    rfl | ⟨b, rfl⟩ | ⟨s, rfl⟩ | ⟨value, rfl, hsafe⟩ | ⟨negative, m, rfl⟩ <;>
  rcases supportedAtom_cases hy with
    rfl | ⟨b', rfl⟩ | ⟨s', rfl⟩ | ⟨value', rfl, hsafe'⟩ | ⟨negative', m', rfl⟩ <;>
  simp only [jsonAtom, reduceCtorEq, JsonValue.bool.injEq, JsonValue.str.injEq,
    JsonValue.num.injEq, Int.cast_inj] at heq
  · rfl
  · rw [heq]
  · rw [heq]
  · rw [heq]
  · exact (ecmascriptNumberToString_of_integer float hsafe heq.symm).symm
  · exact ecmascriptNumberToString_of_integer float hsafe' heq
  · by_cases hm : m = .zero
    · have hm' : m' = .zero := by
        rw [floatValue_eq_zero_iff.mpr hm] at heq
        exact floatValue_eq_zero_iff.mp heq.symm
      rw [hm, hm']
      rfl
    · obtain ⟨rfl, rfl⟩ := floatValue_injOn heq hm
      rfl

theorem objectText_eq_of_perm {members members' : List (Key × Text)}
    (hperm : members.Perm members') (hnodup : (members.map Prod.fst).Nodup)
    (hplain : ∀ member ∈ members, PlainKey member.1) :
    objectText members = objectText members' := by
  have hsorted := sortedBy_eq_of_perm
    (fun member : Key × Text => utf16 (keyText member.1)) hperm
    fun left hleft right hright heq => by
      have hkey := plainKey_injOn (hplain left hleft) (hplain right hright)
        (congrArg (List.flatMap bigEndian) heq)
      exact List.inj_on_of_nodup_map hnodup hleft hright hkey
  rw [objectText, objectText, hsorted]

theorem jsonAtom_ne_arr (x : Atom) (items : List JsonValue) : jsonAtom x ≠ .arr items := by
  cases x with
  | float value => cases value <;> simp [jsonAtom]
  | _ => simp [jsonAtom]

theorem jsonAtom_ne_objectValue (x : Atom) (members : List (Text × JsonValue)) :
    jsonAtom x ≠ objectValue members := by
  cases x with
  | float value => cases value <;> simp [jsonAtom, objectValue]
  | _ => simp [jsonAtom, objectValue]

/-- A member of one of two equal objects is a member of the other, its value
spelt the same. -/
theorem textMembers_subset (float : FloatRepr) {left right : List (Key × PyValue)}
    (hleft : ∀ member ∈ left, PlainKey member.1)
    (hright : ∀ member ∈ right, PlainKey member.1)
    (hvalues : ∀ member ∈ left, ∀ member' ∈ right,
      jsonValue member.2 = jsonValue member'.2 →
        canonicalText float member.2 = canonicalText float member'.2)
    (hmem : ∀ row ∈ jsonMembers left, row ∈ jsonMembers right) :
    ∀ row ∈ left.map fun member => (member.1, canonicalText float member.2),
      row ∈ right.map fun member => (member.1, canonicalText float member.2) := by
  intro row hrow
  obtain ⟨member, hmember, rfl⟩ := List.mem_map.mp hrow
  obtain ⟨member', hmember', heq⟩ := List.mem_map.mp
    (hmem _ (List.mem_map_of_mem (f := fun member : Key × PyValue =>
      (keyText member.1, jsonValue member.2)) hmember))
  obtain ⟨hkey, hvalue⟩ := Prod.mk.inj heq
  rw [keyText_injOn (hleft member hmember) (hright member' hmember') hkey.symm,
    hvalues member hmember member' hmember' hvalue.symm]
  exact List.mem_map_of_mem hmember'

/-- Trees of one JSON value have one canonical text. -/
theorem canonicalText_eq_of_jsonValue_eq (float : FloatRepr) {v w : PyValue}
    (hv : Supported v) (hw : Supported w) (hvf : v.WellFormed) (hwf : w.WellFormed)
    (heq : jsonValue v = jsonValue w) :
    canonicalText float v = canonicalText float w := by
  induction v using Tree.induct generalizing w with
  | leaf x =>
      cases w with
      | leaf y =>
          simp only [supported_leaf, jsonValue_leaf, canonicalText_leaf] at *
          exact atomText_eq_of_jsonAtom_eq float hv hw heq
      | list items =>
          rw [jsonValue_leaf, jsonValue_list] at heq
          exact absurd heq (jsonAtom_ne_arr x _)
      | dict members =>
          rw [jsonValue_leaf, jsonValue_dict] at heq
          exact absurd heq (jsonAtom_ne_objectValue x _)
  | list items ih =>
      cases w with
      | leaf y =>
          rw [jsonValue_leaf, jsonValue_list] at heq
          exact absurd heq.symm (jsonAtom_ne_arr y _)
      | dict members =>
          rw [jsonValue_list, jsonValue_dict] at heq
          simp [objectValue] at heq
      | list items' =>
          rw [supported_list] at hv hw
          rw [Tree.wellFormed_list] at hvf hwf
          rw [jsonValue_list, jsonValue_list, JsonValue.arr.injEq,
            map_eq_map_iff_forall₂] at heq
          have htexts : items.map (canonicalText float) =
              items'.map (canonicalText float) :=
            map_eq_map_iff_forall₂.mpr (forall₂_imp_of_mem heq
              fun item hitem item' hitem' hvalue => ih item hitem (hv item hitem)
                (hw item' hitem') (hvf item hitem) (hwf item' hitem') hvalue)
          rw [canonicalText_list, canonicalText_list, htexts]
  | dict members ih =>
      cases w with
      | leaf y =>
          rw [jsonValue_leaf, jsonValue_dict] at heq
          exact absurd heq.symm (jsonAtom_ne_objectValue y _)
      | list items =>
          rw [jsonValue_list, jsonValue_dict] at heq
          simp [objectValue] at heq
      | dict members' =>
          rw [supported_dict] at hv hw
          rw [Tree.wellFormed_dict] at hvf hwf
          have hplain := fun member hmember => (hv member hmember).1
          have hplain' := fun member hmember => (hw member hmember).1
          rw [jsonValue_dict, jsonValue_dict, objectValue_inj
            (nodup_jsonMembers hvf.1 hplain) (nodup_jsonMembers hwf.1 hplain')] at heq
          have hvalues : ∀ member ∈ members, ∀ member' ∈ members',
              jsonValue member.2 = jsonValue member'.2 →
                canonicalText float member.2 = canonicalText float member'.2 :=
            fun member hmember member' hmember' => ih member hmember
              (hv member hmember).2 (hw member' hmember').2 (hvf.2 member hmember)
              (hwf.2 member' hmember')
          have hkeys : ∀ rows : List (Key × PyValue),
              (rows.map fun member => (member.1, canonicalText float member.2)).map
                Prod.fst = rows.map Prod.fst := by
            simp
          have hperm : (members.map fun member =>
              (member.1, canonicalText float member.2)).Perm
                (members'.map fun member => (member.1, canonicalText float member.2)) := by
            rw [List.perm_ext_iff_of_nodup (.of_map Prod.fst (by rw [hkeys]; exact hvf.1))
              (.of_map Prod.fst (by rw [hkeys]; exact hwf.1))]
            exact fun row => ⟨
              textMembers_subset float hplain hplain' hvalues (fun r => (heq r).mp) row,
              textMembers_subset float hplain' hplain
                (fun member hmember member' hmember' hvalue =>
                  (hvalues member' hmember' member hmember hvalue.symm).symm)
                (fun r => (heq r).mpr) row⟩
          rw [canonicalText_dict, canonicalText_dict]
          refine objectText_eq_of_perm hperm (by rw [hkeys]; exact hvf.1) ?_
          intro row hrow
          obtain ⟨member, hmember, rfl⟩ := List.mem_map.mp hrow
          exact hplain member hmember

/-- Two supported trees share their canonical text exactly when they are one JSON
value. -/
theorem canonicalText_inj (float : FloatRepr) {v w : PyValue}
    (hv : Supported v) (hw : Supported w) (hvf : v.WellFormed) (hwf : w.WellFormed) :
    canonicalText float v = canonicalText float w ↔ jsonValue v = jsonValue w := by
  refine ⟨fun htext => ?_, canonicalText_eq_of_jsonValue_eq float hv hw hvf hwf⟩
  have hread := readJson_canonicalText float hv hvf
  rw [htext, readJson_canonicalText float hw hwf] at hread
  exact (Option.some.inj hread).symm

/-- `canonicalize` writes valid JSON for the value it is given, and two accepted
values share their text exactly when they are one JSON value. -/
theorem canonicalize_injective (float : FloatRepr) {A B : Type} [DecidableEq A]
    [DecidableEq B] (h : Heap A) (h' : Heap B) (a : Ref A) (b : Ref B)
    {left right : Text} (hleft : canonicalize float h a = .ok left)
    (hright : canonicalize float h' b = .ok right) :
    ∃ v w, Unfolds h a v ∧ Unfolds h' b w ∧
      readJson left = some (jsonValue v) ∧ readJson right = some (jsonValue w) ∧
      (left = right ↔ jsonValue v = jsonValue w) := by
  obtain ⟨v, hv, -, hvs, rfl⟩ := canonicalize_eq_ok_iff.mp hleft
  obtain ⟨w, hw, -, hws, rfl⟩ := canonicalize_eq_ok_iff.mp hright
  exact ⟨v, w, hv, hw, readJson_canonicalText float hvs hv.wellFormed,
    readJson_canonicalText float hws hw.wellFormed,
    canonicalText_inj float hvs hws hv.wellFormed hw.wellFormed⟩

/-- `1` and `True` are two JSON values and get two texts. -/
theorem canonicalize_injective_one_true :
    ∃ v w, Unfolds emptyHeap (.atom (.int 1)) v ∧
      Unfolds emptyHeap (.atom (.bool true)) w ∧
      readJson (text "1") = some (jsonValue v) ∧
      readJson (text "true") = some (jsonValue w) ∧
      (text "1" = text "true" ↔ jsonValue v = jsonValue w) :=
  canonicalize_injective .fewestDigits emptyHeap emptyHeap (.atom (.int 1))
    (.atom (.bool true))
    (canonicalize_of_unfolds (v := .leaf (.int 1)) (by simp) (by simp)
      (by simp [SupportedAtom, maxSafeInteger]))
    (canonicalize_of_unfolds (v := .leaf (.bool true)) (by simp) (by simp)
      (by simp [SupportedAtom]))

end TraigentSchema.Fp2
