import TraigentSchema.Fp2.Injective
import TraigentSchema.Python.Mapping

/-!
# Members of canonical objects

A canonical text determines the canonical text of every member.  In the other
direction, two dicts that agree on a member and, once it is left out, on the rest
have one canonical text; so do two dicts over one list of names that agree on each
of them.
-/

namespace TraigentSchema.Fp2

open TraigentSchema.Unicode
open TraigentSchema.JsonReading
open TraigentSchema.Python

/-- Values with a canonical text: supported, and no key twice. -/
structure HasCanonicalText (v : PyValue) : Prop where
  supported : Supported v
  wellFormed : v.WellFormed

namespace HasCanonicalText

variable {v w : PyValue} {name : String}

theorem member (hv : HasCanonicalText v) (hmember : v.member name = some w) :
    HasCanonicalText w where
  supported := PyValue.admits_member hv.supported hmember
  wellFormed := PyValue.wellFormed_member hv.wellFormed hmember

theorem erase (hv : HasCanonicalText v) : HasCanonicalText (v.erase name) where
  supported := PyValue.admits_erase hv.supported
  wellFormed := PyValue.wellFormed_erase hv.wellFormed

theorem assign (hv : HasCanonicalText v) (hw : HasCanonicalText w) :
    HasCanonicalText (v.assign name w) where
  supported := PyValue.admits_assign (encodable_text name) hv.supported hw.supported
  wellFormed := PyValue.wellFormed_assign hv.wellFormed hw.wellFormed

theorem none : HasCanonicalText (.leaf .none) where
  supported := (supported_leaf _).mpr trivial
  wellFormed := Tree.wellFormed_leaf _

theorem field (hv : HasCanonicalText v) : HasCanonicalText (v.field name) := by
  unfold PyValue.field
  cases hmember : v.member name with
  | none => exact .none
  | some w => exact hv.member hmember

theorem jsonValue_eq_iff (float : FloatRepr) (hv : HasCanonicalText v)
    (hw : HasCanonicalText w) :
    canonicalText float v = canonicalText float w ↔ jsonValue v = jsonValue w :=
  canonicalText_inj float hv.supported hw.supported hv.wellFormed hw.wellFormed

end HasCanonicalText

/-! ## Objects of JSON values -/

/-- The member of an object. -/
def jsonMember : JsonValue → Text → Option JsonValue
  | .obj member, key => member key
  | _, _ => none

theorem jsonMember_eq_some_iff {members : List (Key × PyValue)}
    (hv : HasCanonicalText (.dict members)) {key : Text} {value : JsonValue} :
    jsonMember (jsonValue (.dict members)) key = some value ↔
      ∃ w, (Key.str key, w) ∈ members ∧ jsonValue w = value := by
  have hplain : ∀ m ∈ members, PlainKey m.1 := fun m hm =>
    ((supported_dict members).mp hv.supported m hm).1
  have hnodup := nodup_jsonMembers
    ((Tree.wellFormed_dict members).mp hv.wellFormed).1 hplain
  rw [jsonValue_dict, objectValue, jsonMember, lookup_reverse_eq_some_iff_mem hnodup,
    jsonMembers, List.mem_map]
  constructor
  · rintro ⟨⟨k, w⟩, hmem, heq⟩
    rw [Prod.mk.injEq] at heq
    cases k with
    | str s => exact ⟨w, heq.1 ▸ hmem, heq.2⟩
    | foreign o => exact (hplain _ hmem).elim
  · rintro ⟨w, hmem, rfl⟩
    exact ⟨_, hmem, rfl⟩

theorem jsonMember_jsonValue {v : PyValue} (hv : HasCanonicalText v) (name : String) :
    jsonMember (jsonValue v) (text name) = (v.member name).map jsonValue := by
  cases v with
  | leaf x =>
      cases x with
      | float value => cases value <;> simp [jsonMember, jsonAtom, PyValue.member]
      | _ => simp [jsonMember, jsonAtom, PyValue.member]
  | list items => simp [jsonMember, PyValue.member]
  | dict members =>
      ext value
      rw [jsonMember_eq_some_iff hv, Option.map_eq_some_iff]
      have hnodup := ((Tree.wellFormed_dict members).mp hv.wellFormed).1
      constructor
      · rintro ⟨w, hmem, hvalue⟩
        exact ⟨w, PyValue.member_of_mem hnodup hmem, hvalue⟩
      · rintro ⟨w, hmember, hvalue⟩
        exact ⟨w, PyValue.mem_of_member hmember, hvalue⟩

/-- Objects are determined by their members. -/
theorem jsonValue_dict_ext {v w : PyValue} (hv : v.isDict = true) (hw : w.isDict = true)
    (hmembers : ∀ key, jsonMember (jsonValue v) key = jsonMember (jsonValue w) key) :
    jsonValue v = jsonValue w := by
  cases v with
  | dict left =>
      cases w with
      | dict right =>
          rw [jsonValue_dict, jsonValue_dict] at hmembers ⊢
          exact congrArg JsonValue.obj (funext hmembers)
      | leaf y => cases hw
      | list items => cases hw
  | leaf x => cases hv
  | list items => cases hv

theorem jsonMember_erase {v : PyValue} (hv : HasCanonicalText v) (name : String)
    (key : Text) :
    jsonMember (jsonValue (v.erase name)) key =
      if key = text name then none else jsonMember (jsonValue v) key := by
  cases v with
  | leaf x =>
      cases x with
      | float value => cases value <;> simp [jsonMember, jsonAtom, PyValue.erase]
      | _ => simp [jsonMember, jsonAtom, PyValue.erase]
  | list items => simp [jsonMember, PyValue.erase]
  | dict members =>
      have herase : HasCanonicalText (.dict (members.filter fun m => !m.1.isName name)) :=
        HasCanonicalText.erase hv
      ext value
      rw [PyValue.erase, jsonMember_eq_some_iff herase]
      split_ifs with hkey
      · subst hkey
        simp [Key.isName]
      · rw [jsonMember_eq_some_iff hv]
        simp [Key.isName, hkey]

theorem jsonMember_eq_none {v : PyValue} {names : List String} {key : Text}
    (hv : HasCanonicalText v) (hnames : v.hasMembers names = true)
    (hkey : ¬ ∃ name ∈ names, key = text name) : jsonMember (jsonValue v) key = none := by
  cases v with
  | dict members =>
      rw [PyValue.hasMembers, Bool.and_eq_true, List.all_eq_true] at hnames
      rw [Option.eq_none_iff_forall_ne_some]
      intro value hvalue
      obtain ⟨w, hmem, -⟩ := (jsonMember_eq_some_iff hv).mp hvalue
      obtain ⟨name, hname, hsame⟩ := List.any_eq_true.mp (hnames.1 _ hmem)
      rw [Key.isName_iff, Key.str.injEq] at hsame
      exact hkey ⟨name, hname, hsame⟩
  | leaf x => cases hnames
  | list items => cases hnames

/-! ## Agreement -/

/-- The values have one canonical text. -/
def Agree (float : FloatRepr) (v w : PyValue) : Prop :=
  canonicalText float v = canonicalText float w

section Agree

variable {float : FloatRepr} {v w : PyValue} {name : String}

theorem Agree.member (hv : HasCanonicalText v) (hw : HasCanonicalText w)
    (hagree : Agree float v w) :
    (v.member name).map jsonValue = (w.member name).map jsonValue := by
  rw [← jsonMember_jsonValue hv, ← jsonMember_jsonValue hw,
    (hv.jsonValue_eq_iff float hw).mp hagree]

theorem Agree.field (hv : HasCanonicalText v) (hw : HasCanonicalText w)
    (hagree : Agree float v w) : Agree float (v.field name) (w.field name) := by
  have hmember : (v.member name).map jsonValue = (w.member name).map jsonValue :=
    Agree.member hv hw hagree
  apply (hv.field.jsonValue_eq_iff float hw.field).mpr
  unfold PyValue.field
  cases hleft : v.member name <;> cases hright : w.member name <;>
    simp_all

/-- A string agrees with itself only. -/
theorem Agree.eq_str {s : Text} (hs : Encodable s) (hw : HasCanonicalText w)
    (hagree : Agree float (.leaf (.str s)) w) : w = .leaf (.str s) := by
  have hv : HasCanonicalText (.leaf (.str s)) :=
    ⟨(supported_leaf _).mpr hs, Tree.wellFormed_leaf _⟩
  have heq := (hv.jsonValue_eq_iff float hw).mp hagree
  cases w with
  | leaf y =>
      cases y with
      | str t =>
          rw [jsonValue_leaf, jsonValue_leaf, jsonAtom, jsonAtom, JsonValue.str.injEq] at heq
          rw [heq]
      | float value => cases value <;> simp [jsonAtom] at heq
      | _ => simp [jsonAtom] at heq
  | list items => simp [jsonAtom] at heq
  | dict members => simp [jsonAtom, jsonValue_dict, objectValue] at heq

/-- Agreement on one member and on what is left without it is agreement. -/
theorem Agree.of_erase (hv : HasCanonicalText v) (hw : HasCanonicalText w)
    (hvDict : v.isDict = true) (hwDict : w.isDict = true)
    (hrest : Agree float (v.erase name) (w.erase name))
    (hmember : (v.member name).map jsonValue = (w.member name).map jsonValue) :
    Agree float v w := by
  have hrestEq := (hv.erase.jsonValue_eq_iff float hw.erase).mp hrest
  apply (hv.jsonValue_eq_iff float hw).mpr
  apply jsonValue_dict_ext hvDict hwDict
  intro key
  by_cases hkey : key = text name
  · rw [hkey, jsonMember_jsonValue hv, jsonMember_jsonValue hw, hmember]
  · have hkeep := congrArg (fun value => jsonMember value key) hrestEq
    simpa [jsonMember_erase hv, jsonMember_erase hw, hkey] using hkeep

/-- Assigning values that agree to dicts that agree on the rest. -/
theorem Agree.assign {a b : PyValue} (hv : HasCanonicalText v) (hw : HasCanonicalText w)
    (ha : HasCanonicalText a) (hb : HasCanonicalText b) (hvDict : v.isDict = true)
    (hwDict : w.isDict = true) (hrest : Agree float (v.erase name) (w.erase name))
    (hmember : Agree float a b) : Agree float (v.assign name a) (w.assign name b) := by
  apply Agree.of_erase (hv.assign ha) (hw.assign hb) (by rwa [PyValue.isDict_assign])
    (by rwa [PyValue.isDict_assign])
  · rw [PyValue.erase_assign, PyValue.erase_assign]
    exact hrest
  · rw [PyValue.member_assign_self hvDict, PyValue.member_assign_self hwDict,
      Option.map_some, Option.map_some, (ha.jsonValue_eq_iff float hb).mp hmember]

theorem isDict_iff_of_agree (hv : HasCanonicalText v) (hw : HasCanonicalText w)
    (hagree : Agree float v w) : v.isDict = true ↔ w.isDict = true := by
  have heq := (hv.jsonValue_eq_iff float hw).mp hagree
  have hleaf : ∀ (x : Atom) (members : List (Key × PyValue)),
      jsonValue (.leaf x) ≠ jsonValue (.dict members) := by
    intro x members hsame
    rw [jsonValue_leaf, jsonValue_dict] at hsame
    exact jsonAtom_ne_objectValue x _ hsame
  have hlist : ∀ (items : List PyValue) (members : List (Key × PyValue)),
      jsonValue (.list items) ≠ jsonValue (.dict members) := by
    intro items members hsame
    simp [jsonValue_dict, objectValue] at hsame
  cases v with
  | leaf x =>
      cases w with
      | dict members => exact absurd heq (hleaf x members)
      | _ => exact Iff.rfl
  | list items =>
      cases w with
      | dict members => exact absurd heq (hlist items members)
      | _ => exact Iff.rfl
  | dict members =>
      cases w with
      | dict members' => exact Iff.rfl
      | leaf y => exact absurd heq.symm (hleaf y members)
      | list items => exact absurd heq.symm (hlist items members)

/-- Values that agree do so without one of their members. -/
theorem Agree.erase (hv : HasCanonicalText v) (hw : HasCanonicalText w)
    (hagree : Agree float v w) : Agree float (v.erase name) (w.erase name) := by
  by_cases hdict : v.isDict = true
  · have hdict' := (isDict_iff_of_agree hv hw hagree).mp hdict
    apply (hv.erase.jsonValue_eq_iff float hw.erase).mpr
    apply jsonValue_dict_ext (by rwa [PyValue.isDict_erase]) (by rwa [PyValue.isDict_erase])
    intro key
    rw [jsonMember_erase hv, jsonMember_erase hw, (hv.jsonValue_eq_iff float hw).mp hagree]
  · have hdict' := fun hw' => hdict ((isDict_iff_of_agree hv hw hagree).mpr hw')
    rwa [PyValue.erase_of_not_isDict hdict, PyValue.erase_of_not_isDict hdict']

/-- Dicts over one list of names agree when they agree on each of them. -/
theorem Agree.of_fields {names : List String} (hv : HasCanonicalText v)
    (hw : HasCanonicalText w) (hvNames : v.hasMembers names = true)
    (hwNames : w.hasMembers names = true)
    (hfields : ∀ name ∈ names, Agree float (v.field name) (w.field name)) :
    Agree float v w := by
  apply (hv.jsonValue_eq_iff float hw).mpr
  apply jsonValue_dict_ext (PyValue.isDict_of_hasMembers hvNames)
    (PyValue.isDict_of_hasMembers hwNames)
  intro key
  by_cases hkey : ∃ name ∈ names, key = text name
  · obtain ⟨name, hname, rfl⟩ := hkey
    have heq := (hv.field.jsonValue_eq_iff float hw.field).mp (hfields name hname)
    rw [jsonMember_jsonValue hv, jsonMember_jsonValue hw,
      PyValue.member_eq_some_field (PyValue.hasKey_of_hasMembers hvNames hname),
      PyValue.member_eq_some_field (PyValue.hasKey_of_hasMembers hwNames hname),
      Option.map_some, Option.map_some, heq]
  · rw [jsonMember_eq_none hv hvNames hkey, jsonMember_eq_none hw hwNames hkey]

/-- Lists that agree do so item by item. -/
theorem agree_list_iff {items items' : List PyValue}
    (hitems : HasCanonicalText (.list items)) (hitems' : HasCanonicalText (.list items')) :
    Agree float (.list items) (.list items') ↔ List.Forall₂ (Agree float) items items' := by
  have hitem := fun w (hw : w ∈ items) => (⟨(supported_list items).mp hitems.supported w hw,
    (Tree.wellFormed_list items).mp hitems.wellFormed w hw⟩ : HasCanonicalText w)
  have hitem' := fun w (hw : w ∈ items') =>
    (⟨(supported_list items').mp hitems'.supported w hw,
      (Tree.wellFormed_list items').mp hitems'.wellFormed w hw⟩ : HasCanonicalText w)
  rw [Agree, hitems.jsonValue_eq_iff float hitems', jsonValue_list, jsonValue_list,
    JsonValue.arr.injEq, Traverse.map_eq_map_iff_forall₂]
  constructor
  · intro hall
    exact Traverse.forall₂_imp_of_mem hall fun v hv w hw heq =>
      ((hitem v hv).jsonValue_eq_iff float (hitem' w hw)).mpr heq
  · intro hall
    exact Traverse.forall₂_imp_of_mem hall fun v hv w hw heq =>
      ((hitem v hv).jsonValue_eq_iff float (hitem' w hw)).mp heq

theorem Agree.refl (v : PyValue) : Agree float v v := rfl

theorem Agree.symm (hagree : Agree float v w) : Agree float w v :=
  Eq.symm hagree

theorem Agree.trans {u : PyValue} (hleft : Agree float u v) (hright : Agree float v w) :
    Agree float u w :=
  Eq.trans hleft hright

end Agree

end TraigentSchema.Fp2
