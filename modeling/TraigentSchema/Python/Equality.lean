import TraigentSchema.Fp2.Injective
import TraigentSchema.Python.Mapping

/-!
# Python equality

`==` on parsed JSON: numbers of any type by value, booleans among them, lists item
by item and dicts as maps.  On values without booleans and floats it is equality
of the JSON values, so equal values are those with one canonical text.
-/

namespace TraigentSchema.Python

open TraigentSchema.Unicode
open TraigentSchema.Binary64
open TraigentSchema.Fp2
open TraigentSchema.JsonReading

/-- The number an atom equals, for the numeric types. -/
def Atom.number : Atom → Option ℚ
  | .bool b => some (if b then 1 else 0)
  | .int i => some i
  | .float (.finite negative m) => some (floatValue negative m)
  | _ => Option.none

/-- `==` on atoms. -/
def atomEq (x y : Atom) : Bool :=
  match x, y with
  | .none, .none => true
  | .str s, .str t => s == t
  | .float (.infinity s), .float (.infinity t) => s == t
  | .foreign o, .foreign p => o.ident == p.ident
  | x, y =>
      match x.number, y.number with
      | some p, some q => p == q
      | _, _ => false

/-- `==` on keys. -/
def keyEq : Key → Key → Bool
  | .str s, .str t => s == t
  | .foreign o, .foreign p => o.ident == p.ident
  | _, _ => false

/-- A comparison item by item. -/
def itemsEq : List (PyValue → Bool) → List PyValue → Bool
  | [], [] => true
  | eq :: eqs, item :: items => eq item && itemsEq eqs items
  | _, _ => false

/-- A comparison of two dicts, the members of the first given by their keys and
what their values equal. -/
def membersEq (eqs : List (Key × (PyValue → Bool))) (members : List (Key × PyValue)) :
    Bool :=
  eqs.length == members.length && eqs.all fun row =>
    match members.find? fun m => keyEq row.1 m.1 with
    | some m => row.2 m.2
    | none => false

/-- `==`. -/
def pyEq : PyValue → PyValue → Bool :=
  Tree.fold
    (fun x w => match w with | .leaf y => atomEq x y | _ => false)
    (fun eqs w => match w with | .list items => itemsEq eqs items | _ => false)
    (fun eqs w => match w with | .dict members => membersEq eqs members | _ => false)

section Unfolding

@[simp]
theorem pyEq_leaf_leaf (x y : Atom) : pyEq (.leaf x) (.leaf y) = atomEq x y := by
  simp [pyEq]

@[simp]
theorem pyEq_leaf_list (x : Atom) (items : List PyValue) :
    pyEq (.leaf x) (.list items) = false := by
  simp [pyEq]

@[simp]
theorem pyEq_leaf_dict (x : Atom) (members : List (Key × PyValue)) :
    pyEq (.leaf x) (.dict members) = false := by
  simp [pyEq]

@[simp]
theorem pyEq_list_leaf (items : List PyValue) (y : Atom) :
    pyEq (.list items) (.leaf y) = false := by
  simp [pyEq]

theorem pyEq_list_list (left right : List PyValue) :
    pyEq (.list left) (.list right) = itemsEq (left.map pyEq) right := by
  simp [pyEq]

@[simp]
theorem pyEq_list_dict (items : List PyValue) (members : List (Key × PyValue)) :
    pyEq (.list items) (.dict members) = false := by
  simp [pyEq]

@[simp]
theorem pyEq_dict_leaf (members : List (Key × PyValue)) (y : Atom) :
    pyEq (.dict members) (.leaf y) = false := by
  simp [pyEq]

@[simp]
theorem pyEq_dict_list (members : List (Key × PyValue)) (items : List PyValue) :
    pyEq (.dict members) (.list items) = false := by
  simp [pyEq]

theorem pyEq_dict_dict (left right : List (Key × PyValue)) :
    pyEq (.dict left) (.dict right) =
      membersEq (left.map fun m => (m.1, pyEq m.2)) right := by
  simp [pyEq]

end Unfolding

@[simp]
theorem atomEq_str_str (s t : Text) : atomEq (.str s) (.str t) = (s == t) := rfl

@[simp]
theorem atomEq_int_int (i j : ℤ) : atomEq (.int i) (.int j) = decide (i = j) := by
  rw [Bool.eq_iff_iff]
  simp [atomEq, Atom.number]

/-- A string equals only itself. -/
@[simp]
theorem pyEq_str_left {s : Text} {w : PyValue} :
    pyEq (.leaf (.str s)) w = true ↔ w = .leaf (.str s) := by
  cases w with
  | leaf y =>
      cases y with
      | str t => simp [atomEq, eq_comm (a := s)]
      | _ => simp [atomEq, Atom.number]
  | list items => simp
  | dict members => simp

/-- Only a text equals a text. -/
@[simp]
theorem pyEq_str_right {s : Text} {v : PyValue} :
    pyEq v (.leaf (.str s)) = true ↔ v = .leaf (.str s) := by
  cases v with
  | leaf x => cases x <;> simp [atomEq, Atom.number]
  | list items => simp
  | dict members => simp

/-- Equal dicts have equal members. -/
theorem pyEq_field {v w : PyValue} {name : String} (heq : pyEq v w = true)
    (hkey : v.hasKey name = true) :
    w.hasKey name = true ∧ pyEq (v.field name) (w.field name) = true := by
  obtain ⟨u, hmember⟩ := PyValue.hasKey_iff.mp hkey
  cases v with
  | leaf x => cases hmember
  | list items => cases hmember
  | dict left =>
      cases w with
      | leaf y => simp at heq
      | list items => simp at heq
      | dict right =>
          rw [pyEq_dict_dict, membersEq, Bool.and_eq_true, List.all_map,
            List.all_eq_true] at heq
          have hrow := heq.2 _ (PyValue.mem_of_member hmember)
          have hname : (fun m : Key × PyValue => keyEq (Key.str (text name)) m.1) =
              fun m => m.1.isName name := by
            funext m
            cases hm : m.1 <;> simp [keyEq, Key.isName, eq_comm]
          simp only [Function.comp_apply, hname] at hrow
          cases hfind : right.find? fun m => m.1.isName name with
          | none => simp [hfind] at hrow
          | some m =>
              rw [hfind] at hrow
              have hright : PyValue.member (.dict right) name = some m.2 := by
                rw [PyValue.member, hfind, Option.map_some]
              rw [PyValue.hasKey, PyValue.field, PyValue.field, hright, hmember]
              exact ⟨rfl, hrow⟩

/-! ## Equality of JSON values -/

/-- The atoms with a canonical text but for the booleans, which equal integers. -/
def UnmixedAtom : Atom → Prop
  | .bool _ => False
  | x => SupportedAtom x

instance : DecidablePred UnmixedAtom
  | .bool _ => inferInstanceAs (Decidable False)
  | .none => inferInstanceAs (Decidable (SupportedAtom .none))
  | .int i => inferInstanceAs (Decidable (SupportedAtom (.int i)))
  | .float value => inferInstanceAs (Decidable (SupportedAtom (.float value)))
  | .str s => inferInstanceAs (Decidable (SupportedAtom (.str s)))
  | .foreign o => inferInstanceAs (Decidable (SupportedAtom (.foreign o)))

theorem UnmixedAtom.supported {x : Atom} (hx : UnmixedAtom x) : SupportedAtom x := by
  cases x with
  | bool b => exact hx.elim
  | _ => exact hx

/-- A tree of strings, numbers and nulls. -/
def Unmixed (v : PyValue) : Prop :=
  v.Admits UnmixedAtom PlainKey

theorem Unmixed.supported {v : PyValue} (hv : Unmixed v) : Supported v :=
  hv.imp (fun _ hx => hx.supported) (fun _ hk => hk)

/-- Strings, integers and nulls. -/
def PlainAtom : Atom → Prop
  | .none => True
  | .int i => i.natAbs ≤ maxSafeInteger
  | .str s => Encodable s
  | _ => False

instance : DecidablePred PlainAtom
  | .none => inferInstanceAs (Decidable True)
  | .int i => inferInstanceAs (Decidable (i.natAbs ≤ maxSafeInteger))
  | .str s => inferInstanceAs (Decidable (Encodable s))
  | .bool _ | .float _ | .foreign _ => inferInstanceAs (Decidable False)

theorem PlainAtom.supported {x : Atom} (hx : PlainAtom x) : SupportedAtom x := by
  cases x with
  | none => trivial
  | int i => exact hx
  | str s => exact hx
  | bool b => exact hx.elim
  | float value => exact hx.elim
  | foreign o => exact hx.elim

/-- A tree of strings, integers and nulls. -/
def Plain (v : PyValue) : Prop :=
  v.Admits PlainAtom PlainKey

theorem Plain.supported {v : PyValue} (hv : Plain v) : Supported v :=
  hv.imp (fun _ hx => hx.supported) (fun _ hk => hk)

theorem PlainAtom.unmixed {x : Atom} (hx : PlainAtom x) : UnmixedAtom x := by
  cases x with
  | bool b => exact hx.elim
  | _ => exact hx.supported

/-- Without floats no number is compared over two types. -/
theorem Plain.unmixed {v : PyValue} (hv : Plain v) : Unmixed v :=
  hv.imp (fun _ hx => hx.unmixed) (fun _ hk => hk)

/-- Unmixed scalars are equal as Python values exactly when they are equal as JSON values. -/
theorem atomEq_iff {x y : Atom} (hx : UnmixedAtom x) (hy : UnmixedAtom y) :
    atomEq x y = true ↔ jsonAtom x = jsonAtom y := by
  cases x with
  | float value =>
      cases value with
      | finite negative m =>
          cases y with
          | float value' =>
              cases value' <;> simp_all [atomEq, Atom.number, jsonAtom, UnmixedAtom, SupportedAtom]
          | _ => simp_all [atomEq, Atom.number, jsonAtom, UnmixedAtom]
      | _ => exact hx.elim
  | _ =>
      cases y with
      | float value' =>
          cases value' <;> simp_all [atomEq, Atom.number, jsonAtom, UnmixedAtom, SupportedAtom]
      | _ => simp_all [atomEq, Atom.number, jsonAtom, UnmixedAtom, SupportedAtom]

/-- Lists are equal item by item. -/
theorem itemsEq_iff {left right : List PyValue} :
    itemsEq (left.map pyEq) right = true ↔
      List.Forall₂ (fun v w => pyEq v w = true) left right := by
  induction left generalizing right with
  | nil => cases right <;> simp [itemsEq]
  | cons v left ih =>
      cases right with
      | nil => simp [itemsEq]
      | cons w right => simp [itemsEq, ih]

/-- Plain keys are equal as the texts they are. -/
theorem keyEq_iff {k l : Key} (hk : PlainKey k) (hl : PlainKey l) :
    keyEq k l = true ↔ k = l := by
  cases k <;> cases l <;> simp_all [keyEq, PlainKey]

/-- Dicts are equal when they are equally long and each member on the left has one on the right.
-/
private theorem membersEq_iff {left right : List (Key × PyValue)}
    (hright : (right.map Prod.fst).Nodup)
    (hleftKey : ∀ m ∈ left, PlainKey m.1) (hrightKey : ∀ m ∈ right, PlainKey m.1) :
    membersEq (left.map fun m => (m.1, pyEq m.2)) right = true ↔
      left.length = right.length ∧
        ∀ m ∈ left, ∃ m' ∈ right, m.1 = m'.1 ∧ pyEq m.2 m'.2 = true := by
  have hfind : ∀ m ∈ left, (match right.find? fun m' => keyEq m.1 m'.1 with
      | some m' => pyEq m.2 m'.2
      | none => false) = true ↔ ∃ m' ∈ right, m.1 = m'.1 ∧ pyEq m.2 m'.2 = true := by
    intro m hm
    cases hcase : right.find? fun m' => keyEq m.1 m'.1 with
    | none =>
        rw [List.find?_eq_none] at hcase
        simp only [Bool.false_eq_true, false_iff]
        rintro ⟨m', hm', hkey, -⟩
        exact hcase m' hm' ((keyEq_iff (hleftKey m hm) (hrightKey m' hm')).mpr hkey)
    | some found =>
        have hmem := List.mem_of_find?_eq_some hcase
        have hkey : m.1 = found.1 :=
          (keyEq_iff (hleftKey m hm) (hrightKey found hmem)).mp
            (by simpa using List.find?_some hcase)
        constructor
        · intro heq
          exact ⟨found, hmem, hkey, heq⟩
        · rintro ⟨m', hm', hkey', heq⟩
          have hsame : m' = found := List.inj_on_of_nodup_map hright hm' hmem
            (hkey'.symm.trans hkey)
          exact hsame ▸ heq
  rw [membersEq, Bool.and_eq_true, List.length_map, beq_iff_eq, List.all_map,
    List.all_eq_true]
  refine and_congr_right fun _ => forall₂_congr fun m hm => ?_
  exact hfind m hm

/-- On strings, numbers and nulls, equal values are those with one JSON value. -/
theorem pyEq_iff_jsonValue_eq_of_unmixed {v w : PyValue} (hv : Unmixed v) (hw : Unmixed w)
    (hvf : v.WellFormed) (hwf : w.WellFormed) :
    pyEq v w = true ↔ jsonValue v = jsonValue w := by
  induction v using Tree.induct generalizing w with
  | leaf x =>
      cases w with
      | leaf y =>
          rw [pyEq_leaf_leaf, jsonValue_leaf, jsonValue_leaf]
          exact atomEq_iff ((Tree.admits_leaf x).mp hv) ((Tree.admits_leaf y).mp hw)
      | list items => simpa using jsonAtom_ne_arr x _
      | dict members =>
          rw [pyEq_leaf_dict, jsonValue_leaf, jsonValue_dict]
          simpa using jsonAtom_ne_objectValue x _
  | list left ih =>
      cases w with
      | leaf y => simpa using (jsonAtom_ne_arr y _).symm
      | list right =>
          rw [pyEq_list_list, itemsEq_iff, jsonValue_list, jsonValue_list,
            JsonValue.arr.injEq, Traverse.map_eq_map_iff_forall₂]
          have hlv := (Tree.admits_list left).mp hv
          have hrw := (Tree.admits_list right).mp hw
          have hlf := (Tree.wellFormed_list left).mp hvf
          have hrf := (Tree.wellFormed_list right).mp hwf
          constructor
          · intro hall
            exact Traverse.forall₂_imp_of_mem hall fun v hmem w hmem' heq =>
              (ih v hmem (hlv v hmem) (hrw w hmem') (hlf v hmem) (hrf w hmem')).mp heq
          · intro hall
            exact Traverse.forall₂_imp_of_mem hall fun v hmem w hmem' heq =>
              (ih v hmem (hlv v hmem) (hrw w hmem') (hlf v hmem) (hrf w hmem')).mpr heq
      | dict members => simp [jsonValue_dict, objectValue]
  | dict left ih =>
      cases w with
      | leaf y =>
          rw [pyEq_dict_leaf, jsonValue_leaf, jsonValue_dict]
          simpa using (jsonAtom_ne_objectValue y _).symm
      | list items => simp [jsonValue_dict, objectValue]
      | dict right =>
          have hlv := (Tree.admits_dict left).mp hv
          have hrw := (Tree.admits_dict right).mp hw
          have hlf := (Tree.wellFormed_dict left).mp hvf
          have hrf := (Tree.wellFormed_dict right).mp hwf
          have hlk : ∀ m ∈ left, PlainKey m.1 := fun m hm => (hlv m hm).1
          have hrk : ∀ m ∈ right, PlainKey m.1 := fun m hm => (hrw m hm).1
          have hleftNodup := nodup_jsonMembers hlf.1 hlk
          have hrightNodup := nodup_jsonMembers hrf.1 hrk
          rw [pyEq_dict_dict, membersEq_iff hrf.1 hlk hrk, jsonValue_dict,
            jsonValue_dict, objectValue_inj hleftNodup hrightNodup]
          have hsub : (∀ m ∈ left, ∃ m' ∈ right, m.1 = m'.1 ∧ pyEq m.2 m'.2 = true) ↔
              jsonMembers left ⊆ jsonMembers right := by
            constructor
            · intro hall row hrow
              obtain ⟨m, hm, rfl⟩ := List.mem_map.mp hrow
              obtain ⟨m', hm', hkey, heq⟩ := hall m hm
              refine List.mem_map.mpr ⟨m', hm', ?_⟩
              rw [hkey, (ih m hm (hlv m hm).2 (hrw m' hm').2 (hlf.2 m hm)
                (hrf.2 m' hm')).mp heq]
            · intro hsub m hm
              obtain ⟨m', hm', heq⟩ := List.mem_map.mp
                (hsub (List.mem_map.mpr ⟨m, hm, rfl⟩))
              rw [Prod.mk.injEq] at heq
              exact ⟨m', hm', (keyText_injOn (hrk m' hm') (hlk m hm) heq.1).symm,
                (ih m hm (hlv m hm).2 (hrw m' hm').2 (hlf.2 m hm) (hrf.2 m' hm')).mpr
                  heq.2.symm⟩
          rw [hsub]
          constructor
          · rintro ⟨hlength, hsubset⟩ row
            have hperm : (jsonMembers left).Perm (jsonMembers right) :=
              (List.subperm_of_subset (hleftNodup.of_map _) hsubset).perm_of_length_le
                (by simp [jsonMembers, hlength])
            exact hperm.mem_iff
          · intro hmem
            have hperm : (jsonMembers left).Perm (jsonMembers right) :=
              (List.perm_ext_iff_of_nodup (hleftNodup.of_map _)
                (hrightNodup.of_map _)).mpr hmem
            refine ⟨?_, hperm.subset⟩
            simpa [jsonMembers] using hperm.length_eq

/-- On plain values Python's equality is that of JSON values. -/
theorem pyEq_iff_jsonValue_eq {v w : PyValue} (hv : Plain v) (hw : Plain w)
    (hvf : v.WellFormed) (hwf : w.WellFormed) :
    pyEq v w = true ↔ jsonValue v = jsonValue w :=
  pyEq_iff_jsonValue_eq_of_unmixed hv.unmixed hw.unmixed hvf hwf

end TraigentSchema.Python
