import TraigentSchema.Library.Traverse
import TraigentSchema.Python.Value

/-!
# Members of a dict by name

The code addresses members of parsed JSON by literal names.  Here are the lookup,
what it inherits from the dict, and the dict without one of its members.
-/

namespace TraigentSchema.Python

open TraigentSchema.Unicode

/-- The key is the string with this literal. -/
def Key.isName (name : String) : Key → Bool
  | .str s => s == text name
  | .foreign _ => false

@[simp]
theorem Key.isName_str (name : String) (s : Text) :
    Key.isName name (.str s) = true ↔ s = text name := by
  simp [Key.isName]

/-- A key is a name only as that very text. -/
theorem Key.isName_iff {name : String} {key : Key} :
    key.isName name = true ↔ key = .str (text name) := by
  cases key <;> simp [Key.isName]

namespace PyValue

/-- A string literal. -/
def str (literal : String) : PyValue :=
  .leaf (.str (text literal))

/-- A dict display with literal names. -/
def object (rows : List (String × PyValue)) : PyValue :=
  .dict (rows.map fun row => (.str (text row.1), row.2))

def isDict : PyValue → Bool
  | .dict _ => true
  | _ => false

/-- The member of a dict under a name. -/
def member : PyValue → String → Option PyValue
  | .dict members, name => (members.find? fun m => m.1.isName name).map Prod.snd
  | _, _ => none

/-- `name in v`. -/
def hasKey (v : PyValue) (name : String) : Bool :=
  (v.member name).isSome

/-- The member under a name, `None` when there is none. -/
def field (v : PyValue) (name : String) : PyValue :=
  (v.member name).getD (.leaf .none)

/-- The dict without the member of a name. -/
def erase : PyValue → String → PyValue
  | .dict members, name => .dict (members.filter fun m => !m.1.isName name)
  | v, _ => v

/-- `v[name] = w`, on a dict: in place, or at the end. -/
def assign : PyValue → String → PyValue → PyValue
  | .dict members, name, w =>
      if members.any fun m => m.1.isName name then
        .dict (members.map fun m => if m.1.isName name then (m.1, w) else m)
      else .dict (members ++ [(.str (text name), w)])
  | v, _, _ => v

/-- A dict with these members and no others. -/
def hasMembers (v : PyValue) (names : List String) : Bool :=
  match v with
  | .dict members =>
      (members.all fun m => names.any fun name => m.1.isName name) &&
        names.all fun name => v.hasKey name
  | _ => false

@[simp]
theorem isDict_object (rows : List (String × PyValue)) : (object rows).isDict = true := rfl

/-- The members of an object written out are found as in its rows. -/
@[simp]
theorem member_object (rows : List (String × PyValue)) (name : String) :
    (object rows).member name = rows.lookup name := by
  induction rows with
  | nil => rfl
  | cons row rows ih =>
      obtain ⟨key, value⟩ := row
      by_cases hkey : key = name
      · subst hkey
        simp [object, member, Key.isName]
      · have hne : (name == key) = false := by simpa using Ne.symm hkey
        have hskip : (object ((key, value) :: rows)).member name =
            (object rows).member name := by
          simp [object, member, Key.isName, hkey]
        rw [hskip, ih, List.lookup_cons, hne]

@[simp]
theorem field_object (rows : List (String × PyValue)) (name : String) :
    (object rows).field name = (rows.lookup name).getD (.leaf .none) := by
  rw [field, member_object]

/-- An object written out has the keys of its rows. -/
@[simp]
theorem hasKey_object (rows : List (String × PyValue)) (name : String) :
    (object rows).hasKey name = (rows.lookup name).isSome := by
  rw [hasKey, member_object]

/-- An object with one member for each name holds them all. -/
theorem member_object_map {names : List String} {name : String} (f : String → PyValue)
    (hname : name ∈ names) :
    (object (names.map fun other => (other, f other))).member name = some (f name) := by
  induction names with
  | nil => cases hname
  | cons other names ih =>
      rw [member_object, List.map_cons, List.lookup_cons]
      by_cases heq : name = other
      · simp [heq]
      · have hrest : name ∈ names := (List.mem_cons.mp hname).resolve_left heq
        have hskip : (name == other) = false := by simpa using heq
        rw [member_object] at ih
        rw [hskip]
        exact ih hrest

/-- The member names of a literal object are the names of its rows. -/
@[simp]
theorem hasMembers_object (rows : List (String × PyValue)) (names : List String) :
    (object rows).hasMembers names =
      ((rows.all fun row => decide (row.1 ∈ names)) &&
        names.all fun name => (rows.lookup name).isSome) := by
  have hnames : ∀ row : String × PyValue,
      (names.any fun name => Key.isName name (.str (text row.1))) = decide (row.1 ∈ names) := by
    intro row
    rw [Bool.eq_iff_iff, List.any_eq_true, decide_eq_true_iff]
    constructor
    · rintro ⟨name, hname, hrow⟩
      have heq : row.1 = name := by simpa [Key.isName] using hrow
      exact heq ▸ hname
    · exact fun hrow => ⟨row.1, hrow, by simp [Key.isName]⟩
  have hkeys : (names.all fun name => (object rows).hasKey name) =
      names.all fun name => (rows.lookup name).isSome := by
    simp only [hasKey_object]
  rw [← hkeys]
  simp only [object, hasMembers, List.all_map, Function.comp_def, hnames]

/-- To erase a member is to drop its rows. -/
@[simp]
theorem erase_object (rows : List (String × PyValue)) (name : String) :
    (object rows).erase name = object (rows.filter fun row => row.1 != name) := by
  induction rows with
  | nil => rfl
  | cons row rows ih =>
      simp only [object, erase, Tree.dict.injEq, List.map_cons] at ih ⊢
      by_cases hrow : row.1 = name
      · simpa [Key.isName, hrow] using ih
      · simpa [Key.isName, hrow] using ih

theorem isDict_of_member {v w : PyValue} {name : String}
    (hmember : v.member name = some w) : v.isDict = true := by
  cases v <;> simp_all [member, isDict]

/-- A key is present when a member is found under it, null included. -/
theorem hasKey_iff {v : PyValue} {name : String} :
    v.hasKey name = true ↔ ∃ w, v.member name = some w := by
  rw [hasKey, Option.isSome_iff_exists]

/-- The field of a present key is its member, and not the default. -/
theorem member_eq_some_field {v : PyValue} {name : String}
    (hkey : v.hasKey name = true) : v.member name = some (v.field name) := by
  obtain ⟨w, hw⟩ := hasKey_iff.mp hkey
  rw [field, hw, Option.getD_some]

theorem mem_of_member {members : List (Key × PyValue)} {name : String} {w : PyValue}
    (hmember : PyValue.member (.dict members) name = some w) :
    (Key.str (text name), w) ∈ members := by
  obtain ⟨m, hfind, rfl⟩ := Option.map_eq_some_iff.mp hmember
  have hname : m.1 = .str (text name) :=
    Key.isName_iff.mp (by simpa using List.find?_some hfind)
  rw [← hname]
  exact List.mem_of_find?_eq_some hfind

/-- A dict without repeated keys finds each of its members. -/
theorem member_of_mem {members : List (Key × PyValue)} {name : String} {w : PyValue}
    (hnodup : (members.map Prod.fst).Nodup)
    (hmem : (Key.str (text name), w) ∈ members) :
    PyValue.member (.dict members) name = some w := by
  induction members with
  | nil => cases hmem
  | cons head members ih =>
      rw [List.map_cons, List.nodup_cons] at hnodup
      rcases List.mem_cons.mp hmem with rfl | hmem
      · simp [member, Key.isName]
      · have hne : head.1 ≠ .str (text name) := fun heq =>
          hnodup.1 (heq ▸ List.mem_map.mpr ⟨_, hmem, rfl⟩)
        have hskip : head.1.isName name = false := by
          simpa using mt Key.isName_iff.mp hne
        have hrest : PyValue.member (.dict (head :: members)) name =
            PyValue.member (.dict members) name := by
          simp [member, hskip]
        rw [hrest]
        exact ih hnodup.2 hmem

/-- Nothing but a dict has an exact list of members. -/
theorem isDict_of_hasMembers {v : PyValue} {names : List String}
    (hv : v.hasMembers names = true) : v.isDict = true := by
  cases v <;> simp_all [hasMembers, isDict]

/-- An exact list of members names keys that are present. -/
theorem hasKey_of_hasMembers {v : PyValue} {names : List String} {name : String}
    (hv : v.hasMembers names = true) (hname : name ∈ names) : v.hasKey name = true := by
  cases v with
  | dict members =>
      rw [hasMembers, Bool.and_eq_true, List.all_eq_true, List.all_eq_true] at hv
      exact hv.2 name hname
  | leaf x => cases hv
  | list items => cases hv

/-- An exact list of members leaves no other one. -/
theorem member_eq_none_of_hasMembers {v : PyValue} {names : List String} {name : String}
    (hv : v.hasMembers names = true) (hname : name ∉ names) : v.member name = none := by
  cases v with
  | dict members =>
      rw [hasMembers, Bool.and_eq_true, List.all_eq_true] at hv
      rw [member, Option.map_eq_none_iff, List.find?_eq_none]
      intro m hm hkey
      obtain ⟨other, hother, hsame⟩ := List.any_eq_true.mp (hv.1 m hm)
      rw [Key.isName_iff] at hkey hsame
      rw [hkey, Key.str.injEq, text_inj] at hsame
      exact hname (hsame ▸ hother)
  | leaf x => rfl
  | list items => rfl

/-- Erasing a member leaves the others where they were. -/
theorem member_erase_of_ne {v : PyValue} {name other : String} (hne : other ≠ name) :
    (v.erase name).member other = v.member other := by
  cases v with
  | dict members =>
      simp only [erase, member, List.find?_filter]
      congr 1
      apply List.find?_congr
      intro m _
      by_cases hkey : m.1.isName other = true
      · have hskip : m.1.isName name = false := by
          rw [Key.isName_iff] at hkey
          simp [Key.isName, hkey, hne]
        simp [hkey, hskip]
      · simp [hkey]
  | leaf x => rfl
  | list items => rfl

theorem field_erase_of_ne {v : PyValue} {name other : String} (hne : other ≠ name) :
    (v.erase name).field other = v.field other := by
  rw [field, field, member_erase_of_ne hne]

@[simp]
theorem isDict_erase {v : PyValue} {name : String} : (v.erase name).isDict = v.isDict := by
  cases v <;> rfl

/-- What is not a dict has nothing to erase. -/
theorem erase_of_not_isDict {v : PyValue} {name : String} (hv : ¬ v.isDict = true) :
    v.erase name = v := by
  cases v with
  | dict members => exact absurd rfl hv
  | leaf x => rfl
  | list items => rfl

/-- After erasing a member the exact list lacks it. -/
theorem hasMembers_erase {v : PyValue} {names : List String} (name : String)
    (hv : v.hasMembers names = true) :
    (v.erase name).hasMembers (names.filter fun other => other ≠ name) = true := by
  cases v with
  | dict members =>
      have hkeys := fun other (hother : other ∈ names) => hasKey_of_hasMembers hv hother
      rw [hasMembers, Bool.and_eq_true, List.all_eq_true] at hv
      rw [erase, hasMembers, Bool.and_eq_true, List.all_eq_true, List.all_eq_true]
      constructor
      · intro m hm
        rw [List.mem_filter, Bool.not_eq_true'] at hm
        obtain ⟨other, hother, hsame⟩ := List.any_eq_true.mp (hv.1 m hm.1)
        apply List.any_eq_true.mpr
        refine ⟨other, List.mem_filter.mpr ⟨hother, ?_⟩, hsame⟩
        have hne : other ≠ name := by
          rintro rfl
          rw [hsame] at hm
          cases hm.2
        simpa using hne
      · intro other hother
        obtain ⟨hmem, hne⟩ := List.mem_filter.mp hother
        have herase := member_erase_of_ne (v := .dict members) (of_decide_eq_true hne)
        rw [erase] at herase
        rw [hasKey, herase]
        exact hkeys other hmem
  | leaf x => cases hv
  | list items => cases hv

/-- A field that is a text is present, for the default is null. -/
theorem member_of_field_eq_str {v : PyValue} {name : String} {s : Text}
    (hfield : v.field name = .leaf (.str s)) : v.member name = some (.leaf (.str s)) := by
  unfold field at hfield
  cases hmember : v.member name with
  | none => simp [hmember] at hfield
  | some w => simpa [hmember] using hfield

/-! ## Assigning a member -/

section Assign

variable {v w u : PyValue} {name other : String}

@[simp]
theorem isDict_assign : (v.assign name w).isDict = v.isDict := by
  cases v with
  | dict members =>
      rw [assign]
      split_ifs <;> rfl
  | leaf x => rfl
  | list items => rfl

/-- An assignment in place keeps the keys. -/
private theorem isName_comp_assign :
    ((fun m : Key × PyValue => m.1.isName other) ∘
      fun m : Key × PyValue => if m.1.isName name then (m.1, w) else m) =
      fun m => m.1.isName other := by
  funext m
  simp only [Function.comp_apply]
  split_ifs <;> rfl

/-- Assigning a member leaves the others where they were. -/
theorem member_assign_of_ne (hne : other ≠ name) :
    (v.assign name w).member other = v.member other := by
  have hskip : Key.isName other (.str (text name)) = false := by
    simpa [Key.isName] using Ne.symm hne
  cases v with
  | dict members =>
      rw [assign]
      split_ifs with hany
      · rw [member, member, List.find?_map, Option.map_map, isName_comp_assign]
        cases hmember : members.find? fun m => m.1.isName other with
        | none => rfl
        | some m =>
            have hsame : m.1.isName other = true := by
              simpa using List.find?_some hmember
            have hkeep : m.1.isName name = false := by
              rw [Key.isName_iff.mp hsame]
              simpa [Key.isName] using hne
            simp [hkeep]
      · rw [member, member, List.find?_append]
        simp [hskip]
  | leaf x => rfl
  | list items => rfl

/-- What is assigned to a dict is found again. -/
theorem member_assign_self (hv : v.isDict = true) :
    (v.assign name w).member name = some w := by
  cases v with
  | dict members =>
      rw [assign]
      split_ifs with hany
      · rw [member, List.find?_map, Option.map_map, isName_comp_assign]
        cases hmember : members.find? fun m => m.1.isName name with
        | none =>
            obtain ⟨m, hm, hname⟩ := List.any_eq_true.mp hany
            exact absurd hname (List.find?_eq_none.mp hmember m hm)
        | some m =>
            have hname : m.1.isName name = true := by
              simpa using List.find?_some hmember
            simp [hname]
      · have hnone : (members.find? fun m => m.1.isName name) = none := by
          rw [List.find?_eq_none]
          intro m hm hname
          exact hany (List.any_eq_true.mpr ⟨m, hm, hname⟩)
        rw [member, List.find?_append, hnone]
        simp [Key.isName]
  | leaf x => cases hv
  | list items => cases hv

theorem field_assign_of_ne (hne : other ≠ name) :
    (v.assign name w).field other = v.field other := by
  rw [field, field, member_assign_of_ne hne]

theorem field_assign_self (hv : v.isDict = true) : (v.assign name w).field name = w := by
  rw [field, member_assign_self hv, Option.getD_some]

theorem hasKey_assign_of_ne (hne : other ≠ name) :
    (v.assign name w).hasKey other = v.hasKey other := by
  rw [hasKey, hasKey, member_assign_of_ne hne]

theorem hasKey_assign_self (hv : v.isDict = true) : (v.assign name w).hasKey name = true := by
  rw [hasKey, member_assign_self hv, Option.isSome_some]

/-- What is left without the member does not depend on its value. -/
theorem erase_assign : (v.assign name w).erase name = v.erase name := by
  cases v with
  | dict members =>
      rw [assign]
      split_ifs with hany
      · clear hany
        simp only [erase, Tree.dict.injEq]
        induction members with
        | nil => rfl
        | cons m members ih =>
            by_cases hname : m.1.isName name = true
            · simpa [hname] using ih
            · simpa [hname] using ih
      · simp [erase, Key.isName]
  | leaf x => rfl
  | list items => rfl

end Assign

/-! ## What a member inherits -/

section Inherits

variable {v w : PyValue} {name : String}

theorem admits_member {leafOk : Atom → Prop} {keyOk : Key → Prop}
    (hv : v.Admits leafOk keyOk) (hmember : v.member name = some w) :
    w.Admits leafOk keyOk := by
  cases v with
  | dict members => exact ((Tree.admits_dict members).mp hv _ (mem_of_member hmember)).2
  | leaf x => cases hmember
  | list items => cases hmember

/-- A member of a well-formed dict is well formed. -/
theorem wellFormed_member (hv : v.WellFormed) (hmember : v.member name = some w) :
    w.WellFormed := by
  cases v with
  | dict members => exact ((Tree.wellFormed_dict members).mp hv).2 _ (mem_of_member hmember)
  | leaf x => cases hmember
  | list items => cases hmember

/-- Erasing a member keeps what holds of all leaves and keys. -/
theorem admits_erase {leafOk : Atom → Prop} {keyOk : Key → Prop}
    (hv : v.Admits leafOk keyOk) : (v.erase name).Admits leafOk keyOk := by
  cases v with
  | dict members =>
      rw [erase, Tree.admits_dict]
      exact fun m hm => (Tree.admits_dict members).mp hv m (List.mem_filter.mp hm).1
  | leaf x => exact hv
  | list items => exact hv

theorem wellFormed_erase (hv : v.WellFormed) : (v.erase name).WellFormed := by
  cases v with
  | dict members =>
      rw [Tree.wellFormed_dict] at hv
      rw [erase, Tree.wellFormed_dict]
      refine ⟨hv.1.sublist ((List.filter_sublist).map _), ?_⟩
      exact fun m hm => hv.2 m (List.mem_filter.mp hm).1
  | leaf x => exact hv
  | list items => exact hv

/-- The keys after an assignment to a name that is there are those before. -/
theorem keys_assign_in_place {members : List (Key × PyValue)} :
    (members.map fun m : Key × PyValue => if m.1.isName name then (m.1, w) else m).map
      Prod.fst = members.map Prod.fst := by
  rw [List.map_map]
  apply List.map_congr_left
  intro m _
  simp only [Function.comp_apply]
  split_ifs <;> rfl

/-- Assigning an admitted value keeps what holds of all leaves and keys. -/
theorem admits_assign {leafOk : Atom → Prop} {keyOk : Key → Prop}
    (hkey : keyOk (.str (text name))) (hv : v.Admits leafOk keyOk)
    (hw : w.Admits leafOk keyOk) : (v.assign name w).Admits leafOk keyOk := by
  cases v with
  | dict members =>
      have hmembers := (Tree.admits_dict members).mp hv
      rw [assign]
      split_ifs
      · apply (Tree.admits_dict _).mpr
        intro m hm
        obtain ⟨m', hm', rfl⟩ := List.mem_map.mp hm
        split_ifs
        · exact ⟨(hmembers m' hm').1, hw⟩
        · exact hmembers m' hm'
      · apply (Tree.admits_dict _).mpr
        intro m hm
        rcases List.mem_append.mp hm with hm | hm
        · exact hmembers m hm
        · rw [List.mem_singleton.mp hm]
          exact ⟨hkey, hw⟩
  | leaf x => exact hv
  | list items => exact hv

/-- Assigning a member never repeats a key. -/
theorem wellFormed_assign (hv : v.WellFormed) (hw : w.WellFormed) :
    (v.assign name w).WellFormed := by
  cases v with
  | dict members =>
      obtain ⟨hnodup, hmembers⟩ := (Tree.wellFormed_dict members).mp hv
      rw [assign]
      split_ifs with hany
      · refine (Tree.wellFormed_dict _).mpr ⟨?_, ?_⟩
        · rw [keys_assign_in_place]
          exact hnodup
        · intro m hm
          obtain ⟨m', hm', rfl⟩ := List.mem_map.mp hm
          split_ifs
          · exact hw
          · exact hmembers m' hm'
      · refine (Tree.wellFormed_dict _).mpr ⟨?_, ?_⟩
        · rw [List.map_append, List.nodup_append]
          refine ⟨hnodup, by simp, ?_⟩
          intro key hkey last hlast heq
          obtain ⟨m, hm, rfl⟩ := List.mem_map.mp hkey
          rw [List.map_cons, List.map_nil, List.mem_singleton] at hlast
          exact hany (List.any_eq_true.mpr ⟨m, hm, Key.isName_iff.mpr (heq.trans hlast)⟩)
        · intro m hm
          rcases List.mem_append.mp hm with hm | hm
          · exact hmembers m hm
          · rw [List.mem_singleton.mp hm]
            exact hw
  | leaf x => exact hv
  | list items => exact hv

/-- Assigning one of the named members keeps the exact list. -/
theorem hasMembers_assign {names : List String} (hname : name ∈ names)
    (hv : v.hasMembers names = true) : (v.assign name w).hasMembers names = true := by
  have hkeys : ∀ other ∈ names, (v.assign name w).hasKey other = true := by
    intro other hother
    by_cases heq : other = name
    · rw [heq, hasKey_assign_self (isDict_of_hasMembers hv)]
    · rw [hasKey_assign_of_ne heq]
      exact hasKey_of_hasMembers hv hother
  cases v with
  | dict members =>
      have hany : (members.any fun m => m.1.isName name) = true := by
        obtain ⟨u, hmember⟩ := hasKey_iff.mp (hasKey_of_hasMembers hv hname)
        exact List.any_eq_true.mpr ⟨_, mem_of_member hmember, by simp [Key.isName]⟩
      rw [hasMembers, Bool.and_eq_true, List.all_eq_true] at hv
      rw [assign, if_pos hany] at hkeys ⊢
      rw [hasMembers, Bool.and_eq_true, List.all_eq_true, List.all_eq_true]
      refine ⟨?_, hkeys⟩
      intro m hm
      obtain ⟨m', hm', rfl⟩ := List.mem_map.mp hm
      split_ifs
      · exact hv.1 m' hm'
      · exact hv.1 m' hm'
  | leaf x => cases hv
  | list items => cases hv

end Inherits

end PyValue

end TraigentSchema.Python
