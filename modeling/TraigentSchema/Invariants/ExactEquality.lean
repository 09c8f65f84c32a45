import TraigentSchema.Invariants.Prevalidation
import TraigentSchema.Python.Equality

/-!
# Exact structural equality

The comparison of two subtrees of a payload.  Both are walked as a whole before the first
two values are compared; then types have to agree exactly, numbers and strings have to be
equal, lists agree item by item and dicts key by key.  On subtrees that can be judged the
outcome is equality of the values they unfold to.
-/

namespace TraigentSchema.Invariants

open TraigentSchema.Python
open TraigentSchema.Traverse
open TraigentSchema.Unicode
open TraigentSchema.Binary64

/-! ## The values that are compared -/

/-- A JSON value whose numbers keep their type and whose members have no order. -/
inductive ExactValue where
  | leaf (x : Atom)
  | list (items : List ExactValue)
  | dict (members : Text → Option ExactValue)

/-- The atom without the sign of a zero. -/
def exactAtom : Atom → Atom
  | .float (.finite negative m) => .float (.finite (negative && m != .zero) m)
  | x => x

/-- The value under a key. -/
def lookupKey {V : Type*} (rows : List (Key × V)) (key : Key) : Option V :=
  (rows.find? fun row => keyEq key row.1).map Prod.snd

def exactValue : PyValue → ExactValue :=
  Tree.fold (fun x => .leaf (exactAtom x)) .list
    (fun rows => .dict fun name => lookupKey rows (.str name))

@[simp]
theorem exactValue_leaf (x : Atom) : exactValue (.leaf x) = .leaf (exactAtom x) := by
  simp [exactValue]

@[simp]
theorem exactValue_list (items : List PyValue) :
    exactValue (.list items) = .list (items.map exactValue) := by
  simp [exactValue]

theorem exactValue_dict (members : List (Key × PyValue)) :
    exactValue (.dict members) = .dict fun name =>
      lookupKey (members.map fun member => (member.1, exactValue member.2)) (.str name) := by
  simp [exactValue]

theorem lookupKey_map {V W : Type*} (f : V → W) (rows : List (Key × V)) (key : Key) :
    lookupKey (rows.map fun row => (row.1, f row.2)) key = (lookupKey rows key).map f := by
  simp [lookupKey, List.find?_map, Function.comp_def]

theorem keyEq_str {k l : Key} (hk : StrKey k) (hl : StrKey l) : keyEq k l = true ↔ k = l := by
  cases k with
  | foreign o => exact hk.elim
  | str s =>
      cases l with
      | foreign o => exact hl.elim
      | str t => simp [keyEq]

theorem lookupKey_eq_some_iff {V : Type*} {rows : List (Key × V)} {key : Key} {v : V}
    (hnodup : (rows.map Prod.fst).Nodup) (hrows : ∀ row ∈ rows, StrKey row.1)
    (hkey : StrKey key) : lookupKey rows key = some v ↔ (key, v) ∈ rows := by
  induction rows with
  | nil => simp [lookupKey]
  | cons row rows ih =>
      rw [List.map_cons, List.nodup_cons] at hnodup
      rw [List.forall_mem_cons] at hrows
      have hrest := ih hnodup.2 hrows.2
      rw [lookupKey, List.find?_cons]
      by_cases heq : key = row.1
      · rw [(keyEq_str hkey hrows.1).mpr heq]
        have habsent : (key, v) ∉ rows := fun hmem =>
          hnodup.1 (List.mem_map.mpr ⟨(key, v), hmem, heq⟩)
        simp only [Option.map_some, Option.some.injEq, List.mem_cons, habsent, or_false]
        exact ⟨fun hv => by rw [heq, ← hv], fun hrow => congrArg Prod.snd hrow.symm⟩
      · have hskip : keyEq key row.1 = false :=
          Bool.eq_false_iff.mpr fun htrue => heq ((keyEq_str hkey hrows.1).mp htrue)
        rw [hskip, ← lookupKey, hrest, List.mem_cons]
        exact (or_iff_right fun hrow => heq (congrArg Prod.fst hrow)).symm

section Dicts

variable {left right : List (Key × PyValue)} (hleftNodup : (left.map Prod.fst).Nodup)
  (hrightNodup : (right.map Prod.fst).Nodup) (hleft : ∀ row ∈ left, StrKey row.1)
  (hright : ∀ row ∈ right, StrKey row.1)

include hleftNodup hrightNodup hleft hright in
/-- Two dicts are equal when they have as many members and the members of one are
members of the other. -/
theorem exactValue_dict_eq_iff :
    exactValue (.dict left) = exactValue (.dict right) ↔
      left.length = right.length ∧ ∀ row ∈ left, ∃ w, lookupKey right row.1 = some w ∧
        exactValue row.2 = exactValue w := by
  simp only [exactValue_dict, ExactValue.dict.injEq, funext_iff, lookupKey_map]
  have hlookup : ∀ {row : Key × PyValue}, row ∈ left → lookupKey left row.1 = some row.2 :=
    fun hrow => (lookupKey_eq_some_iff hleftNodup hleft (hleft _ hrow)).mpr hrow
  constructor
  · intro heq
    have hfound : ∀ row ∈ left, ∃ w, lookupKey right row.1 = some w ∧
        exactValue row.2 = exactValue w := by
      intro row hrow
      have hkey := hleft row hrow
      cases hname : row.1 with
      | foreign o => exact (hname ▸ hkey).elim
      | str name =>
          have hsame := heq name
          rw [← hname, hlookup hrow, Option.map_some, eq_comm, Option.map_eq_some_iff] at hsame
          obtain ⟨w, hw, hvalue⟩ := hsame
          exact ⟨w, hname ▸ hw, hvalue.symm⟩
    refine ⟨?_, hfound⟩
    have hsubset : right.map Prod.fst ⊆ left.map Prod.fst := by
      intro key hmem
      obtain ⟨row, hrow, rfl⟩ := List.mem_map.mp hmem
      have hkey := hright row hrow
      have hrowLookup := (lookupKey_eq_some_iff hrightNodup hright hkey).mpr hrow
      cases hname : row.1 with
      | foreign o => exact (hname ▸ hkey).elim
      | str name =>
          have hsame := heq name
          rw [← hname, hrowLookup, Option.map_some, Option.map_eq_some_iff] at hsame
          obtain ⟨w, hw, -⟩ := hsame
          have hwmem := (lookupKey_eq_some_iff hleftNodup hleft hkey).mp hw
          exact List.mem_map.mpr ⟨_, hwmem, hname⟩
    have hsubset' : left.map Prod.fst ⊆ right.map Prod.fst := by
      intro key hmem
      obtain ⟨row, hrow, rfl⟩ := List.mem_map.mp hmem
      obtain ⟨w, hw, -⟩ := hfound row hrow
      have hwmem := (lookupKey_eq_some_iff hrightNodup hright (hleft row hrow)).mp hw
      exact List.mem_map.mpr ⟨_, hwmem, rfl⟩
    have hle := (List.subperm_of_subset hleftNodup hsubset').length_le
    have hge := (List.subperm_of_subset hrightNodup hsubset).length_le
    simpa using le_antisymm hle hge
  · rintro ⟨hlength, hfound⟩ name
    have hsubset : left.map Prod.fst ⊆ right.map Prod.fst := by
      intro key hmem
      obtain ⟨row, hrow, rfl⟩ := List.mem_map.mp hmem
      obtain ⟨w, hw, -⟩ := hfound row hrow
      have hwmem := (lookupKey_eq_some_iff hrightNodup hright (hleft row hrow)).mp hw
      exact List.mem_map.mpr ⟨_, hwmem, rfl⟩
    have hperm : (left.map Prod.fst).Perm (right.map Prod.fst) :=
      (List.subperm_of_subset hleftNodup hsubset).perm_of_length_le (by simp [hlength])
    have hkey : StrKey (.str name) := trivial
    cases hcase : lookupKey left (.str name) with
    | some v =>
        have hmem := (lookupKey_eq_some_iff hleftNodup hleft hkey).mp hcase
        obtain ⟨w, hw, hvalue⟩ := hfound _ hmem
        rw [hw, Option.map_some, Option.map_some, hvalue]
    | none =>
        cases hother : lookupKey right (.str name) with
        | none => rfl
        | some w =>
            have hmem := (lookupKey_eq_some_iff hrightNodup hright hkey).mp hother
            obtain ⟨row, hrow, hname⟩ := List.mem_map.mp
              (hperm.mem_iff.mpr (List.mem_map_of_mem hmem))
            have hsome := hlookup hrow
            rw [hname, hcase] at hsome
            cases hsome

end Dicts

/-! ## Scalars -/

/-- `type(left) is type(right)`, for two scalars. -/
def sameType : Atom → Atom → Bool
  | .none, .none => true
  | .bool _, .bool _ => true
  | .int _, .int _ => true
  | .float _, .float _ => true
  | .str _, .str _ => true
  | _, _ => false

theorem floatValue_eq_iff {negative negative' : Bool} {m m' : Magnitude} :
    Fp2.floatValue negative m = Fp2.floatValue negative' m' ↔
      m = m' ∧ (negative && m != .zero) = (negative' && m' != .zero) := by
  by_cases hm : m = .zero
  · rw [Fp2.floatValue_eq_zero_iff.mpr hm, eq_comm, Fp2.floatValue_eq_zero_iff, hm, eq_comm]
    simp +contextual
  · constructor
    · intro heq
      obtain ⟨rfl, rfl⟩ := Fp2.floatValue_injOn heq hm
      exact ⟨rfl, rfl⟩
    · rintro ⟨rfl, hsign⟩
      have hne : (m != .zero) = true := by simpa using hm
      rw [hne, Bool.and_true, Bool.and_true] at hsign
      rw [hsign]

theorem exactAtom_eq_iff {x y : Atom} (hx : JudgedAtom x) (hy : JudgedAtom y) :
    exactAtom x = exactAtom y ↔ sameType x y = true ∧ atomEq x y = true := by
  cases x with
  | float value =>
      cases value with
      | finite negative m =>
          cases y with
          | float value' =>
              cases value' with
              | finite negative' m' =>
                  simp only [exactAtom, sameType, atomEq, Atom.number, Atom.float.injEq,
                    Double.finite.injEq, beq_iff_eq, true_and, floatValue_eq_iff]
                  exact and_comm
              | _ => exact hy.elim
          | _ => simp [exactAtom, sameType]
      | _ => exact hx.elim
  | foreign o => exact hx.elim
  | bool b =>
      cases y with
      | bool c => cases b <;> cases c <;> simp [exactAtom, sameType, atomEq, Atom.number]
      | float value' => cases value' <;> simp [exactAtom, sameType]
      | _ => simp [exactAtom, sameType]
  | _ =>
      cases y with
      | float value' => cases value' <;> simp [exactAtom, sameType]
      | _ => simp [exactAtom, sameType, atomEq, Atom.number]

/-! ## The comparison -/

section Comparison

variable {A : Type}

/-- `_expand_validated_pair` after the comparison of the types; no pairs stand for
`False`.  Two key sets differ when their sizes do or a key of the left one is not in the
right one. -/
def expandValidatedPair (h : Heap A) : Ref A → Ref A → Option (List (Ref A × Ref A))
  | .atom x, .atom y => if sameType x y ∧ atomEq x y then some [] else none
  | .node a, .node b =>
      match h a, h b with
      | .dict left, .dict right =>
          if left.items.length = right.items.length then
            left.items.mapM fun member =>
              (lookupKey right.items member.1).map (Prod.mk member.2)
          else none
      | .list left, .list right =>
          if left.length = right.length then some (left.zip right) else none
      | _, _ => none
  | _, _ => none

/-- The loop of `_compare_validated`; the next pair stands first.  The bound is the number of
pairs it may look at. -/
def compareWithin (h : Heap A) : (bound : ℕ) → List (Ref A × Ref A) → Option Bool
  | _, [] => some true
  | 0, _ :: _ => none
  | bound + 1, (left, right) :: work =>
      match expandValidatedPair h left right with
      | none => some false
      | some pairs => compareWithin h bound (pairs.reverse ++ work)

theorem nodes_pos (v : PyValue) : 0 < nodes v := by
  cases v with
  | leaf x => simp [nodes]
  | list items => simp [nodes_list]
  | dict members => simp [nodes_dict]

/-- Both sides of a pair unfold, to trees that can be judged. -/
structure JudgedPair (h : Heap A) (pair : Ref A × Ref A) (trees : PyValue × PyValue) : Prop where
  left : Unfolds h pair.1 trees.1
  right : Unfolds h pair.2 trees.2
  leftAdmits : trees.1.Admits JudgedAtom StrKey
  rightAdmits : trees.2.Admits JudgedAtom StrKey

/-- What an expansion says about the trees of its pair: they differ, or they are equal
exactly when those of the new pairs are, and these have fewer values. -/
def Expansion (h : Heap A) (v w : PyValue) : Option (List (Ref A × Ref A)) → Prop
  | none => exactValue v ≠ exactValue w
  | some pairs => ∃ trees, List.Forall₂ (JudgedPair h) pairs trees ∧
      (trees.map fun tree => nodes tree.1).sum + 1 = nodes v ∧
      (exactValue v = exactValue w ↔
        ∀ tree ∈ trees, exactValue tree.1 = exactValue tree.2)

variable {h : Heap A}

theorem expansion_atoms {x y : Atom} (hx : JudgedAtom x) (hy : JudgedAtom y) :
    Expansion h (.leaf x) (.leaf y) (expandValidatedPair h (.atom x) (.atom y)) := by
  have hiff := exactAtom_eq_iff hx hy
  rw [expandValidatedPair]
  split_ifs with hsame
  · refine ⟨[], .nil, ?_, ?_⟩
    · simp [nodes]
    · simpa using hiff.mpr hsame
  · simpa [Expansion, hiff] using hsame

theorem judgedPairs {pairs : List (Ref A × Ref A)} {trees : List (PyValue × PyValue)}
    (hpairs : List.Forall₂ (fun pair tree => Unfolds h pair.1 tree.1 ∧ Unfolds h pair.2 tree.2)
      pairs trees)
    (htrees : ∀ tree ∈ trees,
      tree.1.Admits JudgedAtom StrKey ∧ tree.2.Admits JudgedAtom StrKey) :
    List.Forall₂ (JudgedPair h) pairs trees :=
  forall₂_imp_of_mem hpairs fun _ _ tree htree hunfolds =>
    ⟨hunfolds.1, hunfolds.2, (htrees tree htree).1, (htrees tree htree).2⟩

theorem expansion_lists {left right : List (Ref A)} {a b : A} {values others : List PyValue}
    (hleft : h a = .list left) (hright : h b = .list right)
    (hvalues : List.Forall₂ (Unfolds h) left values)
    (hothers : List.Forall₂ (Unfolds h) right others)
    (hadmits : ∀ value ∈ values, value.Admits JudgedAtom StrKey)
    (hadmits' : ∀ value ∈ others, value.Admits JudgedAtom StrKey) :
    Expansion h (.list values) (.list others) (expandValidatedPair h (.node a) (.node b)) := by
  simp only [expandValidatedPair, hleft, hright]
  split_ifs with hlength
  · have hsame : values.length = others.length :=
      hvalues.length_eq.symm.trans (hlength.trans hothers.length_eq)
    refine ⟨values.zip others, ?_, ?_, ?_⟩
    · apply judgedPairs (forall₂_zip_zip hvalues hothers)
      rintro ⟨value, other⟩ hmem
      obtain ⟨hvalue, hother⟩ := List.of_mem_zip hmem
      exact ⟨hadmits value hvalue, hadmits' other hother⟩
    · have hmap : (values.zip others).map (fun tree => nodes tree.1) = values.map nodes := by
        have hfst := List.map_map (f := Prod.fst) (g := nodes) (l := values.zip others)
        rw [List.map_fst_zip hsame.le] at hfst
        exact hfst.symm
      rw [nodes_list, hmap]
    · simp only [exactValue_list, ExactValue.list.injEq]
      rw [map_eq_map_iff_forall₂, List.forall₂_iff_zip]
      exact ⟨fun hall tree htree => hall.2 htree,
        fun hall => ⟨hsame, fun hmem => hall _ hmem⟩⟩
  · intro heq
    simp only [exactValue_list, ExactValue.list.injEq] at heq
    have hsame : values.length = others.length := by simpa using congrArg List.length heq
    exact hlength (hvalues.length_eq.trans (hsame.trans hothers.length_eq.symm))

theorem lookupKey_of_memberUnfolds {rows : List (Key × Ref A)} {values : List (Key × PyValue)}
    {key : Key} (hrows : List.Forall₂ (MemberUnfolds h) rows values) :
    (lookupKey rows key = none ∧ lookupKey values key = none) ∨
      ∃ r w, lookupKey rows key = some r ∧ lookupKey values key = some w ∧ Unfolds h r w := by
  induction hrows with
  | nil => simp [lookupKey]
  | @cons row value rows values hrow _ ih =>
      cases hkey : keyEq key row.1 with
      | true =>
          have hkey' : keyEq key value.1 = true := hrow.1 ▸ hkey
          exact .inr ⟨row.2, value.2, by simp [lookupKey, hkey], by simp [lookupKey, hkey'],
            hrow.2⟩
      | false =>
          have hkey' : keyEq key value.1 = false := hrow.1 ▸ hkey
          simpa [lookupKey, hkey, hkey'] using ih

/-- The pairs of trees of two dicts with the same keys. -/
def memberTrees (values others : List (Key × PyValue)) : List (PyValue × PyValue) :=
  values.map fun value => (value.2, (lookupKey others value.1).getD (.leaf .none))

theorem expansion_dicts {left right : Dict (Ref A)} {a b : A}
    {values others : List (Key × PyValue)}
    (hleft : h a = .dict left) (hright : h b = .dict right)
    (hvalues : List.Forall₂ (MemberUnfolds h) left.items values)
    (hothers : List.Forall₂ (MemberUnfolds h) right.items others)
    (hadmits : ∀ value ∈ values, StrKey value.1 ∧ value.2.Admits JudgedAtom StrKey)
    (hadmits' : ∀ value ∈ others, StrKey value.1 ∧ value.2.Admits JudgedAtom StrKey) :
    Expansion h (.dict values) (.dict others) (expandValidatedPair h (.node a) (.node b)) := by
  have hiff := exactValue_dict_eq_iff (map_fst_of_memberUnfolds hvalues ▸ left.nodup)
    (map_fst_of_memberUnfolds hothers ▸ right.nodup) (fun row hrow => (hadmits row hrow).1)
    (fun row hrow => (hadmits' row hrow).1)
  have hlengths : left.items.length = right.items.length ↔ values.length = others.length := by
    rw [hvalues.length_eq, hothers.length_eq]
  simp only [expandValidatedPair, hleft, hright]
  split_ifs with hlength
  · cases hpairs : left.items.mapM fun member =>
        (lookupKey right.items member.1).map (Prod.mk member.2) with
    | none =>
        intro heq
        obtain ⟨-, hfound⟩ := hiff.mp heq
        obtain ⟨pairs, hsome⟩ := forall₂_of_forall_exists
          (P := fun (member : Key × Ref A) pair =>
            (lookupKey right.items member.1).map (Prod.mk member.2) = some pair)
          fun member (hmember : member ∈ left.items) => by
            obtain ⟨value, hvalue, hkey, -⟩ := exists_of_mem_left hvalues hmember
            obtain ⟨w, hw, -⟩ := hfound value hvalue
            rcases @lookupKey_of_memberUnfolds A h _ _ value.1 hothers with
              ⟨-, hnone⟩ | ⟨r, -, hr, -, -⟩
            · simp [hnone] at hw
            · exact ⟨(member.2, r), by rw [hkey, hr, Option.map_some]⟩
        rw [mapM_eq_some_iff.mpr hsome] at hpairs
        cases hpairs
    | some pairs =>
        have hpairs' := mapM_eq_some_iff.mp hpairs
        have hmatch : List.Forall₂ (fun value pair => Unfolds h pair.1 value.2 ∧
            ∃ w, lookupKey others value.1 = some w ∧ Unfolds h pair.2 w) values pairs := by
          refine forall₂_of_common hvalues hpairs' ?_
          intro member _ value _ pair hmember hpair
          obtain ⟨r, hr, rfl⟩ := Option.map_eq_some_iff.mp hpair
          rcases @lookupKey_of_memberUnfolds A h _ _ member.1 hothers with
            ⟨hnone, -⟩ | ⟨r', w, hr', hw, hunfolds⟩
          · simp [hnone] at hr
          · obtain rfl : r' = r := Option.some.inj (hr'.symm.trans hr)
            exact ⟨hmember.2, w, hmember.1 ▸ hw, hunfolds⟩
        have htrees : List.Forall₂ (fun pair tree =>
            Unfolds h pair.1 tree.1 ∧ Unfolds h pair.2 tree.2) pairs
              (memberTrees values others) := by
          rw [memberTrees, List.forall₂_map_right_iff]
          refine (hmatch.imp ?_).flip
          rintro value pair ⟨hunfolds, w, hw, hunfolds'⟩
          refine ⟨hunfolds, ?_⟩
          rw [hw]
          exact hunfolds'
        refine ⟨memberTrees values others, judgedPairs htrees ?_, ?_, ?_⟩
        · intro tree htree
          obtain ⟨value, hvalue, rfl⟩ := List.mem_map.mp htree
          refine ⟨(hadmits value hvalue).2, ?_⟩
          obtain ⟨pair, -, -, w, hw, -⟩ := exists_of_mem_left hmatch hvalue
          rw [hw]
          have hmem := (lookupKey_eq_some_iff (map_fst_of_memberUnfolds hothers ▸ right.nodup)
            (fun row hrow => (hadmits' row hrow).1) (hadmits value hvalue).1).mp hw
          exact (hadmits' _ hmem).2
        · rw [nodes_dict, memberTrees, List.map_map]
          rfl
        · rw [hiff, ← hlengths]
          simp only [hlength, true_and, memberTrees, List.forall_mem_map]
          refine forall₂_congr fun value hvalue => ?_
          obtain ⟨pair, -, -, w, hw, -⟩ := exists_of_mem_left hmatch hvalue
          simp [hw]
  · exact fun heq => hlength (hlengths.mpr (hiff.mp heq).1)

/-- One pair of values that can be judged. -/
theorem expansion_of_judgedPair {pair : Ref A × Ref A} {v w : PyValue}
    (hpair : JudgedPair h pair (v, w)) :
    Expansion h v w (expandValidatedPair h pair.1 pair.2) := by
  obtain ⟨left, right⟩ := pair
  obtain ⟨hleft, hright, hleftAdmits, hrightAdmits⟩ := hpair
  cases left with
  | atom x =>
      obtain rfl := unfolds_atom.mp hleft
      cases right with
      | atom y =>
          obtain rfl := unfolds_atom.mp hright
          exact expansion_atoms ((Tree.admits_leaf x).mp hleftAdmits)
            ((Tree.admits_leaf y).mp hrightAdmits)
      | node b =>
          cases hb : h b with
          | list items =>
              obtain ⟨others, rfl, -⟩ := (unfolds_list hb).mp hright
              simp [expandValidatedPair, Expansion]
          | dict members =>
              obtain ⟨others, rfl, -⟩ := (unfolds_dict hb).mp hright
              simp [expandValidatedPair, Expansion, exactValue_dict]
  | node a =>
      cases ha : h a with
      | list items =>
          obtain ⟨values, rfl, hvalues⟩ := (unfolds_list ha).mp hleft
          cases right with
          | atom y =>
              obtain rfl := unfolds_atom.mp hright
              simp [expandValidatedPair, Expansion]
          | node b =>
              cases hb : h b with
              | list items' =>
                  obtain ⟨others, rfl, hothers⟩ := (unfolds_list hb).mp hright
                  exact expansion_lists ha hb hvalues hothers
                    ((Tree.admits_list values).mp hleftAdmits)
                    ((Tree.admits_list others).mp hrightAdmits)
              | dict members =>
                  obtain ⟨others, rfl, -⟩ := (unfolds_dict hb).mp hright
                  simp [expandValidatedPair, ha, hb, Expansion, exactValue_dict]
      | dict members =>
          obtain ⟨values, rfl, hvalues⟩ := (unfolds_dict ha).mp hleft
          cases right with
          | atom y =>
              obtain rfl := unfolds_atom.mp hright
              simp [expandValidatedPair, Expansion, exactValue_dict]
          | node b =>
              cases hb : h b with
              | list items' =>
                  obtain ⟨others, rfl, -⟩ := (unfolds_list hb).mp hright
                  simp [expandValidatedPair, ha, hb, Expansion, exactValue_dict]
              | dict members' =>
                  obtain ⟨others, rfl, hothers⟩ := (unfolds_dict hb).mp hright
                  exact expansion_dicts ha hb hvalues hothers
                    ((Tree.admits_dict values).mp hleftAdmits)
                    ((Tree.admits_dict others).mp hrightAdmits)

/-- The loop looks at no pair twice, so the values on the left bound it. -/
theorem compareWithin_eq_some {bound : ℕ} {work : List (Ref A × Ref A)}
    {trees : List (PyValue × PyValue)} (hwork : List.Forall₂ (JudgedPair h) work trees)
    (hbound : (trees.map fun tree => nodes tree.1).sum ≤ bound) :
    ∃ b, compareWithin h bound work = some b ∧
      (b = true ↔ ∀ tree ∈ trees, exactValue tree.1 = exactValue tree.2) := by
  induction bound generalizing work trees with
  | zero =>
      cases hwork with
      | nil => exact ⟨true, rfl, by simp⟩
      | @cons pair tree work trees hpair hwork =>
          have hexpansion := expansion_of_judgedPair hpair
          rw [List.map_cons, List.sum_cons] at hbound
          have hpos := nodes_pos tree.1
          omega
  | succ bound ih =>
      cases hwork with
      | nil => exact ⟨true, rfl, by simp⟩
      | @cons pair tree work trees hpair hwork =>
          have hexpansion := expansion_of_judgedPair hpair
          rw [List.map_cons, List.sum_cons] at hbound
          rw [compareWithin]
          cases hcase : expandValidatedPair h pair.1 pair.2 with
          | none =>
              rw [hcase] at hexpansion
              have hne : exactValue tree.1 ≠ exactValue tree.2 := hexpansion
              exact ⟨false, rfl, by simp [hne]⟩
          | some pairs =>
              rw [hcase] at hexpansion
              obtain ⟨rest, hrest, hnodes, hiff⟩ := hexpansion
              obtain ⟨b, hb, hbiff⟩ := @ih _ (rest.reverse ++ trees)
                (List.rel_append (List.rel_reverse hrest) hwork) (by
                  rw [List.map_append, List.sum_append, List.map_reverse, List.sum_reverse]
                  omega)
              refine ⟨b, hb, hbiff.trans ?_⟩
              simp [hiff, or_imp, forall_and]

theorem Judgeable.compareWithin_eq_some {left right : Ref A} (hleft : Judgeable h left)
    (hright : Judgeable h right) :
    ∃ b, compareWithin h maxComparisonNodes [(left, right)] = some b ∧
      ∀ v w, Unfolds h left v → Unfolds h right w →
        (b = true ↔ exactValue v = exactValue w) := by
  obtain ⟨v, hv, -, hnodes, hvAdmits⟩ := hleft
  obtain ⟨w, hw, -, -, hwAdmits⟩ := hright
  have hpair : JudgedPair h (left, right) (v, w) := ⟨hv, hw, hvAdmits, hwAdmits⟩
  obtain ⟨b, hb, hiff⟩ := Invariants.compareWithin_eq_some (h := h) (.cons hpair .nil)
    (show ([(v, w)].map fun tree => nodes tree.1).sum ≤ maxComparisonNodes by simpa using hnodes)
  refine ⟨b, hb, fun v' w' hv' hw' => ?_⟩
  rw [hv'.unique hv, hw'.unique hw, hiff]
  simp

/-- `_compare_validated`, which has to be called on validated subtrees. -/
def compareValidated (h : Heap A) {left right : Ref A} (hleft : Judgeable h left)
    (hright : Judgeable h right) : Bool :=
  (compareWithin h maxComparisonNodes [(left, right)]).get (by
    obtain ⟨b, hb, -⟩ := hleft.compareWithin_eq_some hright
    rw [hb]
    rfl)

theorem compareValidated_iff {left right : Ref A} (hleft : Judgeable h left)
    (hright : Judgeable h right) {v w : PyValue} (hv : Unfolds h left v)
    (hw : Unfolds h right w) :
    compareValidated h hleft hright = true ↔ exactValue v = exactValue w := by
  obtain ⟨b, hb, hiff⟩ := hleft.compareWithin_eq_some hright
  rw [compareValidated, Option.get_of_eq_some _ hb]
  exact hiff v w hv hw

variable [DecidableEq A]

def exactStructuralEqual (h : Heap A) (left right : Ref A) : Except Raised Bool :=
  match hleft : prevalidateCanonical h left, hright : prevalidateCanonical h right with
  | .error e, _ => .error e
  | .ok _, .error e => .error e
  | .ok _, .ok _ => .ok (compareValidated h (prevalidateCanonical_eq_ok_iff.mp hleft)
      (prevalidateCanonical_eq_ok_iff.mp hright))

theorem exactStructuralEqual_of_judgeable {left right : Ref A} (hleft : Judgeable h left)
    (hright : Judgeable h right) :
    exactStructuralEqual h left right = .ok (compareValidated h hleft hright) := by
  have hleftOk := prevalidateCanonical_eq_ok_iff.mpr hleft
  have hrightOk := prevalidateCanonical_eq_ok_iff.mpr hright
  unfold exactStructuralEqual
  split
  · simp_all
  · simp_all
  · rfl

/-- A side that cannot be judged is refused, whatever the other side is. -/
theorem exactStructuralEqual_refuses {left right : Ref A}
    (hunjudged : ¬ (Judgeable h left ∧ Judgeable h right)) :
    ∃ e, exactStructuralEqual h left right = .error e ∧ e.IsRefusal := by
  unfold exactStructuralEqual
  split
  · rename_i e hleft
    by_cases hjudged : Judgeable h left
    · rw [prevalidateCanonical_eq_ok_iff.mpr hjudged] at hleft
      cases hleft
    · obtain ⟨e', he', hrefusal⟩ := prevalidateCanonical_refuses hjudged
      rw [he', Except.error.injEq] at hleft
      exact ⟨e, rfl, hleft ▸ hrefusal⟩
  · rename_i e _ hright
    by_cases hjudged : Judgeable h right
    · rw [prevalidateCanonical_eq_ok_iff.mpr hjudged] at hright
      cases hright
    · obtain ⟨e', he', hrefusal⟩ := prevalidateCanonical_refuses hjudged
      rw [he', Except.error.injEq] at hright
      exact ⟨e, rfl, hright ▸ hrefusal⟩
  · rename_i hleft hright
    exact absurd ⟨prevalidateCanonical_eq_ok_iff.mp hleft,
      prevalidateCanonical_eq_ok_iff.mp hright⟩ hunjudged

theorem judgeable_of_exactStructuralEqual {left right : Ref A} {b : Bool}
    (hequal : exactStructuralEqual h left right = .ok b) :
    Judgeable h left ∧ Judgeable h right := by
  by_contra hunjudged
  obtain ⟨e, he, -⟩ := exactStructuralEqual_refuses hunjudged
  rw [he] at hequal
  cases hequal

theorem exactStructuralEqual_eq_true_iff {left right : Ref A} {v w : PyValue}
    (hleft : Judgeable h left) (hright : Judgeable h right) (hv : Unfolds h left v)
    (hw : Unfolds h right w) :
    exactStructuralEqual h left right = .ok true ↔ exactValue v = exactValue w := by
  rw [exactStructuralEqual_of_judgeable hleft hright, Except.ok.injEq,
    compareValidated_iff hleft hright hv hw]

/-- Both subtrees can be judged, and they unfold to one value. -/
def SameValue (h : Heap A) (left right : Ref A) : Prop :=
  Judgeable h left ∧ Judgeable h right ∧
    ∃ v w, Unfolds h left v ∧ Unfolds h right w ∧ exactValue v = exactValue w

theorem exactStructuralEqual_eq_true_iff_sameValue {left right : Ref A} :
    exactStructuralEqual h left right = .ok true ↔ SameValue h left right := by
  constructor
  · intro hequal
    obtain ⟨hleft, hright⟩ := judgeable_of_exactStructuralEqual hequal
    obtain ⟨v, hv, -⟩ := id hleft
    obtain ⟨w, hw, -⟩ := id hright
    exact ⟨hleft, hright, v, w, hv, hw,
      (exactStructuralEqual_eq_true_iff hleft hright hv hw).mp hequal⟩
  · rintro ⟨hleft, hright, v, w, hv, hw, heq⟩
    exact (exactStructuralEqual_eq_true_iff hleft hright hv hw).mpr heq

theorem equivalence_exactStructuralEqual (h : Heap A) :
    Equivalence fun left right : { r : Ref A // Judgeable h r } =>
      exactStructuralEqual h left right = .ok true := by
  constructor
  · rintro ⟨r, hr⟩
    obtain ⟨v, hv, -⟩ := id hr
    exact (exactStructuralEqual_eq_true_iff hr hr hv hv).mpr rfl
  · rintro ⟨r, hr⟩ ⟨r', hr'⟩ hequal
    obtain ⟨v, hv, -⟩ := id hr
    obtain ⟨v', hv', -⟩ := id hr'
    rw [exactStructuralEqual_eq_true_iff hr hr' hv hv'] at hequal
    exact (exactStructuralEqual_eq_true_iff hr' hr hv' hv).mpr hequal.symm
  · rintro ⟨r, hr⟩ ⟨r', hr'⟩ ⟨r'', hr''⟩ hequal hequal'
    obtain ⟨v, hv, -⟩ := id hr
    obtain ⟨v', hv', -⟩ := id hr'
    obtain ⟨v'', hv'', -⟩ := id hr''
    rw [exactStructuralEqual_eq_true_iff hr hr' hv hv'] at hequal
    rw [exactStructuralEqual_eq_true_iff hr' hr'' hv' hv''] at hequal'
    exact (exactStructuralEqual_eq_true_iff hr hr'' hv hv'').mpr (hequal.trans hequal')

end Comparison

end TraigentSchema.Invariants
