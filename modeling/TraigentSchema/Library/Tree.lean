import Mathlib

/-!
# Trees of lists and dicts

Finite trees with list and dict nodes over arbitrary keys and leaves, with their
induction principle, their recursor, how deep they nest, what leaves and keys they
hold and whether their dicts repeat keys.
-/

namespace TraigentSchema

/-- A finite tree of lists and dicts.  The members of a dict are in an order of
their own, and nothing keeps a key from occurring twice. -/
inductive Tree (K L : Type) where
  | leaf (x : L)
  | list (items : List (Tree K L))
  | dict (members : List (K × Tree K L))

namespace Tree

variable {K L : Type} {B : Type}

@[elab_as_elim]
theorem induct {P : Tree K L → Prop} (leaf : ∀ x, P (.leaf x))
    (list : ∀ items, (∀ item ∈ items, P item) → P (.list items))
    (dict : ∀ members, (∀ member ∈ members, P member.2) → P (.dict members))
    (t : Tree K L) : P t := by
  refine Tree.rec (motive_1 := P)
    (motive_2 := fun items => ∀ item ∈ items, P item)
    (motive_3 := fun members => ∀ member ∈ members, P member.2)
    (motive_4 := fun member => P member.2)
    leaf (fun _ h => list _ h) (fun _ h => dict _ h) ?_ ?_ ?_ ?_ ?_ t
  · simp
  · intro head tail hhead htail item hitem
    rcases List.mem_cons.mp hitem with rfl | hitem
    · exact hhead
    · exact htail item hitem
  · simp
  · intro head tail hhead htail member hmember
    rcases List.mem_cons.mp hmember with rfl | hmember
    · exact hhead
    · exact htail member hmember
  · intro _ _ h
    exact h

section Fold

variable (leaf : L → B) (list : List B → B) (dict : List (K × B) → B)

mutual

def fold : Tree K L → B
  | .leaf x => leaf x
  | .list items => list (foldItems items)
  | .dict members => dict (foldMembers members)

def foldItems : List (Tree K L) → List B
  | [] => []
  | item :: items => fold item :: foldItems items

def foldMembers : List (K × Tree K L) → List (K × B)
  | [] => []
  | (key, item) :: members => (key, fold item) :: foldMembers members

end

@[simp]
theorem fold_leaf (x : L) : fold leaf list dict (.leaf x) = leaf x := by
  rw [fold]

@[simp]
theorem fold_list (items : List (Tree K L)) :
    fold leaf list dict (.list items) =
      list (items.map (fold leaf list dict)) := by
  have hitems : foldItems leaf list dict items =
      items.map (fold leaf list dict) := by
    induction items with
    | nil => rfl
    | cons item items ih => rw [foldItems, ih, List.map_cons]
  rw [fold, hitems]

@[simp]
theorem fold_dict (members : List (K × Tree K L)) :
    fold leaf list dict (.dict members) =
      dict (members.map fun member => (member.1, fold leaf list dict member.2)) := by
  have hmembers : foldMembers leaf list dict members =
      members.map fun member => (member.1, fold leaf list dict member.2) := by
    induction members with
    | nil => rfl
    | cons member members ih =>
        obtain ⟨key, item⟩ := member
        rw [foldMembers, ih, List.map_cons]
  rw [fold, hmembers]

end Fold

/-- How many containers enclose the deepest point of a tree, the container
itself included. -/
def nesting : Tree K L → ℕ :=
  fold (fun _ => 0) (fun depths => depths.foldr max 0 + 1)
    (fun depths => (depths.map Prod.snd).foldr max 0 + 1)

private theorem foldr_max_le_iff (depths : List ℕ) (n : ℕ) :
    depths.foldr max 0 ≤ n ↔ ∀ depth ∈ depths, depth ≤ n := by
  induction depths with
  | nil => simp
  | cons depth depths ih => simp [ih]

@[simp]
theorem nesting_leaf (x : L) : (Tree.leaf x : Tree K L).nesting = 0 := by
  simp [nesting]

theorem nesting_list_le_iff (items : List (Tree K L)) (n : ℕ) :
    (Tree.list items).nesting ≤ n + 1 ↔ ∀ item ∈ items, item.nesting ≤ n := by
  simp only [nesting, fold_list, Nat.add_le_add_iff_right, foldr_max_le_iff,
    List.forall_mem_map]

theorem nesting_dict_le_iff (members : List (K × Tree K L)) (n : ℕ) :
    (Tree.dict members).nesting ≤ n + 1 ↔
      ∀ member ∈ members, member.2.nesting ≤ n := by
  simp only [nesting, fold_dict, Nat.add_le_add_iff_right, foldr_max_le_iff,
    List.map_map, List.forall_mem_map, Function.comp_apply]

theorem nesting_list_pos (items : List (Tree K L)) :
    0 < (Tree.list items).nesting := by
  simp [nesting]

theorem nesting_dict_pos (members : List (K × Tree K L)) :
    0 < (Tree.dict members).nesting := by
  simp [nesting]

/-- Every leaf and every key of the tree is of an admitted kind. -/
def Admits (leafOk : L → Prop) (keyOk : K → Prop) : Tree K L → Prop :=
  fold leafOk (fun items => ∀ item ∈ items, item)
    (fun members => ∀ member ∈ members, keyOk member.1 ∧ member.2)

section Admits

variable {leafOk leafOk' : L → Prop} {keyOk keyOk' : K → Prop}

@[simp]
theorem admits_leaf (x : L) :
    (Tree.leaf x : Tree K L).Admits leafOk keyOk ↔ leafOk x := by
  simp [Admits]

@[simp]
theorem admits_list (items : List (Tree K L)) :
    (Tree.list items).Admits leafOk keyOk ↔ ∀ item ∈ items, item.Admits leafOk keyOk := by
  simp only [Admits, fold_list, List.forall_mem_map]

@[simp]
theorem admits_dict (members : List (K × Tree K L)) :
    (Tree.dict members).Admits leafOk keyOk ↔
      ∀ member ∈ members, keyOk member.1 ∧ member.2.Admits leafOk keyOk := by
  simp only [Admits, fold_dict, List.forall_mem_map]

instance [DecidablePred leafOk] [DecidablePred keyOk] (t : Tree K L) :
    Decidable (t.Admits leafOk keyOk) :=
  decidable_of_iff (t.fold (fun x => decide (leafOk x)) (fun items => items.all id)
      (fun members => members.all fun m => decide (keyOk m.1) && m.2) = true) (by
    induction t using Tree.induct with
    | leaf x => simp
    | list items ih =>
        simp only [fold_list, List.all_map, List.all_eq_true, Function.comp_apply, id,
          admits_list]
        exact forall₂_congr ih
    | dict members ih =>
        simp only [fold_dict, List.all_map, List.all_eq_true, Function.comp_apply,
          Bool.and_eq_true, decide_eq_true_eq, admits_dict]
        exact forall₂_congr fun m hm => and_congr_right fun _ => ih m hm)

theorem Admits.imp {t : Tree K L} (ht : t.Admits leafOk keyOk)
    (hleaf : ∀ x, leafOk x → leafOk' x) (hkey : ∀ k, keyOk k → keyOk' k) :
    t.Admits leafOk' keyOk' := by
  induction t using Tree.induct with
  | leaf x => exact (admits_leaf x).mpr (hleaf x ((admits_leaf x).mp ht))
  | list items ih =>
      rw [admits_list] at ht ⊢
      exact fun item hitem => ih item hitem (ht item hitem)
  | dict members ih =>
      rw [admits_dict] at ht ⊢
      exact fun member hmember => ⟨hkey _ (ht member hmember).1,
        ih member hmember (ht member hmember).2⟩

theorem admits_of_forall (hleaf : ∀ x, leafOk x) (hkey : ∀ k, keyOk k) (t : Tree K L) :
    t.Admits leafOk keyOk := by
  induction t using Tree.induct with
  | leaf x => exact (admits_leaf x).mpr (hleaf x)
  | list items ih => exact (admits_list items).mpr ih
  | dict members ih =>
      exact (admits_dict members).mpr fun member hmember => ⟨hkey _, ih member hmember⟩

theorem admits_and {t : Tree K L} :
    t.Admits (fun x => leafOk x ∧ leafOk' x) (fun k => keyOk k ∧ keyOk' k) ↔
      t.Admits leafOk keyOk ∧ t.Admits leafOk' keyOk' := by
  constructor
  · intro ht
    exact ⟨ht.imp (fun _ hx => hx.1) (fun _ hk => hk.1),
      ht.imp (fun _ hx => hx.2) (fun _ hk => hk.2)⟩
  · rintro ⟨hleft, hright⟩
    induction t using Tree.induct with
    | leaf x =>
        rw [admits_leaf] at hleft hright ⊢
        exact ⟨hleft, hright⟩
    | list items ih =>
        rw [admits_list] at hleft hright ⊢
        exact fun item hitem => ih item hitem (hleft item hitem) (hright item hitem)
    | dict members ih =>
        rw [admits_dict] at hleft hright ⊢
        exact fun member hmember =>
          ⟨⟨(hleft member hmember).1, (hright member hmember).1⟩,
            ih member hmember (hleft member hmember).2 (hright member hmember).2⟩

end Admits

/-- No dict of the tree repeats a key. -/
def WellFormed : Tree K L → Prop :=
  fold (fun _ => True) (fun items => ∀ item ∈ items, item)
    (fun members => (members.map Prod.fst).Nodup ∧ ∀ member ∈ members, member.2)

@[simp]
theorem wellFormed_leaf (x : L) : (Tree.leaf x : Tree K L).WellFormed := by
  simp [WellFormed]

@[simp]
theorem wellFormed_list (items : List (Tree K L)) :
    (Tree.list items).WellFormed ↔ ∀ item ∈ items, item.WellFormed := by
  simp only [WellFormed, fold_list, List.forall_mem_map]

@[simp]
theorem wellFormed_dict (members : List (K × Tree K L)) :
    (Tree.dict members).WellFormed ↔
      (members.map Prod.fst).Nodup ∧ ∀ member ∈ members, member.2.WellFormed := by
  simp only [WellFormed, fold_dict, List.map_map, List.forall_mem_map]
  rfl

end Tree

end TraigentSchema
