import TraigentSchema.Python.Value
import TraigentSchema.Library.Traverse

/-!
# The object heap

A Python object graph is a heap of list and dict nodes.  An address is an
identity: two references to one address are one object, so nodes can be shared
and can reach themselves.  Unfolding a reference gives the tree a recursive
reader would see, when there is one.
-/

namespace TraigentSchema.Python

open TraigentSchema.Traverse

/-- What a name, a list item or a dict value holds. -/
inductive Ref (A : Type*) where
  | atom (x : Atom)
  | node (a : A)

/-- The members of a dict in insertion order; no key occurs twice. -/
structure Dict (V : Type*) where
  items : List (Key × V)
  nodup : (items.map Prod.fst).Nodup

/-- The contents of an exact `list` or an exact `dict`. -/
inductive Node (A : Type*) where
  | list (items : List (Ref A))
  | dict (members : Dict (Ref A))

abbrev Heap (A : Type*) := A → Node A

/-- The heap without containers. -/
def emptyHeap : Heap Empty :=
  Empty.elim

variable {A : Type*}

/-- The tree below a reference, reading through at most `n` nested
containers. -/
def unfold (h : Heap A) : (n : ℕ) → Ref A → Option PyValue
  | _, .atom x => some (.leaf x)
  | 0, .node _ => none
  | n + 1, .node a =>
      match h a with
      | .list items => (items.mapM (unfold h n)).map Tree.list
      | .dict members =>
          (members.items.mapM fun member =>
            (unfold h n member.2).map (Prod.mk member.1)).map Tree.dict

/-- The graph below `r` is finite as a tree, and `v` is that tree. -/
def Unfolds (h : Heap A) (r : Ref A) (v : PyValue) : Prop :=
  ∃ n, unfold h n r = some v

/-- A member of a dict read as a member of the unfolded dict. -/
def MemberUnfolds (h : Heap A) (member : Key × Ref A) (value : Key × PyValue) :
    Prop :=
  member.1 = value.1 ∧ Unfolds h member.2 value.2

@[simp]
theorem unfold_atom (h : Heap A) (n : ℕ) (x : Atom) :
    unfold h n (.atom x) = some (.leaf x) := by
  cases n <;> rfl

@[simp]
theorem unfold_zero_node (h : Heap A) (a : A) : unfold h 0 (.node a) = none := rfl

/-- A list unfolds one step later than its items do. -/
theorem unfold_list {h : Heap A} {a : A} {items : List (Ref A)}
    (hnode : h a = .list items) (n : ℕ) (v : PyValue) :
    unfold h (n + 1) (.node a) = some v ↔
      ∃ values, v = .list values ∧
        List.Forall₂ (fun item value => unfold h n item = some value) items
          values := by
  simp only [unfold, hnode, Option.map_eq_some_iff, mapM_eq_some_iff]
  exact ⟨fun ⟨values, hvalues, heq⟩ => ⟨values, heq.symm, hvalues⟩,
    fun ⟨values, heq, hvalues⟩ => ⟨values, hvalues, heq.symm⟩⟩

/-- A dict unfolds one step later than its values do, under the keys it has. -/
theorem unfold_dict {h : Heap A} {a : A} {members : Dict (Ref A)}
    (hnode : h a = .dict members) (n : ℕ) (v : PyValue) :
    unfold h (n + 1) (.node a) = some v ↔
      ∃ values, v = .dict values ∧
        List.Forall₂ (fun member value =>
          member.1 = value.1 ∧ unfold h n member.2 = some value.2)
          members.items values := by
  have hmember : ∀ (member : Key × Ref A) (value : Key × PyValue),
      (unfold h n member.2).map (Prod.mk member.1) = some value ↔
        member.1 = value.1 ∧ unfold h n member.2 = some value.2 := by
    rintro ⟨key, r⟩ ⟨key', v⟩
    simp only [Option.map_eq_some_iff, Prod.mk.injEq]
    exact ⟨fun ⟨w, hw, hkey, hv⟩ => ⟨hkey, hv ▸ hw⟩,
      fun ⟨hkey, hv⟩ => ⟨v, hv, hkey, rfl⟩⟩
  simp only [unfold, hnode, Option.map_eq_some_iff, mapM_eq_some_iff, hmember]
  exact ⟨fun ⟨values, hvalues, heq⟩ => ⟨values, heq.symm, hvalues⟩,
    fun ⟨values, heq, hvalues⟩ => ⟨values, hvalues, heq.symm⟩⟩

/-- The bound is used only through the nesting of the result. -/
theorem unfold_of_nesting_le {h : Heap A} {n : ℕ} {r : Ref A} {v : PyValue}
    (hunfold : unfold h n r = some v) {m : ℕ} (hm : v.nesting ≤ m) :
    unfold h m r = some v := by
  induction n generalizing r v m with
  | zero =>
      cases r with
      | atom x => simpa using hunfold
      | node a => simp at hunfold
  | succ n ih =>
      cases r with
      | atom x => simpa using hunfold
      | node a =>
          cases hnode : h a with
          | list items =>
              obtain ⟨values, rfl, hvalues⟩ := (unfold_list hnode n v).mp hunfold
              cases m with
              | zero => exact absurd hm (Nat.not_le.mpr (Tree.nesting_list_pos _))
              | succ m =>
                  rw [Tree.nesting_list_le_iff] at hm
                  exact (unfold_list hnode m _).mpr ⟨values, rfl,
                    forall₂_imp_of_mem hvalues fun _ _ value hvalue hitem =>
                      ih hitem (hm value hvalue)⟩
          | dict members =>
              obtain ⟨values, rfl, hvalues⟩ := (unfold_dict hnode n v).mp hunfold
              cases m with
              | zero => exact absurd hm (Nat.not_le.mpr (Tree.nesting_dict_pos _))
              | succ m =>
                  rw [Tree.nesting_dict_le_iff] at hm
                  exact (unfold_dict hnode m _).mpr ⟨values, rfl,
                    forall₂_imp_of_mem hvalues fun _ _ value hvalue hmember =>
                      ⟨hmember.1, ih hmember.2 (hm value hvalue)⟩⟩

/-- So many steps unfold no tree that is nested deeper. -/
theorem nesting_le_of_unfold {h : Heap A} {n : ℕ} {r : Ref A} {v : PyValue}
    (hunfold : unfold h n r = some v) : v.nesting ≤ n := by
  induction n generalizing r v with
  | zero =>
      cases r with
      | atom x =>
          obtain rfl : Tree.leaf x = v := by simpa using hunfold
          simp
      | node a => simp at hunfold
  | succ n ih =>
      cases r with
      | atom x =>
          obtain rfl : Tree.leaf x = v := by simpa using hunfold
          simp
      | node a =>
          cases hnode : h a with
          | list items =>
              obtain ⟨values, rfl, hvalues⟩ := (unfold_list hnode n v).mp hunfold
              rw [Tree.nesting_list_le_iff]
              intro value hvalue
              obtain ⟨item, -, hitem⟩ := exists_of_mem_right hvalues hvalue
              exact ih hitem
          | dict members =>
              obtain ⟨values, rfl, hvalues⟩ := (unfold_dict hnode n v).mp hunfold
              rw [Tree.nesting_dict_le_iff]
              intro value hvalue
              obtain ⟨item, -, -, hitem⟩ := exists_of_mem_right hvalues hvalue
              exact ih hitem

/-- The steps that unfold a value are its nesting or more. -/
theorem unfold_eq_some_iff {h : Heap A} {n : ℕ} {r : Ref A} {v : PyValue} :
    unfold h n r = some v ↔ Unfolds h r v ∧ v.nesting ≤ n :=
  ⟨fun hunfold => ⟨⟨n, hunfold⟩, nesting_le_of_unfold hunfold⟩,
    fun ⟨⟨_, hunfold⟩, hn⟩ => unfold_of_nesting_le hunfold hn⟩

/-- A value has one unfolding at most. -/
theorem Unfolds.unique {h : Heap A} {r : Ref A} {v w : PyValue}
    (hv : Unfolds h r v) (hw : Unfolds h r w) : v = w := by
  have hvn := unfold_eq_some_iff.mpr ⟨hv, le_max_left v.nesting w.nesting⟩
  have hwn := unfold_eq_some_iff.mpr ⟨hw, le_max_right v.nesting w.nesting⟩
  exact Option.some.inj (hvn.symm.trans hwn)

@[simp]
theorem unfolds_atom {h : Heap A} {x : Atom} {v : PyValue} :
    Unfolds h (.atom x) v ↔ v = .leaf x := by
  simp [Unfolds, eq_comm]

/-- A list unfolds when its items do. -/
theorem unfolds_list {h : Heap A} {a : A} {items : List (Ref A)}
    (hnode : h a = .list items) {v : PyValue} :
    Unfolds h (.node a) v ↔
      ∃ values, v = .list values ∧ List.Forall₂ (Unfolds h) items values := by
  constructor
  · rintro ⟨n, hunfold⟩
    cases n with
    | zero => simp at hunfold
    | succ n =>
        obtain ⟨values, rfl, hvalues⟩ := (unfold_list hnode n v).mp hunfold
        exact ⟨values, rfl, hvalues.imp fun _ _ hitem => ⟨n, hitem⟩⟩
  · rintro ⟨values, rfl, hvalues⟩
    refine ⟨(Tree.list values).nesting + 1, (unfold_list hnode _ _).mpr
      ⟨values, rfl, forall₂_imp_of_mem hvalues fun _ _ value hvalue hitem => ?_⟩⟩
    refine unfold_eq_some_iff.mpr ⟨hitem, ?_⟩
    exact (Tree.nesting_list_le_iff values _).mp (Nat.le_succ _) value hvalue

/-- A dict unfolds when its values do. -/
theorem unfolds_dict {h : Heap A} {a : A} {members : Dict (Ref A)}
    (hnode : h a = .dict members) {v : PyValue} :
    Unfolds h (.node a) v ↔
      ∃ values, v = .dict values ∧
        List.Forall₂ (MemberUnfolds h) members.items values := by
  constructor
  · rintro ⟨n, hunfold⟩
    cases n with
    | zero => simp at hunfold
    | succ n =>
        obtain ⟨values, rfl, hvalues⟩ := (unfold_dict hnode n v).mp hunfold
        exact ⟨values, rfl, hvalues.imp fun _ _ hmember =>
          ⟨hmember.1, n, hmember.2⟩⟩
  · rintro ⟨values, rfl, hvalues⟩
    refine ⟨(Tree.dict values).nesting + 1, (unfold_dict hnode _ _).mpr
      ⟨values, rfl, forall₂_imp_of_mem hvalues fun _ _ value hvalue hmember => ?_⟩⟩
    refine ⟨hmember.1, unfold_eq_some_iff.mpr ⟨hmember.2, ?_⟩⟩
    exact (Tree.nesting_dict_le_iff values _).mp (Nat.le_succ _) value hvalue

theorem map_fst_of_memberUnfolds {h : Heap A} {members : List (Key × Ref A)}
    {values : List (Key × PyValue)}
    (hvalues : List.Forall₂ (MemberUnfolds h) members values) :
    members.map Prod.fst = values.map Prod.fst := by
  induction hvalues with
  | nil => rfl
  | cons hmember _ ih => rw [List.map_cons, List.map_cons, hmember.1, ih]

/-- The keys of a dict on the heap differ, and so do those of its unfolding. -/
theorem Unfolds.wellFormed {h : Heap A} {r : Ref A} {v : PyValue}
    (hv : Unfolds h r v) : v.WellFormed := by
  induction v using Tree.induct generalizing r with
  | leaf x => simp
  | list values ih =>
      cases r with
      | atom x => simp at hv
      | node a =>
          cases hnode : h a with
          | dict members => simpa using (unfolds_dict hnode).mp hv
          | list items =>
              obtain ⟨values', heq, hvalues⟩ := (unfolds_list hnode).mp hv
              obtain rfl : values = values' := by simpa using heq
              rw [Tree.wellFormed_list]
              intro value hvalue
              obtain ⟨item, -, hitem⟩ := exists_of_mem_right hvalues hvalue
              exact ih value hvalue hitem
  | dict values ih =>
      cases r with
      | atom x => simp at hv
      | node a =>
          cases hnode : h a with
          | list items => simpa using (unfolds_list hnode).mp hv
          | dict members =>
              obtain ⟨values', heq, hvalues⟩ := (unfolds_dict hnode).mp hv
              obtain rfl : values = values' := by simpa using heq
              rw [Tree.wellFormed_dict]
              refine ⟨map_fst_of_memberUnfolds hvalues ▸ members.nodup, ?_⟩
              intro value hvalue
              obtain ⟨member, -, hmember⟩ := exists_of_mem_right hvalues hvalue
              exact ih value hvalue hmember.2

/-! ## Cycles -/

def Node.children : Node A → List (Ref A)
  | .list items => items
  | .dict members => members.items.map Prod.snd

/-- `b` is held directly by the container `a`. -/
def Holds (h : Heap A) (a b : A) : Prop :=
  Ref.node b ∈ (h a).children

/-- A child unfolds to a tree that is nested less deeply. -/
theorem Unfolds.exists_of_mem_children {h : Heap A} {a : A} {r : Ref A} {v : PyValue}
    (hv : Unfolds h (.node a) v) (hr : r ∈ (h a).children) :
    ∃ w, Unfolds h r w ∧ w.nesting < v.nesting := by
  cases hnode : h a with
  | list items =>
      rw [hnode] at hr
      obtain ⟨values, rfl, hvalues⟩ := (unfolds_list hnode).mp hv
      obtain ⟨w, hw, hunfold⟩ := exists_of_mem_left hvalues hr
      obtain ⟨n, hn⟩ := Nat.exists_eq_succ_of_ne_zero
        (Tree.nesting_list_pos values).ne'
      refine ⟨w, hunfold, ?_⟩
      have hle := (Tree.nesting_list_le_iff values n).mp hn.le w hw
      omega
  | dict members =>
      rw [hnode] at hr
      obtain ⟨⟨key, r'⟩, hmember, rfl⟩ := List.mem_map.mp hr
      obtain ⟨values, rfl, hvalues⟩ := (unfolds_dict hnode).mp hv
      obtain ⟨value, hvalue, hunfold⟩ := exists_of_mem_left hvalues hmember
      obtain ⟨n, hn⟩ := Nat.exists_eq_succ_of_ne_zero
        (Tree.nesting_dict_pos values).ne'
      refine ⟨value.2, hunfold.2, ?_⟩
      have hle := (Tree.nesting_dict_le_iff values n).mp hn.le value hvalue
      omega

/-- So does whatever is reached through children. -/
theorem Unfolds.exists_of_reaches {h : Heap A} {a b : A} {v : PyValue}
    (hv : Unfolds h (.node a) v) (hreach : Relation.TransGen (Holds h) a b) :
    ∃ w, Unfolds h (.node b) w ∧ w.nesting < v.nesting := by
  induction hreach with
  | single hholds => exact hv.exists_of_mem_children hholds
  | tail _ hholds ih =>
      obtain ⟨w, hw, hlt⟩ := ih
      obtain ⟨u, hu, hlt'⟩ := hw.exists_of_mem_children hholds
      exact ⟨u, hu, hlt'.trans hlt⟩

/-- A container that reaches itself has no finite unfolding. -/
theorem not_unfolds_of_cycle {h : Heap A} {a : A} {v : PyValue}
    (hcycle : Relation.TransGen (Holds h) a a) : ¬ Unfolds h (.node a) v := by
  intro hv
  obtain ⟨w, hw, hlt⟩ := hv.exists_of_reaches hcycle
  exact absurd (congrArg Tree.nesting (hw.unique hv)) hlt.ne

/-- The container `b` is an ancestor of the value `r`. -/
def Reaches (h : Heap A) (b : A) (r : Ref A) : Prop :=
  ∃ c, Relation.ReflTransGen (Holds h) b c ∧ r ∈ (h c).children

theorem Reaches.child {b a : A} {r : Ref A} (hreach : Reaches h b (.node a))
    (hr : r ∈ (h a).children) : Reaches h b r := by
  obtain ⟨c, hpath, hchild⟩ := hreach
  exact ⟨a, hpath.tail hchild, hr⟩

/-- What reaches itself has no unfolding, which would be nested less deeply than itself. -/
theorem not_unfolds_of_reaches {h : Heap A} {a : A} {v : PyValue}
    (hreach : Reaches h a (.node a)) : ¬ Unfolds h (.node a) v := by
  obtain ⟨c, hpath, hchild⟩ := hreach
  exact not_unfolds_of_cycle (Relation.TransGen.tail' hpath hchild)

theorem Reaches.of_child {h : Heap A} {a : A} {r : Ref A} (hr : r ∈ (h a).children) :
    Reaches h a r :=
  ⟨a, .refl, hr⟩

/-! ## Admitted graphs -/

section Admits

variable {leafOk : Atom → Prop} {keyOk : Key → Prop}

/-- The graph below `r` unfolds, within `n` containers, to a tree of admitted
scalars and keys. -/
def AdmitsWithin (h : Heap A) (leafOk : Atom → Prop) (keyOk : Key → Prop) (n : ℕ)
    (r : Ref A) : Prop :=
  ∃ v, unfold h n r = some v ∧ v.Admits leafOk keyOk

def Node.KeysOk (keyOk : Key → Prop) : Node A → Prop
  | .list _ => True
  | .dict members => ∀ member ∈ members.items, keyOk member.1

theorem admitsWithin_atom {h : Heap A} {n : ℕ} {x : Atom} :
    AdmitsWithin h leafOk keyOk n (.atom x) ↔ leafOk x := by
  simp [AdmitsWithin]

theorem not_admitsWithin_zero {h : Heap A} {a : A} :
    ¬ AdmitsWithin h leafOk keyOk 0 (.node a) := by
  simp [AdmitsWithin]

/-- A container is admitted within one more step than its children. -/
theorem admitsWithin_node {h : Heap A} {n : ℕ} {a : A} :
    AdmitsWithin h leafOk keyOk (n + 1) (.node a) ↔
      (h a).KeysOk keyOk ∧ ∀ r ∈ (h a).children, AdmitsWithin h leafOk keyOk n r := by
  cases hnode : h a with
  | list items =>
      simp only [Node.KeysOk, Node.children, true_and]
      constructor
      · rintro ⟨v, hunfold, hadmits⟩ r hr
        obtain ⟨values, rfl, hvalues⟩ := (unfold_list hnode n v).mp hunfold
        obtain ⟨value, hvalue, hitem⟩ := exists_of_mem_left hvalues hr
        exact ⟨value, hitem, (Tree.admits_list values).mp hadmits value hvalue⟩
      · intro hall
        obtain ⟨values, hvalues⟩ := forall₂_of_forall_exists hall
        refine ⟨.list values, (unfold_list hnode n _).mpr
          ⟨values, rfl, hvalues.imp fun _ _ hitem => hitem.1⟩, ?_⟩
        rw [Tree.admits_list]
        intro value hvalue
        obtain ⟨item, -, -, hitem⟩ := exists_of_mem_right hvalues hvalue
        exact hitem
  | dict members =>
      simp only [Node.KeysOk, Node.children]
      constructor
      · rintro ⟨v, hunfold, hadmits⟩
        obtain ⟨values, rfl, hvalues⟩ := (unfold_dict hnode n v).mp hunfold
        rw [Tree.admits_dict] at hadmits
        constructor
        · intro member hmember
          obtain ⟨value, hvalue, hkey, -⟩ := exists_of_mem_left hvalues hmember
          exact hkey ▸ (hadmits value hvalue).1
        · intro r hr
          obtain ⟨member, hmember, rfl⟩ := List.mem_map.mp hr
          obtain ⟨value, hvalue, -, hitem⟩ := exists_of_mem_left hvalues hmember
          exact ⟨value.2, hitem, (hadmits value hvalue).2⟩
      · rintro ⟨hkeys, hall⟩
        obtain ⟨values, hvalues⟩ := forall₂_of_forall_exists
          (P := fun (member : Key × Ref A) (value : Key × PyValue) =>
            (member.1 = value.1 ∧ unfold h n member.2 = some value.2) ∧
              keyOk value.1 ∧ value.2.Admits leafOk keyOk)
          fun member (hmember : member ∈ members.items) => by
            obtain ⟨value, hunfold, hadmits⟩ :=
              hall member.2 (List.mem_map_of_mem hmember)
            exact ⟨(member.1, value), ⟨rfl, hunfold⟩, hkeys member hmember, hadmits⟩
        refine ⟨.dict values, (unfold_dict hnode n _).mpr
          ⟨values, rfl, hvalues.imp fun _ _ hmember => hmember.1⟩, ?_⟩
        rw [Tree.admits_dict]
        intro value hvalue
        obtain ⟨member, -, -, hmember⟩ := exists_of_mem_right hvalues hvalue
        exact hmember

/-- On an unfolded value the conditions on the heap are those on the tree. -/
theorem admitsWithin_of_unfold {h : Heap A} {n : ℕ} {r : Ref A} {v : PyValue}
    (hv : unfold h n r = some v) :
    AdmitsWithin h leafOk keyOk n r ↔ v.Admits leafOk keyOk := by
  simp [AdmitsWithin, hv]

/-- Where the graph is known to be finite the bound need not go down. -/
theorem admitsWithin_node_of_isSome {h : Heap A} {n : ℕ} {a : A}
    (ha : (unfold h (n + 1) (.node a)).isSome) :
    AdmitsWithin h leafOk keyOk (n + 1) (.node a) ↔
      (h a).KeysOk keyOk ∧
        ∀ r ∈ (h a).children, AdmitsWithin h leafOk keyOk (n + 1) r := by
  obtain ⟨v, hv⟩ := Option.isSome_iff_exists.mp ha
  obtain ⟨hunfolds, hnesting⟩ := unfold_eq_some_iff.mp hv
  rw [admitsWithin_node]
  refine and_congr_right fun _ => forall₂_congr fun r hr => ?_
  obtain ⟨w, hw, hlt⟩ := hunfolds.exists_of_mem_children hr
  rw [admitsWithin_of_unfold (unfold_eq_some_iff.mpr ⟨hw, by omega⟩),
    admitsWithin_of_unfold (unfold_eq_some_iff.mpr ⟨hw, by omega⟩)]

/-- A cycle is admitted within no number of steps. -/
theorem not_admitsWithin_of_reaches {h : Heap A} {n : ℕ} {a : A}
    (hreach : Reaches h a (.node a)) :
    ¬ AdmitsWithin h leafOk keyOk n (.node a) :=
  fun ⟨_, hunfold, _⟩ => not_unfolds_of_reaches hreach ⟨n, hunfold⟩

/-- What is admitted within so many steps unfolds to an admitted tree of that nesting at most. -/
theorem admitsWithin_iff {h : Heap A} {n : ℕ} {r : Ref A} :
    AdmitsWithin h leafOk keyOk n r ↔
      ∃ v, Unfolds h r v ∧ v.nesting ≤ n ∧ v.Admits leafOk keyOk := by
  simp only [AdmitsWithin, unfold_eq_some_iff, and_assoc]

end Admits

end TraigentSchema.Python
