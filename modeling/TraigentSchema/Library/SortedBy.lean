import Mathlib

/-!
# Stable sorting by a key

`sortedBy key` is a stable sort of a list by a key into a linear order: rows
with equal keys keep their order.  The facts below say how it interacts with
permutations, with maps that keep the keys and with pairwise relations between
two lists of the same keys.
-/

namespace TraigentSchema.SortedBy

variable {A B K K' : Type*} [LinearOrder K] [LinearOrder K']

def sortedBy (key : A → K) (rows : List A) : List A :=
  rows.insertionSort fun left right => key left ≤ key right

private theorem key_total (key : A → K) :
    Std.Total fun left right : A => key left ≤ key right :=
  ⟨fun left right => le_total (key left) (key right)⟩

private theorem key_trans (key : A → K) :
    IsTrans A fun left right : A => key left ≤ key right :=
  ⟨fun _ _ _ => le_trans⟩

theorem sortedBy_perm (key : A → K) (rows : List A) :
    (sortedBy key rows).Perm rows :=
  List.perm_insertionSort _ rows

@[simp]
theorem mem_sortedBy {key : A → K} {rows : List A} {row : A} :
    row ∈ sortedBy key rows ↔ row ∈ rows :=
  (sortedBy_perm key rows).mem_iff

@[simp]
theorem length_sortedBy (key : A → K) (rows : List A) :
    (sortedBy key rows).length = rows.length :=
  (sortedBy_perm key rows).length_eq

theorem pairwise_sortedBy (key : A → K) (rows : List A) :
    (sortedBy key rows).Pairwise fun left right => key left ≤ key right := by
  have := key_total key
  have := key_trans key
  exact List.pairwise_insertionSort _ rows

theorem sortedBy_eq_self {key : A → K} {rows : List A}
    (hsorted : rows.Pairwise fun left right => key left ≤ key right) :
    sortedBy key rows = rows :=
  hsorted.insertionSort_eq

/-- Sorting commutes with a map that keeps the keys. -/
theorem map_sortedBy (key : A → K) (key' : B → K') (f : A → B) (rows : List A)
    (hkey : ∀ left ∈ rows, ∀ right ∈ rows,
      key left ≤ key right ↔ key' (f left) ≤ key' (f right)) :
    (sortedBy key rows).map f = sortedBy key' (rows.map f) :=
  List.map_insertionSort _ _ f rows hkey

/-- The sorted keys depend on the multiset of keys alone. -/
theorem map_key_sortedBy_eq {key : A → K} {key' : B → K}
    {rows : List A} {rows' : List B}
    (hperm : (rows.map key).Perm (rows'.map key')) :
    (sortedBy key rows).map key = (sortedBy key' rows').map key' := by
  have hleft : ((sortedBy key rows).map key).Pairwise (· ≤ ·) :=
    List.pairwise_map.mpr (pairwise_sortedBy key rows)
  have hright : ((sortedBy key' rows').map key').Pairwise (· ≤ ·) :=
    List.pairwise_map.mpr (pairwise_sortedBy key' rows')
  apply List.Perm.eq_of_pairwise' hleft hright
  calc
    ((sortedBy key rows).map key).Perm (rows.map key) :=
      (sortedBy_perm key rows).map key
    (rows.map key).Perm (rows'.map key') := hperm
    (rows'.map key').Perm ((sortedBy key' rows').map key') :=
      ((sortedBy_perm key' rows').map key').symm

/-- Rows with distinct keys have one sorted order. -/
theorem sortedBy_eq_of_perm (key : A → K) {rows rows' : List A}
    (hperm : rows.Perm rows')
    (hinj : ∀ left ∈ rows, ∀ right ∈ rows, key left = key right → left = right) :
    sortedBy key rows = sortedBy key rows' := by
  have hkeys := map_key_sortedBy_eq (hperm.map key)
  have hlength : (sortedBy key rows).length = (sortedBy key rows').length := by
    simpa using hperm.length_eq
  apply List.ext_getElem hlength
  intro index hleft hright
  apply hinj _ (mem_sortedBy.mp (List.getElem_mem hleft)) _
    (hperm.mem_iff.mpr (mem_sortedBy.mp (List.getElem_mem hright)))
  have hat := List.getElem_of_eq hkeys (i := index) (by simpa using hleft)
  simpa using hat

/-- A relation between rows of equal keys survives sorting both sides. -/
theorem forall₂_sortedBy {R : A → B → Prop} (key : A → K) (key' : B → K')
    {rows : List A} {rows' : List B} (hrows : List.Forall₂ R rows rows')
    (hkey : ∀ {a a' b b'}, R a b → R a' b' →
      (key a ≤ key a' ↔ key' b ≤ key' b')) :
    List.Forall₂ R (sortedBy key rows) (sortedBy key' rows') := by
  have hinsert : ∀ {a b} {sorted : List A} {sorted' : List B}, R a b →
      List.Forall₂ R sorted sorted' →
      List.Forall₂ R
        (sorted.orderedInsert (fun left right => key left ≤ key right) a)
        (sorted'.orderedInsert (fun left right => key' left ≤ key' right) b) := by
    intro a b sorted sorted' hab hsorted
    induction hsorted with
    | nil => simpa using hab
    | @cons a' b' tail tail' hhead htail ih =>
        by_cases hle : key a ≤ key a'
        · have hle' := (hkey hab hhead).mp hle
          simp only [List.orderedInsert_cons, if_pos hle, if_pos hle']
          exact .cons hab (.cons hhead htail)
        · have hle' := mt (hkey hab hhead).mpr hle
          simp only [List.orderedInsert_cons, if_neg hle, if_neg hle']
          exact .cons hhead ih
  induction hrows with
  | nil => exact .nil
  | cons hhead _ ih => exact hinsert hhead ih

end TraigentSchema.SortedBy
