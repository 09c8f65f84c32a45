import TraigentSchema.Library.Hashing

/-!
# Merkle trees with a ragged right edge

The trees of RFC 9162: a tree of `n` leaves splits at the largest power of two below
`n`.  A leaf and the siblings on its way to the root rebuild the root, from the top by
recursion on the splits or from the leaf by halving its index; the two agree.  A root
commits to its leaves: two trees of one root have the same leaves, and a path that leads
to a root starts at one of its leaves, or a hash collision can be pointed at.
-/

namespace TraigentSchema.MerkleTree

open TraigentSchema.Unicode
open TraigentSchema.Hashing

/-! ## Splitting -/

/-- The largest power of two strictly below `n`, for `n` at least 2. -/
def splitPoint (n : ℕ) : ℕ :=
  2 ^ Nat.log 2 (n - 1)

theorem splitPoint_pos (n : ℕ) : 0 < splitPoint n :=
  Nat.pow_pos (by decide)

theorem splitPoint_lt {n : ℕ} (hn : 2 ≤ n) : splitPoint n < n := by
  have hle : 2 ^ Nat.log 2 (n - 1) ≤ n - 1 := Nat.pow_log_le_self 2 (by omega)
  rw [splitPoint]
  omega

theorem splitPoint_two : splitPoint 2 = 1 := by
  decide

/-- The halves of a larger tree split at half the point. -/
theorem splitPoint_eq_two_mul {n : ℕ} (hn : 3 ≤ n) :
    splitPoint n = 2 * splitPoint ((n + 1) / 2) := by
  have hlog : Nat.log 2 ((n - 1) / 2) + 1 = Nat.log 2 (n - 1) := by
    have hpos : 0 < Nat.log 2 (n - 1) := Nat.log_pos (by decide) (by omega)
    rw [Nat.log_div_base]
    omega
  have hhalf : (n + 1) / 2 - 1 = (n - 1) / 2 := by omega
  rw [splitPoint, splitPoint, hhalf, ← hlog, pow_succ, Nat.mul_comm]

/-! ## Rebuilding a root -/

section Rebuild

variable {N : Type} (combine : N → N → N)

/-- The root of a tree of `n` leaves, from its leaf `m` and the siblings on the way, the
one below the root first. -/
def rebuild (r : N) : (n m : ℕ) → (siblings : List N) → Option N
  | n, _, [] => if n ≤ 1 then some r else none
  | n, m, sibling :: siblings =>
      if n ≤ 1 then none
      else if m < splitPoint n then
        (rebuild r (splitPoint n) m siblings).map fun left => combine left sibling
      else
        (rebuild r (n - splitPoint n) (m - splitPoint n) siblings).map fun right =>
          combine sibling right

/-- How many siblings a leaf has on its way to the root. -/
def depth (n m : ℕ) : ℕ :=
  if hn : n ≤ 1 then 0
  else if m < splitPoint n then depth (splitPoint n) m + 1
  else depth (n - splitPoint n) (m - splitPoint n) + 1
termination_by n
decreasing_by
  · exact splitPoint_lt (by omega)
  · exact Nat.sub_lt (by omega) (splitPoint_pos n)

variable {combine} {r : N} {n m : ℕ} {siblings : List N}

@[simp]
theorem rebuild_nil : rebuild combine r n m [] = if n ≤ 1 then some r else none := by
  rw [rebuild]

theorem rebuild_nil_of_two_le (hn : 2 ≤ n) : rebuild combine r n m [] = none := by
  rw [rebuild_nil, if_neg (by omega)]

theorem rebuild_one_cons {sibling : N} (hn : n ≤ 1) :
    rebuild combine r n m (sibling :: siblings) = none := by
  rw [rebuild, if_pos hn]

theorem rebuild_left {sibling : N} (hn : 2 ≤ n) (hm : m < splitPoint n) :
    rebuild combine r n m (sibling :: siblings) =
      (rebuild combine r (splitPoint n) m siblings).map fun left => combine left sibling := by
  rw [rebuild, if_neg (by omega), if_pos hm]

theorem rebuild_right {sibling : N} (hn : 2 ≤ n) (hm : splitPoint n ≤ m) :
    rebuild combine r n m (sibling :: siblings) =
      (rebuild combine r (n - splitPoint n) (m - splitPoint n) siblings).map fun right =>
        combine sibling right := by
  rw [rebuild, if_neg (by omega), if_neg (by omega)]

/-- A path of another length than the depth of the leaf rebuilds nothing. -/
theorem isSome_rebuild : (rebuild combine r n m siblings).isSome ↔
    siblings.length = depth n m := by
  induction siblings generalizing n m with
  | nil =>
      rw [depth]
      by_cases hn : n ≤ 1
      · simp [hn]
      · by_cases hm : m < splitPoint n <;> simp [hn, hm]
  | cons sibling siblings ih =>
      rw [depth]
      by_cases hn : n ≤ 1
      · simp [rebuild_one_cons hn, hn]
      · by_cases hm : m < splitPoint n
        · simp [rebuild_left (by omega) hm, hn, hm, ih]
        · simp [rebuild_right (by omega) (Nat.le_of_not_lt hm), hn, hm, ih]

/-! ## Halving -/

/-- What the lowest level of a tree does: the last of an odd number of leaves is carried
up, any other leaf is combined with its neighbour. -/
structure Halves (combine : N → N → N) (n m : ℕ) : Prop where
  carry : m % 2 = 0 → m + 1 = n → ∀ r siblings,
    rebuild combine r n m siblings = rebuild combine r ((n + 1) / 2) (m / 2) siblings
  right : m % 2 = 1 → ∀ r siblings sibling, rebuild combine r n m (siblings ++ [sibling]) =
    rebuild combine (combine sibling r) ((n + 1) / 2) (m / 2) siblings
  left : m % 2 = 0 → m + 1 < n → ∀ r siblings sibling,
    rebuild combine r n m (siblings ++ [sibling]) =
      rebuild combine (combine r sibling) ((n + 1) / 2) (m / 2) siblings

theorem halves_two {m : ℕ} (hm : m < 2) : Halves combine 2 m := by
  have hsplit := splitPoint_two
  constructor
  · intro _ hlast
    omega
  · intro hodd r siblings sibling
    obtain rfl : m = 1 := by omega
    cases siblings with
    | nil => simp [rebuild_right (le_refl 2) hsplit.le, hsplit]
    | cons top siblings =>
        rw [List.cons_append, rebuild_right (le_refl 2) hsplit.le, rebuild_one_cons (by decide)]
        cases siblings <;> simp [hsplit, rebuild]
  · intro heven _ r siblings sibling
    obtain rfl : m = 0 := by omega
    have hzero : 0 < splitPoint 2 := splitPoint_pos 2
    cases siblings with
    | nil => simp [rebuild_left (le_refl 2) hzero, hsplit]
    | cons top siblings =>
        rw [List.cons_append, rebuild_left (le_refl 2) hzero, rebuild_one_cons (by decide)]
        cases siblings <;> simp [hsplit, rebuild]

/-- By induction on the splits: below the lowest level, a tree and its halved tree split
alike. -/
theorem halves (hm : m < n) : Halves combine n m := by
  induction n using Nat.strong_induction_on generalizing m with
  | _ n ih =>
      rcases Nat.lt_or_ge n 3 with hsmall | hn
      · rcases Nat.lt_or_ge n 2 with hone | htwo
        · obtain rfl : n = 1 := by omega
          obtain rfl : m = 0 := by omega
          exact ⟨fun _ _ _ _ => rfl, by simp, by omega⟩
        · obtain rfl : n = 2 := by omega
          exact halves_two hm
      · have hsplit := splitPoint_eq_two_mul hn
        have hlt := splitPoint_lt (n := n) (by omega)
        have hpos := splitPoint_pos ((n + 1) / 2)
        have hhalf : 2 ≤ (n + 1) / 2 := by omega
        set k := splitPoint n with hk
        set j := splitPoint ((n + 1) / 2) with hj
        rcases Nat.lt_or_ge m k with hleft | hright
        · have hkhalf : (k + 1) / 2 = j := by omega
          have hmhalf : m / 2 < j := by omega
          obtain ⟨-, hodd, heven⟩ := ih k hlt hleft
          rw [hkhalf] at hodd heven
          refine ⟨fun _ hlast => by omega, fun hm' r siblings sibling => ?_,
            fun hm' _ r siblings sibling => ?_⟩
          · cases siblings with
            | nil =>
                rw [List.nil_append, rebuild_left (by omega) hleft,
                  rebuild_nil_of_two_le (by omega), rebuild_nil_of_two_le hhalf, Option.map_none]
            | cons top siblings =>
                rw [List.cons_append, rebuild_left (by omega) hleft,
                  rebuild_left hhalf hmhalf, hodd hm']
          · cases siblings with
            | nil =>
                rw [List.nil_append, rebuild_left (by omega) hleft,
                  rebuild_nil_of_two_le (by omega), rebuild_nil_of_two_le hhalf, Option.map_none]
            | cons top siblings =>
                rw [List.cons_append, rebuild_left (by omega) hleft,
                  rebuild_left hhalf hmhalf, heven hm' (by omega)]
        · have hnhalf : (n - k + 1) / 2 = (n + 1) / 2 - j := by omega
          have hmhalf : (m - k) / 2 = m / 2 - j := by omega
          have hmj : j ≤ m / 2 := by omega
          have hparity : (m - k) % 2 = m % 2 := by omega
          obtain ⟨hcarry, hodd, heven⟩ := @ih (n - k) (by omega) (m - k) (by omega)
          rw [hnhalf, hmhalf, hparity] at hcarry hodd heven
          refine ⟨fun hm' hlast r siblings => ?_, fun hm' r siblings sibling => ?_,
            fun hm' _ r siblings sibling => ?_⟩
          · cases siblings with
            | nil => rw [rebuild_nil_of_two_le hhalf, rebuild_nil_of_two_le (by omega)]
            | cons top siblings =>
                rw [rebuild_right (by omega) hright, rebuild_right hhalf hmj,
                  hcarry hm' (by omega)]
          · cases siblings with
            | nil =>
                rw [List.nil_append, rebuild_right (by omega) hright,
                  rebuild_nil_of_two_le (by omega), rebuild_nil_of_two_le hhalf, Option.map_none]
            | cons top siblings =>
                rw [List.cons_append, rebuild_right (by omega) hright,
                  rebuild_right hhalf hmj, hodd hm']
          · cases siblings with
            | nil =>
                rw [List.nil_append, rebuild_right (by omega) hright,
                  rebuild_nil_of_two_le (by omega), rebuild_nil_of_two_le hhalf, Option.map_none]
            | cons top siblings =>
                rw [List.cons_append, rebuild_right (by omega) hright,
                  rebuild_right hhalf hmj, heven hm' (by omega)]

end Rebuild

/-! ## Commitment -/

/-- What is hashed for the empty tree, for a leaf and for an interior node; no two of these
are ever the same input. -/
structure Inputs (D N I : Type) where
  empty : I
  leaf : D → I
  node : N → N → I
  leaf_injective : Function.Injective leaf
  node_injective : ∀ l r l' r', node l r = node l' r' → l = l' ∧ r = r'
  empty_ne_leaf : ∀ d, empty ≠ leaf d
  empty_ne_node : ∀ l r, empty ≠ node l r
  leaf_ne_node : ∀ d l r, leaf d ≠ node l r

section Commitment

variable {D N I : Type} (inputs : Inputs D N I) (hash : I → N)

/-- The root of a tree with these leaves. -/
def root (leaves : List D) : N :=
  if _hn : 2 ≤ leaves.length then
    hash (inputs.node (root (leaves.take (splitPoint leaves.length)))
      (root (leaves.drop (splitPoint leaves.length))))
  else match leaves with
    | [] => hash inputs.empty
    | d :: _ => hash (inputs.leaf d)
termination_by leaves.length
decreasing_by
  · rw [List.length_take]
    exact (min_le_left _ _).trans_lt (splitPoint_lt _hn)
  · rw [List.length_drop]
    exact Nat.sub_lt (by omega) (splitPoint_pos _)

/-- Everything that is hashed for a root. -/
def hashed (leaves : List D) : List I :=
  if _hn : 2 ≤ leaves.length then
    inputs.node (root inputs hash (leaves.take (splitPoint leaves.length)))
        (root inputs hash (leaves.drop (splitPoint leaves.length))) ::
      (hashed (leaves.take (splitPoint leaves.length)) ++
        hashed (leaves.drop (splitPoint leaves.length)))
  else match leaves with
    | [] => [inputs.empty]
    | d :: _ => [inputs.leaf d]
termination_by leaves.length
decreasing_by
  · rw [List.length_take]
    exact (min_le_left _ _).trans_lt (splitPoint_lt _hn)
  · rw [List.length_drop]
    exact Nat.sub_lt (by omega) (splitPoint_pos _)

/-- What the root of a tree is the hash of. -/
inductive Top (leaves : List D) : I → Prop
  | empty (hempty : leaves = []) : Top leaves inputs.empty
  | leaf {d : D} (hleaf : leaves = [d]) : Top leaves (inputs.leaf d)
  | node {left right : List D} (hsplit : left ++ right = leaves)
      (hleft : left.length < leaves.length) (hright : right.length < leaves.length)
      (hhashedLeft : hashed inputs hash left ⊆ hashed inputs hash leaves)
      (hhashedRight : hashed inputs hash right ⊆ hashed inputs hash leaves) :
      Top leaves (inputs.node (root inputs hash left) (root inputs hash right))

theorem exists_top (leaves : List D) :
    ∃ x, Top inputs hash leaves x ∧ x ∈ hashed inputs hash leaves ∧
      root inputs hash leaves = hash x := by
  by_cases hn : 2 ≤ leaves.length
  · have hlt := splitPoint_lt hn
    have hpos := splitPoint_pos leaves.length
    rw [root, hashed, dif_pos hn, dif_pos hn]
    refine ⟨_, .node (List.take_append_drop _ leaves) ?_ ?_ ?_ ?_, List.mem_cons_self, rfl⟩
    · rw [List.length_take]
      omega
    · rw [List.length_drop]
      omega
    · intro x hx
      rw [hashed, dif_pos hn]
      exact List.mem_cons_of_mem _ (List.mem_append_left _ hx)
    · intro x hx
      rw [hashed, dif_pos hn]
      exact List.mem_cons_of_mem _ (List.mem_append_right _ hx)
  · rw [root, hashed, dif_neg hn, dif_neg hn]
    match leaves with
    | [] => exact ⟨_, .empty rfl, List.mem_cons_self, rfl⟩
    | [d] => exact ⟨_, .leaf rfl, List.mem_cons_self, rfl⟩
    | d :: e :: rest => simp at hn

variable {inputs} {hash}

theorem collision_of_mem {left right : List I} {x y : I} (hx : x ∈ left) (hy : y ∈ right)
    (heq : hash x = hash y) : x = y ∨ Collision hash left right := by
  by_cases hxy : x = y
  · exact Or.inl hxy
  · exact Or.inr ⟨x, hx, y, hy, hxy, heq⟩

/-- A root commits to the leaves below it, whatever their number.  By induction on the leaves of
one tree: the inputs hashed at the two tops are the same. -/
theorem eq_or_collision_of_root {leaves leaves' : List D}
    (heq : root inputs hash leaves = root inputs hash leaves') :
    leaves = leaves' ∨ Collision hash (hashed inputs hash leaves) (hashed inputs hash leaves') := by
  induction hlength : leaves.length using Nat.strong_induction_on generalizing leaves leaves' with
  | _ n ih =>
      obtain ⟨x, htop, hx, hroot⟩ := exists_top inputs hash leaves
      obtain ⟨x', htop', hx', hroot'⟩ := exists_top inputs hash leaves'
      rw [hroot, hroot'] at heq
      rcases collision_of_mem hx hx' heq with hsame | hcollision
      swap
      · exact Or.inr hcollision
      cases htop with
      | empty hempty =>
          cases htop' with
          | empty hempty' => exact Or.inl (hempty.trans hempty'.symm)
          | leaf _ => exact absurd hsame (inputs.empty_ne_leaf _)
          | node _ _ _ _ _ => exact absurd hsame (inputs.empty_ne_node _ _)
      | leaf hleaf =>
          generalize hd : inputs.leaf _ = y at hsame
          cases htop' with
          | empty _ => exact absurd (hd.trans hsame).symm (inputs.empty_ne_leaf _)
          | leaf hleaf' =>
              rw [hleaf, hleaf', inputs.leaf_injective (hd.trans hsame)]
              exact Or.inl rfl
          | node _ _ _ _ _ => exact absurd (hd.trans hsame) (inputs.leaf_ne_node _ _ _)
      | node hsplit hleft hright hinLeft hinRight =>
          generalize hnode : inputs.node _ _ = y at hsame
          cases htop' with
          | empty _ => exact absurd (hnode.trans hsame).symm (inputs.empty_ne_node _ _)
          | leaf _ => exact absurd (hnode.trans hsame).symm (inputs.leaf_ne_node _ _ _)
          | node hsplit' _ _ hinLeft' hinRight' =>
              obtain ⟨hlefts, hrights⟩ := inputs.node_injective _ _ _ _ (hnode.trans hsame)
              rw [hlength] at hleft hright
              rcases ih _ hleft hlefts rfl with hsameLeft | hcollision
              · rcases ih _ hright hrights rfl with hsameRight | hcollision
                · rw [← hsplit, ← hsplit', hsameLeft, hsameRight]
                  exact Or.inl rfl
                · exact Or.inr (hcollision.mono hinRight hinRight')
              · exact Or.inr (hcollision.mono hinLeft hinLeft')

variable (inputs hash) in
/-- A value leads up to another, with these inputs hashed on the way. -/
inductive Ascends : N → List I → N → Prop
  | top (r : N) : Ascends r [] r
  | left {r sibling t : N} {way : List I} (hrest : Ascends (hash (inputs.node r sibling)) way t) :
      Ascends r (inputs.node r sibling :: way) t
  | right {r sibling t : N} {way : List I} (hrest : Ascends (hash (inputs.node sibling r)) way t) :
      Ascends r (inputs.node sibling r :: way) t

/-- A tree inside another one, with its root. -/
def Within (inputs : Inputs D N I) (hash : I → N) (leaves : List D) (r : N) : Prop :=
  ∃ part, part ⊆ leaves ∧ hashed inputs hash part ⊆ hashed inputs hash leaves ∧
    root inputs hash part = r

/-- Below a node inside a tree are the node's two sides. -/
theorem Within.sides {leaves : List D} {l r : N}
    (hwithin : Within inputs hash leaves (hash (inputs.node l r))) :
    Within inputs hash leaves l ∧ Within inputs hash leaves r ∨
      Collision hash [inputs.node l r] (hashed inputs hash leaves) := by
  obtain ⟨part, hpart, hhashed, hroot⟩ := hwithin
  obtain ⟨x, htop, hx, hhash⟩ := exists_top inputs hash part
  rcases collision_of_mem List.mem_cons_self (hhashed hx) (hroot.symm.trans hhash) with
    hsame | hcollision
  swap
  · exact Or.inr hcollision
  cases htop with
  | empty _ => exact absurd hsame.symm (inputs.empty_ne_node _ _)
  | leaf _ => exact absurd hsame.symm (inputs.leaf_ne_node _ _ _)
  | node hsplit _ _ hinLeft hinRight =>
      obtain ⟨rfl, rfl⟩ := inputs.node_injective _ _ _ _ hsame
      subst hsplit
      exact Or.inl ⟨⟨_, fun d hd => hpart (List.mem_append_left _ hd),
          List.Subset.trans hinLeft hhashed, rfl⟩,
        ⟨_, fun d hd => hpart (List.mem_append_right _ hd),
          List.Subset.trans hinRight hhashed, rfl⟩⟩

/-- What leads up to a root is the root of a tree below it. -/
theorem Ascends.within {leaves : List D} {r t : N} {way : List I}
    (hascends : Ascends inputs hash r way t) (hroot : t = root inputs hash leaves) :
    Within inputs hash leaves r ∨ Collision hash way (hashed inputs hash leaves) := by
  induction hascends with
  | top r =>
      exact Or.inl ⟨leaves, List.Subset.refl _, List.Subset.refl _, hroot.symm⟩
  | left hrest ih =>
      rcases ih hroot with hwithin | hcollision
      · rcases hwithin.sides with hsides | hcollision
        · exact Or.inl hsides.1
        · exact Or.inr (hcollision.mono (by simp) (List.Subset.refl _))
      · exact Or.inr (hcollision.mono (List.subset_cons_self _ _) (List.Subset.refl _))
  | right hrest ih =>
      rcases ih hroot with hwithin | hcollision
      · rcases hwithin.sides with hsides | hcollision
        · exact Or.inl hsides.2
        · exact Or.inr (hcollision.mono (by simp) (List.Subset.refl _))
      · exact Or.inr (hcollision.mono (List.subset_cons_self _ _) (List.Subset.refl _))

/-- A leaf that leads up to a root is one of its leaves. -/
theorem mem_or_collision_of_ascends {leaves : List D} {d : D} {way : List I}
    (hascends : Ascends inputs hash (hash (inputs.leaf d)) way (root inputs hash leaves)) :
    d ∈ leaves ∨ Collision hash (inputs.leaf d :: way) (hashed inputs hash leaves) := by
  rcases hascends.within rfl with ⟨part, hpart, hhashed, hroot⟩ | hcollision
  swap
  · exact Or.inr (hcollision.mono (List.subset_cons_self _ _) (List.Subset.refl _))
  obtain ⟨x, htop, hx, hhash⟩ := exists_top inputs hash part
  rcases collision_of_mem (List.mem_cons_self (l := way)) (hhashed hx)
    (hroot.symm.trans hhash) with hsame | hcollision
  swap
  · exact Or.inr hcollision
  generalize hd : inputs.leaf d = y at hsame
  cases htop with
  | empty _ => exact absurd (hd.trans hsame).symm (inputs.empty_ne_leaf _)
  | leaf hleaf =>
      refine Or.inl (hpart ?_)
      rw [hleaf, inputs.leaf_injective (hd.trans hsame)]
      exact List.mem_singleton_self _
  | node _ _ _ _ _ => exact absurd (hd.trans hsame) (inputs.leaf_ne_node _ _ _)

end Commitment

end TraigentSchema.MerkleTree
