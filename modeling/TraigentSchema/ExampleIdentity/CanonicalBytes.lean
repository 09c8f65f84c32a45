import TraigentSchema.Fp2.Acceptance

/-!
# The strict canonical bytes of content identity

`canonical_bytes` is fp2 canonicalization followed by one more rule: no number,
integer or float, beyond the safe integers.  The walk that enforces it on floats
has neither a depth limit nor a cycle check of its own; it runs on values fp2 has
accepted, and that is why it ends.
-/

namespace TraigentSchema.ExampleIdentity

open TraigentSchema.Unicode
open TraigentSchema.Binary64
open TraigentSchema.Fp2
open TraigentSchema.Python
open TraigentSchema.Traverse
open TraigentSchema.VariantLoop

/-- A value cannot be given a content identity. -/
structure ContentIdentityError where
  message : String
  deriving DecidableEq, Repr

/-- `abs(value) > fp2._MAX_SAFE_INTEGER`, for a float. -/
def beyondSafe : Double → Bool
  | .nan => false
  | .infinity _ => true
  | .finite _ m => decide ((maxSafeInteger : ℚ) < m.value)

/-- A scalar `_reject_unsafe_numbers` lets pass. -/
def SafeAtom : Atom → Prop
  | .float value => beyondSafe value = false
  | _ => True

instance : DecidablePred SafeAtom
  | .float value => inferInstanceAs (Decidable (beyondSafe value = false))
  | .none | .bool _ | .int _ | .str _ | .foreign _ => inferInstanceAs (Decidable True)

variable {A : Type}

/-- How many scalars and containers a tree has. -/
def treeSize : PyValue → ℕ :=
  Tree.fold (fun _ => 1) (fun sizes => sizes.sum + 1)
    (fun sizes => (sizes.map Prod.snd).sum + 1)

/-- The stack of `_reject_unsafe_numbers`, the next value first.  Everything on
it comes from a value fp2 accepted. -/
structure Pending (h : Heap A) where
  values : List (Ref A)
  finite : ∀ r ∈ values, (unfold h maxDepth r).isSome

theorem isSome_unfold_of_child {h : Heap A} {a : A} {r : Ref A}
    (ha : (unfold h maxDepth (.node a)).isSome) (hr : r ∈ (h a).children) :
    (unfold h maxDepth r).isSome := by
  obtain ⟨v, hv⟩ := Option.isSome_iff_exists.mp ha
  obtain ⟨w, hw, hlt⟩ := (unfold_eq_some_iff.mp hv).1.exists_of_mem_children hr
  have hle := (unfold_eq_some_iff.mp hv).2
  exact Option.isSome_iff_exists.mpr
    ⟨w, unfold_eq_some_iff.mpr ⟨hw, hlt.le.trans hle⟩⟩

/-- One iteration of `_reject_unsafe_numbers`. -/
def rejectStep (h : Heap A) (s : Pending h) :
    Except ContentIdentityError (Pending h ⊕ Unit) :=
  match hvalues : s.values with
  | [] => .ok (.inr ())
  | .atom x :: rest =>
      if SafeAtom x then
        .ok (.inl ⟨rest, fun r hr => s.finite r (by simp [hvalues, hr])⟩)
      else .error ⟨"number outside +/-(2**53-1)"⟩
  | .node a :: rest =>
      .ok (.inl ⟨(h a).children.reverse ++ rest, fun r hr => by
        rcases List.mem_append.mp hr with hchild | hrest
        · exact isSome_unfold_of_child (s.finite (.node a) (by simp [hvalues]))
            (List.mem_reverse.mp hchild)
        · exact s.finite r (by simp [hvalues, hrest])⟩)

@[simp]
theorem treeSize_leaf (x : Atom) : treeSize (.leaf x) = 1 := by
  simp [treeSize]

@[simp]
theorem treeSize_list (values : List PyValue) :
    treeSize (.list values) = (values.map treeSize).sum + 1 := by
  simp [treeSize]

@[simp]
theorem treeSize_dict (values : List (Key × PyValue)) :
    treeSize (.dict values) = (values.map fun value => treeSize value.2).sum + 1 := by
  simp [treeSize, Function.comp_def]

/-- What one value on the stack contributes to `pendingSize`. -/
def sizeBelow (h : Heap A) (r : Ref A) : ℕ :=
  ((unfold h maxDepth r).map treeSize).getD 0

@[simp]
theorem sizeBelow_atom (h : Heap A) (x : Atom) : sizeBelow h (.atom x) = 1 := by
  simp [sizeBelow]

theorem sizeBelow_of_unfold {h : Heap A} {r : Ref A} {v : PyValue}
    (hv : unfold h 99 r = some v) : sizeBelow h r = treeSize v := by
  have hle : v.nesting ≤ maxDepth := (nesting_le_of_unfold hv).trans (by decide)
  simp [sizeBelow, unfold_of_nesting_le hv hle]

/-- A container is larger than its children together. -/
theorem sum_children_lt {h : Heap A} {a : A} {v : PyValue}
    (hv : unfold h maxDepth (.node a) = some v) :
    ((h a).children.map (sizeBelow h)).sum < sizeBelow h (.node a) := by
  have hsize : sizeBelow h (.node a) = treeSize v := by
    simp [sizeBelow, hv]
  rw [hsize]
  cases hnode : h a with
  | list items =>
      obtain ⟨values, rfl, hvalues⟩ := (unfold_list hnode 99 v).mp hv
      have hmap : items.map (sizeBelow h) = values.map treeSize :=
        map_eq_map_iff_forall₂.mpr (hvalues.imp fun _ _ => sizeBelow_of_unfold)
      rw [Node.children, hmap, treeSize_list]
      exact Nat.lt_succ_self _
  | dict members =>
      obtain ⟨values, rfl, hvalues⟩ := (unfold_dict hnode 99 v).mp hv
      have hmap : (members.items.map fun member => sizeBelow h member.2) =
          values.map fun value => treeSize value.2 :=
        map_eq_map_iff_forall₂.mpr
          (hvalues.imp fun _ _ hmember => sizeBelow_of_unfold hmember.2)
      rw [Node.children, List.map_map, Function.comp_def, hmap, treeSize_dict]
      exact Nat.lt_succ_self _

/-- The size of what is left to visit. -/
def pendingSize {h : Heap A} (s : Pending h) : ℕ :=
  (s.values.map (sizeBelow h)).sum

theorem rejectStep_decreases {h : Heap A} {s s' : Pending h}
    (hstep : rejectStep h s = .ok (.inl s')) : pendingSize s' < pendingSize s := by
  unfold rejectStep at hstep
  split at hstep
  · simp at hstep
  · rename_i x rest hvalues
    split_ifs at hstep
    rw [Except.ok.injEq, Sum.inl.injEq] at hstep
    simp [← hstep, pendingSize, hvalues]
  · rename_i a rest hvalues
    rw [Except.ok.injEq, Sum.inl.injEq] at hstep
    obtain ⟨v, hv⟩ := Option.isSome_iff_exists.mp
      (s.finite (.node a) (by simp [hvalues]))
    have hlt := sum_children_lt hv
    simp only [← hstep, pendingSize, hvalues, List.map_append, List.map_reverse,
      List.sum_append, List.sum_reverse, List.map_cons, List.sum_cons]
    omega

def rejectLoop (h : Heap A) : Loop (Pending h) ContentIdentityError Unit where
  step := rejectStep h
  variant := pendingSize
  decreases := rejectStep_decreases

/-- Refuse any float beyond the safe integers, on a value fp2 accepted. -/
def rejectUnsafeNumbers (h : Heap A) (root : Ref A)
    (haccepted : (unfold h maxDepth root).isSome) : Except ContentIdentityError Unit :=
  run (rejectLoop h) ⟨[root], by simpa using haccepted⟩

/-! ## What the walk lets pass -/

/-- The graph below `r` holds no float beyond the safe integers. -/
abbrev SafeWithin (h : Heap A) (r : Ref A) : Prop :=
  AdmitsWithin h SafeAtom (fun _ => True) maxDepth r

theorem safeWithin_node {h : Heap A} {a : A}
    (ha : (unfold h maxDepth (.node a)).isSome) :
    SafeWithin h (.node a) ↔ ∀ r ∈ (h a).children, SafeWithin h r := by
  have hkeys : (h a).KeysOk fun _ => True := by
    cases h a <;> simp [Node.KeysOk]
  rw [SafeWithin, maxDepth, admitsWithin_node_of_isSome ha]
  exact and_iff_right hkeys

theorem run_rejectLoop_eq_ok_iff {h : Heap A} (s : Pending h) :
    run (rejectLoop h) s = .ok () ↔ ∀ r ∈ s.values, SafeWithin h r := by
  induction hn : pendingSize s using Nat.strong_induction_on generalizing s with
  | _ n ih =>
      subst hn
      obtain ⟨values, finite⟩ := s
      cases values with
      | nil => simp [run_of_exit (rejectLoop h) (s := ⟨[], finite⟩) rfl]
      | cons r rest =>
          cases r with
          | atom x =>
              by_cases hx : SafeAtom x
              · have hstep : (rejectLoop h).step ⟨.atom x :: rest, finite⟩ =
                    .ok (.inl ⟨rest, fun r hr => finite r (by simp [hr])⟩) := by
                  simp [rejectLoop, rejectStep, hx]
                rw [run_of_step (rejectLoop h) hstep,
                  ih _ (rejectStep_decreases hstep) _ rfl]
                simp [admitsWithin_atom, hx]
              · have hstep : (rejectLoop h).step ⟨.atom x :: rest, finite⟩ =
                    .error ⟨"number outside +/-(2**53-1)"⟩ := by
                  simp [rejectLoop, rejectStep, hx]
                rw [run_of_error (rejectLoop h) hstep]
                simp [admitsWithin_atom, hx]
          | node a =>
              have hstep : (rejectLoop h).step ⟨.node a :: rest, finite⟩ = _ := rfl
              rw [run_of_step (rejectLoop h) hstep,
                ih _ (rejectStep_decreases hstep) _ rfl]
              simp only [List.mem_append, List.mem_reverse, or_imp, forall_and,
                List.forall_mem_cons, safeWithin_node (finite (.node a) (by simp))]

theorem rejectUnsafeNumbers_eq_ok_iff {h : Heap A} {root : Ref A}
    (haccepted : (unfold h maxDepth root).isSome) :
    rejectUnsafeNumbers h root haccepted = .ok () ↔ SafeWithin h root := by
  simp [rejectUnsafeNumbers, run_rejectLoop_eq_ok_iff]

variable [DecidableEq A]

theorem isSome_unfold_of_canonicalize {float : FloatRepr} {h : Heap A} {value : Ref A}
    {literal : Text} (hcanonical : canonicalize float h value = .ok literal) :
    (unfold h maxDepth value).isSome := by
  obtain ⟨v, hv, hnesting, -, -⟩ := canonicalize_eq_ok_iff.mp hcanonical
  exact Option.isSome_iff_exists.mpr ⟨v, unfold_eq_some_iff.mpr ⟨hv, hnesting⟩⟩

/-- The canonical UTF-8 bytes of a value under the strict profile. -/
def canonicalBytes (float : FloatRepr) (h : Heap A) (value : Ref A) :
    Except ContentIdentityError Bytes :=
  match hcanonical : canonicalize float h value with
  | .error error => .error ⟨s!"value cannot be canonicalized: {error.message}"⟩
  | .ok literal => do
      rejectUnsafeNumbers h value (isSome_unfold_of_canonicalize hcanonical)
      return utf8 literal

def StrictAtom (x : Atom) : Prop :=
  SupportedAtom x ∧ SafeAtom x

instance : DecidablePred StrictAtom := fun x =>
  inferInstanceAs (Decidable (SupportedAtom x ∧ SafeAtom x))

/-- A tree with a canonical text and no number beyond the safe integers. -/
def Strict (v : PyValue) : Prop :=
  v.Admits StrictAtom PlainKey

theorem strict_iff {v : PyValue} :
    Strict v ↔ Supported v ∧ v.Admits SafeAtom fun _ => True := by
  have hand : v.Admits StrictAtom (fun k => PlainKey k ∧ True) ↔
      v.Admits SupportedAtom PlainKey ∧ v.Admits SafeAtom fun _ => True :=
    Tree.admits_and
  simp only [and_true] at hand
  exact hand

/-- The strict profile: what it accepts, and the bytes it gives. -/
theorem canonicalBytes_eq_ok_iff {float : FloatRepr} {h : Heap A} {value : Ref A}
    {bytes : Bytes} :
    canonicalBytes float h value = .ok bytes ↔
      ∃ v, Unfolds h value v ∧ v.nesting ≤ maxDepth ∧ Strict v ∧
        bytes = utf8 (canonicalText float v) := by
  unfold canonicalBytes
  split
  · rename_i error hcanonical
    simp only [reduceCtorEq, false_iff]
    rintro ⟨v, hv, hnesting, hstrict, -⟩
    rw [canonicalize_of_unfolds hv hnesting (strict_iff.mp hstrict).1] at hcanonical
    exact absurd hcanonical (by simp)
  · rename_i literal hcanonical
    obtain ⟨v, hv, hnesting, hsupported, rfl⟩ := canonicalize_eq_ok_iff.mp hcanonical
    have hsafe : SafeWithin h value ↔ Strict v := by
      rw [SafeWithin, admitsWithin_of_unfold (unfold_eq_some_iff.mpr ⟨hv, hnesting⟩),
        strict_iff, and_iff_right hsupported]
    have hwalk := rejectUnsafeNumbers_eq_ok_iff
      (isSome_unfold_of_canonicalize hcanonical)
    constructor
    · intro hrun
      obtain ⟨done, hdone, hbytes⟩ := bind_eq_ok_iff.mp hrun
      exact ⟨v, hv, hnesting, hsafe.mp (hwalk.mp hdone), (Except.ok.inj hbytes).symm⟩
    · rintro ⟨w, hw, -, hstrict, rfl⟩
      obtain rfl := hv.unique hw
      rw [hwalk.mpr (hsafe.mpr hstrict)]
      rfl

theorem canonicalBytes_of_unfolds {float : FloatRepr} {h : Heap A} {value : Ref A}
    {v : PyValue} (hv : Unfolds h value v) (hnesting : v.nesting ≤ maxDepth)
    (hstrict : Strict v) :
    canonicalBytes float h value = .ok (utf8 (canonicalText float v)) :=
  canonicalBytes_eq_ok_iff.mpr ⟨v, hv, hnesting, hstrict, rfl⟩

end TraigentSchema.ExampleIdentity
