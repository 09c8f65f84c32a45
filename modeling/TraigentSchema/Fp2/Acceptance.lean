import TraigentSchema.Fp2.EncoderCorrect

/-!
# What the encoder accepts

Acceptance, sharing, cycles and the order of members, for every object graph.
-/

namespace TraigentSchema.Fp2

open TraigentSchema.Unicode
open TraigentSchema.JsonText (arrayText)
open TraigentSchema.Python
open TraigentSchema.SortedBy
open TraigentSchema.Traverse

variable {A : Type} [DecidableEq A] {float : FloatRepr} {h : Heap A}

theorem encode_eq_ok_iff {root : Ref A} {literal : Text} :
    encode float h root = .ok literal ↔
      ∃ v, Unfolds h root v ∧ v.nesting ≤ maxDepth ∧ Supported v ∧
        literal = canonicalText float v := by
  rw [← toOption_eq_some_iff, encode_toOption, encodeAt_eq_some_iff]
  simp only [unfold_eq_some_iff, and_assoc]

theorem canonicalize_eq_ok_iff_encode {root : Ref A} {literal : Text} :
    canonicalize float h root = .ok literal ↔ encode float h root = .ok literal := by
  unfold canonicalize
  split <;> simp_all

/-- A value is accepted exactly when it is a finite tree of supported scalars
nested at most `maxDepth` deep, and its text is the canonical one. -/
theorem canonicalize_eq_ok_iff {root : Ref A} {literal : Text} :
    canonicalize float h root = .ok literal ↔
      ∃ v, Unfolds h root v ∧ v.nesting ≤ maxDepth ∧ Supported v ∧
        literal = canonicalText float v :=
  canonicalize_eq_ok_iff_encode.trans encode_eq_ok_iff

theorem canonicalize_of_unfolds {root : Ref A} {v : PyValue} (hv : Unfolds h root v)
    (hnesting : v.nesting ≤ maxDepth) (hsupported : Supported v) :
    canonicalize float h root = .ok (canonicalText float v) :=
  canonicalize_eq_ok_iff.mpr ⟨v, hv, hnesting, hsupported, rfl⟩

theorem canonicalize_toOption (root : Ref A) :
    (canonicalize float h root).toOption = encodeAt float h maxDepth root := by
  rw [← encode_toOption]
  ext literal
  rw [toOption_eq_some_iff, toOption_eq_some_iff, canonicalize_eq_ok_iff_encode]

/-! ## Cycles -/

omit [DecidableEq A] in
theorem not_unfolds_of_reaches_cycle {a b : A} {v : PyValue}
    (hreach : Relation.ReflTransGen (Holds h) a b)
    (hcycle : Relation.TransGen (Holds h) b b) : ¬ Unfolds h (.node a) v := by
  intro hv
  rcases Relation.reflTransGen_iff_eq_or_transGen.mp hreach with rfl | hreach
  · exact not_unfolds_of_cycle hcycle hv
  · obtain ⟨w, hw, -⟩ := hv.exists_of_reaches hreach
    exact not_unfolds_of_cycle hcycle hw

/-! ## The order of members -/

/-- Two nodes with the same members in possibly different insertion order. -/
def SameMembers : Node A → Node A → Prop
  | .list items, .list items' => items = items'
  | .dict members, .dict members' => members.items.Perm members'.items
  | _, _ => False

theorem utf16BigEndian_injOn {left right : Text} (hleft : Encodable left)
    (hright : Encodable right) (heq : utf16BigEndian left = utf16BigEndian right) :
    left = right :=
  utf16_injective hleft hright (flatMap_bigEndian_strictMono.injective heq)

theorem plainKey_injOn {left right : Key} (hleft : PlainKey left)
    (hright : PlainKey right)
    (heq : utf16BigEndian (keyText left) = utf16BigEndian (keyText right)) :
    left = right := by
  cases left with
  | foreign o => exact absurd hleft (by simp [PlainKey])
  | str left =>
      cases right with
      | foreign o => exact absurd hright (by simp [PlainKey])
      | str right => exact congrArg Key.str (utf16BigEndian_injOn hleft hright heq)

theorem sortedMembers_eq_of_perm {V : Type} {members members' : Dict V}
    (hperm : members.items.Perm members'.items)
    (hplain : ∀ member ∈ members.items, PlainKey member.1) :
    sortedMembers members.items = sortedMembers members'.items := by
  refine sortedBy_eq_of_perm _ hperm fun left hleft right hright heq => ?_
  have hkey := plainKey_injOn (hplain left hleft) (hplain right hright) heq
  exact List.inj_on_of_nodup_map members.nodup hleft hright hkey

omit [DecidableEq A] in
theorem encodeAt_congr {h' : Heap A} (hsame : ∀ a, SameMembers (h a) (h' a))
    (n : ℕ) : encodeAt float h n = encodeAt float h' n := by
  induction n with
  | zero =>
      funext r
      cases r <;> simp [encodeAt]
  | succ n ih =>
      funext r
      cases r with
      | atom x => simp
      | node a =>
          have ha := hsame a
          cases hnode : h a with
          | list items =>
              cases hnode' : h' a with
              | list items' =>
                  rw [hnode, hnode'] at ha
                  obtain rfl : items = items' := ha
                  simp only [encodeAt, hnode, hnode', ih]
              | dict members' => simp [hnode, hnode', SameMembers] at ha
          | dict members =>
              cases hnode' : h' a with
              | list items' => simp [hnode, hnode', SameMembers] at ha
              | dict members' =>
                  rw [hnode, hnode'] at ha
                  have hperm : members.items.Perm members'.items := ha
                  have hiff : (∀ member ∈ members'.items, PlainKey member.1) ↔
                      ∀ member ∈ members.items, PlainKey member.1 :=
                    ⟨fun hall m hm => hall m (hperm.mem_iff.mp hm),
                      fun hall m hm => hall m (hperm.mem_iff.mpr hm)⟩
                  simp only [encodeAt, hnode, hnode', ih, hiff]
                  split_ifs with hplain
                  · rw [sortedMembers_eq_of_perm hperm hplain]
                  · rfl

/-! ## The encoder refines the recursive definition -/

/-- The explicit-stack encoder on any object graph: it answers exactly on the
graphs the recursive definition covers, with its text, and `canonicalize` turns
every other outcome into the module's own exception; shared items are encoded
once per occurrence, whatever reaches itself is refused, and the insertion order
of members does not matter. -/
theorem encode_refines (float : FloatRepr) (h : Heap A) :
    (∀ root literal, encode float h root = .ok literal ↔
      ∃ v, Unfolds h root v ∧ v.nesting ≤ maxDepth ∧ Supported v ∧
        literal = canonicalText float v) ∧
    (∀ root literal, encode float h root = .ok literal →
      canonicalize float h root = .ok literal) ∧
    (∀ root, (∀ literal, encode float h root ≠ .ok literal) →
      ∃ message, canonicalize float h root = .error ⟨message⟩) ∧
    (∀ a items values, h a = .list items → List.Forall₂ (Unfolds h) items values →
      (∀ value ∈ values, value.nesting < maxDepth ∧ Supported value) →
      canonicalize float h (.node a) =
        .ok (arrayText (values.map (canonicalText float)))) ∧
    (∀ a b, Relation.ReflTransGen (Holds h) a b →
      Relation.TransGen (Holds h) b b →
      ∃ message, canonicalize float h (.node a) = .error ⟨message⟩) ∧
    (∀ h' : Heap A, (∀ a, SameMembers (h a) (h' a)) → ∀ root,
      (canonicalize float h root).toOption =
        (canonicalize float h' root).toOption) := by
  have hrefused : ∀ root, (∀ literal, encode float h root ≠ .ok literal) →
      ∃ message, canonicalize float h root = .error ⟨message⟩ := by
    intro root hnone
    cases hrun : canonicalize float h root with
    | ok literal => exact absurd (canonicalize_eq_ok_iff_encode.mp hrun) (hnone literal)
    | error e => exact ⟨e.message, rfl⟩
  refine ⟨fun _ _ => encode_eq_ok_iff,
    fun _ _ => canonicalize_eq_ok_iff_encode.mpr, hrefused, ?_, ?_, ?_⟩
  · intro a items values hnode hvalues hall
    rw [← canonicalText_list]
    refine canonicalize_of_unfolds ((unfolds_list hnode).mpr ⟨values, rfl, hvalues⟩)
      ?_ ((supported_list values).mpr fun value hvalue => (hall value hvalue).2)
    exact (Tree.nesting_list_le_iff values 99).mpr fun value hvalue =>
      Nat.le_of_lt_succ (hall value hvalue).1
  · intro a b hreach hcycle
    refine hrefused _ fun literal hencode => ?_
    obtain ⟨v, hv, -⟩ := encode_eq_ok_iff.mp hencode
    exact not_unfolds_of_reaches_cycle hreach hcycle hv
  · intro h' hsame root
    rw [canonicalize_toOption, canonicalize_toOption, encodeAt_congr hsame]

end TraigentSchema.Fp2
