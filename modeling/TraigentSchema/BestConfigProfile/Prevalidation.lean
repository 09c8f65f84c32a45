import TraigentSchema.BestConfigProfile.CanonicalBytes
import TraigentSchema.Python.WalkErrors

/-!
# What prevalidation leaves to fp2

The walk that runs before fp2 and fp2's own walk judge a value graph separately.  What the
first lets pass the second can refuse only for a number that is not finite or for a string
that has no encoding; and what the first refuses the second refuses too, the integral floats
beyond the safe integers apart.
-/

namespace TraigentSchema.BestConfigProfile

open TraigentSchema.Unicode
open TraigentSchema.Binary64
open TraigentSchema.Fp2
open TraigentSchema.Python
open TraigentSchema.Traverse

/-! ## Locations -/

def segmentText (segment : ℕ) : List Char :=
  '[' :: ((toString segment).toList ++ [']'])

theorem toList_location (path : List ℕ) :
    (location path).toList = '$' :: path.flatMap segmentText := by
  have hfold : ∀ (start : String), (path.foldl (fun text segment => text ++ s!"[{segment}]")
      start).toList = start.toList ++ path.flatMap segmentText := by
    induction path with
    | nil => simp
    | cons segment path ih =>
        intro start
        rw [List.foldl_cons, ih]
        simp [segmentText, toString]
  exact hfold "$"

theorem segmentText_prefixFree : PrefixFree segmentText fun _ => True where
  ne_nil segment := by simp [segmentText]
  head_unique {left right restLeft restRight} _ _ heq := by
    have hcut : ∀ (n : ℕ) (rest : List Char),
        ((toString n).toList ++ ']' :: rest).takeWhile (· ≠ ']') = (toString n).toList := by
      intro n rest
      rw [List.takeWhile_append_of_pos]
      · simp
      · intro c hc
        have hdigit : c.isDigit = true :=
          Nat.isDigit_of_mem_toDigits (b := 10) (by norm_num) le_rfl (by simpa using hc)
        simp only [decide_eq_true_eq]
        rintro rfl
        exact absurd hdigit (by decide)
    simp only [segmentText, List.cons_append, List.append_assoc, List.nil_append,
      List.cons.injEq, true_and] at heq
    have hdigits := congrArg (List.takeWhile (· ≠ ']')) heq
    rw [hcut, hcut] at hdigits
    exact Nat.repr_inj.mp (String.toList_inj.mp hdigits)

/-- A location names one path. -/
theorem location_injective : Function.Injective location := by
  intro left right heq
  have htext := congrArg String.toList heq
  rw [toList_location, toList_location, List.cons.injEq] at htext
  exact segmentText_prefixFree.flatMap_injective (by simp) (by simp) htext.2

theorem unsafeIntegralValueError_injective : Function.Injective unsafeIntegralValueError := by
  intro left right heq
  have hmessage := congrArg (fun e => e.message.toList) heq
  simp only [unsafeIntegralValueError, String.toList_append] at hmessage
  exact location_injective (String.toList_inj.mp (List.append_cancel_right hmessage))

/-! ## Paths -/

section Paths

variable {A : Type}

/-- The value at a path of positions. -/
def refAt (h : Heap A) : List ℕ → Ref A → Option (Ref A)
  | [], r => some r
  | _ :: _, .atom _ => none
  | index :: path, .node a => (h a).children[index]?.bind (refAt h path)

/-- The walk pushes each child with its position. -/
theorem openProfileContainer_path {path : List ℕ} {node : Node A}
    {children : List (Ref A × List ℕ)} (hopen : openProfileContainer path node = .ok children)
    {child : Ref A × List ℕ} (hchild : child ∈ children) :
    ∃ index, child.2 = path ++ [index] ∧ node.children[index]? = some child.1 := by
  cases node with
  | list items =>
      obtain rfl := Except.ok.inj hopen
      obtain ⟨⟨item, index⟩, hmem, rfl⟩ := List.mem_map.mp (List.mem_reverse.mp hchild)
      exact ⟨index, rfl, List.mk_mem_zipIdx_iff_getElem?.mp hmem⟩
  | dict members =>
      cases hkey : nonStringKey members with
      | some index => simp [openProfileContainer, hkey] at hopen
      | none =>
          simp only [openProfileContainer, hkey, Except.ok.injEq] at hopen
          rw [← hopen, List.mem_reverse] at hchild
          obtain ⟨⟨member, index⟩, hmem, rfl⟩ := List.mem_map.mp hchild
          have hitem := List.mk_mem_zipIdx_iff_getElem?.mp hmem
          exact ⟨index, rfl, by simp [Node.children, hitem]⟩

theorem refAt_of_gets {h : Heap A} {r r' : Ref A} {path path' : List ℕ}
    (hgets : Gets profileWalker h r path r' path') :
    ∃ suffix, path' = path ++ suffix ∧ refAt h suffix r = some r' := by
  induction hgets with
  | here => exact ⟨[], (List.append_nil _).symm, rfl⟩
  | @inside a path children child r' path' henter hchild _ ih =>
      obtain ⟨index, hpath, hitem⟩ := openProfileContainer_path henter hchild
      obtain ⟨suffix, rfl, hrest⟩ := ih
      refine ⟨index :: suffix, ?_, ?_⟩
      · rw [hpath, List.append_assoc]
        rfl
      · rw [refAt, hitem, Option.bind_some, hrest]

end Paths

/-! ## The two walks -/

/-- A float is finite and a string has an encoding. -/
def EncodableAtom : Atom → Prop
  | .float .nan => False
  | .float (.infinity _) => False
  | .str s => Encodable s
  | _ => True

def EncodableKey : Key → Prop
  | .str s => Encodable s
  | .foreign _ => True

theorem supportedAtom_iff {x : Atom} (hx : AdmissibleAtom x) :
    SupportedAtom x ↔ EncodableAtom x := by
  cases x with
  | int value => exact iff_of_true hx trivial
  | float value => cases value <;> exact Iff.rfl
  | foreign o => exact hx.elim
  | _ => exact Iff.rfl

theorem plainKey_iff {key : Key} (hkey : PlainString key) : PlainKey key ↔ EncodableKey key := by
  cases key with
  | str s => exact Iff.rfl
  | foreign o => exact hkey.elim

theorem supported_iff_encodable {v : PyValue} (hv : v.Admits AdmissibleAtom PlainString) :
    Supported v ↔ v.Admits EncodableAtom EncodableKey := by
  constructor
  · intro hsupported
    exact (Tree.admits_and.mpr ⟨hv, hsupported⟩).imp
      (fun _ hx => (supportedAtom_iff hx.1).mp hx.2) fun _ hk => (plainKey_iff hk.1).mp hk.2
  · intro hencodable
    exact (Tree.admits_and.mpr ⟨hv, hencodable⟩).imp
      (fun _ hx => (supportedAtom_iff hx.1).mpr hx.2) fun _ hk => (plainKey_iff hk.1).mpr hk.2

/-- A supported scalar is refused for being an integral float. -/
theorem float_of_isAdmissibleScalar {path : List ℕ} {x : Atom} {e : BestConfigProfileError}
    (hx : SupportedAtom x) (herror : isAdmissibleScalar path x = .error e) :
    ∃ value, x = .float value ∧ isUnsafeIntegral (.inr value) = true ∧
      e = unsafeIntegralValueError path := by
  cases x with
  | float value =>
      rw [isAdmissibleScalar] at herror
      split_ifs at herror with hunsafe
      exact ⟨value, rfl, hunsafe, (Except.error.inj herror).symm⟩
  | int value =>
      have hsafe : isUnsafeIntegral (.inl value) = false :=
        decide_eq_false (not_lt.mpr hx)
      simp [isAdmissibleScalar, hsafe] at herror
  | foreign o => exact hx.elim
  | _ => cases herror

section Walks

variable {A : Type} [DecidableEq A]

/-- What `prevalidate` refuses and fp2 takes is an integral float beyond the safe integers. -/
theorem float_of_prevalidate {h : Heap A} {root : Ref A} {float : FloatRepr}
    {e : BestConfigProfileError} {literal : Text} (herror : prevalidate h root = .error e)
    (hcanonical : canonicalize float h root = .ok literal) :
    ∃ path value, refAt h path root = some (.atom (.float value)) ∧
      isUnsafeIntegral (.inr value) = true ∧ e = unsafeIntegralValueError path := by
  obtain ⟨v, hv, hnesting, hsupported, -⟩ := canonicalize_eq_ok_iff.mp hcanonical
  have henter : ∀ (path : List ℕ) (node : Node A), node.KeysOk PlainKey →
      ∃ children, profileWalker.enter path node = .ok children := by
    intro path node hkeys
    apply exists_openProfileContainer_iff.mpr
    cases node with
    | list items => trivial
    | dict members =>
        intro member hmember
        have hplain := hkeys member hmember
        cases hkey : member.1 with
        | str s => trivial
        | foreign o => exact (hkey ▸ hplain : PlainKey (.foreign o)).elim
  obtain ⟨x, path, hgets, hx, hcheck⟩ :=
    leafFails_of_walk henter hv hnesting hsupported herror
  obtain ⟨value, rfl, hunsafe, rfl⟩ := float_of_isAdmissibleScalar hx hcheck
  obtain ⟨below, hpath, hfound⟩ := refAt_of_gets hgets
  rw [List.nil_append] at hpath
  exact ⟨path, value, hpath ▸ hfound, hunsafe, rfl⟩

end Walks

/-- A list that holds itself. -/
def selfHeap : Heap Unit :=
  fun _ => .list [.node ()]

end TraigentSchema.BestConfigProfile
