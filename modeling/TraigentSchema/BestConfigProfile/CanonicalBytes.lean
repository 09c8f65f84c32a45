import TraigentSchema.ExampleIdentity.CanonicalBytes
import TraigentSchema.Library.Hashing
import TraigentSchema.Python.HeapWalk

/-!
# The strict canonical bytes of the best-config profile

The profile checks a value before fp2 sees it, with a walk of its own, and bounds
the size of the canonical text after.  The walk refuses numbers by their integral
value and the content-identity profile refuses them by their magnitude; on
doubles the two are one rule, and so the two profiles accept the same values.
-/

namespace TraigentSchema.BestConfigProfile

open TraigentSchema.Unicode
open TraigentSchema.Binary64
open TraigentSchema.Fp2
open TraigentSchema.Hashing
open TraigentSchema.Python
open TraigentSchema.Traverse
open TraigentSchema.ExampleIdentity (StrictAtom Strict SafeAtom beyondSafe)

/-- A failure of the profile: the code of its class and its message. -/
structure BestConfigProfileError where
  code : String
  message : String
  deriving DecidableEq, Repr

/-- The content-free location of a path of positions. -/
def location (path : List ℕ) : String :=
  path.foldl (fun text segment => text ++ s!"[{segment}]") "$"

def unsafeIntegralValueError (path : List ℕ) : BestConfigProfileError where
  code := "unsafe_integral_number"
  message := location path ++
    s!": integral value outside the IEEE-754 safe integer range (limit {maxSafeInteger})"

def maxCanonicalSpecBytes : ℕ := 262144

def canonicalSpecTooLargeError (size : ℕ) : BestConfigProfileError where
  code := "exceeds_max_canonical_spec_bytes"
  message := s!"canonical spec is {size} bytes, exceeds the limit of {maxCanonicalSpecBytes}"

def circularReferenceError (path : List ℕ) : BestConfigProfileError where
  code := "cycle"
  message := location path ++ ": circular reference"

def exceedsMaxDepthError (path : List ℕ) : BestConfigProfileError where
  code := "exceeds_max_depth"
  message := location path ++ s!": nests deeper than the profile limit of {maxDepth}"

def nonStringKeyError (path : List ℕ) : BestConfigProfileError where
  code := "non_string_key"
  message := location path ++ ": object key is not a plain string"

def unsupportedProfileTypeError (path : List ℕ) : BestConfigProfileError where
  code := "unsupported_type"
  message := location path ++
    ": value is not one of the admissible exact JSON built-in types"

def fp2CanonicalizationError : BestConfigProfileError where
  code := "fp2_canonicalization_failure"
  message := "$: fp2 canonicalization rejected the value"

/-! ## Prevalidation -/

/-- An integral magnitude beyond the safe integers, for an `int` or a `float`. -/
def isUnsafeIntegral : ℤ ⊕ Double → Bool
  | .inl value => decide (maxSafeInteger < value.natAbs)
  | .inr .nan => false
  | .inr (.infinity _) => false
  | .inr (.finite _ m) =>
      if m.value ≠ (⌊m.value⌋ : ℚ) then false
      else decide ((maxSafeInteger : ℚ) < m.value)

def isAdmissibleScalar (path : List ℕ) : Atom → Except BestConfigProfileError Unit
  | .none => .ok ()
  | .bool _ => .ok ()
  | .int value =>
      if isUnsafeIntegral (.inl value) then .error (unsafeIntegralValueError path)
      else .ok ()
  | .float value =>
      if isUnsafeIntegral (.inr value) then .error (unsafeIntegralValueError path)
      else .ok ()
  | .str _ => .ok ()
  | .foreign _ => .error (unsupportedProfileTypeError path)

def PlainString : Key → Prop
  | .str _ => True
  | .foreign _ => False

instance : DecidablePred PlainString
  | .str _ => inferInstanceAs (Decidable True)
  | .foreign _ => inferInstanceAs (Decidable False)

variable {A : Type}

/-- The position of the first key that is not a plain string. -/
def nonStringKey (members : Dict (Ref A)) : Option ℕ :=
  members.items.findIdx? fun member => decide (¬ PlainString member.1)

/-- The members of a container with the paths to them, the last pushed and first
popped in front. -/
def openProfileContainer (path : List ℕ) :
    Node A → Except BestConfigProfileError (List (Ref A × List ℕ))
  | .list items =>
      .ok ((items.zipIdx.map fun (item, index) => (item, path ++ [index])).reverse)
  | .dict members =>
      match nonStringKey members with
      | some index => .error (nonStringKeyError (path ++ [index]))
      | none =>
          .ok ((members.items.zipIdx.map fun (member, index) =>
            (member.2, path ++ [index])).reverse)

theorem openProfileContainer_perm {path : List ℕ} {node : Node A}
    {children : List (Ref A × List ℕ)}
    (hopen : openProfileContainer path node = .ok children) :
    (children.map Prod.fst).Perm node.children := by
  cases node with
  | list items =>
      obtain rfl := Except.ok.inj hopen
      rw [List.map_reverse, List.map_map]
      refine (List.reverse_perm _).trans (List.Perm.of_eq ?_)
      exact List.zipIdx_map_fst 0 items
  | dict members =>
      cases hkey : nonStringKey members with
      | some index => simp [openProfileContainer, hkey] at hopen
      | none =>
          simp only [openProfileContainer, hkey, Except.ok.injEq] at hopen
          rw [← hopen, List.map_reverse, List.map_map]
          refine (List.reverse_perm _).trans (List.Perm.of_eq ?_)
          have hfst := List.zipIdx_map_fst 0 members.items
          calc
            _ = (members.items.zipIdx.map Prod.fst).map Prod.snd := by
              rw [List.map_map]
              rfl
            _ = _ := by rw [hfst, Node.children]

theorem nonStringKey_eq_none_iff {members : Dict (Ref A)} :
    nonStringKey members = none ↔ (Node.dict members).KeysOk PlainString := by
  simp [nonStringKey, List.findIdx?_eq_none_iff, Node.KeysOk]

theorem exists_openProfileContainer_iff {path : List ℕ} {node : Node A} :
    (∃ children, openProfileContainer path node = .ok children) ↔
      node.KeysOk PlainString := by
  cases node with
  | list items => simp [openProfileContainer, Node.KeysOk]
  | dict members =>
      rw [← nonStringKey_eq_none_iff]
      cases hkey : nonStringKey members <;> simp [openProfileContainer, hkey]

def profileWalker : Walker A (List ℕ) BestConfigProfileError where
  limit := maxDepth
  leaf := isAdmissibleScalar
  enter := openProfileContainer
  tooDeep := exceedsMaxDepthError
  circular := circularReferenceError
  enter_perm := openProfileContainer_perm

variable [DecidableEq A]

def prevalidate (h : Heap A) (root : Ref A) : Except BestConfigProfileError Unit :=
  walk profileWalker h root []

/-- Prevalidate, canonicalize, then enforce the byte bound. -/
def canonicalBytes (float : FloatRepr) (h : Heap A) (value : Ref A) :
    Except BestConfigProfileError Bytes := do
  prevalidate h value
  match canonicalize float h value with
  | .error _ => throw fp2CanonicalizationError
  | .ok canonical =>
      let encoded := utf8 canonical
      if maxCanonicalSpecBytes < encoded.length then
        throw (canonicalSpecTooLargeError encoded.length)
      return encoded

/-! ## The two profiles agree -/

def AdmissibleAtom : Atom → Prop
  | .int value => value.natAbs ≤ maxSafeInteger
  | .float value => isUnsafeIntegral (.inr value) = false
  | .foreign _ => False
  | _ => True

theorem isAdmissibleScalar_eq_ok_iff (path : List ℕ) (x : Atom) :
    isAdmissibleScalar path x = .ok () ↔ AdmissibleAtom x := by
  cases x with
  | int value => simp [isAdmissibleScalar, AdmissibleAtom, isUnsafeIntegral]
  | float value => simp [isAdmissibleScalar, AdmissibleAtom]
  | none => simp [isAdmissibleScalar, AdmissibleAtom]
  | bool b => simp [isAdmissibleScalar, AdmissibleAtom]
  | str s => simp [isAdmissibleScalar, AdmissibleAtom]
  | foreign o => simp [isAdmissibleScalar, AdmissibleAtom]

/-- On finite doubles the two number rules are one. -/
theorem isUnsafeIntegral_finite (negative : Bool) (m : Magnitude) :
    isUnsafeIntegral (.inr (.finite negative m)) = beyondSafe (.finite negative m) := by
  simp only [isUnsafeIntegral, beyondSafe]
  split_ifs with hfloor
  · have hle : ¬ (maxSafeInteger : ℚ) < m.value := fun hlt =>
      hfloor (Magnitude.value_eq_floor_of_lt hlt)
    simp [hle]
  · rfl

theorem strictAtom_iff (x : Atom) : StrictAtom x ↔ AdmissibleAtom x ∧ SupportedAtom x := by
  rw [StrictAtom, and_comm]
  refine and_congr_left fun hsupported => ?_
  cases x with
  | float value =>
      cases value with
      | finite negative m =>
          simp only [SafeAtom, AdmissibleAtom, isUnsafeIntegral_finite]
      | nan => exact absurd hsupported (by simp [SupportedAtom])
      | infinity _ => exact absurd hsupported (by simp [SupportedAtom])
  | foreign o => exact absurd hsupported (by simp [SupportedAtom])
  | int value => exact iff_of_true trivial hsupported
  | none => simp [SafeAtom, AdmissibleAtom]
  | bool b => simp [SafeAtom, AdmissibleAtom]
  | str s => simp [SafeAtom, AdmissibleAtom]

theorem strict_iff {v : PyValue} :
    Strict v ↔ v.Admits AdmissibleAtom PlainString ∧ Supported v := by
  rw [Supported, ← Tree.admits_and]
  have hkey : ∀ key, PlainKey key → PlainString key := by
    intro key hplain
    cases key with
    | str s => trivial
    | foreign o => exact hplain
  constructor
  · exact fun hstrict => hstrict.imp (fun x hx => (strictAtom_iff x).mp hx)
      fun key hplain => ⟨hkey key hplain, hplain⟩
  · exact fun hboth => hboth.imp (fun x hx => (strictAtom_iff x).mpr hx)
      fun _ hplain => hplain.2

variable {float : FloatRepr} {h : Heap A} {value : Ref A} {bytes : Bytes}

theorem prevalidate_eq_ok_iff {root : Ref A} :
    prevalidate h root = .ok () ↔
      ∃ v, Unfolds h root v ∧ v.nesting ≤ maxDepth ∧
        v.Admits AdmissibleAtom PlainString :=
  walk_eq_ok_iff isAdmissibleScalar_eq_ok_iff
    fun _ _ => exists_openProfileContainer_iff

/-- The two checks together accept what the content-identity profile accepts. -/
theorem prevalidate_and_canonicalize_iff :
    (prevalidate h value = .ok () ∧
      ∃ canonical, canonicalize float h value = .ok canonical ∧
        bytes = utf8 canonical) ↔
      ExampleIdentity.canonicalBytes float h value = .ok bytes := by
  rw [ExampleIdentity.canonicalBytes_eq_ok_iff, prevalidate_eq_ok_iff]
  constructor
  · rintro ⟨⟨v, hv, hnesting, hadmits⟩, canonical, hcanonical, rfl⟩
    obtain ⟨w, hw, -, hsupported, rfl⟩ := canonicalize_eq_ok_iff.mp hcanonical
    obtain rfl := hv.unique hw
    exact ⟨v, hv, hnesting, strict_iff.mpr ⟨hadmits, hsupported⟩, rfl⟩
  · rintro ⟨v, hv, hnesting, hstrict, rfl⟩
    obtain ⟨hadmits, hsupported⟩ := strict_iff.mp hstrict
    exact ⟨⟨v, hv, hnesting, hadmits⟩, _,
      canonicalize_of_unfolds hv hnesting hsupported, rfl⟩

theorem canonicalBytes_of_identity
    (hbytes : ExampleIdentity.canonicalBytes float h value = .ok bytes) :
    canonicalBytes float h value =
      if maxCanonicalSpecBytes < bytes.length then
        .error (canonicalSpecTooLargeError bytes.length)
      else .ok bytes := by
  obtain ⟨hvalid, canonical, hcanonical, rfl⟩ :=
    prevalidate_and_canonicalize_iff.mpr hbytes
  simp only [canonicalBytes, hvalid, hcanonical, ok_bind]
  split_ifs <;> rfl

theorem canonicalBytes_eq_ok_iff :
    canonicalBytes float h value = .ok bytes ↔
      ExampleIdentity.canonicalBytes float h value = .ok bytes ∧
        bytes.length ≤ maxCanonicalSpecBytes := by
  constructor
  · intro hrun
    obtain ⟨done, hvalid, hrest⟩ := bind_eq_ok_iff.mp hrun
    cases hcanonical : canonicalize float h value with
    | error e => simp [hcanonical] at hrest
    | ok canonical =>
        have hidentity : ExampleIdentity.canonicalBytes float h value =
            .ok (utf8 canonical) :=
          prevalidate_and_canonicalize_iff.mp ⟨hvalid, canonical, hcanonical, rfl⟩
        rw [canonicalBytes_of_identity hidentity] at hrun
        split_ifs at hrun with hlarge
        obtain rfl := Except.ok.inj hrun
        exact ⟨hidentity, not_lt.mp hlarge⟩
  · rintro ⟨hidentity, hle⟩
    rw [canonicalBytes_of_identity hidentity, if_neg (not_lt.mpr hle)]

end TraigentSchema.BestConfigProfile
