import TraigentSchema.Invariants.ExactEquality

/-!
# Declared invariants

The relations between locations of a payload that a schema declares, and the pointers that
name the locations.  An unequal outcome satisfies the relation `condition_implies_unequal`,
so a subtree that cannot be judged must not count as unequal to anything.
-/

namespace TraigentSchema.Invariants

open TraigentSchema.Python
open TraigentSchema.Traverse
open TraigentSchema.Unicode

/-! ## Pointers -/

/-- `str.replace` of two characters by one. -/
def replacePair (first second replacement : CodePoint) : Text → Text
  | a :: b :: rest =>
      if a = first ∧ b = second then
        replacement :: replacePair first second replacement rest
      else a :: replacePair first second replacement (b :: rest)
  | rest => rest

def unescapeSegment (segment : Text) : Text :=
  replacePair (codePoint '~') (codePoint '0') (codePoint '~')
    (replacePair (codePoint '~') (codePoint '1') (codePoint '/') segment)

def isDigit (c : CodePoint) : Bool :=
  decide (codePoint '0' ≤ c ∧ c ≤ codePoint '9')

/-- `_ARRAY_INDEX_SEGMENT`. -/
def isArrayIndex (segment : Text) : Bool :=
  match segment with
  | [] => false
  | [c] => isDigit c
  | c :: rest => isDigit c && c != codePoint '0' && rest.all isDigit

/-- `sys.int_info.default_max_str_digits`: `int` raises on longer literals. -/
def maxStrDigits : ℕ := 4300

/-- `int` of a text of digits. -/
def digitsValue (digits : Text) : ℕ :=
  digits.foldl (fun value c => 10 * value + (c.val - (codePoint '0').val)) 0

section Pointers

variable {A : Type}

def arrayItem (items : List (Ref A)) (segment : Text) : Option (Ref A) :=
  if isArrayIndex segment ∧ segment.length ≤ maxStrDigits then items[digitsValue segment]?
  else none

/-- `_pointer_step`; a key that is not a plain string equals no segment. -/
def pointerStep (h : Heap A) (current : Ref A) (segment : Text) : Option (Ref A) :=
  match current with
  | .atom _ => none
  | .node a =>
      match h a with
      | .dict members => lookupKey members.items (.str segment)
      | .list items => arrayItem items segment

/-- `_resolve_pointer`; nothing stands for `_MISSING`. -/
def resolvePointer (h : Heap A) (payload : Ref A) (pointer : Text) :
    Except Raised (Option (Ref A)) :=
  match pointer with
  | [] => .ok (some payload)
  | c :: rest =>
      if c = codePoint '/' then
        .ok ((rest.splitOn (codePoint '/')).foldlM
          (fun current segment => pointerStep h current (unescapeSegment segment)) payload)
      else .error (.declaration "a declared pointer is not an RFC 6901 absolute pointer")

end Pointers

/-! ## Relations -/

section Relations

variable {A : Type} [DecidableEq A] (h : Heap A) (payload : Ref A)

def presentAndEqual (leftPointer rightPointer : Text) : Except Raised Bool := do
  let left ← resolvePointer h payload leftPointer
  let right ← resolvePointer h payload rightPointer
  match left, right with
  | some left, some right => exactStructuralEqual h left right
  | _, _ => return false

def selectorLookupEqualsLiteral (selectorPointer mapPointer : Text) (literal : Ref A) :
    Except Raised Bool := do
  match ← resolvePointer h payload selectorPointer with
  | some (.atom (.str selector)) =>
      match ← resolvePointer h payload mapPointer with
      | some (.node a) =>
          match h a with
          | .dict members =>
              match lookupKey members.items (.str selector) with
              | some lookedUp => exactStructuralEqual h lookedUp literal
              | none => return false
          | .list _ => return false
      | _ => return false
  | _ => return false

/-- `condition is True`. -/
def isTrue : Option (Ref A) → Bool
  | some (.atom (.bool true)) => true
  | _ => false

def conditionImpliesUnequal (conditionPointer leftPointer rightPointer : Text) :
    Except Raised Bool := do
  let condition ← resolvePointer h payload conditionPointer
  if !isTrue condition then return true
  else
    let left ← resolvePointer h payload leftPointer
    let right ← resolvePointer h payload rightPointer
    match left, right with
    | some left, some right => return !(← exactStructuralEqual h left right)
    | _, _ => return false

variable {h payload}

/-- The relation holds of two present subtrees that were judged and are one value. -/
theorem presentAndEqual_holds_iff {left right : Text} :
    presentAndEqual h payload left right = .ok true ↔
      ∃ l r, resolvePointer h payload left = .ok (some l) ∧
        resolvePointer h payload right = .ok (some r) ∧ SameValue h l r := by
  simp only [presentAndEqual, bind_eq_ok_iff]
  constructor
  · rintro ⟨l?, hl, r?, hr, hrest⟩
    cases l? with
    | none => cases hrest
    | some l =>
        cases r? with
        | none => cases hrest
        | some r => exact ⟨l, r, hl, hr, exactStructuralEqual_eq_true_iff_sameValue.mp hrest⟩
  · rintro ⟨l, r, hl, hr, hsame⟩
    exact ⟨_, hl, _, hr, exactStructuralEqual_eq_true_iff_sameValue.mpr hsame⟩

/-- The relation holds when the selector is a text, the map has it as a key, and what stands
under it was judged to be the literal. -/
theorem selectorLookupEqualsLiteral_holds_iff {selector map : Text} {literal : Ref A} :
    selectorLookupEqualsLiteral h payload selector map literal = .ok true ↔
      ∃ name a members lookedUp,
        resolvePointer h payload selector = .ok (some (.atom (.str name))) ∧
        resolvePointer h payload map = .ok (some (.node a)) ∧ h a = .dict members ∧
        lookupKey members.items (.str name) = some lookedUp ∧ SameValue h lookedUp literal := by
  simp only [selectorLookupEqualsLiteral, bind_eq_ok_iff]
  constructor
  · rintro ⟨s?, hselector, hrest⟩
    split at hrest
    · obtain ⟨m?, hmap, hrest⟩ := bind_eq_ok_iff.mp hrest
      split at hrest
      · split at hrest
        · rename_i members hdict
          split at hrest
          · rename_i lookedUp hlookup
            exact ⟨_, _, members, lookedUp, hselector, hmap, hdict, hlookup,
              exactStructuralEqual_eq_true_iff_sameValue.mp hrest⟩
          · cases hrest
        · cases hrest
      · cases hrest
    · cases hrest
  · rintro ⟨name, a, members, lookedUp, hselector, hmap, hdict, hlookup, hsame⟩
    refine ⟨_, hselector, ?_⟩
    simp only [hmap, ok_bind]
    split
    · rename_i hdict'
      rw [hdict', Node.dict.injEq] at hdict
      subst hdict
      simp only [hlookup]
      exact exactStructuralEqual_eq_true_iff_sameValue.mpr hsame
    · simp_all

/-- Under a true condition the relation holds of two present subtrees that were judged and
are different values. -/
theorem conditionImpliesUnequal_holds {condition left right : Text} {c : Option (Ref A)}
    (hcondition : resolvePointer h payload condition = .ok c) (htrue : isTrue c = true)
    (hholds : conditionImpliesUnequal h payload condition left right = .ok true) :
    ∃ l r, resolvePointer h payload left = .ok (some l) ∧
      resolvePointer h payload right = .ok (some r) ∧
      Judgeable h l ∧ Judgeable h r ∧ exactStructuralEqual h l r = .ok false := by
  simp only [conditionImpliesUnequal, hcondition, ok_bind, htrue, Bool.not_true,
    Bool.false_eq_true, if_false, bind_eq_ok_iff] at hholds
  obtain ⟨l?, hl, r?, hr, hrest⟩ := hholds
  cases l? with
  | none => simp at hrest
  | some l =>
      cases r? with
      | none => simp at hrest
      | some r =>
          obtain ⟨b, hequal, hnot⟩ := bind_eq_ok_iff.mp hrest
          obtain rfl : b = false := by simpa using hnot
          obtain ⟨hleft, hright⟩ := judgeable_of_exactStructuralEqual hequal
          exact ⟨l, r, hl, hr, hleft, hright, hequal⟩

end Relations

/-- A comparison never passes what it cannot judge.  It is refused when either side has no
finite unfolding, as when it is cyclic, or one outside the bounds or with a value of another
kind; otherwise it is equality of the unfolded values, an equivalence.  A true condition
never makes an unjudged subtree count as unequal. -/
theorem comparison_passes_only_what_it_judges {A : Type} [DecidableEq A] (h : Heap A) :
    (∀ r, Cyclic h r → ¬ Judgeable h r) ∧
    (∀ left right, ¬ Judgeable h left ∨ ¬ Judgeable h right →
      ∃ e, exactStructuralEqual h left right = .error e ∧ e.IsRefusal) ∧
    (∀ left right v w, Judgeable h left → Judgeable h right → Unfolds h left v →
      Unfolds h right w → ∃ b, exactStructuralEqual h left right = .ok b ∧
        (b = true ↔ exactValue v = exactValue w)) ∧
    (Equivalence fun left right : { r : Ref A // Judgeable h r } =>
      exactStructuralEqual h left right = .ok true) ∧
    ∀ payload condition left right,
      resolvePointer h payload condition = .ok (some (.atom (.bool true))) →
      conditionImpliesUnequal h payload condition left right = .ok true →
      ∃ l r, resolvePointer h payload left = .ok (some l) ∧
        resolvePointer h payload right = .ok (some r) ∧ Judgeable h l ∧ Judgeable h r := by
  refine ⟨fun r => not_judgeable_of_cyclic, ?_, ?_, equivalence_exactStructuralEqual h, ?_⟩
  · exact fun left right hunjudged =>
      exactStructuralEqual_refuses (not_and_or.mpr hunjudged)
  · intro left right v w hleft hright hv hw
    exact ⟨_, exactStructuralEqual_of_judgeable hleft hright,
      compareValidated_iff hleft hright hv hw⟩
  · intro payload condition left right hcondition hholds
    obtain ⟨l, r, hl, hr, hleft, hright, -⟩ :=
      conditionImpliesUnequal_holds hcondition rfl hholds
    exact ⟨l, r, hl, hr, hleft, hright⟩

/-- An empty list, and a list that holds itself. -/
def selfReference : Heap Bool
  | false => .list []
  | true => .list [.node true]

theorem comparison_refuses_selfReference :
    ∃ e, exactStructuralEqual selfReference (.node false) (.node true) = .error e ∧
      e.IsRefusal := by
  have hspec := comparison_passes_only_what_it_judges selfReference
  have hcyclic : Cyclic selfReference (.node true) :=
    ⟨true, .refl, .single List.mem_cons_self⟩
  exact hspec.2.1 _ _ (.inr (hspec.1 _ hcyclic))

end TraigentSchema.Invariants
