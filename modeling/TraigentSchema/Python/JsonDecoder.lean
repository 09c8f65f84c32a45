import TraigentSchema.Library.JsonScanning
import TraigentSchema.Python.Heap

/-!
# The hooks of `json.loads`

The standard decoder hands every number literal, every constant and the pairs of every object
to functions of its caller, in the order of the text; what one of them raises ends the decoding.
-/

namespace TraigentSchema.Python

open TraigentSchema.JsonNumber
open TraigentSchema.JsonText
open TraigentSchema.Unicode

/-- What `json.loads` is called with. -/
structure DecoderHooks (E : Type) where
  parseInt : NumberLiteral → Except E PyValue
  parseFloat : NumberLiteral → Except E PyValue
  parseConstant : Constant → Except E PyValue
  objectPairs : List (Text × PyValue) → Except E PyValue

namespace DecoderHooks

variable {E : Type} (hooks : DecoderHooks E)

def scalar : Scalar → Except E PyValue
  | .null => .ok (.leaf .none)
  | .bool b => .ok (.leaf (.bool b))
  | .constant name => hooks.parseConstant name
  | .number literal =>
      if literal.IsInteger then hooks.parseInt literal else hooks.parseFloat literal
  | .string s => .ok (.leaf (.str s))

def array (items : List (Except E PyValue)) : Except E PyValue := do
  let values ← items.mapM id
  return .list values

def object (members : List (Text × Except E PyValue)) : Except E PyValue := do
  let pairs ← members.mapM fun member => member.2.map (Prod.mk member.1)
  hooks.objectPairs pairs

/-- The value of a document. -/
def evaluate : Document → Except E PyValue :=
  Tree.fold hooks.scalar array hooks.object

@[simp]
theorem evaluate_leaf (x : Scalar) : hooks.evaluate (.leaf x) = hooks.scalar x := by
  rw [evaluate, Tree.fold_leaf]

@[simp]
theorem evaluate_list (items : List Document) :
    hooks.evaluate (.list items) = array (items.map hooks.evaluate) := by
  rw [evaluate, Tree.fold_list]

@[simp]
theorem evaluate_dict (members : List (Text × Document)) :
    hooks.evaluate (.dict members) =
      hooks.object (members.map fun member => (member.1, hooks.evaluate member.2)) := by
  rw [evaluate, Tree.fold_dict]

end DecoderHooks

/-! ## Values in memory -/

/-- What holds a tree that is stored anew. -/
def freshRef : PyValue → Ref PyValue
  | .leaf x => .atom x
  | v => .node v

open Classical in
/-- A heap that holds every tree. -/
noncomputable def freshHeap : Heap PyValue
  | .leaf _ => .list []
  | .list items => .list (items.map freshRef)
  | .dict members =>
      if hnodup : (members.map Prod.fst).Nodup then
        .dict ⟨members.map fun member => (member.1, freshRef member.2), by
          rw [List.map_map]
          exact hnodup⟩
      else .list []

theorem unfolds_freshRef {v : PyValue} (hformed : v.WellFormed) :
    Unfolds freshHeap (freshRef v) v := by
  induction v using Tree.induct with
  | leaf x => exact unfolds_atom.mpr rfl
  | list items ih =>
      rw [Tree.wellFormed_list] at hformed
      refine (unfolds_list rfl).mpr ⟨items, rfl, ?_⟩
      rw [List.forall₂_map_left_iff, List.forall₂_same]
      exact fun item hitem => ih item hitem (hformed item hitem)
  | dict members ih =>
      rw [Tree.wellFormed_dict] at hformed
      refine (unfolds_dict (dif_pos hformed.1)).mpr ⟨members, rfl, ?_⟩
      rw [List.forall₂_map_left_iff, List.forall₂_same]
      exact fun member hmember => ⟨rfl, ih member hmember (hformed.2 member hmember)⟩

end TraigentSchema.Python
