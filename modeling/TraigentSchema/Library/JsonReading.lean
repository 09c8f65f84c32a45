import TraigentSchema.Library.Binary64
import TraigentSchema.Library.JsonText
import TraigentSchema.Library.Traverse

/-!
# JSON values

What a JSON document means once its spelling is forgotten: numbers by their
value, rounded to the nearest double, and objects as unordered maps from keys to
values.  Equality of meanings is plain equality.
-/

namespace TraigentSchema.JsonReading

open TraigentSchema.Unicode
open TraigentSchema.Binary64
open TraigentSchema.JsonNumber
open TraigentSchema.JsonText
open TraigentSchema.Traverse

inductive JsonValue where
  | null
  | bool (b : Bool)
  | num (value : ℚ)
  | str (s : Text)
  | arr (items : List JsonValue)
  | obj (member : Text → Option JsonValue)

/-- The object with the given members; the last one of a repeated key counts. -/
def objectValue (members : List (Text × JsonValue)) : JsonValue :=
  .obj fun key => members.reverse.lookup key

/-- The double nearest to a literal, as a number. -/
def numberValue (literal : NumberLiteral) : Option JsonValue :=
  (nearest literal.magnitude).map fun m =>
    .num (if literal.negative then -m.value else m.value)

def scalarValue : Scalar → Option JsonValue
  | .null => some .null
  | .bool b => some (.bool b)
  | .constant _ => none
  | .number literal => numberValue literal
  | .string s => some (.str s)

/-- A member whose value has a meaning. -/
def memberValue (member : Text × Option JsonValue) : Option (Text × JsonValue) :=
  member.2.map (Prod.mk member.1)

/-- The meaning of a document; none when it uses a constant that is no JSON or a
number no double is near to. -/
def reading : Document → Option JsonValue :=
  Tree.fold scalarValue (fun items => (items.mapM id).map .arr)
    (fun members => (members.mapM memberValue).map objectValue)

/-- The meaning of a JSON text. -/
def readJson (s : Text) : Option JsonValue :=
  (parse s).bind reading

@[simp]
theorem reading_leaf (x : Scalar) : reading (.leaf x) = scalarValue x := by
  simp [reading]

theorem reading_list {items : List Document} {values : List JsonValue}
    (hvalues : List.Forall₂ (fun item value => reading item = some value) items values) :
    reading (.list items) = some (.arr values) := by
  have hmap : (items.map reading).mapM id = some values := by
    rw [mapM_eq_some_iff, List.forall₂_map_left_iff]
    exact hvalues
  rw [reading, Tree.fold_list]
  exact congrArg (Option.map JsonValue.arr) hmap

theorem reading_dict {members : List (Text × Document)}
    {values : List (Text × JsonValue)}
    (hvalues : List.Forall₂ (fun member value =>
      member.1 = value.1 ∧ reading member.2 = some value.2) members values) :
    reading (.dict members) = some (objectValue values) := by
  have hmap : (members.map fun member => (member.1, reading member.2)).mapM
      memberValue = some values := by
    rw [mapM_eq_some_iff, List.forall₂_map_left_iff]
    refine hvalues.imp fun member value hmember => ?_
    rw [memberValue, hmember.2, Option.map_some, hmember.1]
  rw [reading, Tree.fold_dict]
  exact congrArg (Option.map objectValue) hmap

/-! ## Objects as maps -/

theorem lookup_eq_some_iff_mem {members : List (Text × JsonValue)}
    (hnodup : (members.map Prod.fst).Nodup) {key : Text} {value : JsonValue} :
    members.lookup key = some value ↔ (key, value) ∈ members := by
  induction members with
  | nil => simp
  | cons member members ih =>
      obtain ⟨head, first⟩ := member
      rw [List.map_cons, List.nodup_cons] at hnodup
      by_cases hkey : key = head
      · subst hkey
        have hnotMem : ∀ v, (key, v) ∉ members := fun v hv =>
          hnodup.1 (List.mem_map.mpr ⟨(key, v), hv, rfl⟩)
        simp [hnotMem, eq_comm]
      · have hbeq : (key == head) = false := by simpa using hkey
        simp [List.lookup_cons, hbeq, hkey, ih hnodup.2]

theorem lookup_reverse_eq_some_iff_mem {members : List (Text × JsonValue)}
    (hnodup : (members.map Prod.fst).Nodup) {key : Text} {value : JsonValue} :
    members.reverse.lookup key = some value ↔ (key, value) ∈ members := by
  rw [lookup_eq_some_iff_mem (by simpa [List.map_reverse] using hnodup),
    List.mem_reverse]

/-- Two objects without repeated keys are equal exactly when they have the same
members. -/
theorem objectValue_inj {left right : List (Text × JsonValue)}
    (hleft : (left.map Prod.fst).Nodup) (hright : (right.map Prod.fst).Nodup) :
    objectValue left = objectValue right ↔ ∀ member, member ∈ left ↔ member ∈ right := by
  rw [objectValue, objectValue, JsonValue.obj.injEq]
  constructor
  · rintro heq ⟨key, value⟩
    rw [← lookup_reverse_eq_some_iff_mem hleft, ← lookup_reverse_eq_some_iff_mem hright,
      congrFun heq key]
  · intro hmem
    funext key
    ext value
    rw [lookup_reverse_eq_some_iff_mem hleft, lookup_reverse_eq_some_iff_mem hright,
      hmem]

end TraigentSchema.JsonReading
