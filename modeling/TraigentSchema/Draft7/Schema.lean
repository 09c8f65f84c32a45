import TraigentSchema.Python.JsonDumps

/-!
# JSON Schema, draft 07

Schemas as a parser of JSON hands them over, with the keywords the breaking-change
gate compares, and which instances they admit.  A missing keyword says nothing.
Regular expressions and the targets of references are parameters.
-/

namespace TraigentSchema.Draft7

open TraigentSchema.Unicode
open TraigentSchema.Binary64
open TraigentSchema.Fp2 (floatValue jsonValue)
open TraigentSchema.JsonReading
open TraigentSchema.Python

/-! ## Instances -/

/-- A scalar of an instance; a number is its exact value. -/
inductive Primitive where
  | null
  | bool (b : Bool)
  | num (value : ℚ)
  | str (s : Text)

/-- A JSON instance.  It is a JSON value when no object repeats a key. -/
abbrev Instance := Tree Text Primitive

def primitiveValue : Primitive → JsonValue
  | .null => .null
  | .bool b => .bool b
  | .num value => .num value
  | .str s => .str s

/-- The JSON value of an instance. -/
def instanceValue : Instance → JsonValue :=
  Tree.fold primitiveValue .arr objectValue

/-! ## Keywords -/

inductive SimpleType where
  | array
  | boolean
  | integer
  | null
  | number
  | object
  | string
  deriving DecidableEq, Repr

def SimpleType.name : SimpleType → Text
  | .array => text "array"
  | .boolean => text "boolean"
  | .integer => text "integer"
  | .null => text "null"
  | .number => text "number"
  | .object => text "object"
  | .string => text "string"

/-- A number with no fractional part is an integer, however it is written. -/
def SimpleType.admits : SimpleType → Instance → Bool
  | .array, .list _ => true
  | .boolean, .leaf (.bool _) => true
  | .integer, .leaf (.num value) => value.isInt
  | .null, .leaf .null => true
  | .number, .leaf (.num _) => true
  | .object, .dict _ => true
  | .string, .leaf (.str _) => true
  | _, _ => false

/-- The value of `type`: one name or a list of names. -/
inductive TypeKeyword where
  | one (name : SimpleType)
  | many (names : List SimpleType)

def TypeKeyword.names : TypeKeyword → List SimpleType
  | .one name => [name]
  | .many names => names

/-- A number of a schema, as it is parsed. -/
inductive Number where
  | int (value : ℤ)
  | finite (negative : Bool) (m : Magnitude)
  | infinite (negative : Bool)

/-- The numbers with both infinities. -/
abbrev Extended := WithBot (WithTop ℚ)

def Number.value : Number → Extended
  | .int value => ((value : ℚ) : WithTop ℚ)
  | .finite negative m => ((floatValue negative m : ℚ) : WithTop ℚ)
  | .infinite negative => if negative then ⊥ else ⊤

/-- A parsed value listed in an `enum`. -/
structure Literal where
  value : PyValue
  loaded : Loaded value

/-- What a pair of bounds limits: the length of a string, a number, the length of
an array or the number of members of an object. -/
inductive Limit where
  | length
  | number
  | items
  | properties
  deriving DecidableEq, Repr

/-- The quantity of an instance that a bound limits, if it has one. -/
def Limit.quantity : Limit → Instance → Option ℚ
  | .length, .leaf (.str s) => some s.length
  | .number, .leaf (.num value) => some value
  | .items, .list children => some children.length
  | .properties, .dict members => some members.length
  | _, _ => none

/-- The keywords of an object schema, over the type of its subschemas. -/
structure Keywords (S : Type) where
  type : Option TypeKeyword := none
  enum : Option (List Literal) := none
  pattern : Option Text := none
  upper : Limit → Option Number := fun _ => none
  lower : Limit → Option Number := fun _ => none
  required : Option (List Text) := none
  properties : Option (List (Text × S)) := none
  patternProperties : Option (List (Text × S)) := none
  additionalProperties : Option S := none
  items : Option (S ⊕ List S) := none
  oneOf : Option (List S) := none
  anyOf : Option (List S) := none
  allOf : Option (List S) := none

/-- A schema.  The siblings of a `$ref` are ignored. -/
inductive Schema where
  | bool (b : Bool)
  | ref (target : Text)
  | object (keywords : Keywords Schema)

namespace Keywords

variable {S : Type}

/-- The member declarations, empty when the keyword is missing. -/
def propertyRows (k : Keywords S) : List (Text × S) :=
  k.properties.getD []

def patternRows (k : Keywords S) : List (Text × S) :=
  k.patternProperties.getD []

/-- The keywords that constrain an instance without looking into it. -/
structure Holds (search : Text → Text → Prop) (k : Keywords S) (i : Instance) : Prop where
  type : ∀ t ∈ k.type, ∃ name ∈ t.names, name.admits i
  enum : ∀ literals ∈ k.enum, ∃ literal ∈ literals, jsonValue literal.value = instanceValue i
  pattern : ∀ p ∈ k.pattern, ∀ s, i = .leaf (.str s) → search p s
  upper : ∀ limit, ∀ bound ∈ k.upper limit, ∀ q ∈ limit.quantity i,
    ((q : WithTop ℚ) : Extended) ≤ bound.value
  lower : ∀ limit, ∀ bound ∈ k.lower limit, ∀ q ∈ limit.quantity i,
    bound.value ≤ ((q : WithTop ℚ) : Extended)
  required : ∀ names ∈ k.required, ∀ members, i = .dict members →
    ∀ name ∈ names, name ∈ members.map Prod.fst

/-! ## Subschemas -/

/-- No property and no pattern declares the name. -/
def Undeclared (search : Text → Text → Prop) (k : Keywords S) (name : Text) : Prop :=
  k.propertyRows.lookup name = none ∧
    ∀ p s, k.patternRows.lookup p = some s → ¬ search p name

end Keywords

theorem mem_of_lookup {S : Type} {rows : List (Text × S)} {name : Text} {s : S}
    (hlookup : rows.lookup name = some s) : (name, s) ∈ rows := by
  induction rows with
  | nil => simp at hlookup
  | cons row rows ih =>
      rw [List.lookup_cons] at hlookup
      split at hlookup
      · rename_i hname
        obtain rfl : name = row.1 := by simpa using hname
        exact List.mem_cons.mpr (Or.inl (Prod.ext rfl (Option.some.inj hlookup).symm))
      · exact List.mem_cons_of_mem _ (ih hlookup)

/-- The direct subschemas of a schema. -/
inductive Schema.Child (k : Keywords Schema) : Schema → Prop where
  | property {row} : row ∈ k.propertyRows → Child k row.2
  | pattern {row} : row ∈ k.patternRows → Child k row.2
  | additional {s} : k.additionalProperties = some s → Child k s
  | item {s} : k.items = some (.inl s) → Child k s
  | position {l s} : k.items = some (.inr l) → s ∈ l → Child k s
  | oneOf {l s} : k.oneOf = some l → s ∈ l → Child k s
  | anyOf {l s} : k.anyOf = some l → s ∈ l → Child k s
  | allOf {l s} : k.allOf = some l → s ∈ l → Child k s

theorem Schema.Child.sizeOf_lt {k : Keywords Schema} {s : Schema} (hs : Child k s) :
    sizeOf s < sizeOf (Schema.object k) := by
  obtain ⟨type, enum, pattern, upper, lower, required, properties, patternProperties,
    additionalProperties, items, oneOf, anyOf, allOf⟩ := k
  cases hs with
  | @property row hrow =>
      cases properties with
      | none => simp [Keywords.propertyRows] at hrow
      | some rows =>
          have hlt := List.sizeOf_lt_of_mem (show row ∈ rows from hrow)
          obtain ⟨name, s⟩ := row
          simp only [Prod.mk.sizeOf_spec] at hlt
          simp
          omega
  | @pattern row hrow =>
      cases patternProperties with
      | none => simp [Keywords.patternRows] at hrow
      | some rows =>
          have hlt := List.sizeOf_lt_of_mem (show row ∈ rows from hrow)
          obtain ⟨name, s⟩ := row
          simp only [Prod.mk.sizeOf_spec] at hlt
          simp
          omega
  | additional hs =>
      obtain rfl : additionalProperties = _ := hs
      simp
      omega
  | item hs =>
      obtain rfl : items = _ := hs
      simp
      omega
  | position hl hs =>
      obtain rfl : items = _ := hl
      have hlt := List.sizeOf_lt_of_mem hs
      simp
      omega
  | oneOf hl hs =>
      obtain rfl : oneOf = _ := hl
      have hlt := List.sizeOf_lt_of_mem hs
      simp
      omega
  | anyOf hl hs =>
      obtain rfl : anyOf = _ := hl
      have hlt := List.sizeOf_lt_of_mem hs
      simp
      omega
  | allOf hl hs =>
      obtain rfl : allOf = _ := hl
      have hlt := List.sizeOf_lt_of_mem hs
      simp
      omega

section Validity

variable (search : Text → Text → Prop) (target : Text → Instance → Prop)

/-- The instance is valid against the schema. -/
def Valid (s : Schema) (i : Instance) : Prop :=
  match s with
  | .bool b => b = true
  | .ref r => target r i
  | .object k =>
      k.Holds search i ∧
      (∀ members, i = .dict members → ∀ member ∈ members,
        (∀ s, (hs : k.propertyRows.lookup member.1 = some s) → Valid s member.2) ∧
        (∀ p s, (hp : k.patternRows.lookup p = some s) → search p member.1 →
          Valid s member.2) ∧
        (k.Undeclared search member.1 →
          ∀ s, (hs : k.additionalProperties = some s) → Valid s member.2)) ∧
      (∀ items, i = .list items →
        (∀ s, (hs : k.items = some (.inl s)) → ∀ item ∈ items, Valid s item) ∧
        (∀ l, (hl : k.items = some (.inr l)) → ∀ (n : ℕ) s, (hs : l[n]? = some s) →
          ∀ item, items[n]? = some item → Valid s item)) ∧
      (∀ l, (hl : k.oneOf = some l) → ∃ (n : ℕ) (s : _), ∃ _hs : l[n]? = some s, Valid s i ∧
        ∀ (m : ℕ) t, (ht : l[m]? = some t) → m ≠ n → ¬ Valid t i) ∧
      (∀ l, (hl : k.anyOf = some l) → ∃ s, ∃ _hs : s ∈ l, Valid s i) ∧
      (∀ l, (hl : k.allOf = some l) → ∀ s, (hs : s ∈ l) → Valid s i)
termination_by sizeOf s
decreasing_by
  · exact Schema.Child.sizeOf_lt (.property (mem_of_lookup hs))
  · exact Schema.Child.sizeOf_lt (.pattern (mem_of_lookup hp))
  · exact Schema.Child.sizeOf_lt (.additional hs)
  · exact Schema.Child.sizeOf_lt (.item hs)
  · exact Schema.Child.sizeOf_lt (.position hl (List.mem_of_getElem? hs))
  · exact Schema.Child.sizeOf_lt (.oneOf hl (List.mem_of_getElem? ‹l[n]? = some s›))
  · exact Schema.Child.sizeOf_lt (.oneOf hl (List.mem_of_getElem? ht))
  · exact Schema.Child.sizeOf_lt (.anyOf hl ‹s ∈ l›)
  · exact Schema.Child.sizeOf_lt (.allOf hl hs)

end Validity

end TraigentSchema.Draft7
