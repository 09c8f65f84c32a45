import TraigentSchema.BreakingSchemaCheck.ValueKeywords

/-!
# What the gate guarantees for objects and arrays

Schemas nested through `properties`, `patternProperties`, `additionalProperties`
and `items`.  The gate leaves some differences to a reader: a member declared on
one side alone, and a boolean subschema.  Where those are harmless, its silence
means that every instance of the one schema is an instance of the other.
-/

namespace TraigentSchema.BreakingSchemaCheck

open TraigentSchema.Unicode
open TraigentSchema.Python
open TraigentSchema.Draft7

/-! ## Schemas of this kind -/

/-- The keywords of a schema that only describes types and structure. -/
structure StructureOnly (k : Keywords Schema) : Prop where
  enum : k.enum = none
  pattern : k.pattern = none
  upper : ∀ limit, k.upper limit = none
  lower : ∀ limit, k.lower limit = none
  items : ∀ l, k.items ≠ some (.inr l)
  oneOf : k.oneOf = none
  anyOf : k.anyOf = none
  allOf : k.allOf = none

/-- A schema without references that is nested to this depth at most. -/
def Structural : (depth : ℕ) → Schema → Prop
  | _, .bool _ => True
  | _, .ref _ => False
  | 0, .object k => StructureOnly k ∧ ∀ s, ¬ Schema.Child k s
  | depth + 1, .object k => StructureOnly k ∧ ∀ s, Schema.Child k s → Structural depth s

theorem Structural.structureOnly {depth : ℕ} {k : Keywords Schema}
    (hk : Structural depth (.object k)) : StructureOnly k := by
  cases depth <;> exact hk.1

/-- The schema of the elements of an array; without `items` every element will do. -/
def itemSchema (k : Keywords Schema) : Schema :=
  match k.items with
  | some (.inl s) => s
  | _ => .bool true

/-! ## What silence says about one node -/

/-- What the gate has established about a pair of object schemas it is silent about:
`small` is the side whose instances are to be kept. -/
structure NodeSilent (compared : Schema → Schema → Prop) (small large : Keywords Schema) :
    Prop where
  type : TypesWithin (typeSet small) (typeSet large)
  required : requiredSet large ⊆ requiredSet small
  rank : closednessRank large ≤ closednessRank small
  additional : ∀ {s t}, small.additionalProperties = some s →
    large.additionalProperties = some t → isObjectSchema s = true →
      isObjectSchema t = true → compared s t
  property : ∀ {name s t}, small.propertyRows.lookup name = some s →
    large.propertyRows.lookup name = some t → compared s t
  propertyOnly : ∀ {name s}, small.propertyRows.lookup name = some s →
    large.propertyRows.lookup name = none → closednessRank large = 0
  pattern : ∀ {p s t}, small.patternRows.lookup p = some s →
    large.patternRows.lookup p = some t → compared s t
  patternOnly : ∀ {p s}, small.patternRows.lookup p = some s →
    large.patternRows.lookup p = none → closednessRank large = 0
  items : ∀ {s t}, small.items = some (.inl s) → large.items = some (.inl t) →
    isObjectSchema s = true → isObjectSchema t = true → compared s t
  itemsOnly : ∀ {t}, large.items = some (.inl t) → isObjectSchema t = true →
    small.items ≠ none

section Silence

variable {scope : NodeScope} {pointer : Text} {recurse : Schema → Schema → Text → List Finding}
  {old new : Keywords Schema}

theorem noBreaking_compareAdditionalProperties :
    NoBreaking (compareAdditionalProperties scope pointer recurse old new) ↔
      (closednessRank old ≠ closednessRank new →
        ¬ scope.role.Breaks (decide (closednessRank old < closednessRank new))) ∧
      ∀ s t, old.additionalProperties = some s → new.additionalProperties = some t →
        isObjectSchema s = true → isObjectSchema t = true →
          NoBreaking (recurse s t (pointer ++ text "/additionalProperties")) := by
  unfold compareAdditionalProperties
  rw [noBreaking_append, noBreaking_ite, severity_keyword]
  apply and_congr_right'
  cases old.additionalProperties with
  | none => simp
  | some s =>
      cases new.additionalProperties with
      | none => simp
      | some t =>
          by_cases hs : isObjectSchema s <;> by_cases ht : isObjectSchema t <;> simp [hs, ht]

theorem lookup_eq_none_iff {rows : List (Text × Schema)} {name : Text} :
    rows.lookup name = none ↔ name ∉ rows.map Prod.fst := by
  rw [List.lookup_eq_none_iff, List.mem_map]
  constructor
  · rintro hnone ⟨row, hrow, rfl⟩
    simpa using hnone row hrow
  · intro hnone row hrow
    simpa using fun heq : name = row.1 => hnone ⟨row, hrow, heq.symm⟩

/-- The keys of two dicts are the names under which one of them has a member. -/
theorem mem_unionKeys {left right : List (Text × Schema)} {name : Text} :
    name ∈ unionKeys left right ↔
      ¬ (left.lookup name = none ∧ right.lookup name = none) := by
  rw [lookup_eq_none_iff, lookup_eq_none_iff]
  simp only [unionKeys, sorted, Finset.mem_sort, Finset.mem_union, List.mem_toFinset]
  tauto

/-- A removed property matters where the new schema is not open. -/
theorem noBreaking_propertyRemoved {child name : Text} {rank : ℕ} :
    (propertyRemoved scope child name rank).severity ≠ .breaking ↔
      (1 ≤ rank → ¬ scope.role.Breaks true) := by
  unfold propertyRemoved
  by_cases hrank : 1 ≤ rank
  · simp [hrank, severity_keyword]
  · simp [hrank, NodeScope.emit]

/-- An added property matters where the old schema is not open. -/
theorem noBreaking_propertyAdded {child name : Text} {rank : ℕ} :
    (propertyAdded scope child name rank).severity ≠ .breaking ↔
      (1 ≤ rank → ¬ scope.role.Breaks false) := by
  unfold propertyAdded
  by_cases hrank : 1 ≤ rank
  · simp [hrank, severity_keyword]
  · simp [hrank, NodeScope.emit]

theorem noBreaking_patternPropertyAdded {child pat : Text} {rank : ℕ} :
    (patternPropertyAdded scope child pat rank).severity ≠ .breaking ↔
      (1 ≤ rank → ¬ scope.role.Breaks false) := by
  unfold patternPropertyAdded
  by_cases hrank : 1 ≤ rank
  · simp [hrank, severity_keyword]
  · simp [hrank, NodeScope.emit]

theorem noBreaking_compareProperties {oldRank newRank : ℕ}
    (hsilent : NoBreaking
      (compareProperties scope pointer recurse old new oldRank newRank)) (name : Text) :
    (∀ s, old.propertyRows.lookup name = some s → new.propertyRows.lookup name = none →
      1 ≤ newRank → ¬ scope.role.Breaks true) ∧
    (∀ t, old.propertyRows.lookup name = none → new.propertyRows.lookup name = some t →
      1 ≤ oldRank → ¬ scope.role.Breaks false) ∧
    (∀ s t, old.propertyRows.lookup name = some s → new.propertyRows.lookup name = some t →
      ∃ child, NoBreaking (recurse s t child)) := by
  have hname := noBreaking_flatMap.mp hsilent name
  refine ⟨fun s hs ht => ?_, fun t hs ht => ?_, fun s t hs ht => ?_⟩
  · have h := hname (mem_unionKeys.mpr (by simp [hs]))
    simp only [hs, ht, noBreaking_singleton] at h
    exact noBreaking_propertyRemoved.mp h
  · have h := hname (mem_unionKeys.mpr (by simp [ht]))
    simp only [hs, ht, noBreaking_singleton] at h
    exact noBreaking_propertyAdded.mp h
  · have h := hname (mem_unionKeys.mpr (by simp [hs]))
    simp only [hs, ht] at h
    exact ⟨_, h⟩

theorem noBreaking_comparePatternProperties {oldRank newRank : ℕ}
    (hsilent : NoBreaking
      (comparePatternProperties scope pointer recurse old new oldRank newRank)) (p : Text) :
    (∀ s, old.patternRows.lookup p = some s → new.patternRows.lookup p = none →
      ¬ scope.role.Breaks (decide (1 ≤ newRank))) ∧
    (∀ t, old.patternRows.lookup p = none → new.patternRows.lookup p = some t →
      1 ≤ oldRank → ¬ scope.role.Breaks false) ∧
    (∀ s t, old.patternRows.lookup p = some s → new.patternRows.lookup p = some t →
      ∃ child, NoBreaking (recurse s t child)) := by
  have hpattern := noBreaking_flatMap.mp hsilent p
  refine ⟨fun s hs ht => ?_, fun t hs ht => ?_, fun s t hs ht => ?_⟩
  · have h := hpattern (mem_unionKeys.mpr (by simp [hs]))
    simp only [hs, ht, noBreaking_singleton] at h
    exact severity_keyword.mp h
  · have h := hpattern (mem_unionKeys.mpr (by simp [ht]))
    simp only [hs, ht, noBreaking_singleton] at h
    exact noBreaking_patternPropertyAdded.mp h
  · have h := hpattern (mem_unionKeys.mpr (by simp [hs]))
    simp only [hs, ht] at h
    exact ⟨_, h⟩

theorem noBreaking_compareItems {sameList : List Schema → List Schema → Bool}
    (hsilent : NoBreaking (compareItems scope pointer recurse sameList old new)) :
    (∀ t, old.items = none → new.items = some (.inl t) → isObjectSchema t = true →
      ¬ scope.role.Breaks true) ∧
    (∀ s, old.items = some (.inl s) → new.items = none → isObjectSchema s = true →
      ¬ scope.role.Breaks false) ∧
    (∀ s t, old.items = some (.inl s) → new.items = some (.inl t) →
      isObjectSchema s = true → isObjectSchema t = true →
        ∃ child, NoBreaking (recurse s t child)) := by
  unfold compareItems at hsilent
  refine ⟨fun t hs ht htDict => ?_, fun s hs ht hsDict => ?_, fun s t hs ht hsDict htDict => ?_⟩
  · simp only [hs, ht, htDict, if_true, Option.isNone_none, Option.isSome_some, Bool.and_self,
      noBreaking_singleton] at hsilent
    exact severity_keyword.mp hsilent
  · simp only [hs, ht, hsDict, if_true, Option.isNone_some, Option.isSome_none, Bool.and_self,
      Option.isNone_none, Option.isSome_some, Bool.false_eq_true, if_false,
      noBreaking_singleton] at hsilent
    exact severity_keyword.mp hsilent
  · simp only [hs, ht, hsDict, htDict, if_true] at hsilent
    exact ⟨_, hsilent⟩

variable {float : JsonRepr} {sameList : List Schema → List Schema → Bool}

/-- In a request a silent comparison has found nothing that the new schema narrows. -/
theorem nodeSilent_request (hrole : scope.role = .request)
    (hsilent : NoBreaking (compareKeywords float sameList scope pointer recurse old new)) :
    NodeSilent (fun s t => ∃ child, NoBreaking (recurse s t child)) old new := by
  simp only [compareKeywords, noBreaking_append, and_assoc] at hsilent
  obtain ⟨htype, -, hadditional, -, -, -, hrequired, hproperties, hpatterns, hitems, -⟩ :=
    hsilent
  obtain ⟨hrank, hmaps⟩ := noBreaking_compareAdditionalProperties.mp hadditional
  have hproperties := noBreaking_compareProperties hproperties
  have hpatterns := noBreaking_comparePatternProperties hpatterns
  obtain ⟨hitemsOnly, -, hitems⟩ := noBreaking_compareItems hitems
  have htype := noBreaking_compareType.mp htype
  have hrequired := noBreaking_compareRequired.mp hrequired
  simp only [hrole, Role.breaks_request, forall_const, decide_eq_true_eq, not_true,
    imp_false, not_lt, not_le, Nat.lt_one_iff]
    at htype hrank hproperties hpatterns hitemsOnly hrequired
  exact {
    type := htype.1
    required := hrequired.1
    rank := by
      by_cases heq : closednessRank old = closednessRank new
      · exact heq.ge
      · exact hrank heq
    additional := fun hs ht hsDict htDict => ⟨_, hmaps _ _ hs ht hsDict htDict⟩
    property := fun hs ht => (hproperties _).2.2 _ _ hs ht
    propertyOnly := fun hs ht => (hproperties _).1 _ hs ht
    pattern := fun hs ht => (hpatterns _).2.2 _ _ hs ht
    patternOnly := fun hs ht => (hpatterns _).1 _ hs ht
    items := fun hs ht hsDict htDict => hitems _ _ hs ht hsDict htDict
    itemsOnly := fun ht htDict hs => by
      have := hitemsOnly _ hs ht
      simp [htDict] at this }

/-- In a response the two schemas change places. -/
theorem nodeSilent_response (hrole : scope.role = .response)
    (hsilent : NoBreaking (compareKeywords float sameList scope pointer recurse old new)) :
    NodeSilent (fun s t => ∃ child, NoBreaking (recurse t s child)) new old := by
  simp only [compareKeywords, noBreaking_append, and_assoc] at hsilent
  obtain ⟨htype, -, hadditional, -, -, -, hrequired, hproperties, hpatterns, hitems, -⟩ :=
    hsilent
  obtain ⟨hrank, hmaps⟩ := noBreaking_compareAdditionalProperties.mp hadditional
  have hproperties := noBreaking_compareProperties hproperties
  have hpatterns := noBreaking_comparePatternProperties hpatterns
  obtain ⟨-, hitemsOnly, hitems⟩ := noBreaking_compareItems hitems
  have htype := noBreaking_compareType.mp htype
  have hrequired := noBreaking_compareRequired.mp hrequired
  simp only [hrole, Role.breaks_response, forall_const, decide_eq_false_iff_not, not_not,
    not_true, imp_false, not_le, Nat.lt_one_iff]
    at htype hrank hproperties hpatterns hitemsOnly hrequired
  exact {
    type := htype.2
    required := hrequired.2
    rank := by
      by_cases heq : closednessRank old = closednessRank new
      · exact heq.le
      · exact (hrank heq).le
    additional := fun hs ht hsDict htDict => ⟨_, hmaps _ _ ht hs htDict hsDict⟩
    property := fun hs ht => (hproperties _).2.2 _ _ ht hs
    propertyOnly := fun hs ht => (hproperties _).2.1 _ ht hs
    pattern := fun hs ht => (hpatterns _).2.2 _ _ ht hs
    patternOnly := fun hs ht => (hpatterns _).2.1 _ ht hs
    items := fun hs ht hsDict htDict => hitems _ _ ht hs htDict hsDict
    itemsOnly := fun ht htDict hs => by
      have := hitemsOnly _ ht hs
      simp [htDict] at this }

end Silence

/-! ## What is left to a reader -/

/-- The schema admits a member of this name, whatever its value must be. -/
def AdmitsName (search : Text → Text → Prop) (k : Keywords Schema) (name : Text) : Prop :=
  closednessRank k ≠ 2 ∨ ¬ k.Undeclared search name

/-- The differences the gate leaves to a reader are harmless: whatever name the
small schema admits, the large one declares nothing about it that the small one does
not declare as well, and a boolean subschema meets one it is within. -/
inductive Harmless (search : Text → Text → Prop) : (small large : Schema) → Prop where
  | nothing {t} : Harmless search (.bool false) t
  | anything {s} : Harmless search s (.bool true)
  | object {small large : Keywords Schema}
      (hdeclares : ∀ name, AdmitsName search small name →
        (small.propertyRows.lookup name = none → large.propertyRows.lookup name = none) ∧
        ∀ p, search p name → small.patternRows.lookup p = none →
          large.patternRows.lookup p = none)
      (hproperty : ∀ name s t, small.propertyRows.lookup name = some s →
        large.propertyRows.lookup name = some t → Harmless search s t)
      (hpattern : ∀ p s t, small.patternRows.lookup p = some s →
        large.patternRows.lookup p = some t → Harmless search s t)
      (hadditional : ∀ s t, small.additionalProperties = some s →
        large.additionalProperties = some t → isObjectSchema s = true →
          isObjectSchema t = true → Harmless search s t)
      (hitems : Harmless search (itemSchema small) (itemSchema large)) :
      Harmless search (.object small) (.object large)

/-! ## One node -/

section Kept

variable {search : Text → Text → Prop} {target : Text → Instance → Prop}

variable (search target) in
/-- Every instance of the one schema is an instance of the other. -/
def Keeps (small large : Schema) : Prop :=
  ∀ i, Valid search target small i → Valid search target large i

@[simp]
theorem valid_bool {b : Bool} {i : Instance} :
    Valid search target (.bool b) i ↔ b = true := by
  rw [Valid]

/-- A schema that admits nothing is kept by every other one. -/
theorem keeps_nothing (large : Schema) : Keeps search target (.bool false) large := by
  intro i hi
  simp at hi

/-- A schema that admits everything keeps every other one. -/
theorem keeps_anything (small : Schema) : Keeps search target small (.bool true) := by
  intro i _
  simp

/-- The members of an object are as their declarations say. -/
structure MembersHold (search : Text → Text → Prop) (target : Text → Instance → Prop)
    (k : Keywords Schema) (member : Text × Instance) : Prop where
  property : ∀ s, k.propertyRows.lookup member.1 = some s → Valid search target s member.2
  pattern : ∀ p s, k.patternRows.lookup p = some s → search p member.1 →
    Valid search target s member.2
  additional : k.Undeclared search member.1 → ∀ s, k.additionalProperties = some s →
    Valid search target s member.2

variable {k small large : Keywords Schema} {i : Instance}

/-- An object schema judges an instance by its type, its required members, and its children. -/
theorem StructureOnly.valid_iff (hk : StructureOnly k) :
    Valid search target (.object k) i ↔
      TypeHolds k i ∧ RequiredHolds k i ∧
        (∀ members, i = .dict members → ∀ member ∈ members,
          MembersHold search target k member) ∧
        ∀ items, i = .list items → ∀ item ∈ items,
          Valid search target (itemSchema k) item := by
  have hitem : ∀ item, Valid search target (itemSchema k) item ↔
      ∀ s, k.items = some (.inl s) → Valid search target s item := by
    intro item
    unfold itemSchema
    cases hitems : k.items with
    | none => simp
    | some l =>
        cases l with
        | inl s => simp
        | inr l => exact absurd hitems (hk.items l)
  have hholds : k.Holds search i ↔ TypeHolds k i ∧ RequiredHolds k i := by
    rw [holds_iff]
    simp [EnumHolds, PatternHolds, BoundsHold, hk.enum, hk.pattern, hk.upper, hk.lower,
      upperBound, lowerBound]
  rw [Valid, hholds]
  simp only [hk.oneOf, hk.anyOf, hk.allOf, hk.items, reduceCtorEq, false_imp_iff,
    implies_true, and_true, hitem, and_assoc]
  refine and_congr_right' (and_congr_right' (and_congr ?_ ?_))
  · constructor
    · intro hmembers members hi member hmember
      obtain ⟨hproperty, hpattern, hadditional⟩ := hmembers members hi member hmember
      exact ⟨hproperty, hpattern, hadditional⟩
    · intro hmembers members hi member hmember
      have h := hmembers members hi member hmember
      exact ⟨h.property, h.pattern, h.additional⟩
  · constructor
    · exact fun hitems items hi item hmem s hs => hitems items hi s hs item hmem
    · exact fun hitems items hi s hs item hmem => hitems items hi item hmem s hs

/-- Only `false` closes an object schema altogether. -/
theorem closednessRank_eq_two :
    closednessRank k = 2 ↔ k.additionalProperties = some (.bool false) := by
  unfold closednessRank
  split <;> simp_all

theorem closednessRank_eq_zero_of {s : Schema} (hs : k.additionalProperties = some s)
    (hrank : closednessRank k = 0) : s = .bool true := by
  unfold closednessRank at hrank
  split at hrank <;> simp_all

theorem isObjectSchema_of_rank {s : Schema} (hs : k.additionalProperties = some s)
    (hrank : closednessRank k = 1) : isObjectSchema s = true := by
  rw [closednessRank, hs] at hrank
  cases s with
  | bool b => cases b <;> simp at hrank
  | ref target => rfl
  | object keywords => rfl

/-- A closed object has no undeclared member. -/
theorem MembersHold.admitsName {member : Text × Instance}
    (hmember : MembersHold search target k member) : AdmitsName search k member.1 := by
  by_contra hadmits
  simp only [AdmitsName, not_or, not_not] at hadmits
  have hfalse := hmember.additional hadmits.2 _ (closednessRank_eq_two.mp hadmits.1)
  simp at hfalse

/-- A name only the small schema declares is of no concern to an open large one. -/
theorem NodeSilent.undeclared {compared : Schema → Schema → Prop}
    (hsilent : NodeSilent compared small large) {name : Text}
    (hlarge : large.Undeclared search name) (hrank : closednessRank large ≠ 0) :
    small.Undeclared search name := by
  constructor
  · cases hproperty : small.propertyRows.lookup name with
    | none => rfl
    | some s => exact absurd (hsilent.propertyOnly hproperty hlarge.1) hrank
  · intro p s hpattern hsearch
    cases hother : large.patternRows.lookup p with
    | none => exact hrank (hsilent.patternOnly hpattern hother)
    | some t => exact hlarge.2 p t hother hsearch

theorem NodeSilent.membersHold (hsilent : NodeSilent (Keeps search target) small large)
    (hdeclares : ∀ name, AdmitsName search small name →
      (small.propertyRows.lookup name = none → large.propertyRows.lookup name = none) ∧
      ∀ p, search p name → small.patternRows.lookup p = none →
        large.patternRows.lookup p = none)
    {member : Text × Instance} (hmember : MembersHold search target small member) :
    MembersHold search target large member := by
  obtain ⟨hproperties, hpatterns⟩ := hdeclares member.1 hmember.admitsName
  constructor
  · intro t ht
    cases hs : small.propertyRows.lookup member.1 with
    | none => simp [hproperties hs] at ht
    | some s => exact hsilent.property hs ht _ (hmember.property s hs)
  · intro p t ht hsearch
    cases hs : small.patternRows.lookup p with
    | none => simp [hpatterns p hsearch hs] at ht
    | some s => exact hsilent.pattern hs ht _ (hmember.pattern p s hs hsearch)
  · intro hundeclared t ht
    by_cases hzero : closednessRank large = 0
    · simp [closednessRank_eq_zero_of ht hzero]
    · have hsmall := hsilent.undeclared hundeclared hzero
      have hopen : closednessRank small ≠ 2 := by
        rcases hmember.admitsName with h | h
        · exact h
        · exact absurd hsmall h
      have hrank := hsilent.rank
      have hbound : closednessRank small ≤ 2 := by
        unfold closednessRank
        split <;> decide
      have hone : closednessRank small = 1 ∧ closednessRank large = 1 := by omega
      cases hs : small.additionalProperties with
      | none => simp [closednessRank, hs] at hone
      | some s =>
          exact hsilent.additional hs ht (isObjectSchema_of_rank hs hone.1)
            (isObjectSchema_of_rank ht hone.2) _ (hmember.additional hsmall s hs)

/-- Silence about a node and about what is below it keeps its instances. -/
theorem NodeSilent.keeps (hsmall : StructureOnly small) (hlarge : StructureOnly large)
    (hsilent : NodeSilent (Keeps search target) small large)
    (hdeclares : ∀ name, AdmitsName search small name →
      (small.propertyRows.lookup name = none → large.propertyRows.lookup name = none) ∧
      ∀ p, search p name → small.patternRows.lookup p = none →
        large.patternRows.lookup p = none)
    (hitems : Keeps search target (itemSchema small) (itemSchema large)) :
    Keeps search target (.object small) (.object large) := by
  intro i hi
  obtain ⟨htype, hrequired, hmembers, hitem⟩ := hsmall.valid_iff.mp hi
  refine hlarge.valid_iff.mpr ⟨typeHolds_of_typesWithin hsilent.type htype, ?_, ?_, ?_⟩
  · exact fun members hdict name hname => hrequired members hdict name (hsilent.required hname)
  · exact fun members hdict member hmember =>
      hsilent.membersHold hdeclares (hmembers members hdict member hmember)
  · exact fun items hlist item hmem => hitems _ (hitem items hlist item hmem)

end Kept

/-! ## The whole comparison -/

theorem Structural.child {depth : ℕ} {k : Keywords Schema} {s : Schema}
    (hk : Structural depth (.object k)) (hs : Schema.Child k s) :
    ∃ below, depth = below + 1 ∧ Structural below s := by
  cases depth with
  | zero => exact absurd hs (hk.2 s)
  | succ below => exact ⟨below, rfl, hk.2 s hs⟩

section Gate

variable {search : Text → Text → Prop} {target : Text → Instance → Prop}
  {float : JsonRepr} {sameList : List Schema → List Schema → Bool}

/-- The comparison in the order old, new, where `small` is the side whose instances
are to be kept. -/
def directed (role : Role) (compare : Schema → Schema → List Finding)
    (small large : Schema) : List Finding :=
  match role with
  | .response => compare large small
  | _ => compare small large

theorem nodeSilent_directed {scope : NodeScope} {pointer : Text} {levels : ℕ}
    {small large : Keywords Schema} (hrole : scope.role ≠ .conservative)
    (hsilent : NoBreaking (directed scope.role
      (fun old new => compareNodeWithin float sameList (levels + 1) scope old new pointer)
      (.object small) (.object large))) :
    NodeSilent (fun s t => ∃ child, NoBreaking (directed scope.role
      (fun old new => compareNodeWithin float sameList levels scope old new child) s t))
      small large := by
  cases hcase : scope.role with
  | request =>
      simp only [hcase, directed, compareNodeWithin_object] at hsilent ⊢
      exact nodeSilent_request hcase hsilent
  | response =>
      simp only [hcase, directed, compareNodeWithin_object] at hsilent ⊢
      exact nodeSilent_response hcase hsilent
  | conservative => exact absurd hcase hrole

/-- By induction on the pair of schemas: no breaking finding at a node or below it
keeps the instances of the node. -/
theorem Harmless.keeps {scope : NodeScope} (hrole : scope.role ≠ .conservative)
    {small large : Schema} (hharmless : Harmless search small large) {depth : ℕ}
    (hsmall : Structural depth small) (hlarge : Structural depth large) {pointer : Text}
    (hsilent : NoBreaking (directed scope.role
      (fun old new => compareNodeWithin float sameList (depth + 1) scope old new pointer)
      small large)) : Keeps search target small large := by
  induction hharmless generalizing depth pointer with
  | nothing => exact keeps_nothing _
  | anything => exact keeps_anything _
  | @object small large hdeclares _ _ _ hitems ihproperty ihpattern ihadditional ihitems =>
      have hnode := nodeSilent_directed hrole hsilent
      -- a compared pair of subschemas is one level shallower
      have hbelow : ∀ {s t}, Schema.Child small s → Schema.Child large t →
          (∀ {below : ℕ}, Structural below s → Structural below t → ∀ {pointer : Text},
            NoBreaking (directed scope.role (fun old new =>
              compareNodeWithin float sameList (below + 1) scope old new pointer) s t) →
            Keeps search target s t) →
          (∃ child, NoBreaking (directed scope.role (fun old new =>
            compareNodeWithin float sameList depth scope old new child) s t)) →
          Keeps search target s t := by
        rintro s t hs ht ih ⟨child, hchild⟩
        obtain ⟨below, rfl, hsBelow⟩ := hsmall.child hs
        obtain ⟨below', hdepth, htBelow⟩ := hlarge.child ht
        obtain rfl : below = below' := by omega
        exact ih hsBelow htBelow hchild
      have hkept : NodeSilent (Keeps search target) small large := {
        type := hnode.type
        required := hnode.required
        rank := hnode.rank
        propertyOnly := hnode.propertyOnly
        patternOnly := hnode.patternOnly
        itemsOnly := hnode.itemsOnly
        additional := fun hs ht hsDict htDict =>
          hbelow (.additional hs) (.additional ht) (ihadditional _ _ hs ht hsDict htDict)
            (hnode.additional hs ht hsDict htDict)
        property := fun hs ht =>
          hbelow (.property (mem_of_lookup hs)) (.property (mem_of_lookup ht))
            (ihproperty _ _ _ hs ht) (hnode.property hs ht)
        pattern := fun hs ht =>
          hbelow (.pattern (mem_of_lookup hs)) (.pattern (mem_of_lookup ht))
            (ihpattern _ _ _ hs ht) (hnode.pattern hs ht)
        items := fun {s t} hs ht hsDict htDict => by
          have hsItem : itemSchema small = s := by rw [itemSchema, hs]
          have htItem : itemSchema large = t := by rw [itemSchema, ht]
          rw [hsItem, htItem] at ihitems
          exact hbelow (.item hs) (.item ht) ihitems (hnode.items hs ht hsDict htDict) }
      refine hkept.keeps hsmall.structureOnly hlarge.structureOnly hdeclares ?_
      have hobject : ∀ {k l : Keywords Schema}, itemSchema k = .object l →
          k.items = some (.inl (.object l)) := by
        intro k l hk
        unfold itemSchema at hk
        split at hk <;> simp_all
      generalize hs : itemSchema small = s at hitems
      generalize ht : itemSchema large = t at hitems
      cases hitems with
      | nothing => exact keeps_nothing _
      | anything => exact keeps_anything _
      | object => exact hkept.items (hobject hs) (hobject ht) rfl rfl

end Gate

/-! ## Small schemas -/

/-- An open object whose member `x` has this schema. -/
def withX (s : Schema) : Schema :=
  .object { properties := some [(text "x", s)] }

def typed (names : List SimpleType) : Keywords Schema :=
  { type := some (.many names) }

theorem valueOnly_typed (names : List SimpleType) : ValueOnly (typed names) := by
  constructor <;> rfl

theorem not_child_of_valueOnly {k : Keywords Schema} (hk : ValueOnly k) (s : Schema) :
    ¬ Schema.Child k s := by
  intro hs
  cases hs <;>
    simp_all [Keywords.propertyRows, Keywords.patternRows, hk.properties, hk.patternProperties,
      hk.additionalProperties, hk.items, hk.oneOf, hk.anyOf, hk.allOf]

theorem structural_valueOnly {k : Keywords Schema} (hk : StructureOnly k) (hvalues : ValueOnly k)
    (depth : ℕ) : Structural depth (.object k) := by
  cases depth with
  | zero => exact ⟨hk, not_child_of_valueOnly hvalues⟩
  | succ depth => exact ⟨hk, fun s hs => absurd hs (not_child_of_valueOnly hvalues s)⟩

theorem structureOnly_typed (names : List SimpleType) : StructureOnly (typed names) := by
  constructor <;> simp [typed]

theorem structureOnly_anything : StructureOnly anything := by
  constructor <;> simp [anything]

theorem structural_withX {s : Schema} {depth : ℕ} (hs : Structural depth s) :
    Structural (depth + 1) (withX s) := by
  refine ⟨by constructor <;> simp, fun t ht => ?_⟩
  cases ht with
  | property hrow =>
      obtain rfl : _ = (text "x", s) := by simpa [Keywords.propertyRows] using hrow
      exact hs
  | pattern hrow => simp [Keywords.patternRows] at hrow
  | _ => simp_all

section Samples

variable {search : Text → Text → Prop} {target : Text → Instance → Prop} {s : Schema}

theorem valid_withX {members : List (Text × Instance)} :
    Valid search target (withX s) (.dict members) ↔
      ∀ member ∈ members, member.1 = text "x" → Valid search target s member.2 := by
  have hstructure : StructureOnly
      ({ properties := some [(text "x", s)] } : Keywords Schema) := by
    constructor <;> simp
  have hlookup : ∀ name t, List.lookup name [(text "x", s)] = some t ↔
      name = text "x" ∧ s = t := by
    intro name t
    by_cases hname : name = text "x"
    · simp [List.lookup, hname]
    · have hne : (name == text "x") = false := by simpa using hname
      simp [List.lookup, hne, hname]
  rw [withX, hstructure.valid_iff]
  constructor
  · rintro ⟨-, -, hmembers, -⟩ member hmember hname
    exact (hmembers members rfl member hmember).property s ((hlookup _ _).mpr ⟨hname, rfl⟩)
  · intro hmembers
    refine ⟨by simp [TypeHolds], by simp [RequiredHolds, requiredSet], ?_, by simp⟩
    rintro _ heq member hmember
    obtain rfl := Tree.dict.inj heq
    constructor
    · intro t ht
      obtain ⟨hname, rfl⟩ := (hlookup _ _).mp ht
      exact hmembers member hmember hname
    · simp [Keywords.patternRows]
    · simp

theorem valid_anything {i : Instance} : Valid search target (.object anything) i := by
  refine structureOnly_anything.valid_iff.mpr ⟨?_, ?_, ?_, ?_⟩
  · simp [TypeHolds, anything]
  · simp [RequiredHolds, requiredSet, anything]
  · intro members _ member _
    constructor <;> simp [anything, Keywords.propertyRows, Keywords.patternRows]
  · simp [itemSchema, anything]

variable {float : JsonRepr} {sameList : List Schema → List Schema → Bool} {scope : NodeScope}
  {levels : ℕ} {t : Schema}

theorem noBreaking_withX :
    NoBreaking (compareNodeWithin float sameList (levels + 1) scope (withX s) (withX t) []) ↔
      NoBreaking (compareNodeWithin float sameList levels scope s t
        (text "/properties/" ++ text "x")) := by
  rw [withX, withX, compareNodeWithin_object]
  simp [compareKeywords, compareType, compareEnum, typeSet, enumSet, comparePattern,
    compareAdditionalProperties, closednessRank, compareMaxBounds, compareMinBounds, maxKeys,
    minKeys, compareRequired, requiredSet, compareProperties, comparePatternProperties,
    unionKeys, Keywords.propertyRows, Keywords.patternRows, sorted, compareItems, itemsDiffer,
    compareCombinator]

/-- A member declared on one side alone, while the other side is open. -/
theorem noBreaking_declared :
    NoBreaking (compareNodeWithin float sameList (levels + 1) scope (.object anything)
      (withX s) []) ∧
    NoBreaking (compareNodeWithin float sameList (levels + 1) scope (withX s)
      (.object anything) []) := by
  rw [withX, compareNodeWithin_object, compareNodeWithin_object]
  simp [anything, compareKeywords, compareType, compareEnum, typeSet, enumSet, comparePattern,
    compareAdditionalProperties, closednessRank, compareMaxBounds, compareMinBounds, maxKeys,
    minKeys, compareRequired, requiredSet, compareProperties, comparePatternProperties,
    unionKeys, Keywords.propertyRows, Keywords.patternRows, sorted, compareItems, itemsDiffer,
    compareCombinator, propertyAdded, propertyRemoved, NodeScope.emit]

theorem noBreaking_leaf {b c : Bool} {pointer : Text} :
    NoBreaking (compareNodeWithin float sameList (levels + 1) scope (.bool b) (.bool c)
      pointer) := by
  rw [compareNodeWithin]
  by_cases hleaf : b = c <;> simp [resolveNodePair, deref, derefWithin, NodeScope.emit, hleaf]

theorem harmless_withX (hs : Harmless search s t) : Harmless search (withX s) (withX t) := by
  have hlookup : ∀ (name : Text) (u : Schema),
      List.lookup name [(text "x", u)] = none ↔ name ≠ text "x" := by
    intro name u
    simp
  refine .object (fun name _ => ⟨?_, by simp [Keywords.patternRows]⟩) ?_ ?_ ?_ .anything
  · exact fun hnone => (hlookup name t).mpr ((hlookup name s).mp hnone)
  · intro name u v hu hv
    obtain ⟨-, rfl⟩ := Prod.mk.inj (List.mem_singleton.mp (mem_of_lookup hu))
    obtain ⟨-, rfl⟩ := Prod.mk.inj (List.mem_singleton.mp (mem_of_lookup hv))
    exact hs
  · simp [Keywords.patternRows]
  · simp

end Samples

section Guarantee

variable {search : Text → Text → Prop} {target : Text → Instance → Prop}
  {float : JsonRepr} {sameList : List Schema → List Schema → Bool}

/-- The gate's guarantee for objects and arrays: where the differences it leaves to a
reader are harmless, no breaking finding means that a request accepts what it
accepted and that a response promises what it promised. -/
theorem structure_sound {scope : NodeScope} {old new : Schema} {pointer : Text}
    (hold : Structural 60 old) (hnew : Structural 60 new)
    (hsilent : NoBreaking (compareNode float sameList scope old new pointer)) :
    (scope.role = .request → Harmless search old new →
      ∀ i, Valid search target old i → Valid search target new i) ∧
    (scope.role = .response → Harmless search new old →
      ∀ i, Valid search target new i → Valid search target old i) := by
  refine ⟨fun hrole hharmless => ?_, fun hrole hharmless => ?_⟩
  · have hpromise : scope.role ≠ .conservative := by simp [hrole]
    apply hharmless.keeps hpromise hold hnew
    rw [hrole]
    exact hsilent
  · have hpromise : scope.role ≠ .conservative := by simp [hrole]
    apply hharmless.keeps hpromise hnew hold
    rw [hrole]
    exact hsilent

end Guarantee

theorem harmless_typed (search : Text → Text → Prop) (left right : List SimpleType) :
    Harmless search (.object (typed left)) (.object (typed right)) :=
  .object (by simp [typed, Keywords.propertyRows, Keywords.patternRows])
    (by simp [typed, Keywords.propertyRows]) (by simp [typed, Keywords.patternRows])
    (by simp [typed]) .anything

/-- The theorem at a request whose member `x` may now be a string as well. -/
theorem structure_sound_example :
    let search : Text → Text → Prop := fun p s => p = s
    let target : Text → Instance → Prop := fun _ _ => True
    ∀ i, Valid search target (withX (.object (typed [.integer]))) i →
      Valid search target (withX (.object (typed [.integer, .string]))) i := by
  intro search target
  have hstructural : ∀ names, Structural 60 (withX (.object (typed names))) := fun names =>
    structural_withX (structural_valueOnly (structureOnly_typed names) (valueOnly_typed names) 59)
  have hunflagged : RequestUnflagged JsonRepr.fewestDigits (typed [.integer])
      (typed [.integer, .string]) := by
    refine ⟨⟨⟨?_, by simp [typeSet, typed]⟩, fun _ => le_rfl, fun _ => le_rfl,
      by simp [requiredSet, typed]⟩, by simp [EnumsWithin, enumSet, typed], Or.inl rfl⟩
    simp [typeSet, typed, TypeKeyword.names]
  have hsilent : NoBreaking (compareNode JsonRepr.fewestDigits (fun _ _ => true)
      (plainScope .request) (withX (.object (typed [.integer])))
      (withX (.object (typed [.integer, .string]))) []) :=
    noBreaking_withX.mpr ((noBreaking_request rfl (valueOnly_typed _) (valueOnly_typed _)).mpr
      hunflagged)
  exact (structure_sound (hstructural _) (hstructural _) hsilent).1 rfl
    (harmless_withX (harmless_typed search _ _))

/-- The gate is silent about a member declared for the first time in an open request,
about one no longer declared in an open response and about a boolean subschema that
turns, and each time the schemas disagree on an instance. -/
theorem differences_left_to_a_reader :
    let search : Text → Text → Prop := fun p s => p = s
    let target : Text → Instance → Prop := fun _ _ => True
    let gate := fun role old new =>
      compareNode JsonRepr.fewestDigits (fun _ _ => true) (plainScope role) old new []
    let openObject := Schema.object anything
    let integerX := withX (.object (typed [.integer]))
    let nullX : Instance := .dict [(text "x", .leaf .null)]
    (Structural 60 openObject ∧ Structural 60 integerX ∧
      NoBreaking (gate .request openObject integerX) ∧
      NoBreaking (gate .response integerX openObject) ∧
      Valid search target openObject nullX ∧ ¬ Valid search target integerX nullX) ∧
    (Structural 60 (withX (.bool true)) ∧ Structural 60 (withX (.bool false)) ∧
      NoBreaking (gate .request (withX (.bool true)) (withX (.bool false))) ∧
      NoBreaking (gate .response (withX (.bool false)) (withX (.bool true))) ∧
      Valid search target (withX (.bool true)) nullX ∧
      ¬ Valid search target (withX (.bool false)) nullX) := by
  intro search target gate openObject integerX nullX
  have hwithX : ∀ b, Structural 60 (withX (.bool b)) := fun b =>
    @structural_withX (.bool b) 59 trivial
  refine ⟨⟨structural_valueOnly structureOnly_anything valueOnly_anything 60,
    structural_withX (structural_valueOnly (structureOnly_typed _) (valueOnly_typed _) 59),
    noBreaking_declared.1, noBreaking_declared.2, valid_anything, fun hvalid => ?_⟩,
    hwithX true, hwithX false,
    noBreaking_withX.mpr noBreaking_leaf, noBreaking_withX.mpr noBreaking_leaf, ?_,
    fun hvalid => ?_⟩
  · have hinteger := valid_withX.mp hvalid _ (List.mem_singleton_self _) rfl
    have htype := ((valueOnly_typed _).valid_iff.mp hinteger).type _ rfl
    simp [TypeKeyword.names, SimpleType.admits] at htype
  · exact valid_withX.mpr fun _ _ _ => valid_bool.mpr rfl
  · simpa using valid_withX.mp hvalid _ (List.mem_singleton_self _) rfl

end TraigentSchema.BreakingSchemaCheck
