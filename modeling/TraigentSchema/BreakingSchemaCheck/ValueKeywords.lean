import TraigentSchema.BreakingSchemaCheck.CompareNode

/-!
# What the gate guarantees for value keywords

For schemas made of `type`, `enum`, `pattern`, bounds and `required` the silence of
the gate is characterized keyword by keyword, and compared with what it should
mean: for a request, that the new schema accepts what the old one accepted; for a
response, that it promises what the old one promised.
-/

namespace TraigentSchema.BreakingSchemaCheck

open TraigentSchema.Unicode
open TraigentSchema.Python
open TraigentSchema.Fp2 (jsonValue)
open TraigentSchema.Draft7

/-! ## Silence -/

def NoBreaking (findings : List Finding) : Prop :=
  ∀ finding ∈ findings, finding.severity ≠ .breaking

@[simp]
theorem noBreaking_nil : NoBreaking [] := by
  simp [NoBreaking]

/-- Two lists of findings are silent when both are. -/
@[simp]
theorem noBreaking_append {left right : List Finding} :
    NoBreaking (left ++ right) ↔ NoBreaking left ∧ NoBreaking right := by
  simp only [NoBreaking, List.mem_append, or_imp, forall_and]

@[simp]
theorem noBreaking_singleton {finding : Finding} :
    NoBreaking [finding] ↔ finding.severity ≠ .breaking := by
  simp [NoBreaking]

/-- All findings are silent when those of each row are. -/
theorem noBreaking_flatMap {A : Type} {rows : List A} {f : A → List Finding} :
    NoBreaking (rows.flatMap f) ↔ ∀ row ∈ rows, NoBreaking (f row) := by
  simp only [NoBreaking, List.mem_flatMap]
  grind

theorem noBreaking_map {A : Type} {rows : List A} {f : A → Finding} :
    NoBreaking (rows.map f) ↔ ∀ row ∈ rows, (f row).severity ≠ .breaking := by
  simp [NoBreaking]

theorem noBreaking_ite {p : Prop} [Decidable p] {finding : Finding} :
    NoBreaking (if p then [finding] else []) ↔ (p → finding.severity ≠ .breaking) := by
  by_cases hp : p <;> simp [hp]

/-- A difference in this direction is breaking for the role. -/
def Role.Breaks (role : Role) (narrowed : Bool) : Prop :=
  keywordSeverity role narrowed = .breaking

theorem Role.breaks_request {narrowed : Bool} :
    Role.Breaks .request narrowed ↔ narrowed = true := by
  cases narrowed <;> simp [Role.Breaks, keywordSeverity]

theorem Role.breaks_response {narrowed : Bool} :
    Role.Breaks .response narrowed ↔ narrowed = false := by
  cases narrowed <;> simp [Role.Breaks, keywordSeverity]

section Keywords

variable {scope : NodeScope} {pointer : Text} {old new : Keywords Schema}

/-- The severity of a keyword follows the role and the direction of the change. -/
theorem severity_keyword {kw : String} {narrowed : Bool} {subject : Option FindingValue}
    {ov nv : FindingValue} :
    (scope.keyword pointer kw narrowed subject ov nv).severity ≠ .breaking ↔
      ¬ scope.role.Breaks narrowed := Iff.rfl

/-- What two optional sets compared by `_set_delta` and `_enum_delta` report. -/
theorem noBreaking_delta {removed added : Finset Text} {kw : String}
    {value value' : FindingValue} :
    NoBreaking ((if removed ≠ ∅ then
        [scope.keyword pointer kw true (some (.delta "removed" (sorted removed)))
          value value']
      else []) ++
      if added ≠ ∅ then
        [scope.keyword pointer kw false (some (.delta "added" (sorted added)))
          value value']
      else []) ↔
      (scope.role.Breaks true → removed = ∅) ∧ (scope.role.Breaks false → added = ∅) := by
  rw [noBreaking_append, noBreaking_ite, noBreaking_ite, severity_keyword, severity_keyword]
  exact and_congr not_imp_not not_imp_not

theorem setDelta_self (types : Option (Finset Text)) (wasUnset nowUnset : Text) :
    setDelta types types wasUnset nowUnset = (∅, ∅) := by
  cases types <;> simp [setDelta]

theorem enumDelta_self (members : Option (Finset Text)) :
    enumDelta members members = (∅, ∅) := by
  cases members <;> simp [enumDelta]

end Keywords

/-- The types of one schema are types of the other one.  An unconstrained type is
within an unconstrained type alone. -/
def TypesWithin (small large : Option (Finset Text)) : Prop :=
  small.getD ∅ ⊆ large.getD ∅ ∧ (small = none → large = none)

/-- The removed members of `_set_delta` are none. -/
theorem setDelta_fst_eq_empty {oldSet newSet : Option (Finset Text)}
    {wasUnset nowUnset : Text} :
    (setDelta oldSet newSet wasUnset nowUnset).1 = ∅ ↔ TypesWithin oldSet newSet := by
  cases oldSet <;> cases newSet <;> simp [setDelta, TypesWithin, Finset.sdiff_eq_empty_iff_subset]

/-- Nothing is added to the types when the new ones lie within the old ones. -/
theorem setDelta_snd_eq_empty {oldSet newSet : Option (Finset Text)}
    {wasUnset nowUnset : Text} :
    (setDelta oldSet newSet wasUnset nowUnset).2 = ∅ ↔ TypesWithin newSet oldSet := by
  cases oldSet <;> cases newSet <;> simp [setDelta, TypesWithin, Finset.sdiff_eq_empty_iff_subset]

/-- The removed members of `_enum_delta` are none; an enum introduced where there
was none does not count as removing anything. -/
theorem enumDelta_fst_eq_empty {oldEnum newEnum : Option (Finset Text)} :
    (enumDelta oldEnum newEnum).1 = ∅ ↔
      oldEnum.getD ∅ ⊆ newEnum.getD ∅ ∧ (newEnum = none → oldEnum = none) := by
  cases oldEnum <;> cases newEnum <;> simp [enumDelta, Finset.sdiff_eq_empty_iff_subset]

/-- Nothing is added to the values when the old `enum` held them, and none has appeared. -/
theorem enumDelta_snd_eq_empty {oldEnum newEnum : Option (Finset Text)} :
    (enumDelta oldEnum newEnum).2 = ∅ ↔
      newEnum.getD ∅ ⊆ oldEnum.getD ∅ ∧ (oldEnum = none → newEnum = none) := by
  cases oldEnum <;> cases newEnum <;> simp [enumDelta, Finset.sdiff_eq_empty_iff_subset]

/-! ## Keyword by keyword -/

section Keywords

variable {scope : NodeScope} {pointer : Text} {old new : Keywords Schema}

/-- The types are silent when no role sees its own side narrowed. -/
theorem noBreaking_compareType :
    NoBreaking (compareType scope pointer old new) ↔
      (scope.role.Breaks true → TypesWithin (typeSet old) (typeSet new)) ∧
      (scope.role.Breaks false → TypesWithin (typeSet new) (typeSet old)) := by
  have hdelta : NoBreaking (compareType scope pointer old new) ↔
      (scope.role.Breaks true → (setDelta (typeSet old) (typeSet new)
        (text "<was unconstrained>") (text "<now unconstrained>")).1 = ∅) ∧
      (scope.role.Breaks false → (setDelta (typeSet old) (typeSet new)
        (text "<was unconstrained>") (text "<now unconstrained>")).2 = ∅) := by
    unfold compareType
    by_cases heq : typeSet old = typeSet new
    · simp [heq, setDelta_self]
    · simp only [heq, if_false]
      exact noBreaking_delta
  rw [hdelta, setDelta_fst_eq_empty, setDelta_snd_eq_empty]

/-- For the silence of an `enum` both its values and its presence count. -/
theorem noBreaking_compareEnum {float : JsonRepr} :
    NoBreaking (compareEnum float scope pointer old new) ↔
      (scope.role.Breaks true → (enumSet float old).getD ∅ ⊆ (enumSet float new).getD ∅ ∧
        (new.enum = none → old.enum = none)) ∧
      (scope.role.Breaks false → (enumSet float new).getD ∅ ⊆ (enumSet float old).getD ∅ ∧
        (old.enum = none → new.enum = none)) := by
  have hdelta : NoBreaking (compareEnum float scope pointer old new) ↔
      (scope.role.Breaks true → (enumDelta (enumSet float old) (enumSet float new)).1 = ∅) ∧
      (scope.role.Breaks false → (enumDelta (enumSet float old) (enumSet float new)).2 = ∅) := by
    unfold compareEnum
    by_cases heq : enumSet float old = enumSet float new
    · simp [heq, enumDelta_self]
    · simp only [heq, if_false]
      exact noBreaking_delta
  rw [hdelta, enumDelta_fst_eq_empty, enumDelta_snd_eq_empty]
  simp only [enumSet, Option.map_eq_none_iff]

/-- A pattern is silent when it is unchanged, or narrowed on the other side. -/
theorem noBreaking_comparePattern :
    NoBreaking (comparePattern scope pointer old new) ↔
      old.pattern = new.pattern ∨
        ¬ scope.role.Breaks (patternNarrowed old.pattern new.pattern) := by
  unfold comparePattern
  by_cases heq : old.pattern = new.pattern
  · simp [heq]
  · simp only [heq, if_false, noBreaking_singleton, severity_keyword, false_or]

/-- One pair of bounds is silent when the effective bound does not move in a
breaking direction. -/
theorem noBreaking_bound {kw : String} {ov nv : Option Number} {narrows widens : Prop}
    [Decidable narrows] [Decidable widens]
    (hmoves : narrows ∨ widens → ov.map Number.value ≠ nv.map Number.value)
    (hone : ¬ (narrows ∧ widens)) :
    NoBreaking (if ov.map Number.value ≠ nv.map Number.value then
        if narrows then [boundFinding scope pointer kw true ov nv]
        else if widens then [boundFinding scope pointer kw false ov nv]
        else []
      else []) ↔
      (scope.role.Breaks true → ¬ narrows) ∧ (scope.role.Breaks false → ¬ widens) := by
  by_cases hnarrows : narrows
  · have hwidens : ¬ widens := fun h => hone ⟨hnarrows, h⟩
    rw [if_pos (hmoves (Or.inl hnarrows)), if_pos hnarrows, noBreaking_singleton,
      boundFinding, severity_keyword]
    simp [hnarrows, hwidens]
  · by_cases hwidens : widens
    · rw [if_pos (hmoves (Or.inr hwidens)), if_neg hnarrows, if_pos hwidens,
        noBreaking_singleton, boundFinding, severity_keyword]
      simp [hnarrows, hwidens]
    · simp [hnarrows, hwidens]

theorem upperBound_congr {ov nv : Option Number}
    (heq : ov.map Number.value = nv.map Number.value) : upperBound ov = upperBound nv := by
  cases ov <;> cases nv <;> simp_all [upperBound]

theorem lowerBound_congr {ov nv : Option Number}
    (heq : ov.map Number.value = nv.map Number.value) : lowerBound ov = lowerBound nv := by
  cases ov <;> cases nv <;> simp_all [lowerBound]

/-- The upper limits are silent when no role sees its own side narrowed. -/
theorem noBreaking_compareMaxBounds :
    NoBreaking (compareMaxBounds scope pointer old new) ↔
      ∀ limit,
        (scope.role.Breaks true → upperBound (old.upper limit) ≤ upperBound (new.upper limit)) ∧
        (scope.role.Breaks false →
          upperBound (new.upper limit) ≤ upperBound (old.upper limit)) := by
  have hkey : ∀ key ∈ maxKeys,
      (NoBreaking (if (old.upper key.2).map Number.value ≠ (new.upper key.2).map Number.value then
          if upperBound (new.upper key.2) < upperBound (old.upper key.2) then
            [boundFinding scope pointer key.1 true (old.upper key.2) (new.upper key.2)]
          else if upperBound (old.upper key.2) < upperBound (new.upper key.2) then
            [boundFinding scope pointer key.1 false (old.upper key.2) (new.upper key.2)]
          else []
        else []) ↔
        (scope.role.Breaks true →
          upperBound (old.upper key.2) ≤ upperBound (new.upper key.2)) ∧
        (scope.role.Breaks false →
          upperBound (new.upper key.2) ≤ upperBound (old.upper key.2))) := by
    intro key _
    rw [noBreaking_bound, not_lt, not_lt]
    · rintro (h | h) heq
      · exact h.ne (upperBound_congr heq).symm
      · exact h.ne (upperBound_congr heq)
    · exact fun h => lt_asymm h.1 h.2
  unfold compareMaxBounds
  rw [noBreaking_flatMap]
  constructor
  · intro hsilent limit
    have hmem : ∃ kw, (kw, limit) ∈ maxKeys := by
      cases limit <;> simp [maxKeys]
    obtain ⟨kw, hmem⟩ := hmem
    exact (hkey _ hmem).mp (hsilent _ hmem)
  · exact fun hbounds key hmem => (hkey key hmem).mpr (hbounds key.2)

/-- The lower limits are silent when no role sees its own side narrowed. -/
theorem noBreaking_compareMinBounds :
    NoBreaking (compareMinBounds scope pointer old new) ↔
      ∀ limit,
        (scope.role.Breaks true → lowerBound (new.lower limit) ≤ lowerBound (old.lower limit)) ∧
        (scope.role.Breaks false →
          lowerBound (old.lower limit) ≤ lowerBound (new.lower limit)) := by
  have hkey : ∀ key ∈ minKeys,
      (NoBreaking (if (old.lower key.2).map Number.value ≠ (new.lower key.2).map Number.value then
          if lowerBound (old.lower key.2) < lowerBound (new.lower key.2) then
            [boundFinding scope pointer key.1 true (old.lower key.2) (new.lower key.2)]
          else if lowerBound (new.lower key.2) < lowerBound (old.lower key.2) then
            [boundFinding scope pointer key.1 false (old.lower key.2) (new.lower key.2)]
          else []
        else []) ↔
        (scope.role.Breaks true →
          lowerBound (new.lower key.2) ≤ lowerBound (old.lower key.2)) ∧
        (scope.role.Breaks false →
          lowerBound (old.lower key.2) ≤ lowerBound (new.lower key.2))) := by
    intro key _
    rw [noBreaking_bound, not_lt, not_lt]
    · rintro (h | h) heq
      · exact h.ne (lowerBound_congr heq)
      · exact h.ne (lowerBound_congr heq).symm
    · exact fun h => lt_asymm h.1 h.2
  unfold compareMinBounds
  rw [noBreaking_flatMap]
  constructor
  · intro hsilent limit
    have hmem : ∃ kw, (kw, limit) ∈ minKeys := by
      cases limit <;> simp [minKeys]
    obtain ⟨kw, hmem⟩ := hmem
    exact (hkey _ hmem).mp (hsilent _ hmem)
  · exact fun hbounds key hmem => (hkey key hmem).mpr (hbounds key.2)

/-- The required members are silent when no role sees its own side narrowed. -/
theorem noBreaking_compareRequired :
    NoBreaking (compareRequired scope pointer old new) ↔
      (scope.role.Breaks true → requiredSet new ⊆ requiredSet old) ∧
      (scope.role.Breaks false → requiredSet old ⊆ requiredSet new) := by
  unfold compareRequired
  by_cases heq : requiredSet old = requiredSet new
  · simp [heq]
  · simp only [heq, if_false, noBreaking_append, noBreaking_map, severity_keyword, sorted,
      Finset.mem_sort, Finset.mem_sdiff, Finset.subset_iff]
    constructor
    · rintro ⟨hadded, hremoved⟩
      exact ⟨fun hrole name hname => by_contra fun hne => hadded name ⟨hname, hne⟩ hrole,
        fun hrole name hname => by_contra fun hne => hremoved name ⟨hname, hne⟩ hrole⟩
    · rintro ⟨hadded, hremoved⟩
      exact ⟨fun name hname hrole => hname.2 (hadded hrole hname.1),
        fun name hname hrole => hname.2 (hremoved hrole hname.1)⟩

end Keywords

/-! ## What the keywords mean -/

/-- A schema with value keywords alone. -/
structure ValueOnly (k : Keywords Schema) : Prop where
  properties : k.properties = none
  patternProperties : k.patternProperties = none
  additionalProperties : k.additionalProperties = none
  items : k.items = none
  oneOf : k.oneOf = none
  anyOf : k.anyOf = none
  allOf : k.allOf = none

section Meaning

variable {search : Text → Text → Prop} {target : Text → Instance → Prop}

/-- A schema of value keywords judges an instance keyword by keyword. -/
theorem ValueOnly.valid_iff {k : Keywords Schema} (hk : ValueOnly k) {i : Instance} :
    Valid search target (.object k) i ↔ k.Holds search i := by
  rw [Valid]
  simp [Keywords.propertyRows, Keywords.patternRows, hk.properties, hk.patternProperties,
    hk.additionalProperties, hk.items, hk.oneOf, hk.anyOf, hk.allOf]

variable {small large : Keywords Schema} {i : Instance}

theorem SimpleType.name_injective : Function.Injective SimpleType.name := by
  intro left right heq
  cases left <;> cases right <;> first | rfl | exact absurd (text_injective heq) (by decide)

/-- The instance has one of the types. -/
def TypeHolds (k : Keywords S) (i : Instance) : Prop :=
  ∀ t ∈ k.type, ∃ name ∈ t.names, name.admits i

/-- An instance of one of the smaller types is of one of the larger ones. -/
theorem typeHolds_of_typesWithin (hwithin : TypesWithin (typeSet small) (typeSet large))
    (hholds : TypeHolds small i) : TypeHolds large i := by
  intro t ht
  obtain ⟨hsubset, hnone⟩ := hwithin
  cases hsmall : small.type with
  | none =>
      have hlarge := hnone (by rw [typeSet, hsmall, Option.map_none])
      rw [typeSet, Option.map_eq_none_iff] at hlarge
      simp [hlarge] at ht
  | some t' =>
      obtain ⟨name, hname, hadmits⟩ := hholds t' hsmall
      have hmem : name.name ∈ (typeSet large).getD ∅ := hsubset (by
        simp only [typeSet, hsmall, Option.map_some, Option.getD_some, List.mem_toFinset]
        exact List.mem_map_of_mem hname)
      rw [typeSet, Option.mem_def.mp ht, Option.map_some, Option.getD_some,
        List.mem_toFinset] at hmem
      obtain ⟨name', hname', heq⟩ := List.mem_map.mp hmem
      obtain rfl := SimpleType.name_injective heq
      exact ⟨name', hname', hadmits⟩

def EnumHolds (k : Keywords S) (i : Instance) : Prop :=
  ∀ literals ∈ k.enum, ∃ literal ∈ literals, jsonValue literal.value = instanceValue i

/-- Equal texts are equal values, so a listed value stays listed. -/
theorem enumHolds_of_subset {float : JsonRepr} {literals : List Literal}
    (hsmall : small.enum = some literals)
    (hsubset : (enumSet float small).getD ∅ ⊆ (enumSet float large).getD ∅)
    (hholds : EnumHolds small i) : EnumHolds large i := by
  intro literals' hlarge
  obtain ⟨literal, hliteral, hvalue⟩ := hholds literals hsmall
  have hmem : jsonDumps float literal.value ∈ (enumSet float large).getD ∅ := hsubset (by
    simp only [enumSet, hsmall, Option.map_some, Option.getD_some, List.mem_toFinset]
    exact List.mem_map.mpr ⟨literal, hliteral, rfl⟩)
  rw [enumSet, Option.mem_def.mp hlarge, Option.map_some, Option.getD_some,
    List.mem_toFinset] at hmem
  obtain ⟨literal', hliteral', htext⟩ := List.mem_map.mp hmem
  refine ⟨literal', hliteral', ?_⟩
  rw [jsonValue_eq_of_jsonDumps_eq float literal'.loaded literal.loaded htext, hvalue]

def PatternHolds (search : Text → Text → Prop) (k : Keywords S) (i : Instance) : Prop :=
  ∀ p ∈ k.pattern, ∀ s, i = .leaf (.str s) → search p s

def BoundsHold (k : Keywords S) (i : Instance) : Prop :=
  ∀ limit, ∀ q : ℚ, limit.quantity i = some q →
    ((q : WithTop ℚ) : Extended) ≤ upperBound (k.upper limit) ∧
      lowerBound (k.lower limit) ≤ ((q : WithTop ℚ) : Extended)

def RequiredHolds (k : Keywords Schema) (i : Instance) : Prop :=
  ∀ members, i = .dict members → ∀ name ∈ requiredSet k, name ∈ members.map Prod.fst

/-- The value keywords of a schema are constraints of their own. -/
theorem holds_iff {k : Keywords Schema} :
    k.Holds search i ↔
      TypeHolds k i ∧ EnumHolds k i ∧ PatternHolds search k i ∧ BoundsHold k i ∧
        RequiredHolds k i := by
  have hupper : ∀ (limit : Limit) (q : ℚ),
      ((q : WithTop ℚ) : Extended) ≤ upperBound (k.upper limit) ↔
        ∀ bound ∈ k.upper limit, ((q : WithTop ℚ) : Extended) ≤ bound.value := by
    intro limit q
    cases k.upper limit <;> simp [upperBound]
  have hlower : ∀ (limit : Limit) (q : ℚ),
      lowerBound (k.lower limit) ≤ ((q : WithTop ℚ) : Extended) ↔
        ∀ bound ∈ k.lower limit, bound.value ≤ ((q : WithTop ℚ) : Extended) := by
    intro limit q
    cases k.lower limit <;> simp [lowerBound]
  have hrequired : RequiredHolds k i ↔ ∀ names ∈ k.required, ∀ members, i = .dict members →
      ∀ name ∈ names, name ∈ members.map Prod.fst := by
    unfold RequiredHolds requiredSet
    cases k.required <;> simp
  constructor
  · intro hholds
    exact ⟨hholds.type, hholds.enum, hholds.pattern,
      fun limit q hq => ⟨(hupper limit q).mpr fun bound hbound =>
          hholds.upper limit bound hbound q hq,
        (hlower limit q).mpr fun bound hbound => hholds.lower limit bound hbound q hq⟩,
      hrequired.mpr hholds.required⟩
  · rintro ⟨htype, henum, hpattern, hbounds, hnames⟩
    exact {
      type := htype
      enum := henum
      pattern := hpattern
      upper := fun limit bound hbound q hq =>
        (hupper limit q).mp (hbounds limit q hq).1 bound hbound
      lower := fun limit bound hbound q hq =>
        (hlower limit q).mp (hbounds limit q hq).2 bound hbound
      required := hrequired.mp hnames }

/-- The keywords other than `enum` and `pattern` admit on the right whatever they
admit on the left. -/
structure ValuesKept (small large : Keywords Schema) : Prop where
  type : TypesWithin (typeSet small) (typeSet large)
  upper : ∀ limit, upperBound (small.upper limit) ≤ upperBound (large.upper limit)
  lower : ∀ limit, lowerBound (large.lower limit) ≤ lowerBound (small.lower limit)
  required : requiredSet large ⊆ requiredSet small

/-- Limits that are no tighter hold where the tighter ones do. -/
theorem ValuesKept.boundsHold (hkept : ValuesKept small large) (hholds : BoundsHold small i) :
    BoundsHold large i := by
  intro limit q hq
  obtain ⟨hupper, hlower⟩ := hholds limit q hq
  exact ⟨hupper.trans (hkept.upper limit), (hkept.lower limit).trans hlower⟩

theorem ValuesKept.requiredHolds (hkept : ValuesKept small large)
    (hholds : RequiredHolds small i) : RequiredHolds large i :=
  fun members hmembers name hname => hholds members hmembers name (hkept.required hname)

end Meaning

/-! ## Both roles -/

/-- The listed texts of one schema are listed by the other, and an `enum` on its own
side stays one. -/
def EnumsWithin (float : JsonRepr) (small large : Keywords Schema) : Prop :=
  (enumSet float small).getD ∅ ⊆ (enumSet float large).getD ∅ ∧
    (large.enum = none → small.enum = none)

/-- The differences of a request that no breaking finding reports. -/
structure RequestUnflagged (float : JsonRepr) (old new : Keywords Schema) : Prop where
  kept : ValuesKept old new
  enum : EnumsWithin float old new
  pattern : old.pattern = new.pattern ∨ new.pattern = none

/-- The differences of a response that no breaking finding reports. -/
structure ResponseUnflagged (float : JsonRepr) (old new : Keywords Schema) : Prop where
  kept : ValuesKept new old
  enum : EnumsWithin float new old
  pattern : new.pattern = none → old.pattern = none

/-! ## Small schemas -/

/-- A scope without references. -/
def plainScope (role : Role) : NodeScope where
  oldBase := []
  newBase := []
  oldRegistry := ⟨fun base _ => (base, []), fun _ _ => none⟩
  newRegistry := ⟨fun base _ => (base, []), fun _ _ => none⟩
  oldVisited := []
  newVisited := []
  role := role
  file := text "example_schema.json"

/-- The string `a` in an `enum`. -/
def letterA : Literal where
  value := .leaf (.str (text "a"))
  loaded := by
    refine ⟨(Tree.admits_leaf _).mpr ?_, Tree.wellFormed_leaf _⟩
    exact List.isChain_singleton _

def anything : Keywords Schema := {}

def onlyA : Keywords Schema := { enum := some [letterA] }

def withPattern (p : String) : Keywords Schema := { pattern := some (text p) }

theorem valueOnly_anything : ValueOnly anything := by
  constructor <;> rfl

theorem valueOnly_onlyA : ValueOnly onlyA := by
  constructor <;> rfl

theorem valueOnly_withPattern (p : String) : ValueOnly (withPattern p) := by
  constructor <;> rfl

theorem valuesKept_of_same {small large : Keywords Schema} (htype : small.type = large.type)
    (hupper : small.upper = large.upper) (hlower : small.lower = large.lower)
    (hrequired : small.required = large.required) : ValuesKept small large where
  type := by simp [typeSet, htype, TypesWithin]
  upper limit := by rw [hupper]
  lower limit := by rw [hlower]
  required := by simp [requiredSet, hrequired]

section Gate

variable {float : JsonRepr} {sameList : List Schema → List Schema → Bool}
  {levels : ℕ} {scope : NodeScope} {pointer : Text} {old new : Keywords Schema}

theorem deref_object (k : Keywords Schema) (base : Text) (registry : Registry)
    (visited : List Text) :
    deref (.object k) base registry visited = some ⟨.object k, base, visited, false⟩ := rfl

/-- Two object schemas are compared keyword by keyword, one level down. -/
theorem compareNodeWithin_object :
    compareNodeWithin float sameList (levels + 1) scope (.object old) (.object new) pointer =
      compareKeywords float sameList scope pointer
        (compareNodeWithin float sameList levels scope) old new := by
  rw [compareNodeWithin]
  simp [resolveNodePair, deref_object]

/-- Two object schemas of value keywords are compared by these keywords. -/
theorem noBreaking_valueOnly (hold : ValueOnly old) (hnew : ValueOnly new) :
    NoBreaking (compareNodeWithin float sameList (levels + 1) scope (.object old)
      (.object new) pointer) ↔
      NoBreaking (compareType scope pointer old new) ∧
      NoBreaking (compareEnum float scope pointer old new) ∧
      NoBreaking (comparePattern scope pointer old new) ∧
      NoBreaking (compareMaxBounds scope pointer old new) ∧
      NoBreaking (compareMinBounds scope pointer old new) ∧
      NoBreaking (compareRequired scope pointer old new) := by
  have hrank : closednessRank old = 0 ∧ closednessRank new = 0 := by
    simp [closednessRank, hold.additionalProperties, hnew.additionalProperties]
  rw [compareNodeWithin_object]
  simp [compareKeywords, compareAdditionalProperties, hrank, hold.additionalProperties,
    compareProperties, comparePatternProperties, Keywords.propertyRows,
    Keywords.patternRows, hold.properties, hnew.properties, hold.patternProperties,
    hnew.patternProperties, unionKeys, sorted, compareItems, hold.items, hnew.items,
    itemsDiffer, compareCombinator, hold.oneOf, hnew.oneOf, hold.anyOf, hnew.anyOf,
    hold.allOf, hnew.allOf]

/-- In a request the comparison is silent when the new schema narrows nothing it watches. -/
theorem noBreaking_request (hrole : scope.role = .request) (hold : ValueOnly old)
    (hnew : ValueOnly new) :
    NoBreaking (compareNodeWithin float sameList (levels + 1) scope (.object old)
      (.object new) pointer) ↔
      RequestUnflagged float old new := by
  have hpattern : (old.pattern = new.pattern ∨
      ¬ patternNarrowed old.pattern new.pattern = true) ↔
        (old.pattern = new.pattern ∨ new.pattern = none) := by
    cases old.pattern <;> cases new.pattern <;> simp [patternNarrowed]
  rw [noBreaking_valueOnly hold hnew, noBreaking_compareType, noBreaking_compareEnum,
    noBreaking_comparePattern, noBreaking_compareMaxBounds, noBreaking_compareMinBounds,
    noBreaking_compareRequired]
  simp only [hrole, Role.breaks_request, hpattern, forall_const, Bool.false_eq_true,
    false_imp_iff, and_true]
  constructor
  · rintro ⟨htype, henum, hpattern, hupper, hlower, hrequired⟩
    exact ⟨⟨htype, hupper, hlower, hrequired⟩, henum, hpattern⟩
  · rintro ⟨⟨htype, hupper, hlower, hrequired⟩, henum, hpattern⟩
    exact ⟨htype, henum, hpattern, hupper, hlower, hrequired⟩

/-- In a response the comparison is silent when the old schema narrows nothing it watches. -/
theorem noBreaking_response (hrole : scope.role = .response) (hold : ValueOnly old)
    (hnew : ValueOnly new) :
    NoBreaking (compareNodeWithin float sameList (levels + 1) scope (.object old)
      (.object new) pointer) ↔
      ResponseUnflagged float old new := by
  have hpattern : (old.pattern = new.pattern ∨
      ¬ patternNarrowed old.pattern new.pattern = false) ↔
        (new.pattern = none → old.pattern = none) := by
    cases old.pattern <;> cases new.pattern <;> simp [patternNarrowed]
  rw [noBreaking_valueOnly hold hnew, noBreaking_compareType, noBreaking_compareEnum,
    noBreaking_comparePattern, noBreaking_compareMaxBounds, noBreaking_compareMinBounds,
    noBreaking_compareRequired]
  simp only [hrole, Role.breaks_response, hpattern, forall_const, Bool.true_eq_false,
    false_imp_iff, true_and]
  constructor
  · rintro ⟨htype, henum, hpattern, hupper, hlower, hrequired⟩
    exact ⟨⟨htype, hupper, hlower, hrequired⟩, henum, hpattern⟩
  · rintro ⟨⟨htype, hupper, hlower, hrequired⟩, henum, hpattern⟩
    exact ⟨htype, henum, hpattern, hupper, hlower, hrequired⟩

variable {search : Text → Text → Prop} {target : Text → Instance → Prop}

/-- What a silent request leaves open is an `enum` that has appeared. -/
theorem RequestUnflagged.holds {i : Instance} (hunflagged : RequestUnflagged float old new)
    (hnew : old.enum = none → EnumHolds new i) (hholds : old.Holds search i) :
    new.Holds search i := by
  obtain ⟨htype, henum, hpattern, hbounds, hrequired⟩ := holds_iff.mp hholds
  refine holds_iff.mpr ⟨typeHolds_of_typesWithin hunflagged.kept.type htype, ?_, ?_,
    hunflagged.kept.boundsHold hbounds, hunflagged.kept.requiredHolds hrequired⟩
  · cases hliterals : old.enum with
    | none => exact hnew hliterals
    | some literals => exact enumHolds_of_subset hliterals hunflagged.enum.1 henum
  · rcases hunflagged.pattern with heq | hnone
    · simpa only [PatternHolds, heq] using hpattern
    · simp [PatternHolds, hnone]

/-- What a silent response leaves open is an `enum` that has vanished and a pattern replaced. -/
theorem ResponseUnflagged.holds {i : Instance} (hunflagged : ResponseUnflagged float old new)
    (henumOld : new.enum = none → EnumHolds old i)
    (hpatternOld : new.pattern ≠ old.pattern → PatternHolds search old i)
    (hholds : new.Holds search i) : old.Holds search i := by
  obtain ⟨htype, henum, hpattern, hbounds, hrequired⟩ := holds_iff.mp hholds
  refine holds_iff.mpr ⟨typeHolds_of_typesWithin hunflagged.kept.type htype, ?_, ?_,
    hunflagged.kept.boundsHold hbounds, hunflagged.kept.requiredHolds hrequired⟩
  · cases hliterals : new.enum with
    | none => exact henumOld hliterals
    | some literals => exact enumHolds_of_subset hliterals hunflagged.enum.1 henum
  · by_cases heq : new.pattern = old.pattern
    · simpa only [PatternHolds, heq] using hpattern
    · exact hpatternOld heq

/-- When the silence of the gate means what it should.  For a request: unless an
`enum` is introduced, with nothing else flagged, that leaves out an instance the old
schema admits.  For a response: unless an `enum` is dropped or a pattern replaced by
another one, with nothing flagged, and the new schema admits an instance the old
`enum` or the old pattern does not. -/
theorem valueKeywords_sound_iff (hold : ValueOnly old) (hnew : ValueOnly new) :
    (scope.role = .request →
      ((NoBreaking (compareNode float sameList scope (.object old) (.object new) pointer) →
        ∀ i : Instance, i.WellFormed → Valid search target (.object old) i →
          Valid search target (.object new) i) ↔
        (RequestUnflagged float old new → old.enum = none → new.enum ≠ none →
          ∀ i : Instance, i.WellFormed → Valid search target (.object old) i →
            EnumHolds new i))) ∧
    (scope.role = .response →
      ((NoBreaking (compareNode float sameList scope (.object old) (.object new) pointer) →
        ∀ i : Instance, i.WellFormed → Valid search target (.object new) i →
          Valid search target (.object old) i) ↔
        (ResponseUnflagged float old new →
          ∀ i : Instance, i.WellFormed → Valid search target (.object new) i →
            (old.enum ≠ none → new.enum = none → EnumHolds old i) ∧
            (old.pattern ≠ none → new.pattern ≠ none → new.pattern ≠ old.pattern →
              PatternHolds search old i)))) := by
  simp only [hold.valid_iff, hnew.valid_iff]
  refine ⟨fun hrole => ?_, fun hrole => ?_⟩
  · rw [compareNode, noBreaking_request hrole hold hnew]
    constructor
    · intro hsound hunflagged _ _ i hformed hholds
      exact (hsound hunflagged i hformed hholds).enum
    · intro hcovers hunflagged i hformed hholds
      refine hunflagged.holds (fun hnone => ?_) hholds
      by_cases hintroduced : new.enum = none
      · simp [EnumHolds, hintroduced]
      · exact hcovers hunflagged hnone hintroduced i hformed hholds
  · rw [compareNode, noBreaking_response hrole hold hnew]
    constructor
    · intro hsound hunflagged i hformed hholds
      have hback := hsound hunflagged i hformed hholds
      exact ⟨fun _ _ => hback.enum, fun _ _ _ => hback.pattern⟩
    · intro hcovers hunflagged i hformed hholds
      obtain ⟨henum, hpattern⟩ := hcovers hunflagged i hformed hholds
      refine hunflagged.holds (fun hnone => ?_) (fun hne => ?_) hholds
      · by_cases hdropped : old.enum = none
        · simp [EnumHolds, hdropped]
        · exact henum hdropped hnone
      · by_cases hold : old.pattern = none
        · simp [PatternHolds, hold]
        · exact hpattern hold (fun hnone => hold (hunflagged.pattern hnone)) hne

end Gate

/-! ## Silent differences -/

section Silent

variable {search : Text → Text → Prop} {target : Text → Instance → Prop}

theorem valid_anything_null : Valid search target (.object anything) (.leaf .null) :=
  valueOnly_anything.valid_iff.mpr (holds_iff.mpr (by
    simp [TypeHolds, EnumHolds, PatternHolds, BoundsHold, RequiredHolds, anything,
      Limit.quantity]))

theorem not_enumHolds_onlyA_null : ¬ EnumHolds onlyA (.leaf .null) := by
  intro hholds
  obtain ⟨literal, hliteral, hvalue⟩ := hholds [letterA] rfl
  obtain rfl := List.mem_singleton.mp hliteral
  simp [letterA, Fp2.jsonAtom, instanceValue, primitiveValue] at hvalue

theorem not_valid_onlyA_null : ¬ Valid search target (.object onlyA) (.leaf .null) :=
  fun hvalid => not_enumHolds_onlyA_null (valueOnly_onlyA.valid_iff.mp hvalid).enum

/-- Nothing but the `enum` differs, and that it appears is not reported. -/
theorem requestUnflagged_onlyA : RequestUnflagged JsonRepr.fewestDigits anything onlyA :=
  ⟨valuesKept_of_same rfl rfl rfl rfl, by simp [EnumsWithin, enumSet, anything], Or.inl rfl⟩

end Silent

/-- In a request the gate passes an introduced `enum` that some valid instance violates; in a
response the same change only narrows what is sent. -/
theorem valueKeywords_sound_iff_introduced :
    let search : Text → Text → Prop := fun p s => p = s
    let target : Text → Instance → Prop := fun _ _ => True
    let gate := fun role =>
      compareNode JsonRepr.fewestDigits (fun _ _ => true) (plainScope role) (.object anything)
        (.object onlyA) []
    (¬ (NoBreaking (gate .request) →
      ∀ i : Instance, i.WellFormed → Valid search target (.object anything) i →
        Valid search target (.object onlyA) i)) ∧
    (NoBreaking (gate .response) →
      ∀ i : Instance, i.WellFormed → Valid search target (.object onlyA) i →
        Valid search target (.object anything) i) := by
  intro search target gate
  constructor
  · rw [(valueKeywords_sound_iff valueOnly_anything valueOnly_onlyA).1 rfl]
    intro hcovers
    have henum := hcovers requestUnflagged_onlyA rfl (by decide) (.leaf .null) (by simp)
      valid_anything_null
    exact not_enumHolds_onlyA_null henum
  · apply ((valueKeywords_sound_iff valueOnly_anything valueOnly_onlyA).2 rfl).mpr
    intro _ i _ _
    exact ⟨fun hsome => absurd rfl hsome, fun hsome => absurd rfl hsome⟩

/-- The gate is silent about an `enum` introduced in a request, dropped from a
response, and about a pattern replaced in a response, and each time the schemas
disagree on an instance. -/
theorem silent_differences :
    let search : Text → Text → Prop := fun p s => p = s
    let target : Text → Instance → Prop := fun _ _ => True
    let gate := fun role old new =>
      compareNode JsonRepr.fewestDigits (fun _ _ => true) (plainScope role) (.object old)
        (.object new) []
    (NoBreaking (gate .request anything onlyA) ∧
      Valid search target (.object anything) (.leaf .null) ∧
      ¬ Valid search target (.object onlyA) (.leaf .null)) ∧
    (NoBreaking (gate .response onlyA anything) ∧
      Valid search target (.object anything) (.leaf .null) ∧
      ¬ Valid search target (.object onlyA) (.leaf .null)) ∧
    (NoBreaking (gate .response (withPattern "a") (withPattern "b")) ∧
      Valid search target (.object (withPattern "b")) (.leaf (.str (text "b"))) ∧
      ¬ Valid search target (.object (withPattern "a")) (.leaf (.str (text "b")))) := by
  intro search target gate
  refine ⟨⟨?_, valid_anything_null, not_valid_onlyA_null⟩,
    ⟨?_, valid_anything_null, not_valid_onlyA_null⟩, ?_, ?_, ?_⟩
  · exact (noBreaking_request rfl valueOnly_anything valueOnly_onlyA).mpr requestUnflagged_onlyA
  · refine (noBreaking_response rfl valueOnly_onlyA valueOnly_anything).mpr
      ⟨valuesKept_of_same rfl rfl rfl rfl, ?_, fun _ => rfl⟩
    simp [EnumsWithin, enumSet, anything, onlyA]
  · refine (noBreaking_response rfl (valueOnly_withPattern _) (valueOnly_withPattern _)).mpr
      ⟨valuesKept_of_same rfl rfl rfl rfl, ?_, ?_⟩
    · simp [EnumsWithin, enumSet, withPattern]
    · simp [withPattern]
  · exact (valueOnly_withPattern _).valid_iff.mpr (holds_iff.mpr (by
      simp [TypeHolds, EnumHolds, PatternHolds, BoundsHold, RequiredHolds, withPattern,
        Limit.quantity, upperBound, lowerBound, search]))
  · intro hvalid
    have hsearch := ((valueOnly_withPattern _).valid_iff.mp hvalid).pattern (text "a") rfl
      (text "b") rfl
    exact absurd (text_injective hsearch) (by decide)

end TraigentSchema.BreakingSchemaCheck
