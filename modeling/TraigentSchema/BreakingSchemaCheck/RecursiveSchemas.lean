import TraigentSchema.Draft7.Recursion
import TraigentSchema.BreakingSchemaCheck.ObjectStructure

/-!
# What the gate guarantees for recursive schemas

The comparison stops at a reference that is on its path already, on either side.  That
is sound where the pair it stops at is one it has compared before: then the compared
pairs are closed under one more step, and the schemas have the same instances.  Where
the two sides recur out of step, the stop hides what comes next.
-/

namespace TraigentSchema.BreakingSchemaCheck

open TraigentSchema.Unicode
open TraigentSchema.Python
open TraigentSchema.Draft7

/-! ## Silence -/

/-- The informational findings that hand a difference over to a reader. -/
def handedOver : List String :=
  ["property_added", "property_removed", "patternProperties_added", "leaf_changed",
    "items_structure_changed", "depth_limit"]

/-- Nothing is breaking and nothing is handed over. -/
def Quiet (findings : List Finding) : Prop :=
  ∀ finding ∈ findings, finding.severity ≠ .breaking ∧ finding.rule ∉ handedOver

/-- What is quiet is silent. -/
theorem Quiet.noBreaking {findings : List Finding} (hquiet : Quiet findings) :
    NoBreaking findings :=
  fun finding hfinding => (hquiet finding hfinding).1

@[simp]
theorem quiet_nil : Quiet [] := by
  simp [Quiet]

/-- Two lists of findings are quiet when both are. -/
@[simp]
theorem quiet_append {left right : List Finding} :
    Quiet (left ++ right) ↔ Quiet left ∧ Quiet right :=
  List.forall_mem_append

@[simp]
theorem quiet_singleton {finding : Finding} :
    Quiet [finding] ↔ finding.severity ≠ .breaking ∧ finding.rule ∉ handedOver := by
  simp [Quiet]

theorem quiet_flatMap {A : Type} {rows : List A} {f : A → List Finding} :
    Quiet (rows.flatMap f) ↔ ∀ row ∈ rows, Quiet (f row) := by
  simp only [Quiet, List.mem_flatMap]
  grind

theorem Role.breaks_conservative (narrowed : Bool) : Role.Breaks .conservative narrowed := rfl

/-! ## One node -/

/-- The pairs of subschemas that the comparison of two object schemas goes into. -/
inductive ComparedChild (old new : Keywords Schema) : Schema → Schema → Prop where
  | property {name : Text} {s t : Schema} (hs : old.propertyRows.lookup name = some s)
      (ht : new.propertyRows.lookup name = some t) : ComparedChild old new s t
  | pattern {p : Text} {s t : Schema} (hs : old.patternRows.lookup p = some s)
      (ht : new.patternRows.lookup p = some t) : ComparedChild old new s t
  | additional {s t : Schema} (hs : old.additionalProperties = some s)
      (ht : new.additionalProperties = some t) (hsDict : isObjectSchema s = true)
      (htDict : isObjectSchema t = true) : ComparedChild old new s t
  | items {s t : Schema} (hs : old.items = some (.inl s)) (ht : new.items = some (.inl t))
      (hsDict : isObjectSchema s = true) (htDict : isObjectSchema t = true) :
      ComparedChild old new s t
  | oneOf {l m : List Schema} {s t : Schema} (hl : old.oneOf = some l) (hm : new.oneOf = some m)
      (hlength : l.length = m.length) (hst : (s, t) ∈ l.zip m) : ComparedChild old new s t
  | anyOf {l m : List Schema} {s t : Schema} (hl : old.anyOf = some l) (hm : new.anyOf = some m)
      (hlength : l.length = m.length) (hst : (s, t) ∈ l.zip m) : ComparedChild old new s t
  | allOf {l m : List Schema} {s t : Schema} (hl : old.allOf = some l) (hm : new.allOf = some m)
      (hlength : l.length = m.length) (hst : (s, t) ∈ l.zip m) : ComparedChild old new s t

section Node

variable {scope : NodeScope} {pointer : Text} {recurse : Schema → Schema → Text → List Finding}
  {old new : Keywords Schema} {rel : Schema → Schema → Prop}

/-- Under the conservative role every change of a keyword is breaking. -/
theorem not_quiet_keyword (hrole : scope.role = .conservative) {kw : String} {narrowed : Bool}
    {subject : Option FindingValue} {ov nv : FindingValue} :
    ¬ Quiet [scope.keyword pointer kw narrowed subject ov nv] := by
  rw [quiet_singleton, severity_keyword, hrole]
  exact fun h => h.1 (Role.breaks_conservative narrowed)

/-- A member that one side declares alone is breaking or handed over. -/
theorem Quiet.properties {oldRank newRank : ℕ}
    (hquiet : Quiet (compareProperties scope pointer recurse old new oldRank newRank))
    (name : Text) :
    (old.propertyRows.lookup name = none ↔ new.propertyRows.lookup name = none) ∧
    ∀ s t, old.propertyRows.lookup name = some s → new.propertyRows.lookup name = some t →
      ∃ child, Quiet (recurse s t child) := by
  have hname := fun hmem => quiet_flatMap.mp hquiet name (mem_unionKeys.mpr hmem)
  cases hs : old.propertyRows.lookup name with
  | none =>
      cases ht : new.propertyRows.lookup name with
      | none => simp
      | some t =>
          have h := hname (by simp [ht])
          simp only [hs, ht, quiet_singleton] at h
          refine absurd ?_ h.2
          unfold propertyAdded
          split <;> simp [NodeScope.keyword, NodeScope.emit, handedOver]
  | some s =>
      have h := hname (by simp [hs])
      cases ht : new.propertyRows.lookup name with
      | none =>
          simp only [hs, ht, quiet_singleton] at h
          refine absurd ?_ h.2
          unfold propertyRemoved
          split <;> simp [NodeScope.keyword, NodeScope.emit, handedOver]
      | some t =>
          simp only [hs, ht] at h
          refine ⟨by simp, ?_⟩
          rintro _ _ ⟨⟩ ⟨⟩
          exact ⟨_, h⟩

/-- A quiet comparison has found the same patterns on both sides. -/
theorem Quiet.patternProperties (hrole : scope.role = .conservative) {oldRank newRank : ℕ}
    (hquiet : Quiet (comparePatternProperties scope pointer recurse old new oldRank newRank))
    (p : Text) :
    (old.patternRows.lookup p = none ↔ new.patternRows.lookup p = none) ∧
    ∀ s t, old.patternRows.lookup p = some s → new.patternRows.lookup p = some t →
      ∃ child, Quiet (recurse s t child) := by
  have hpattern := fun hmem => quiet_flatMap.mp hquiet p (mem_unionKeys.mpr hmem)
  cases hs : old.patternRows.lookup p with
  | none =>
      cases ht : new.patternRows.lookup p with
      | none => simp
      | some t =>
          have h := hpattern (by simp [ht])
          simp only [hs, ht, quiet_singleton] at h
          refine absurd ?_ h.2
          unfold patternPropertyAdded
          split <;> simp [NodeScope.keyword, NodeScope.emit, handedOver]
  | some s =>
      have h := hpattern (by simp [hs])
      cases ht : new.patternRows.lookup p with
      | none =>
          simp only [hs, ht] at h
          exact absurd h (not_quiet_keyword hrole)
      | some t =>
          simp only [hs, ht] at h
          refine ⟨by simp, ?_⟩
          rintro _ _ ⟨⟩ ⟨⟩
          exact ⟨_, h⟩

/-- A quiet comparison has found the same closedness on both sides. -/
theorem Quiet.additional (hrole : scope.role = .conservative)
    (hquiet : Quiet (compareAdditionalProperties scope pointer recurse old new)) :
    closednessRank old = closednessRank new ∧
    ∀ s t, old.additionalProperties = some s → new.additionalProperties = some t →
      isObjectSchema s = true → isObjectSchema t = true → ∃ child, Quiet (recurse s t child) := by
  constructor
  · by_contra hne
    refine (noBreaking_compareAdditionalProperties.mp hquiet.noBreaking).1 hne ?_
    rw [hrole]
    exact Role.breaks_conservative _
  · intro s t hs ht hsDict htDict
    rw [compareAdditionalProperties, quiet_append, hs, ht] at hquiet
    simp only [hsDict, htDict, Bool.and_self, if_true] at hquiet
    exact ⟨_, hquiet.2⟩

/-- Values of `items` that are not both schemas are equal, or breaking or handed over. -/
theorem Quiet.items (hrole : scope.role = .conservative)
    {sameList : List Schema → List Schema → Bool}
    (hquiet : Quiet (compareItems scope pointer recurse sameList old new)) :
    (old.items = none ∧ new.items = none) ∨
    (∃ b, old.items = some (.inl (.bool b)) ∧ new.items = some (.inl (.bool b))) ∨
    (∃ s t, old.items = some (.inl s) ∧ new.items = some (.inl t) ∧
      isObjectSchema s = true ∧ isObjectSchema t = true ∧ ∃ child, Quiet (recurse s t child)) ∨
    ∃ l m, old.items = some (.inr l) ∧ new.items = some (.inr m) ∧ sameList l m = true := by
  have hhanded : ∀ {child : Text},
      ¬ Quiet [scope.emit child "items_structure_changed" .info .none .none .none] := by
    simp [NodeScope.emit, handedOver]
  rcases hs : old.items with _ | ⟨b | r | k⟩ | l <;>
    rcases ht : new.items with _ | ⟨b' | r' | k'⟩ | m <;>
    simp [compareItems, hs, ht, itemsDiffer, isObjectSchema, hhanded,
      not_quiet_keyword hrole] at hquiet ⊢
  case some.inl.bool.some.inl.bool =>
    by_contra hne
    rw [if_neg fun heq => hne heq.symm] at hquiet
    exact hhanded hquiet
  case some.inr.some.inr =>
    by_contra hne
    rw [if_pos (Bool.eq_false_iff.mpr hne)] at hquiet
    exact hhanded hquiet
  all_goals exact ⟨_, hquiet⟩

/-- A combinator on one side alone is breaking, unless it is an empty `allOf`. -/
theorem Quiet.combinator (hrole : scope.role = .conservative) {combinator : String}
    {a b : Option (List Schema)}
    (hquiet : Quiet (compareCombinator scope pointer recurse combinator a b)) :
    (a = none ∧ b = none) ∨
    (combinator = "allOf" ∧ a.getD [] = [] ∧ b.getD [] = []) ∨
    ∃ l m, a = some l ∧ b = some m ∧ l.length = m.length ∧
      ∀ s t, (s, t) ∈ l.zip m → ∃ child, Quiet (recurse s t child) := by
  cases a with
  | none =>
      cases b with
      | none => exact .inl ⟨rfl, rfl⟩
      | some m =>
          simp only [compareCombinator, combinatorAppeared] at hquiet
          split at hquiet
          · rename_i hempty
            exact .inr (.inl ⟨hempty.1, rfl, hempty.2⟩)
          · exact absurd hquiet (not_quiet_keyword hrole)
  | some l =>
      cases b with
      | none =>
          simp only [compareCombinator, combinatorDisappeared] at hquiet
          split at hquiet
          · rename_i hempty
            exact .inr (.inl ⟨hempty.1, hempty.2, rfl⟩)
          · exact absurd hquiet (not_quiet_keyword hrole)
      | some m =>
          simp only [compareCombinator, compareCombinatorBranches] at hquiet
          split at hquiet
          · simp [NodeScope.emit] at hquiet
          · rename_i hlength
            refine .inr (.inr ⟨l, m, rfl, rfl, not_not.mp hlength, fun s t hst => ?_⟩)
            obtain ⟨n, hn⟩ := List.mem_iff_getElem?.mp hst
            exact ⟨_, quiet_flatMap.mp hquiet _ (List.mk_mem_zipIdx_iff_getElem?.mpr hn)⟩

/-- A quiet comparison has related the branches of a combinator one by one. -/
theorem Quiet.branches (hrole : scope.role = .conservative) {combinator : String}
    {a b : Option (List Schema)}
    (hquiet : Quiet (compareCombinator scope pointer recurse combinator a b))
    (hrel : ∀ l m, a = some l → b = some m → l.length = m.length →
      ∀ s t, (s, t) ∈ l.zip m → rel s t) :
    List.Forall₂ rel (a.getD []) (b.getD []) ∧
      (combinator ≠ "allOf" → Option.Rel (List.Forall₂ rel) a b) := by
  rcases hquiet.combinator hrole with ⟨rfl, rfl⟩ | ⟨rfl, ha, hb⟩ | ⟨l, m, rfl, rfl, hlength, -⟩
  · exact ⟨.nil, fun _ => .none⟩
  · rw [ha, hb]
    exact ⟨.nil, fun hne => absurd rfl hne⟩
  · have hlists : List.Forall₂ rel l m :=
      List.forall₂_iff_zip.mpr ⟨hlength, fun hst => hrel l m rfl rfl hlength _ _ hst⟩
    exact ⟨hlists, fun _ => .some hlists⟩

variable {float : JsonRepr} {sameList : List Schema → List Schema → Bool}

/-- The pairs the comparison goes into are quiet themselves. -/
theorem Quiet.child (hrole : scope.role = .conservative)
    (hquiet : Quiet (compareKeywords float sameList scope pointer recurse old new))
    {s t : Schema} (hst : ComparedChild old new s t) : ∃ child, Quiet (recurse s t child) := by
  simp only [compareKeywords, quiet_append, and_assoc] at hquiet
  obtain ⟨-, -, hadditional, -, -, -, -, hproperties, hpatterns, hitems, honeOf, hanyOf,
    hallOf⟩ := hquiet
  have hbranches : ∀ {combinator : String} {a b : Option (List Schema)} {l m : List Schema},
      Quiet (compareCombinator scope pointer recurse combinator a b) → a = some l →
        b = some m → (s, t) ∈ l.zip m → ∃ child, Quiet (recurse s t child) := by
    intro combinator a b l m hcombinator ha hb hst
    rcases hcombinator.combinator hrole with ⟨rfl, -⟩ | ⟨-, hempty, -⟩ | ⟨_, _, hl, hm, -, h⟩
    · simp at ha
    · obtain rfl : l = [] := by simpa [ha] using hempty
      simp at hst
    · rw [ha, Option.some.injEq] at hl
      rw [hb, Option.some.injEq] at hm
      exact h s t (hl ▸ hm ▸ hst)
  cases hst with
  | property hs ht => exact (hproperties.properties _).2 s t hs ht
  | pattern hs ht => exact (hpatterns.patternProperties hrole _).2 s t hs ht
  | additional hs ht hsDict htDict => exact (hadditional.additional hrole).2 s t hs ht hsDict htDict
  | items hs ht hsDict htDict =>
      rcases hitems.items hrole with ⟨h, -⟩ | ⟨b, h, -⟩ | ⟨_, _, hl, hm, -, -, h⟩ | ⟨_, _, h, -⟩
      · simp [h] at hs
      · obtain rfl : Schema.bool b = s := by simpa [h] using hs
        simp [isObjectSchema] at hsDict
      · rw [hs, Option.some.injEq, Sum.inl.injEq] at hl
        rw [ht, Option.some.injEq, Sum.inl.injEq] at hm
        exact hl ▸ hm ▸ h
      · simp [h] at hs
  | oneOf hl hm _ hst => exact hbranches honeOf hl hm hst
  | anyOf hl hm _ hst => exact hbranches hanyOf hl hm hst
  | allOf hl hm _ hst => exact hbranches hallOf hl hm hst

variable {search : Text → Text → Prop}

/-- Quiet value keywords admit the same instances. -/
theorem Quiet.holds_iff (hrole : scope.role = .conservative)
    (hquiet : Quiet (compareKeywords float sameList scope pointer recurse old new))
    (i : Instance) : old.Holds search i ↔ new.Holds search i := by
  have hsilent := hquiet.noBreaking
  simp only [compareKeywords, noBreaking_append, and_assoc] at hsilent
  obtain ⟨htype, henum, -, hpattern, hmax, hmin, hrequired, -⟩ := hsilent
  rw [noBreaking_compareType] at htype
  rw [noBreaking_compareEnum] at henum
  rw [noBreaking_comparePattern] at hpattern
  rw [noBreaking_compareMaxBounds] at hmax
  rw [noBreaking_compareMinBounds] at hmin
  rw [noBreaking_compareRequired] at hrequired
  simp only [hrole, Role.breaks_conservative, forall_const, not_true, or_false]
    at htype henum hpattern hmax hmin hrequired
  have henums : ∀ {small large : Keywords Schema},
      (enumSet float small).getD ∅ ⊆ (enumSet float large).getD ∅ →
        (small.enum = none → large.enum = none) → EnumHolds small i → EnumHolds large i := by
    intro small large hsubset hnone hholds
    cases hliterals : small.enum with
    | none => simp [EnumHolds, hnone hliterals]
    | some literals => exact enumHolds_of_subset hliterals hsubset hholds
  rw [BreakingSchemaCheck.holds_iff, BreakingSchemaCheck.holds_iff]
  refine and_congr ?_ (and_congr ?_ (and_congr ?_ (and_congr ?_ ?_)))
  · exact ⟨typeHolds_of_typesWithin htype.1, typeHolds_of_typesWithin htype.2⟩
  · exact ⟨henums henum.1.1 henum.2.2, henums henum.2.1 henum.1.2⟩
  · rw [PatternHolds, PatternHolds, hpattern]
  · have hupper := fun limit => le_antisymm (hmax limit).1 (hmax limit).2
    have hlower := fun limit => le_antisymm (hmin limit).1 (hmin limit).2
    simp only [BoundsHold, hupper, hlower]
  · rw [RequiredHolds, RequiredHolds, hrequired.1.antisymm hrequired.2]

theorem rel_of_lookup {a b : Option Schema} (hnone : a = none ↔ b = none)
    (hrel : ∀ s t, a = some s → b = some t → rel s t) : Option.Rel rel a b := by
  cases a with
  | none =>
      rw [hnone.mp rfl]
      exact .none
  | some s =>
      cases b with
      | none => simp at hnone
      | some t => exact .some (hrel s t rfl rfl)

/-- Where the ranks are equal, the maps are compared or say the same. -/
theorem rel_additionalSchema (hrank : closednessRank old = closednessRank new)
    (hrel : ∀ s t, old.additionalProperties = some s → new.additionalProperties = some t →
      isObjectSchema s = true → isObjectSchema t = true → rel s t)
    (hbool : ∀ b, rel (.bool b) (.bool b)) :
    rel old.additionalSchema new.additionalSchema := by
  unfold closednessRank at hrank
  unfold Keywords.additionalSchema
  rcases hs : old.additionalProperties with _ | ⟨_ | _⟩ | r | k <;>
    rcases ht : new.additionalProperties with _ | ⟨_ | _⟩ | r' | k' <;>
    simp only [hs, ht, OfNat.ofNat_ne_zero, OfNat.zero_ne_ofNat, OfNat.ofNat_ne_one,
      OfNat.one_ne_ofNat, zero_ne_one, one_ne_zero] at hrank
  all_goals first
    | exact hbool _
    | exact hrel _ _ hs ht rfl rfl

/-- Quiet object schemas agree, up to the pairs the comparison goes into. -/
theorem Quiet.agrees (hrole : scope.role = .conservative)
    (hquiet : Quiet (compareKeywords float sameList scope pointer recurse old new))
    (hrel : ∀ s t, ComparedChild old new s t → rel s t) (hbool : ∀ b, rel (.bool b) (.bool b))
    (htuples : ∀ l m, old.items = some (.inr l) → new.items = some (.inr m) →
      sameList l m = true → List.Forall₂ rel l m) : old.Agrees search rel new := by
  have hholds := fun i => @Quiet.holds_iff _ _ _ _ _ _ _ search hrole hquiet i
  simp only [compareKeywords, quiet_append, and_assoc] at hquiet
  obtain ⟨-, -, hadditional, -, -, -, -, hproperties, hpatterns, hitems, honeOf, hanyOf,
    hallOf⟩ := hquiet
  have honeOf := honeOf.branches hrole fun l m hl hm hlength s t hst =>
    hrel s t (.oneOf hl hm hlength hst)
  have hanyOf := hanyOf.branches hrole fun l m hl hm hlength s t hst =>
    hrel s t (.anyOf hl hm hlength hst)
  have hallOf := hallOf.branches hrole fun l m hl hm hlength s t hst =>
    hrel s t (.allOf hl hm hlength hst)
  constructor
  · exact hholds
  · exact fun name => rel_of_lookup (hproperties.properties name).1 fun s t hs ht =>
      hrel s t (.property hs ht)
  · exact fun p => rel_of_lookup (hpatterns.patternProperties hrole p).1 fun s t hs ht =>
      hrel s t (.pattern hs ht)
  · exact rel_additionalSchema (hadditional.additional hrole).1
      (fun s t hs ht hsDict htDict => hrel s t (.additional hs ht hsDict htDict)) hbool
  · rcases hitems.items hrole with ⟨hs, ht⟩ | ⟨b, hs, ht⟩ | ⟨s, t, hs, ht, hsDict, htDict, -⟩ |
      ⟨l, m, hs, ht, hsame⟩
    · rw [hs, ht]
      exact .none
    · rw [hs, ht]
      exact .some (.inl (hbool b))
    · rw [hs, ht]
      exact .some (.inl (hrel s t (.items hs ht hsDict htDict)))
    · rw [hs, ht]
      exact .some (.inr (htuples l m hs ht hsame))
  · exact honeOf.2 (by decide)
  · exact hanyOf.2 (by decide)
  · exact hallOf.1

end Node

/-! ## References -/

/-- The targets of references, as `deref` finds them. -/
def Registry.resolve (registry : Registry) : Resolver := fun document ref =>
  let (base, pointer) := registry.splitRef document ref
  (registry.lookup base pointer).map fun s => (base, s)

theorem leads_of_derefWithin {registry : Registry} {hops : ℕ} {s : Schema} {base : Text}
    {visited : List Text} {resolved : Resolved}
    (hderef : derefWithin registry hops s base visited = some resolved) :
    Leads registry.resolve (base, s) (resolved.base, resolved.node) := by
  induction hops generalizing s base visited with
  | zero => cases s <;> cases hderef <;> exact .refl _
  | succ hops ih =>
      cases s with
      | bool b =>
          cases hderef
          exact .refl _
      | object k =>
          cases hderef
          exact .refl _
      | ref r =>
          simp only [derefWithin] at hderef
          split at hderef
          · cases hderef
            exact .refl _
          · obtain ⟨node, hlookup, hrest⟩ := Option.bind_eq_some_iff.mp hderef
            refine .step ?_ (ih hrest)
            simp only [Registry.resolve, hlookup, Option.map_some]

/-- A schema that is dereferenced is reached by its references. -/
theorem leads_of_deref {registry : Registry} {s : Schema} {base : Text} {visited : List Text}
    {resolved : Resolved} (hderef : deref s base registry visited = some resolved) :
    Leads registry.resolve (base, s) (resolved.base, resolved.node) :=
  leads_of_derefWithin hderef

section Pair

variable {scope resolved : NodeScope} {s t : Schema} {pointer : Text}
  {oldKeywords newKeywords : Keywords Schema}

/-- The pair that is compared is the one the references lead to. -/
theorem leads_of_resolveNodePair
    (hresolve : resolveNodePair scope s t pointer = .inr (oldKeywords, newKeywords, resolved)) :
    Leads scope.oldRegistry.resolve (scope.oldBase, s) (resolved.oldBase, .object oldKeywords) ∧
      Leads scope.newRegistry.resolve (scope.newBase, t)
        (resolved.newBase, .object newKeywords) := by
  unfold resolveNodePair at hresolve
  split at hresolve
  · cases hresolve
  · cases hresolve
  · rename_i oldResolved newResolved hold hnew
    have hold := leads_of_deref hold
    have hnew := leads_of_deref hnew
    split at hresolve <;> cases hresolve
    rename_i hs ht
    rw [hs] at hold
    rw [ht] at hnew
    exact ⟨hold, hnew⟩

/-- Resolving references leaves the registries and the role alone. -/
theorem scope_of_resolveNodePair
    (hresolve : resolveNodePair scope s t pointer = .inr (oldKeywords, newKeywords, resolved)) :
    resolved.oldRegistry = scope.oldRegistry ∧ resolved.newRegistry = scope.newRegistry ∧
      resolved.role = scope.role := by
  unfold resolveNodePair at hresolve
  split at hresolve
  · cases hresolve
  · cases hresolve
  · split at hresolve <;> cases hresolve
    exact ⟨rfl, rfl, rfl⟩

/-- The pair does not depend on where in the document it is met. -/
theorem resolveNodePair_pointer
    (hresolve : resolveNodePair scope s t pointer = .inr (oldKeywords, newKeywords, resolved))
    (pointer' : Text) :
    resolveNodePair scope s t pointer' = .inr (oldKeywords, newKeywords, resolved) := by
  unfold resolveNodePair at hresolve ⊢
  split at hresolve
  · cases hresolve
  · cases hresolve
  · split at hresolve <;> cases hresolve
    rfl

end Pair

/-! ## Runs of the comparison -/

/-- `compare_node` comes to a pair of schemas, with so many levels left; the trail is
the pairs of object schemas on the way to it. -/
inductive Visits (start : NodeScope) (old new : Schema) :
    (levels : ℕ) → (trail : List (Node × Node)) → NodeScope → Schema → Schema → Prop where
  | root : Visits start old new 61 [] start old new
  | child {levels : ℕ} {trail : List (Node × Node)} {scope resolved : NodeScope}
      {s t s' t' : Schema} {pointer : Text} {oldKeywords newKeywords : Keywords Schema}
      (hparent : Visits start old new (levels + 1) trail scope s t)
      (hresolve : resolveNodePair scope s t pointer = .inr (oldKeywords, newKeywords, resolved))
      (hchild : ComparedChild oldKeywords newKeywords s' t') :
      Visits start old new levels
        (((resolved.oldBase, oldKeywords), (resolved.newBase, newKeywords)) :: trail)
        resolved s' t'

/-- A pair of object schemas whose keywords the run compares. -/
def ComparedPair (start : NodeScope) (old new : Schema) (n n' : Node) : Prop :=
  ∃ levels trail scope s t pointer resolved,
    Visits start old new (levels + 1) trail scope s t ∧
      resolveNodePair scope s t pointer = .inr (n.2, n'.2, resolved) ∧
      resolved.oldBase = n.1 ∧ resolved.newBase = n'.1

/-- The comparison ends here because a reference is on the path already. -/
def StopsAtCycle (scope : NodeScope) (s t : Schema) : Prop :=
  ∃ pointer, resolveNodePair scope s t pointer =
    .inl [scope.emit pointer "cyclic_ref" .info .none .none .none]

/-- Wherever the run stops at a cycle, both references lead to a pair of object schemas
that is on the way. -/
def CyclesInStep (start : NodeScope) (old new : Schema) : Prop :=
  ∀ levels trail scope s t, Visits start old new levels trail scope s t →
    StopsAtCycle scope s t → ∃ pair ∈ trail,
      Leads start.oldRegistry.resolve (scope.oldBase, s) (pair.1.1, .object pair.1.2) ∧
      Leads start.newRegistry.resolve (scope.newBase, t) (pair.2.1, .object pair.2.2)

/-- Lists of `items` that count as equal are equal, and hold no reference. -/
def PlainTuples (sameList : List Schema → List Schema → Bool) (start : NodeScope)
    (old new : Schema) : Prop :=
  ∀ n n', ComparedPair start old new n n' → ∀ l m, n.2.items = some (.inr l) →
    n'.2.items = some (.inr m) → sameList l m = true → l = m ∧ ∀ s ∈ l, RefFree s

section Run

variable {float : JsonRepr} {sameList : List Schema → List Schema → Bool}
  {start scope : NodeScope} {old new s t : Schema} {levels : ℕ} {trail : List (Node × Node)}
  {pointer : Text}

/-- A visit keeps the documents and the role it started under. -/
theorem Visits.sameScope (hvisit : Visits start old new levels trail scope s t) :
    scope.oldRegistry = start.oldRegistry ∧ scope.newRegistry = start.newRegistry ∧
      scope.role = start.role := by
  induction hvisit with
  | root => exact ⟨rfl, rfl, rfl⟩
  | child _ hresolve _ ih =>
      obtain ⟨hold, hnew, hrole⟩ := scope_of_resolveNodePair hresolve
      exact ⟨hold.trans ih.1, hnew.trans ih.2.1, hrole.trans ih.2.2⟩

/-- What stands on the trail was compared before. -/
theorem Visits.compared (hvisit : Visits start old new levels trail scope s t) :
    ∀ pair ∈ trail, ComparedPair start old new pair.1 pair.2 := by
  induction hvisit with
  | root => simp
  | child hparent hresolve _ ih =>
      refine List.forall_mem_cons.mpr ⟨?_, ih⟩
      exact ⟨_, _, _, _, _, _, _, hparent, hresolve, rfl, rfl⟩

theorem compareNodeWithin_inr {resolved : NodeScope} {oldKeywords newKeywords : Keywords Schema}
    (hresolve : resolveNodePair scope s t pointer = .inr (oldKeywords, newKeywords, resolved)) :
    compareNodeWithin float sameList (levels + 1) scope s t pointer =
      compareKeywords float sameList resolved pointer
        (compareNodeWithin float sameList levels resolved) oldKeywords newKeywords := by
  rw [compareNodeWithin, hresolve]

/-- A quiet run is quiet at every pair it comes to. -/
theorem Visits.quiet (hrole : start.role = .conservative)
    (hquiet : Quiet (compareNode float sameList start old new pointer))
    (hvisit : Visits start old new levels trail scope s t) :
    ∃ child, Quiet (compareNodeWithin float sameList levels scope s t child) := by
  induction hvisit with
  | root => exact ⟨pointer, hquiet⟩
  | child hparent hresolve hchild ih =>
      obtain ⟨child, hquiet⟩ := ih
      rw [compareNodeWithin_inr (resolveNodePair_pointer hresolve child)] at hquiet
      refine hquiet.child ?_ hchild
      rw [(scope_of_resolveNodePair hresolve).2.2, hparent.sameScope.2.2, hrole]

/-- By cases on how the comparison of a pair ends: the references of a quiet pair lead to
schemas that say the same, or to a pair the run compares. -/
theorem Visits.related (hcycles : CyclesInStep start old new)
    (hvisit : Visits start old new levels trail scope s t)
    (hquiet : Quiet (compareNodeWithin float sameList levels scope s t pointer)) :
    Related start.oldRegistry.resolve start.newRegistry.resolve (ComparedPair start old new)
      (scope.oldBase, s) (scope.newBase, t) := by
  obtain ⟨holdRegistry, hnewRegistry, -⟩ := hvisit.sameScope
  cases levels with
  | zero => simp [compareNodeWithin, NodeScope.emit, handedOver] at hquiet
  | succ levels =>
      cases hresolve : resolveNodePair scope s t pointer with
      | inr pair =>
          obtain ⟨oldKeywords, newKeywords, resolved⟩ := pair
          obtain ⟨hold, hnew⟩ := leads_of_resolveNodePair hresolve
          rw [holdRegistry] at hold
          rw [hnewRegistry] at hnew
          exact @Related.nodes _ _ _ _ _ (resolved.oldBase, oldKeywords)
            (resolved.newBase, newKeywords) hold hnew
            ⟨_, _, _, _, _, _, _, hvisit, hresolve, rfl, rfl⟩
      | inl findings =>
          rw [compareNodeWithin, hresolve] at hquiet
          have hstop := hcycles _ _ _ _ _ hvisit
          simp only [StopsAtCycle] at hstop
          have hended := hresolve
          unfold resolveNodePair at hresolve
          split at hresolve
          · obtain rfl := Sum.inl.inj hresolve
            simp [NodeScope.emit] at hquiet
          · obtain rfl := Sum.inl.inj hresolve
            simp [NodeScope.emit] at hquiet
          · rename_i oldResolved newResolved hold hnew
            have hold := leads_of_deref hold
            have hnew := leads_of_deref hnew
            rw [holdRegistry] at hold
            rw [hnewRegistry] at hnew
            split at hresolve
            · rename_i hs ht
              rw [hs] at hold
              rw [ht] at hnew
              split at hresolve
              · obtain rfl := Sum.inl.inj hresolve
                simp [NodeScope.emit, handedOver] at hquiet
              · rename_i hsame
                rw [not_not.mp hsame] at hold
                exact .same hold hnew (.bool _)
            · obtain rfl := Sum.inl.inj hresolve
              simp [NodeScope.emit, handedOver] at hquiet
            · obtain rfl := Sum.inl.inj hresolve
              simp [NodeScope.emit, handedOver] at hquiet
            · cases hresolve
            · obtain rfl := Sum.inl.inj hresolve
              obtain ⟨pair, hpair, hpairOld, hpairNew⟩ := hstop ⟨pointer, hended⟩
              exact .nodes hpairOld hpairNew (hvisit.compared pair hpair)

/-- The pairs a quiet run compares are closed under one more step. -/
theorem bisimulation_of_quiet (hrole : start.role = .conservative)
    (hquiet : Quiet (compareNode float sameList start old new pointer))
    (hcycles : CyclesInStep start old new) (htuples : PlainTuples sameList start old new)
    (search : Text → Text → Prop) :
    Bisimulation start.oldRegistry.resolve start.newRegistry.resolve search
      (ComparedPair start old new) := by
  rintro ⟨base, oldKeywords⟩ ⟨base', newKeywords⟩ hpair
  have hplain := htuples _ _ hpair
  obtain ⟨levels, trail, scope, s, t, pointer', resolved, hvisit, hresolve, rfl, rfl⟩ := hpair
  obtain ⟨child, hnode⟩ := hvisit.quiet hrole hquiet
  rw [compareNodeWithin_inr (resolveNodePair_pointer hresolve child)] at hnode
  refine hnode.agrees ?_ ?_ ?_ ?_
  · rw [(scope_of_resolveNodePair hresolve).2.2, hvisit.sameScope.2.2, hrole]
  · intro s' t' hchild
    have hbelow := Visits.child hvisit hresolve hchild
    obtain ⟨_, hchildQuiet⟩ := hbelow.quiet hrole hquiet
    exact hbelow.related hcycles hchildQuiet
  · exact fun b => .same (.refl _) (.refl _) (.bool b)
  · intro l m hl hm hsame
    obtain ⟨rfl, hfree⟩ := hplain l m hl hm hsame
    exact List.forall₂_same.mpr fun s hs => .same (.refl _) (.refl _) (hfree s hs)

/-- Where the references of the old documents lead back only into an instance, a quiet
conservative comparison whose cycles are in step is of schemas with the same instances,
whatever the references mean. -/
theorem recursiveSchemas_agree (hrole : start.role = .conservative)
    (hquiet : Quiet (compareNode float sameList start old new pointer))
    (hcycles : CyclesInStep start old new) (htuples : PlainTuples sameList start old new)
    (hguarded : Guarded start.oldRegistry.resolve) {search : Text → Text → Prop}
    {oldTarget newTarget : Text → Text → Instance → Prop}
    (hold : Meaning start.oldRegistry.resolve search oldTarget)
    (hnew : Meaning start.newRegistry.resolve search newTarget) (i : Instance) :
    Valid search (oldTarget start.oldBase) old i ↔
      Valid search (newTarget start.newBase) new i :=
  (bisimulation_of_quiet hrole hquiet hcycles htuples search).admits_iff hguarded hold hnew
    (Visits.root.related hcycles hquiet) i

end Run

/-! ## Small recursive schemas -/

/-- One document, with its schemas by pointer. -/
def registryOf (rows : List (Text × Schema)) : Registry where
  splitRef base ref := (base, ref.drop 1)
  lookup _ pointer := rows.lookup pointer

/-- A comparison of two documents of this kind. -/
def documentScope (oldRows newRows : List (Text × Schema)) : NodeScope where
  oldBase := []
  newBase := []
  oldRegistry := registryOf oldRows
  newRegistry := registryOf newRows
  oldVisited := []
  newVisited := []
  role := .conservative
  file := text "example_schema.json"

theorem resolve_registryOf {rows : List (Text × Schema)} {document ref : Text} {l : Located}
    (hresolve : (registryOf rows).resolve document ref = some l) :
    l.1 = document ∧ rows.lookup (ref.drop 1) = some l.2 := by
  obtain ⟨s, hs, rfl⟩ := Option.map_eq_some_iff.mp hresolve
  exact ⟨rfl, hs⟩

section Samples

variable {float : JsonRepr} {sameList : List Schema → List Schema → Bool} {scope : NodeScope}
  {pointer : Text} {recurse : Schema → Schema → Text → List Finding} {s t : Schema}
  {search : Text → Text → Prop} {target : Text → Instance → Prop}

theorem compareKeywords_withX :
    compareKeywords float sameList scope pointer recurse
        { properties := some [(text "x", s)] } { properties := some [(text "x", t)] } =
      recurse s t (pointer ++ text "/properties/" ++ text "x") := by
  simp [compareKeywords, compareType, compareEnum, typeSet, enumSet, comparePattern,
    compareAdditionalProperties, closednessRank, compareMaxBounds, compareMinBounds, maxKeys,
    minKeys, compareRequired, requiredSet, compareProperties, comparePatternProperties,
    unionKeys, Keywords.propertyRows, Keywords.patternRows, sorted, compareItems, itemsDiffer,
    compareCombinator]

theorem valid_withX_iff {i : Instance} :
    Valid search target (withX s) i ↔
      ∀ members, i = .dict members → ∀ member ∈ members, member.1 = text "x" →
        Valid search target s member.2 := by
  have hstructure : StructureOnly ({ properties := some [(text "x", s)] } : Keywords Schema) := by
    constructor <;> simp
  cases i with
  | dict members => simp [valid_withX]
  | leaf x =>
      rw [withX, hstructure.valid_iff]
      simp [TypeHolds, RequiredHolds]
  | list items =>
      rw [withX, hstructure.valid_iff]
      simp [TypeHolds, RequiredHolds, itemSchema]

end Samples

/-- Objects whose member `x` is such an object again. -/
def nested : Schema :=
  withX (.ref (text "#"))

/-- The document of these objects. -/
def nestedRows : List (Text × Schema) :=
  [([], nested)]

/-- An object whose member `x` has a number as its member `x`, in three steps. -/
def unrolledRows : List (Text × Schema) :=
  [([], withX (.ref (text "#/B"))), (text "/B", withX (.ref (text "#/C"))),
    (text "/C", .object (typed [.number]))]

/-- The root is the only schema of the document. -/
theorem nested_of_resolve {document ref : Text} {l : Located}
    (hresolve : (registryOf nestedRows).resolve document ref = some l) :
    l = (document, nested) := by
  obtain ⟨hdocument, hlookup⟩ := resolve_registryOf hresolve
  obtain ⟨-, hs⟩ := Prod.mk.inj (List.mem_singleton.mp (mem_of_lookup hlookup))
  exact Prod.ext hdocument hs

/-- Every instance is such an object or no object at all. -/
theorem meaning_nested (search : Text → Text → Prop) :
    Meaning (registryOf nestedRows).resolve search fun _ _ _ => True := by
  intro document ref l hresolve i
  obtain rfl := nested_of_resolve hresolve
  rw [Admits, nested, valid_withX_iff]
  simp [Valid]

theorem compareNode_unrolled {float : JsonRepr} {sameList : List Schema → List Schema → Bool} :
    ∃ (scope : NodeScope) (pointer : Text),
      compareNode float sameList (documentScope nestedRows unrolledRows) nested
        (withX (.ref (text "#/B"))) [] =
        [scope.emit pointer "cyclic_ref" .info .none .none .none] := by
  have hfirst : ∀ pointer, resolveNodePair (documentScope nestedRows unrolledRows) nested
      (withX (.ref (text "#/B"))) pointer =
        .inr ({ properties := some [(text "x", .ref (text "#"))] },
          { properties := some [(text "x", .ref (text "#/B"))] },
          documentScope nestedRows unrolledRows) := fun _ => rfl
  have hsecond : ∀ pointer, resolveNodePair (documentScope nestedRows unrolledRows)
      (.ref (text "#")) (.ref (text "#/B")) pointer =
        .inr ({ properties := some [(text "x", .ref (text "#"))] },
          { properties := some [(text "x", .ref (text "#/C"))] },
          { documentScope nestedRows unrolledRows with
            oldVisited := [text "#"]
            newVisited := [text "#/B"] }) := fun _ => rfl
  rw [compareNode, compareNodeWithin_inr (hfirst _), compareKeywords_withX,
    compareNodeWithin_inr (hsecond _), compareKeywords_withX]
  exact ⟨_, _, rfl⟩

/-- What the references of the unrolled document mean. -/
def unrolledTarget (search : Text → Text → Prop) (ref : Text) : Instance → Prop :=
  let number := Valid search (fun _ _ => True) (.object (typed [.number]))
  let objectOfNumber := Valid search (fun _ => number) (withX (.ref (text "#/C")))
  if ref.drop 1 = text "/C" then number
  else if ref.drop 1 = text "/B" then objectOfNumber
  else Valid search (fun _ => objectOfNumber) (withX (.ref (text "#/B")))

theorem meaning_unrolled (search : Text → Text → Prop) :
    Meaning (registryOf unrolledRows).resolve search fun _ => unrolledTarget search := by
  have hne : text "/B" ≠ text "/C" := by decide
  have hnil : ([] : Text) ≠ text "/C" ∧ ([] : Text) ≠ text "/B" := by decide
  have hnumber : unrolledTarget search (text "#/C") =
      Valid search (fun _ _ => True) (.object (typed [.number])) := rfl
  have hobject : unrolledTarget search (text "#/B") = Valid search
      (fun _ => Valid search (fun _ _ => True) (.object (typed [.number])))
      (withX (.ref (text "#/C"))) := rfl
  intro document ref l hresolve i
  obtain ⟨-, hlookup⟩ := resolve_registryOf hresolve
  rw [Admits]
  rcases List.mem_cons.mp (mem_of_lookup hlookup) with heq | hrest
  · obtain ⟨hpointer, hs⟩ := Prod.mk.inj heq
    simp only [unrolledTarget, hpointer, if_neg hnil.1, if_neg hnil.2]
    rw [hs, valid_withX_iff, valid_withX_iff]
    simp only [Valid, hobject]
  · rcases List.mem_cons.mp hrest with heq | hrest
    · obtain ⟨hpointer, hs⟩ := Prod.mk.inj heq
      simp only [unrolledTarget, hpointer, if_neg hne, if_pos]
      rw [hs, valid_withX_iff, valid_withX_iff]
      simp only [Valid, hnumber]
    · obtain ⟨hpointer, hs⟩ := Prod.mk.inj (List.mem_singleton.mp hrest)
      simp only [unrolledTarget, hpointer, if_pos]
      rw [hs, (valueOnly_typed _).valid_iff, (valueOnly_typed _).valid_iff]

/-- Stopping at a cycle hides a difference when the two sides recur out of step. -/
theorem recursiveSchemas_differ :
    let search : Text → Text → Prop := fun p s => p = s
    let start := documentScope nestedRows unrolledRows
    let new := withX (.ref (text "#/B"))
    let i : Instance := .dict [(text "x", .dict [(text "x", .leaf .null)])]
    ∃ oldTarget newTarget : Text → Text → Instance → Prop,
      Meaning start.oldRegistry.resolve search oldTarget ∧
      Meaning start.newRegistry.resolve search newTarget ∧
      NoBreaking (compareNode JsonRepr.fewestDigits (fun _ _ => true) start nested new []) ∧
      Valid search (oldTarget start.oldBase) nested i ∧
      ¬ Valid search (newTarget start.newBase) new i := by
  intro search start new i
  have hmeaning := meaning_unrolled search
  refine ⟨fun _ _ _ => True, fun _ => unrolledTarget search, meaning_nested search, hmeaning,
    ?_, ?_, ?_⟩
  · obtain ⟨scope, pointer, hrun⟩ :=
      @compareNode_unrolled JsonRepr.fewestDigits fun _ _ => true
    rw [hrun]
    simp [NodeScope.emit]
  · rw [nested, valid_withX_iff]
    simp [Valid]
  · intro hvalid
    have hinner := valid_withX.mp hvalid _ (List.mem_singleton_self _) rfl
    rw [Valid] at hinner
    have hinner := (hmeaning [] (text "#/B") ([], withX (.ref (text "#/C"))) rfl _).mp hinner
    have hnumber := valid_withX.mp hinner _ (List.mem_singleton_self _) rfl
    rw [Valid] at hnumber
    have hnumber := (hmeaning [] (text "#/C") ([], .object (typed [.number])) rfl _).mp hnumber
    have htype := ((valueOnly_typed _).valid_iff.mp hnumber).type _ rfl
    simp [TypeKeyword.names, SimpleType.admits] at htype

/-! ## Recursion in step -/

def chainKeywords (ref : Text) : Keywords Schema :=
  { type := some (.one .object), properties := some [(text "x", .ref ref)] }

/-- An object whose member `x` is what the reference says. -/
def chain (ref : Text) : Schema :=
  .object (chainKeywords ref)

/-- Objects all the way down along the member `x`. -/
inductive Chain : Instance → Prop where
  | dict {members : List (Text × Instance)}
      (hx : ∀ member ∈ members, member.1 = text "x" → Chain member.2) : Chain (.dict members)

/-- The document of these objects, whose root refers to itself. -/
def chainRows : List (Text × Schema) :=
  [([], chain (text "#"))]

/-- The same objects by a root and a second schema that refer to each other. -/
def twoStepRows : List (Text × Schema) :=
  [([], chain (text "#/B")), (text "/B", chain (text "#"))]

section Chains

variable {search : Text → Text → Prop} {target : Text → Instance → Prop} {ref : Text}
  {rows : List (Text × Schema)}

theorem valid_chain_iff {i : Instance} :
    Valid search target (chain ref) i ↔ ∃ members, i = .dict members ∧
      ∀ member ∈ members, member.1 = text "x" → target ref member.2 := by
  have hstructure : StructureOnly (chainKeywords ref) := by
    constructor <;> simp [chainKeywords]
  have hlookup : ∀ name t, List.lookup name [(text "x", Schema.ref ref)] = some t ↔
      name = text "x" ∧ .ref ref = t := by
    intro name t
    by_cases hname : name = text "x"
    · simp [List.lookup, hname]
    · have hne : (name == text "x") = false := by simpa using hname
      simp [List.lookup, hne, hname]
  rw [chain, hstructure.valid_iff]
  constructor
  · rintro ⟨htype, -, hmembers, -⟩
    obtain ⟨name, hname, hadmits⟩ := htype _ rfl
    obtain rfl := List.mem_singleton.mp hname
    cases i with
    | leaf x => cases x <;> simp [SimpleType.admits] at hadmits
    | list items => simp [SimpleType.admits] at hadmits
    | dict members =>
        refine ⟨members, rfl, fun member hmember hx => ?_⟩
        have hvalid := (hmembers members rfl member hmember).property _
          ((hlookup _ _).mpr ⟨hx, rfl⟩)
        rwa [Valid] at hvalid
  · rintro ⟨members, rfl, hx⟩
    refine ⟨?_, by simp [RequiredHolds, requiredSet, chainKeywords], ?_, by simp⟩
    · rintro t ⟨⟩
      exact ⟨_, List.mem_singleton_self _, rfl⟩
    · rintro _ heq member hmember
      obtain rfl := Tree.dict.inj heq
      constructor
      · intro t ht
        obtain ⟨hname, rfl⟩ := (hlookup _ _).mp ht
        rw [Valid]
        exact hx member hmember hname
      · simp [chainKeywords, Keywords.patternRows]
      · simp [chainKeywords]

/-- Where every schema is such an object, a reference may mean the objects all the way
down. -/
theorem meaning_chain (hrows : ∀ row ∈ rows, ∃ ref, row.2 = chain ref) :
    Meaning (registryOf rows).resolve search fun _ _ => Chain := by
  intro document ref l hresolve i
  obtain ⟨-, hlookup⟩ := resolve_registryOf hresolve
  obtain ⟨next, hnext⟩ := hrows _ (mem_of_lookup hlookup)
  rw [Admits, hnext, valid_chain_iff]
  constructor
  · rintro ⟨hx⟩
    exact ⟨_, rfl, hx⟩
  · rintro ⟨members, rfl, hx⟩
    exact .dict hx

theorem guarded_chain (hrows : ∀ row ∈ rows, ∃ ref, row.2 = chain ref) :
    Guarded (registryOf rows).resolve := by
  refine guarded_of_targets fun document ref l hresolve => ?_
  obtain ⟨-, hlookup⟩ := resolve_registryOf hresolve
  obtain ⟨next, hnext⟩ := hrows _ (mem_of_lookup hlookup)
  obtain ⟨base, s⟩ := l
  obtain rfl : s = chain next := hnext
  refine ⟨_, fun applied happlied => ?_⟩
  rw [chain, chainKeywords] at happlied
  cases happlied with
  | oneOf hbranches => simp at hbranches
  | anyOf hbranches => simp at hbranches
  | allOf hbranches => simp at hbranches

end Chains

theorem chainRows_chain : ∀ row ∈ chainRows, ∃ ref, row.2 = chain ref := by
  simp [chainRows, chain, chainKeywords]

theorem twoStepRows_chain : ∀ row ∈ twoStepRows, ∃ ref, row.2 = chain ref := by
  simp [twoStepRows, chain, chainKeywords]

def chainScope : NodeScope :=
  documentScope chainRows twoStepRows

/-- Where the comparison is after one reference on either side. -/
def steppedScope : NodeScope :=
  { chainScope with oldVisited := [text "#"], newVisited := [text "#/B"] }

section Run

variable {float : JsonRepr} {sameList : List Schema → List Schema → Bool}

theorem resolveNodePair_roots (pointer : Text) :
    resolveNodePair chainScope (chain (text "#")) (chain (text "#/B")) pointer =
      .inr (chainKeywords (text "#"), chainKeywords (text "#/B"), chainScope) := rfl

theorem resolveNodePair_step (pointer : Text) :
    resolveNodePair chainScope (.ref (text "#")) (.ref (text "#/B")) pointer =
      .inr (chainKeywords (text "#"), chainKeywords (text "#"), steppedScope) := rfl

/-- The old side is back at its root, the new one comes to its root for the first time. -/
theorem resolveNodePair_cycle (pointer : Text) :
    resolveNodePair steppedScope (.ref (text "#")) (.ref (text "#")) pointer =
      .inl [steppedScope.emit pointer "cyclic_ref" .info .none .none .none] := rfl

theorem comparedChild_chain {ref ref' : Text} {s t : Schema}
    (hst : ComparedChild (chainKeywords ref) (chainKeywords ref') s t) :
    s = .ref ref ∧ t = .ref ref' := by
  cases hst with
  | property hs ht =>
      obtain ⟨-, rfl⟩ := Prod.mk.inj (List.mem_singleton.mp (mem_of_lookup hs))
      obtain ⟨-, rfl⟩ := Prod.mk.inj (List.mem_singleton.mp (mem_of_lookup ht))
      exact ⟨rfl, rfl⟩
  | pattern hs => simp [chainKeywords, Keywords.patternRows] at hs
  | additional hs => simp [chainKeywords] at hs
  | items hs => simp [chainKeywords] at hs
  | oneOf hl => simp [chainKeywords] at hl
  | anyOf hl => simp [chainKeywords] at hl
  | allOf hl => simp [chainKeywords] at hl

/-- The three pairs of schemas the run comes to. -/
inductive ChainVisit : List (Node × Node) → NodeScope → Schema → Schema → Prop where
  | roots : ChainVisit [] chainScope (chain (text "#")) (chain (text "#/B"))
  | step {trail : List (Node × Node)}
      (htrail : (([], chainKeywords (text "#")), ([], chainKeywords (text "#/B"))) ∈ trail) :
      ChainVisit trail chainScope (.ref (text "#")) (.ref (text "#/B"))
  | cycle {trail : List (Node × Node)}
      (htrail : (([], chainKeywords (text "#")), ([], chainKeywords (text "#/B"))) ∈ trail) :
      ChainVisit trail steppedScope (.ref (text "#")) (.ref (text "#"))

/-- Whatever the comparison visits is a pair of links of the two chains. -/
theorem visits_chain {levels : ℕ} {trail : List (Node × Node)} {scope : NodeScope}
    {s t : Schema} (hvisit : Visits chainScope (chain (text "#")) (chain (text "#/B")) levels
      trail scope s t) : ChainVisit trail scope s t := by
  induction hvisit with
  | root => exact .roots
  | child _ hresolve hchild ih =>
      cases ih with
      | roots =>
          rw [resolveNodePair_roots] at hresolve
          cases hresolve
          obtain ⟨rfl, rfl⟩ := comparedChild_chain hchild
          exact .step List.mem_cons_self
      | step htrail =>
          rw [resolveNodePair_step] at hresolve
          cases hresolve
          obtain ⟨rfl, rfl⟩ := comparedChild_chain hchild
          exact .cycle (List.mem_cons_of_mem _ htrail)
      | cycle =>
          rw [resolveNodePair_cycle] at hresolve
          cases hresolve

/-- The comparison of the two chains returns to a pair it has visited. -/
theorem cyclesInStep_chain :
    CyclesInStep chainScope (chain (text "#")) (chain (text "#/B")) := by
  intro levels trail scope s t hvisit ⟨pointer, hstops⟩
  cases visits_chain hvisit with
  | roots => rw [resolveNodePair_roots] at hstops; cases hstops
  | step => rw [resolveNodePair_step] at hstops; cases hstops
  | cycle htrail => exact ⟨_, htrail, .step rfl (.refl _), .step rfl (.refl _)⟩

theorem plainTuples_chain :
    PlainTuples sameList chainScope (chain (text "#")) (chain (text "#/B")) := by
  rintro n n' ⟨levels, trail, scope, s, t, pointer, resolved, hvisit, hresolve, -, -⟩ l m hl
  have hplain : ∀ {ref : Text}, n.2 = chainKeywords ref → False := by
    intro ref hn
    simp [hn, chainKeywords] at hl
  cases visits_chain hvisit with
  | roots =>
      rw [resolveNodePair_roots] at hresolve
      exact (hplain (Prod.mk.inj (Sum.inr.inj hresolve)).1.symm).elim
  | step =>
      rw [resolveNodePair_step] at hresolve
      exact (hplain (Prod.mk.inj (Sum.inr.inj hresolve)).1.symm).elim
  | cycle =>
      rw [resolveNodePair_cycle] at hresolve
      cases hresolve

theorem compareKeywords_chain {scope : NodeScope} {pointer ref ref' : Text}
    {recurse : Schema → Schema → Text → List Finding} :
    compareKeywords float sameList scope pointer recurse (chainKeywords ref)
        (chainKeywords ref') =
      recurse (.ref ref) (.ref ref') (pointer ++ text "/properties/" ++ text "x") := by
  simp [chainKeywords, compareKeywords, compareType, compareEnum, typeSet, enumSet,
    comparePattern, compareAdditionalProperties, closednessRank, compareMaxBounds,
    compareMinBounds, maxKeys, minKeys, compareRequired, requiredSet, compareProperties,
    comparePatternProperties, unionKeys, Keywords.propertyRows, Keywords.patternRows, sorted,
    compareItems, itemsDiffer, compareCombinator]

/-- The comparison of the two chains finds nothing. -/
theorem quiet_chain :
    Quiet (compareNode float sameList chainScope (chain (text "#")) (chain (text "#/B")) []) := by
  have hstop : ∀ {levels : ℕ} {pointer : Text},
      compareNodeWithin float sameList (levels + 1) steppedScope (.ref (text "#"))
          (.ref (text "#")) pointer =
        [steppedScope.emit pointer "cyclic_ref" .info .none .none .none] := rfl
  rw [compareNode, compareNodeWithin_inr (resolveNodePair_roots _), compareKeywords_chain,
    compareNodeWithin_inr (resolveNodePair_step _), compareKeywords_chain, hstop]
  simp [NodeScope.emit, handedOver]

end Run

/-- The theorem where the old document recurs in one step and the new one in two. -/
theorem recursiveSchemas_agree_twoStep :
    let search : Text → Text → Prop := fun p s => p = s
    let target : Text → Instance → Prop := fun _ => Chain
    let old := chain (text "#")
    let new := chain (text "#/B")
    let deep : Instance := .dict [(text "x", .dict [])]
    let broken : Instance := .dict [(text "x", .leaf .null)]
    (∀ i, Valid search target old i ↔ Valid search target new i) ∧
      Valid search target new deep ∧ ¬ Valid search target new broken := by
  intro search target old new deep broken
  refine ⟨fun i => ?_, ?_, ?_⟩
  · exact @recursiveSchemas_agree JsonRepr.fewestDigits (fun _ _ => true) chainScope old new []
      rfl quiet_chain cyclesInStep_chain plainTuples_chain (guarded_chain chainRows_chain) search
      _ _ (meaning_chain chainRows_chain) (meaning_chain twoStepRows_chain) i
  · refine valid_chain_iff.mpr ⟨_, rfl, fun member hmember _ => ?_⟩
    obtain rfl := List.mem_singleton.mp hmember
    exact .dict (by simp)
  · intro hvalid
    obtain ⟨members, heq, hx⟩ := valid_chain_iff.mp hvalid
    obtain rfl := Tree.dict.inj heq
    cases hx _ (List.mem_singleton_self _) rfl

end TraigentSchema.BreakingSchemaCheck
