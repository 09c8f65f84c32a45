import TraigentSchema.Draft7.Schema

/-!
# Recursive schemas

A reference admits what its target admits, and a schema that refers back to itself is
no exception.  So a meaning of the references is any predicate that satisfies this
equation.  Two object schemas in two sets of documents have the same instances when
they belong to a relation that is closed under comparing their keywords, wherever
references lead.
-/

namespace TraigentSchema.Draft7

open TraigentSchema.Unicode

/-! ## Documents -/

/-- A schema and the document its references are read in. -/
abbrev Located := Text × Schema

/-- The target of a reference, if there is one. -/
abbrev Resolver := (document ref : Text) → Option Located

section Meaning

variable (resolve : Resolver) (search : Text → Text → Prop)
  (target : Text → Text → Instance → Prop)

/-- The instances of a schema in its document. -/
def Admits (l : Located) (i : Instance) : Prop :=
  Valid search (target l.1) l.2 i

/-- A reference admits what its target admits. -/
def Meaning : Prop :=
  ∀ document ref l, resolve document ref = some l → ∀ i,
    target document ref i ↔ Admits search target l i

/-- Following references, one after the other, leads from one schema to the other. -/
inductive Leads : Located → Located → Prop where
  | refl (l : Located) : Leads l l
  | step {document ref : Text} {next l : Located} (hresolve : resolve document ref = some next)
      (hnext : Leads next l) : Leads (document, .ref ref) l

/-- The schemas that a schema applies to the instance itself. -/
inductive InPlace : (applied outer : Located) → Prop where
  | target {document ref : Text} {l : Located} (hresolve : resolve document ref = some l) :
      InPlace l (document, .ref ref)
  | oneOf {document : Text} {k : Keywords Schema} {branches : List Schema} {s : Schema}
      (hbranches : k.oneOf = some branches) (hs : s ∈ branches) :
      InPlace (document, s) (document, .object k)
  | anyOf {document : Text} {k : Keywords Schema} {branches : List Schema} {s : Schema}
      (hbranches : k.anyOf = some branches) (hs : s ∈ branches) :
      InPlace (document, s) (document, .object k)
  | allOf {document : Text} {k : Keywords Schema} {branches : List Schema} {s : Schema}
      (hbranches : k.allOf = some branches) (hs : s ∈ branches) :
      InPlace (document, s) (document, .object k)

/-- No schema applies itself to the same instance again. -/
def Guarded : Prop :=
  WellFounded (InPlace resolve)

variable {resolve search target}

theorem Leads.admits_iff (hmeaning : Meaning resolve search target) {l l' : Located}
    (hleads : Leads resolve l l') (i : Instance) :
    Admits search target l i ↔ Admits search target l' i := by
  induction hleads with
  | refl => rfl
  | step hresolve _ ih =>
      rw [← ih, ← hmeaning _ _ _ hresolve, Admits, Valid]

end Meaning

/-- A schema without references. -/
inductive RefFree : Schema → Prop where
  | bool (b : Bool) : RefFree (.bool b)
  | object {k : Keywords Schema} (hchild : ∀ s, Schema.Child k s → RefFree s) :
      RefFree (.object k)

/-! ## Keyword by keyword -/

namespace Keywords

variable (search : Text → Text → Prop) (admits : Schema → Instance → Prop)

/-- A member of an object is as the schema describes it. -/
structure DescribesMember (k : Keywords Schema) (member : Text × Instance) : Prop where
  property : ∀ s, k.propertyRows.lookup member.1 = some s → admits s member.2
  pattern : ∀ p s, k.patternRows.lookup p = some s → search p member.1 → admits s member.2
  additional : k.Undeclared search member.1 →
    ∀ s, k.additionalProperties = some s → admits s member.2

/-- The elements of an array are as the schema describes them. -/
structure DescribesItems (k : Keywords Schema) (items : List Instance) : Prop where
  each : ∀ s, k.items = some (.inl s) → ∀ item ∈ items, admits s item
  positions : ∀ l, k.items = some (.inr l) → ∀ (n : ℕ) s, l[n]? = some s →
    ∀ item, items[n]? = some item → admits s item

/-- The instance is admitted by one branch and no other. -/
def OneBranch (branches : List Schema) (i : Instance) : Prop :=
  ∃ (n : ℕ) (s : _), branches[n]? = some s ∧ admits s i ∧
    ∀ (m : ℕ) t, branches[m]? = some t → m ≠ n → ¬ admits t i

/-- The branches of the combinators admit the instance. -/
structure Combines (k : Keywords Schema) (i : Instance) : Prop where
  oneOf : ∀ l, k.oneOf = some l → OneBranch admits l i
  anyOf : ∀ l, k.anyOf = some l → ∃ s ∈ l, admits s i
  allOf : ∀ l, k.allOf = some l → ∀ s ∈ l, admits s i

end Keywords

/-- What an object schema demands of an instance. -/
theorem valid_object {search : Text → Text → Prop} {target : Text → Instance → Prop}
    {k : Keywords Schema} {i : Instance} :
    Valid search target (.object k) i ↔
      k.Holds search i ∧
      (∀ members, i = .dict members → ∀ member ∈ members,
        k.DescribesMember search (Valid search target) member) ∧
      (∀ items, i = .list items → k.DescribesItems (Valid search target) items) ∧
      k.Combines (Valid search target) i := by
  rw [Valid]
  refine and_congr_right' (and_congr ?_ (and_congr ?_ ?_))
  · constructor
    · intro hmembers members hi member hmember
      obtain ⟨hproperty, hpattern, hadditional⟩ := hmembers members hi member hmember
      exact ⟨hproperty, hpattern, hadditional⟩
    · intro hmembers members hi member hmember
      have h := hmembers members hi member hmember
      exact ⟨h.property, h.pattern, h.additional⟩
  · constructor
    · exact fun hitems items hi => ⟨(hitems items hi).1, (hitems items hi).2⟩
    · exact fun hitems items hi => ⟨(hitems items hi).each, (hitems items hi).positions⟩
  · simp only [exists_prop]
    constructor
    · rintro ⟨honeOf, hanyOf, hallOf⟩
      exact ⟨honeOf, hanyOf, hallOf⟩
    · exact fun h => ⟨h.oneOf, h.anyOf, h.allOf⟩

/-! ## Schemas that say the same -/

section Related

variable {A B : Type} {rel : A → B → Prop} {a : Option A} {b : Option B} {P : A → Prop}
  {Q : B → Prop}

theorem forall_some_iff (hab : Option.Rel rel a b) (hpq : ∀ x y, rel x y → (P x ↔ Q y)) :
    (∀ x, a = some x → P x) ↔ ∀ y, b = some y → Q y := by
  cases hab with
  | none => simp
  | some hxy => simpa using hpq _ _ hxy

theorem exists_some_iff (hab : Option.Rel rel a b) (hpq : ∀ x y, rel x y → (P x ↔ Q y)) :
    (∃ x, a = some x ∧ P x) ↔ ∃ y, b = some y ∧ Q y := by
  cases hab with
  | none => simp
  | some hxy => simpa using hpq _ _ hxy

theorem forall₂_getElem? {l : List A} {m : List B} (hlm : List.Forall₂ rel l m) (n : ℕ) :
    Option.Rel rel l[n]? m[n]? := by
  induction hlm generalizing n with
  | nil => exact Option.Rel.none
  | cons hhead _ ih =>
      cases n with
      | zero => simpa using Option.Rel.some hhead
      | succ n => simpa using ih n

theorem forall_mem_congr {l : List A} {m : List B} (hlm : List.Forall₂ rel l m)
    (hpq : ∀ x y, rel x y → (P x ↔ Q y)) : (∀ x ∈ l, P x) ↔ ∀ y ∈ m, Q y := by
  induction hlm with
  | nil => simp
  | cons hhead _ ih => simp only [List.forall_mem_cons, hpq _ _ hhead, ih]

theorem exists_mem_congr {l : List A} {m : List B} (hlm : List.Forall₂ rel l m)
    (hpq : ∀ x y, rel x y → (P x ↔ Q y)) : (∃ x ∈ l, P x) ↔ ∃ y ∈ m, Q y := by
  induction hlm with
  | nil => simp
  | cons hhead _ ih => simp only [List.exists_mem_cons_iff, hpq _ _ hhead, ih]

end Related

namespace Keywords

/-- What is said of the members no declaration mentions. -/
def additionalSchema (k : Keywords Schema) : Schema :=
  k.additionalProperties.getD (.bool true)

/-- Two object schemas that say the same, up to a relation of their subschemas. -/
structure Agrees (search : Text → Text → Prop) (rel : Schema → Schema → Prop)
    (old new : Keywords Schema) : Prop where
  holds : ∀ i, old.Holds search i ↔ new.Holds search i
  property : ∀ name, Option.Rel rel (old.propertyRows.lookup name) (new.propertyRows.lookup name)
  pattern : ∀ p, Option.Rel rel (old.patternRows.lookup p) (new.patternRows.lookup p)
  additional : rel old.additionalSchema new.additionalSchema
  items : Option.Rel (Sum.LiftRel rel (List.Forall₂ rel)) old.items new.items
  oneOf : Option.Rel (List.Forall₂ rel) old.oneOf new.oneOf
  anyOf : Option.Rel (List.Forall₂ rel) old.anyOf new.anyOf
  allOf : List.Forall₂ rel (old.allOf.getD []) (new.allOf.getD [])

/-- A schema applied to the instance itself. -/
inductive Branch (k : Keywords Schema) (s : Schema) : Prop where
  | oneOf {l : List Schema} (hl : k.oneOf = some l) (hs : s ∈ l)
  | anyOf {l : List Schema} (hl : k.anyOf = some l) (hs : s ∈ l)
  | allOf {l : List Schema} (hl : k.allOf = some l) (hs : s ∈ l)

variable {search : Text → Text → Prop} {rel : Schema → Schema → Prop}
  {old new : Keywords Schema} {admits admits' : Schema → Instance → Prop}

theorem Agrees.undeclared_iff (hagrees : Agrees search rel old new) (name : Text) :
    old.Undeclared search name ↔ new.Undeclared search name := by
  refine and_congr ?_ (forall_congr' fun p => ?_)
  · have hproperty := hagrees.property name
    generalize old.propertyRows.lookup name = a at hproperty ⊢
    generalize new.propertyRows.lookup name = b at hproperty ⊢
    cases hproperty <;> simp
  · exact forall_some_iff (hagrees.pattern p) fun _ _ _ => Iff.rfl

theorem Agrees.describesMember_iff (hagrees : Agrees search rel old new)
    {member : Text × Instance} (hadmits : ∀ s t, rel s t → (admits s member.2 ↔ admits' t member.2))
    (htrue : admits (.bool true) member.2) (htrue' : admits' (.bool true) member.2) :
    old.DescribesMember search admits member ↔ new.DescribesMember search admits' member := by
  have hproperty := forall_some_iff (hagrees.property member.1) hadmits
  have hpattern : ∀ p,
      (∀ s, old.patternRows.lookup p = some s → search p member.1 → admits s member.2) ↔
        ∀ s, new.patternRows.lookup p = some s → search p member.1 → admits' s member.2 :=
    fun p => forall_some_iff (hagrees.pattern p) fun s t hst => imp_congr_right fun _ =>
      hadmits s t hst
  have hadditional : ∀ {admits : Schema → Instance → Prop} {k : Keywords Schema},
      admits (.bool true) member.2 →
      ((∀ s, k.additionalProperties = some s → admits s member.2) ↔
        admits k.additionalSchema member.2) := by
    intro admits k htrue
    unfold additionalSchema
    cases k.additionalProperties <;> simp [htrue]
  have hundeclared := hagrees.undeclared_iff member.1
  have hsame := hadmits _ _ hagrees.additional
  constructor
  · rintro ⟨hp, hq, ha⟩
    refine ⟨hproperty.mp hp, fun p => (hpattern p).mp (hq p), fun hname => ?_⟩
    exact (hadditional htrue').mpr (hsame.mp ((hadditional htrue).mp (ha (hundeclared.mpr hname))))
  · rintro ⟨hp, hq, ha⟩
    refine ⟨hproperty.mpr hp, fun p => (hpattern p).mpr (hq p), fun hname => ?_⟩
    exact (hadditional htrue).mpr (hsame.mpr ((hadditional htrue').mp (ha (hundeclared.mp hname))))

theorem Agrees.describesItems_iff (hagrees : Agrees search rel old new) {items : List Instance}
    (hadmits : ∀ item ∈ items, ∀ s t, rel s t → (admits s item ↔ admits' t item)) :
    old.DescribesItems admits items ↔ new.DescribesItems admits' items := by
  have hitems := hagrees.items
  have hiff : ∀ {admits : Schema → Instance → Prop} {k : Keywords Schema},
      k.DescribesItems admits items ↔
        (∀ s, k.items = some (.inl s) → ∀ item ∈ items, admits s item) ∧
        ∀ l, k.items = some (.inr l) → ∀ (n : ℕ) s, l[n]? = some s →
          ∀ item, items[n]? = some item → admits s item :=
    fun {_ _} => ⟨fun h => ⟨h.each, h.positions⟩, fun h => ⟨h.1, h.2⟩⟩
  rw [hiff, hiff]
  generalize old.items = a at hitems ⊢
  generalize new.items = b at hitems ⊢
  cases hitems with
  | none => simp
  | some hsum =>
      cases hsum with
      | inl hst =>
          simpa using forall₂_congr fun item hitem => hadmits item hitem _ _ hst
      | inr hlists =>
          simp only [Option.some.injEq, reduceCtorEq, false_imp_iff, implies_true, true_and,
            Sum.inr.injEq, forall_eq']
          refine forall_congr' fun n => forall_some_iff (forall₂_getElem? hlists n)
            fun s t hst => forall₂_congr fun item hitem => ?_
          exact hadmits item (List.mem_of_getElem? hitem) s t hst

theorem oneBranch_iff {l m : List Schema} (hlm : List.Forall₂ rel l m) {i : Instance}
    (hadmits : ∀ s t, rel s t → (admits s i ↔ admits' t i)) :
    OneBranch admits l i ↔ OneBranch admits' m i := by
  have hothers : ∀ n,
      (∀ (m' : ℕ) t, l[m']? = some t → m' ≠ n → ¬ admits t i) ↔
        ∀ (m' : ℕ) t, m[m']? = some t → m' ≠ n → ¬ admits' t i :=
    fun n => forall_congr' fun m' => forall_some_iff (forall₂_getElem? hlm m')
      fun s t hst => imp_congr_right fun _ => not_congr (hadmits s t hst)
  refine exists_congr fun n => exists_some_iff (forall₂_getElem? hlm n) fun s t hst => ?_
  exact and_congr (hadmits s t hst) (hothers n)

theorem Agrees.combines_iff (hagrees : Agrees search rel old new) {i : Instance}
    (hadmits : ∀ s t, old.Branch s → rel s t → (admits s i ↔ admits' t i)) :
    old.Combines admits i ↔ new.Combines admits' i := by
  have hiff : ∀ {admits : Schema → Instance → Prop} {k : Keywords Schema},
      k.Combines admits i ↔
        (∀ l, k.oneOf = some l → OneBranch admits l i) ∧
        (∀ l, k.anyOf = some l → ∃ s ∈ l, admits s i) ∧ ∀ s ∈ k.allOf.getD [], admits s i := by
    intro admits k
    have hallOf : (∀ l, k.allOf = some l → ∀ s ∈ l, admits s i) ↔
        ∀ s ∈ k.allOf.getD [], admits s i := by
      cases k.allOf <;> simp
    exact ⟨fun h => ⟨h.oneOf, h.anyOf, hallOf.mp h.allOf⟩,
      fun h => ⟨h.1, h.2.1, hallOf.mpr h.2.2⟩⟩
  -- the branches of the old side are related with the knowledge that they are branches
  have hlists : ∀ {l m : List Schema}, List.Forall₂ rel l m → (∀ s ∈ l, old.Branch s) →
      List.Forall₂ (fun s t => old.Branch s ∧ rel s t) l m :=
    fun hlm hbranch => (List.forall₂_and_left _ _).mpr ⟨hbranch, hlm⟩
  have hadmits' : ∀ s t, old.Branch s ∧ rel s t → (admits s i ↔ admits' t i) :=
    fun s t hst => hadmits s t hst.1 hst.2
  rw [hiff, hiff]
  refine and_congr ?_ (and_congr ?_ ?_)
  · have honeOf := hagrees.oneOf
    have hbranch : ∀ l, old.oneOf = some l → ∀ s ∈ l, old.Branch s := fun l hl s hs => .oneOf hl hs
    generalize old.oneOf = a at honeOf hbranch ⊢
    generalize new.oneOf = b at honeOf ⊢
    cases honeOf with
    | none => simp
    | some hlm => simpa using oneBranch_iff (hlists hlm (hbranch _ rfl)) hadmits'
  · have hanyOf := hagrees.anyOf
    have hbranch : ∀ l, old.anyOf = some l → ∀ s ∈ l, old.Branch s := fun l hl s hs => .anyOf hl hs
    generalize old.anyOf = a at hanyOf hbranch ⊢
    generalize new.anyOf = b at hanyOf ⊢
    cases hanyOf with
    | none => simp
    | some hlm => simpa using exists_mem_congr (hlists hlm (hbranch _ rfl)) hadmits'
  · refine forall_mem_congr (hlists hagrees.allOf fun s hs => ?_) hadmits'
    cases hallOf : old.allOf with
    | none => simp [hallOf] at hs
    | some l => exact .allOf hallOf (by simpa [hallOf] using hs)

variable {target target' : Text → Instance → Prop}

/-- Schemas that agree have the same instances, when their subschemas have the same
members, elements and, for the branches, the instance itself. -/
theorem Agrees.valid_iff (hagrees : Agrees search rel old new) {i : Instance}
    (hmembers : ∀ members, i = .dict members → ∀ member ∈ members, ∀ s t, rel s t →
      (Valid search target s member.2 ↔ Valid search target' t member.2))
    (hitems : ∀ items, i = .list items → ∀ item ∈ items, ∀ s t, rel s t →
      (Valid search target s item ↔ Valid search target' t item))
    (hbranches : ∀ s t, old.Branch s → rel s t →
      (Valid search target s i ↔ Valid search target' t i)) :
    Valid search target (.object old) i ↔ Valid search target' (.object new) i := by
  rw [valid_object, valid_object]
  refine and_congr (hagrees.holds i) (and_congr ?_ (and_congr ?_ ?_))
  · refine forall₂_congr fun members hi => forall₂_congr fun member hmember => ?_
    refine hagrees.describesMember_iff (hmembers members hi member hmember) ?_ ?_ <;>
      rw [Valid]
  · exact forall₂_congr fun items hi => hagrees.describesItems_iff (hitems items hi)
  · exact hagrees.combines_iff hbranches

end Keywords

/-- A schema agrees with itself. -/
theorem Keywords.Agrees.refl {search : Text → Text → Prop} {rel : Schema → Schema → Prop}
    {k : Keywords Schema} (hchild : ∀ s, Schema.Child k s → rel s s)
    (htrue : rel (.bool true) (.bool true)) : k.Agrees search rel k := by
  have hrel : ∀ {a : Option Schema}, (∀ s, a = some s → rel s s) → Option.Rel rel a a := by
    intro a ha
    cases a with
    | none => exact .none
    | some s => exact .some (ha s rfl)
  have hlist : ∀ {l : List Schema}, (∀ s ∈ l, rel s s) → List.Forall₂ rel l l :=
    fun hl => List.forall₂_same.mpr hl
  have hlists : ∀ {a : Option (List Schema)}, (∀ l, a = some l → ∀ s ∈ l, rel s s) →
      Option.Rel (List.Forall₂ rel) a a := by
    intro a ha
    cases a with
    | none => exact .none
    | some l => exact .some (hlist (ha l rfl))
  constructor
  · exact fun _ => Iff.rfl
  · exact fun name => hrel fun s hs => hchild _ (.property (mem_of_lookup hs))
  · exact fun p => hrel fun s hs => hchild _ (.pattern (mem_of_lookup hs))
  · unfold additionalSchema
    cases hs : k.additionalProperties with
    | none => exact htrue
    | some s => exact hchild _ (.additional hs)
  · cases hitems : k.items with
    | none => exact .none
    | some items =>
        cases items with
        | inl s => exact .some (.inl (hchild _ (.item hitems)))
        | inr l => exact .some (.inr (hlist fun s hs => hchild _ (.position hitems hs)))
  · exact hlists fun l hl s hs => hchild _ (.oneOf hl hs)
  · exact hlists fun l hl s hs => hchild _ (.anyOf hl hs)
  · cases hl : k.allOf with
    | none => exact .nil
    | some l => exact hlist fun s hs => hchild _ (.allOf hl hs)

theorem Keywords.Branch.child {k : Keywords Schema} {s : Schema} (hs : k.Branch s) :
    Schema.Child k s := by
  cases hs with
  | oneOf hl hs => exact .oneOf hl hs
  | anyOf hl hs => exact .anyOf hl hs
  | allOf hl hs => exact .allOf hl hs

/-- Without references, the documents do not matter. -/
theorem RefFree.valid_iff {search : Text → Text → Prop}
    {target target' : Text → Instance → Prop} {s : Schema} (hs : RefFree s) (i : Instance) :
    Valid search target s i ↔ Valid search target' s i := by
  induction hs generalizing i with
  | bool b => rw [Valid, Valid]
  | @object k _ ih =>
      have hsame : ∀ s t, s = t ∧ (∀ i, Valid search target s i ↔ Valid search target' s i) →
          ∀ i, Valid search target s i ↔ Valid search target' t i := by
        rintro s _ ⟨rfl, hs⟩
        exact hs
      have hagrees : k.Agrees search
          (fun s t => s = t ∧ ∀ i, Valid search target s i ↔ Valid search target' s i) k :=
        .refl (fun s hs => ⟨rfl, ih s hs⟩) ⟨rfl, fun i => by rw [Valid, Valid]⟩
      exact hagrees.valid_iff (fun _ _ _ _ s t hst => hsame s t hst _)
        (fun _ _ _ _ s t hst => hsame s t hst _) fun s t _ hst => hsame s t hst i

/-- It is enough that the targets of references do not apply themselves again. -/
theorem guarded_of_targets {resolve : Resolver}
    (htargets : ∀ document ref l, resolve document ref = some l → Acc (InPlace resolve) l) :
    Guarded resolve := by
  have hsize : ∀ (n : ℕ) (s : Schema) (document : Text), sizeOf s < n →
      Acc (InPlace resolve) (document, s) := by
    intro n
    induction n with
    | zero => exact fun s _ hs => absurd hs (Nat.not_lt_zero _)
    | succ n ih =>
        refine fun s document hs => ⟨_, fun applied happlied => ?_⟩
        have hbranch : ∀ {k : Keywords Schema} {t : Schema}, s = .object k → Schema.Child k t →
            Acc (InPlace resolve) (document, t) := by
          rintro k t rfl ht
          exact ih t document (ht.sizeOf_lt.trans_le (Nat.lt_succ_iff.mp hs))
        cases happlied with
        | target hresolve => exact htargets _ _ _ hresolve
        | oneOf hbranches ht => exact hbranch rfl (.oneOf hbranches ht)
        | anyOf hbranches ht => exact hbranch rfl (.anyOf hbranches ht)
        | allOf hbranches ht => exact hbranch rfl (.allOf hbranches ht)
  exact ⟨fun l => hsize _ l.2 l.1 (Nat.lt_succ_self _)⟩

/-! ## Relations closed under comparison -/

/-- An object schema in its document. -/
abbrev Node := Text × Keywords Schema

section Bisimulation

variable (resolve resolve' : Resolver) (search : Text → Text → Prop)

/-- References lead to the same schema without references, or to related nodes. -/
inductive Related (nodes : Node → Node → Prop) (l l' : Located) : Prop where
  | same {document document' : Text} {s : Schema} (hl : Leads resolve l (document, s))
      (hl' : Leads resolve' l' (document', s)) (hs : RefFree s)
  | nodes {n n' : Node} (hl : Leads resolve l (n.1, .object n.2))
      (hl' : Leads resolve' l' (n'.1, .object n'.2)) (hnodes : nodes n n')

/-- Related nodes agree, and so do the nodes their subschemas lead to. -/
def Bisimulation (nodes : Node → Node → Prop) : Prop :=
  ∀ n n', nodes n n' → n.2.Agrees search
    (fun s t => Related resolve resolve' nodes (n.1, s) (n'.1, t)) n'.2

variable {resolve resolve' search} {nodes : Node → Node → Prop}
  {target target' : Text → Text → Instance → Prop}

theorem Keywords.Branch.inPlace {n : Node} {s : Schema} (hs : n.2.Branch s) :
    InPlace resolve (n.1, s) (n.1, .object n.2) := by
  cases hs with
  | oneOf hl hs => exact .oneOf hl hs
  | anyOf hl hs => exact .anyOf hl hs
  | allOf hl hs => exact .allOf hl hs

/-- One instance, when the instances inside it are settled.  The induction is on the
schemas applied to the instance itself. -/
theorem Bisimulation.admits_iff_of_inside (hnodes : Bisimulation resolve resolve' search nodes)
    (hguarded : Guarded resolve) (hmeaning : Meaning resolve search target)
    (hmeaning' : Meaning resolve' search target') {i : Instance}
    (hmembers : ∀ members, i = .dict members → ∀ member ∈ members, ∀ l l',
      Related resolve resolve' nodes l l' →
        (Admits search target l member.2 ↔ Admits search target' l' member.2))
    (hitems : ∀ items, i = .list items → ∀ item ∈ items, ∀ l l',
      Related resolve resolve' nodes l l' →
        (Admits search target l item ↔ Admits search target' l' item))
    {l l' : Located} (hrelated : Related resolve resolve' nodes l l') :
    Admits search target l i ↔ Admits search target' l' i := by
  induction l using hguarded.induction generalizing l' with
  | h l ih =>
      cases hrelated with
      | same hl hl' hs =>
          rw [hl.admits_iff hmeaning, hl'.admits_iff hmeaning']
          exact hs.valid_iff i
      | @nodes n n' hl hl' hn =>
          rw [hl'.admits_iff hmeaning']
          cases hl with
          | refl =>
              refine (hnodes n n' hn).valid_iff ?_ ?_ ?_
              · exact fun members hi member hmember s t hst =>
                  hmembers members hi member hmember _ _ hst
              · exact fun items hi item hitem s t hst => hitems items hi item hitem _ _ hst
              · exact fun s t hs hst => ih _ hs.inPlace hst
          | @step document ref next _ hresolve hnext =>
              rw [(Leads.step hresolve (.refl next)).admits_iff hmeaning]
              exact ih next (.target hresolve) (.nodes hnext (.refl _) hn)

/-- Related schemas have the same instances, whatever the references mean. -/
theorem Bisimulation.admits_iff (hnodes : Bisimulation resolve resolve' search nodes)
    (hguarded : Guarded resolve) (hmeaning : Meaning resolve search target)
    (hmeaning' : Meaning resolve' search target') {l l' : Located}
    (hrelated : Related resolve resolve' nodes l l') (i : Instance) :
    Admits search target l i ↔ Admits search target' l' i := by
  induction i using Tree.induct generalizing l l' with
  | leaf x =>
      exact hnodes.admits_iff_of_inside hguarded hmeaning hmeaning' (by simp) (by simp) hrelated
  | list items ih =>
      refine hnodes.admits_iff_of_inside hguarded hmeaning hmeaning' (by simp) ?_ hrelated
      rintro _ heq item hitem l l' hll'
      obtain rfl := Tree.list.inj heq
      exact ih item hitem hll'
  | dict members ih =>
      refine hnodes.admits_iff_of_inside hguarded hmeaning hmeaning' ?_ (by simp) hrelated
      rintro _ heq member hmember l l' hll'
      obtain rfl := Tree.dict.inj heq
      exact ih member hmember hll'

end Bisimulation

end TraigentSchema.Draft7
