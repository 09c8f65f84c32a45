import TraigentSchema.Python.HeapWalk

/-!
# Prevalidation of compared subtrees

Before two subtrees of a payload are compared each of them is walked as a whole.  The walk
admits exact JSON values only, bounds the nesting, rejects a container that reaches itself,
and reserves every container's children from a budget before it visits them.
-/

namespace TraigentSchema.Invariants

open TraigentSchema.Python
open TraigentSchema.Traverse
open TraigentSchema.VariantLoop

/-- The exceptions of the module. -/
inductive Raised where
  | declaration (message : String)
  | comparisonBound (message : String)
  | noncanonicalPayload (message : String)
  deriving DecidableEq, Repr

/-- One of the two exceptions of a comparison that was refused. -/
def Raised.IsRefusal : Raised → Prop
  | .declaration _ => False
  | .comparisonBound _ => True
  | .noncanonicalPayload _ => True

def maxComparisonDepth : ℕ := 100

def maxComparisonNodes : ℕ := 100000

/-- `_is_canonical_scalar`, for what is not a container. -/
def isCanonicalScalar : Atom → Except Raised Unit
  | .none => .ok ()
  | .bool _ => .ok ()
  | .str _ => .ok ()
  | .int _ => .ok ()
  | .float (.finite _ _) => .ok ()
  | .float _ => .error (.noncanonicalPayload "a compared subtree contains a non-finite float")
  | .foreign _ => .error (.noncanonicalPayload
      "a compared subtree contains a value that is not an exact JSON built-in type")

def JudgedAtom : Atom → Prop
  | .float (.finite _ _) => True
  | .float _ => False
  | .foreign _ => False
  | _ => True

/-- The key is exactly a `str`. -/
def StrKey : Key → Prop
  | .str _ => True
  | .foreign _ => False

instance : DecidablePred StrKey
  | .str _ => inferInstanceAs (Decidable True)
  | .foreign _ => inferInstanceAs (Decidable False)

theorem isCanonicalScalar_eq_ok_iff {x : Atom} :
    isCanonicalScalar x = .ok () ↔ JudgedAtom x := by
  cases x with
  | float value => cases value <;> simp [isCanonicalScalar, JudgedAtom]
  | _ => simp [isCanonicalScalar, JudgedAtom]

section Walk

variable {A : Type}

/-- The children of a container in the order of the visits, the last one first. -/
def pushCanonicalChildren (node : Node A) : Except Raised (List (Ref A × Unit)) :=
  match node with
  | .list items => .ok (items.reverse.map fun item => (item, ()))
  | .dict members =>
      if ∀ member ∈ members.items, StrKey member.1 then
        .ok ((members.items.map Prod.snd).reverse.map fun item => (item, ()))
      else .error (.noncanonicalPayload
        "a compared subtree contains an object key that is not a plain string")

theorem pushCanonicalChildren_perm {node : Node A} {children : List (Ref A × Unit)}
    (hchildren : pushCanonicalChildren node = .ok children) :
    (children.map Prod.fst).Perm node.children := by
  cases node with
  | list items =>
      obtain rfl := Except.ok.inj hchildren
      rw [List.map_map]
      simp [Node.children, Function.comp_def]
  | dict members =>
      simp only [pushCanonicalChildren] at hchildren
      split_ifs at hchildren
      obtain rfl := Except.ok.inj hchildren
      rw [List.map_map]
      simp [Node.children, Function.comp_def]

theorem pushCanonicalChildren_ok_iff {node : Node A} :
    (∃ children, pushCanonicalChildren node = .ok children) ↔ node.KeysOk StrKey := by
  cases node with
  | list items => simp [pushCanonicalChildren, Node.KeysOk]
  | dict members =>
      simp only [pushCanonicalChildren, Node.KeysOk]
      split_ifs with hkeys
      · exact iff_of_true ⟨_, rfl⟩ hkeys
      · exact iff_of_false (by simp) hkeys

/-- The walk without its budget. -/
def canonicalWalker : Walker A Unit Raised where
  limit := maxComparisonDepth
  leaf _ x := isCanonicalScalar x
  enter _ node := pushCanonicalChildren node
  tooDeep _ := .comparisonBound "invariant comparison exceeded the maximum nesting depth"
  circular _ := .comparisonBound "invariant comparison found a circular reference"
  enter_perm := pushCanonicalChildren_perm

variable [DecidableEq A]

structure PrevalidationState (A : Type) where
  openIds : Finset A
  remaining : ℕ
  /-- The next entry first. -/
  work : List (Visit A Unit)

/-- `_reserve_container`: the budget that is left. -/
def reserveContainer (h : Heap A) (identity : A) (depth : ℕ) (openIds : Finset A)
    (remaining : ℕ) : Except Raised ℕ :=
  if maxComparisonDepth < depth then
    .error (.comparisonBound "invariant comparison exceeded the maximum nesting depth")
  else if identity ∈ openIds then
    .error (.comparisonBound "invariant comparison found a circular reference")
  else
    let size := (h identity).children.length
    if remaining < size then
      .error (.comparisonBound
        "invariant comparison exceeded the maximum number of discovered nodes")
    else .ok (remaining - size)

/-- One iteration of the loop of `_prevalidate_canonical`. -/
def prevalidateStep (h : Heap A) (s : PrevalidationState A) :
    Except Raised (PrevalidationState A ⊕ Unit) :=
  match s.work with
  | [] => .ok (.inr ())
  | .close identity :: work =>
      .ok (.inl { s with openIds := s.openIds.erase identity, work := work })
  | .value (.atom x) _ _ :: work => do
      isCanonicalScalar x
      return .inl { s with work := work }
  | .value (.node identity) depth _ :: work => do
      let remaining ← reserveContainer h identity depth s.openIds s.remaining
      let children ← pushCanonicalChildren (h identity)
      return .inl
        { openIds := insert identity s.openIds
          remaining := remaining
          work := childVisits children depth ++ .close identity :: work }

theorem reserveContainer_eq_ok_iff {h : Heap A} {identity : A} {depth remaining left : ℕ}
    {openIds : Finset A} :
    reserveContainer h identity depth openIds remaining = .ok left ↔
      ¬ maxComparisonDepth < depth ∧ identity ∉ openIds ∧
        (h identity).children.length ≤ remaining ∧
        left = remaining - (h identity).children.length := by
  unfold reserveContainer
  split_ifs with hdepth hopen
  · simp [hdepth]
  · simp [hopen]
  · dsimp only
    split_ifs with hsize
    · simp [Nat.not_le.mpr hsize]
    · simp [hdepth, hopen, Nat.not_lt.mp hsize, eq_comm]

/-- Without its budget a step is one of the plain walk. -/
theorem walkStep_of_prevalidateStep {h : Heap A} {s s' : PrevalidationState A}
    (hstep : prevalidateStep h s = .ok (.inl s')) :
    walkStep canonicalWalker h ⟨s.openIds, s.work⟩ = .ok (.inl ⟨s'.openIds, s'.work⟩) := by
  obtain ⟨openIds, remaining, work⟩ := s
  cases work with
  | nil => simp [prevalidateStep] at hstep
  | cons visit work =>
      cases visit with
      | close identity =>
          simp only [prevalidateStep, Except.ok.injEq, Sum.inl.injEq] at hstep
          subst hstep
          rfl
      | value payload depth context =>
          cases payload with
          | atom x =>
              simp only [prevalidateStep, bind_eq_ok_iff, pure_eq_ok, Except.ok.injEq,
                Sum.inl.injEq] at hstep
              obtain ⟨_, hscalar, rfl⟩ := hstep
              simp only [walkStep, canonicalWalker, hscalar, ok_bind, pure_eq_ok]
          | node identity =>
              simp only [prevalidateStep, bind_eq_ok_iff, pure_eq_ok, Except.ok.injEq,
                Sum.inl.injEq, reserveContainer_eq_ok_iff] at hstep
              obtain ⟨left, ⟨hdepth, hopen, -, -⟩, children, hchildren, rfl⟩ := hstep
              simp [walkStep, canonicalWalker, hdepth, hopen, hchildren]

def prevalidateLoop (h : Heap A) : Loop (PrevalidationState A) Raised Unit where
  step := prevalidateStep h
  variant s := visitsCost canonicalWalker h s.work
  decreases hstep := walkStep_decreases (walkStep_of_prevalidateStep hstep)

/-- `_prevalidate_canonical`; the root itself counts as one node. -/
def prevalidateCanonical (h : Heap A) (root : Ref A) : Except Raised Unit :=
  run (prevalidateLoop h)
    { openIds := ∅, remaining := maxComparisonNodes - 1, work := [.value root 1 ()] }

/-! ## What the walk accepts -/

omit [DecidableEq A] in
/-- How much of the budget a subtree takes, within `n` containers. -/
def weight (h : Heap A) : (n : ℕ) → Ref A → ℕ
  | _, .atom _ => 0
  | 0, .node _ => 0
  | n + 1, .node a =>
      (h a).children.length + ((h a).children.map (weight h n)).sum

section Correct

variable {h : Heap A} {openIds : Finset A} {remaining : ℕ} {work : List (Visit A Unit)}

variable (h) in
/-- The rest of the walk succeeds from a state. -/
def Accepts (openIds : Finset A) (remaining : ℕ) (work : List (Visit A Unit)) : Prop :=
  run (prevalidateLoop h) ⟨openIds, remaining, work⟩ = .ok ()

theorem accepts_nil : Accepts h openIds remaining [] :=
  run_of_exit (prevalidateLoop h) rfl

theorem accepts_of_step {openIds' : Finset A} {remaining' : ℕ} {work' : List (Visit A Unit)}
    (hstep : prevalidateStep h ⟨openIds, remaining, work⟩ =
      .ok (.inl ⟨openIds', remaining', work'⟩)) :
    Accepts h openIds remaining work ↔ Accepts h openIds' remaining' work' := by
  rw [Accepts, run_of_step (prevalidateLoop h) hstep, Accepts]

theorem not_accepts_of_error {e : Raised}
    (hstep : prevalidateStep h ⟨openIds, remaining, work⟩ = .error e) :
    ¬ Accepts h openIds remaining work := by
  rw [Accepts, run_of_error (prevalidateLoop h) hstep]
  simp

theorem accepts_atom {x : Atom} {depth : ℕ} {u : Unit} :
    Accepts h openIds remaining (.value (.atom x) depth u :: work) ↔
      JudgedAtom x ∧ Accepts h openIds remaining work := by
  by_cases hx : JudgedAtom x
  · have hscalar := isCanonicalScalar_eq_ok_iff.mpr hx
    have hstep : prevalidateStep h ⟨openIds, remaining, .value (.atom x) depth u :: work⟩ =
        .ok (.inl ⟨openIds, remaining, work⟩) := by
      simp only [prevalidateStep, hscalar, ok_bind, pure_eq_ok]
    simp [accepts_of_step hstep, hx]
  · cases hscalar : isCanonicalScalar x with
    | ok done => exact absurd (isCanonicalScalar_eq_ok_iff.mp hscalar) hx
    | error e =>
        have hstep : prevalidateStep h
            ⟨openIds, remaining, .value (.atom x) depth u :: work⟩ = .error e := by
          simp only [prevalidateStep, hscalar, error_bind]
        simp [hx, not_accepts_of_error hstep]

/-- The budget for several subtrees is the sum of theirs, whatever their order. -/
theorem accepts_childVisits {n depth : ℕ} {children : List (Ref A × Unit)}
    (hvalue : ∀ child ∈ children, ∀ remaining work,
      Accepts h openIds remaining (.value child.1 (depth + 1) child.2 :: work) ↔
        AdmitsWithin h JudgedAtom StrKey n child.1 ∧ weight h n child.1 ≤ remaining ∧
          Accepts h openIds (remaining - weight h n child.1) work) :
    Accepts h openIds remaining (childVisits children depth ++ work) ↔
      (∀ child ∈ children, AdmitsWithin h JudgedAtom StrKey n child.1) ∧
        (children.map fun child => weight h n child.1).sum ≤ remaining ∧
        Accepts h openIds (remaining - (children.map fun child => weight h n child.1).sum)
          work := by
  induction children generalizing remaining with
  | nil => simp [childVisits]
  | cons child children ih =>
      have hrest := @ih (remaining - weight h n child.1)
        fun c hc => hvalue c (List.mem_cons_of_mem _ hc)
      rw [childVisits, List.map_cons, List.cons_append, hvalue child List.mem_cons_self,
        ← childVisits, hrest, List.map_cons, List.sum_cons, List.forall_mem_cons,
        ← Nat.sub_sub]
      constructor
      · rintro ⟨hchild, hfits, hchildren, hsum, haccepts⟩
        exact ⟨⟨hchild, hchildren⟩, by omega, haccepts⟩
      · rintro ⟨⟨hchild, hchildren⟩, hsum, haccepts⟩
        exact ⟨hchild, by omega, hchildren, by omega, haccepts⟩

theorem accepts_close {identity : A} :
    Accepts h openIds remaining (.close identity :: work) ↔
      Accepts h (openIds.erase identity) remaining work :=
  accepts_of_step rfl

/-- Visiting one value: it is passed exactly when it is admitted and the budget pays for
it, and the open set is left as it was. -/
theorem accepts_value {n depth : ℕ} {r : Ref A} {openIds : Finset A} {remaining : ℕ}
    {work : List (Visit A Unit)} (hn : maxComparisonDepth + 1 - depth = n)
    (hopen : ∀ b ∈ openIds, Reaches h b r) {u : Unit} :
    Accepts h openIds remaining (.value r depth u :: work) ↔
      AdmitsWithin h JudgedAtom StrKey n r ∧ weight h n r ≤ remaining ∧
        Accepts h openIds (remaining - weight h n r) work := by
  induction n generalizing r depth openIds remaining work u with
  | zero =>
      cases r with
      | atom x => simp [accepts_atom, admitsWithin_atom, weight]
      | node a =>
          have hdeep : maxComparisonDepth < depth := by omega
          have hstep : prevalidateStep h ⟨openIds, remaining, .value (.node a) depth u :: work⟩ =
              .error (.comparisonBound
                "invariant comparison exceeded the maximum nesting depth") := by
            simp [prevalidateStep, reserveContainer, hdeep]
          simp [not_accepts_of_error hstep, not_admitsWithin_zero]
  | succ n ih =>
      cases r with
      | atom x => simp [accepts_atom, admitsWithin_atom, weight]
      | node a =>
          have hdepth : ¬ maxComparisonDepth < depth := by omega
          by_cases hmem : a ∈ openIds
          · have hstep : prevalidateStep h
                ⟨openIds, remaining, .value (.node a) depth u :: work⟩ =
                  .error (.comparisonBound "invariant comparison found a circular reference") := by
              simp [prevalidateStep, reserveContainer, hdepth, hmem]
            simp [not_accepts_of_error hstep, not_admitsWithin_of_reaches (hopen a hmem)]
          by_cases hsize : (h a).children.length ≤ remaining
          swap
          · have hstep : prevalidateStep h
                ⟨openIds, remaining, .value (.node a) depth u :: work⟩ =
                  .error (.comparisonBound
                    "invariant comparison exceeded the maximum number of discovered nodes") := by
              simp [prevalidateStep, reserveContainer, hdepth, hmem, Nat.not_le.mp hsize]
            refine iff_of_false (not_accepts_of_error hstep) ?_
            rintro ⟨-, hfits, -⟩
            exact hsize ((Nat.le_add_right _ _).trans hfits)
          have hreserve := reserveContainer_eq_ok_iff.mpr ⟨hdepth, hmem, hsize, rfl⟩
          rw [admitsWithin_node, ← pushCanonicalChildren_ok_iff]
          cases hchildren : pushCanonicalChildren (h a) with
          | error e =>
              have hstep : prevalidateStep h
                  ⟨openIds, remaining, .value (.node a) depth u :: work⟩ = .error e := by
                simp [prevalidateStep, hreserve, hchildren]
              simp [not_accepts_of_error hstep]
          | ok children =>
              have hperm := pushCanonicalChildren_perm hchildren
              have hmemChild : ∀ child ∈ children, child.1 ∈ (h a).children :=
                fun child hchild => hperm.mem_iff.mp (List.mem_map_of_mem hchild)
              have hinsert : ∀ child ∈ children, ∀ b ∈ insert a openIds,
                  Reaches h b child.1 := by
                intro child hchild b hb
                rcases Finset.mem_insert.mp hb with rfl | hb
                · exact .of_child (hmemChild child hchild)
                · exact (hopen b hb).child (hmemChild child hchild)
              have hall : (∀ child ∈ children,
                    AdmitsWithin h JudgedAtom StrKey n child.1) ↔
                  ∀ r ∈ (h a).children, AdmitsWithin h JudgedAtom StrKey n r := by
                constructor
                · intro hok r hr
                  obtain ⟨child, hchild, rfl⟩ := List.mem_map.mp (hperm.mem_iff.mpr hr)
                  exact hok child hchild
                · exact fun hok child hchild => hok _ (hmemChild child hchild)
              have hsum : (children.map fun child => weight h n child.1).sum =
                  ((h a).children.map (weight h n)).sum := by
                rw [← (hperm.map (weight h n)).sum_eq, List.map_map]
                rfl
              have hstep : prevalidateStep h
                  ⟨openIds, remaining, .value (.node a) depth u :: work⟩ =
                    .ok (.inl ⟨insert a openIds, remaining - (h a).children.length,
                      childVisits children depth ++ .close a :: work⟩) := by
                simp [prevalidateStep, hreserve, hchildren]
              rw [accepts_of_step hstep, accepts_childVisits (n := n) fun child hchild _ _ =>
                  ih (by omega) (hinsert child hchild),
                accepts_close, Finset.erase_insert hmem, hall, hsum, weight, Nat.sub_sub]
              simp only [Except.ok.injEq, exists_eq', true_and]
              refine and_congr_right fun _ => and_congr_left fun _ => ?_
              omega

end Correct

/-! ## What can be judged -/

/-- The values of a tree, containers and scalars alike. -/
def nodes : PyValue → ℕ :=
  Tree.fold (fun _ => 1) (fun counts => counts.sum + 1)
    (fun counts => (counts.map Prod.snd).sum + 1)

theorem nodes_list (items : List PyValue) :
    nodes (.list items) = (items.map nodes).sum + 1 := by
  simp [nodes]

theorem nodes_dict (members : List (Key × PyValue)) :
    nodes (.dict members) = (members.map fun member => nodes member.2).sum + 1 := by
  simp [nodes, Function.comp_def]

omit [DecidableEq A] in
/-- The root is the one value a subtree does not pay for. -/
theorem weight_succ_of_unfold {h : Heap A} {n : ℕ} {r : Ref A} {v : PyValue}
    (hunfold : unfold h n r = some v) : weight h n r + 1 = nodes v := by
  induction n generalizing r v with
  | zero =>
      cases r with
      | atom x =>
          obtain rfl : Tree.leaf x = v := by simpa using hunfold
          simp [weight, nodes]
      | node a => simp at hunfold
  | succ n ih =>
      cases r with
      | atom x =>
          obtain rfl : Tree.leaf x = v := by simpa using hunfold
          simp [weight, nodes]
      | node a =>
          have hsum : ∀ {rows : List (Ref A)} {counts : List ℕ},
              List.Forall₂ (fun r count => weight h n r + 1 = count) rows counts →
                rows.length + (rows.map (weight h n)).sum = counts.sum := by
            intro rows counts hrows
            induction hrows with
            | nil => rfl
            | cons hrow _ ihrows =>
                simp only [List.length_cons, List.map_cons, List.sum_cons]
                omega
          cases hnode : h a with
          | list items =>
              obtain ⟨values, rfl, hvalues⟩ := (unfold_list hnode n v).mp hunfold
              rw [nodes_list, weight, hnode, Node.children]
              exact congrArg (· + 1) (hsum (List.forall₂_map_right_iff.mpr
                (hvalues.imp fun _ _ hitem => ih hitem)))
          | dict members =>
              obtain ⟨values, rfl, hvalues⟩ := (unfold_dict hnode n v).mp hunfold
              rw [nodes_dict, weight, hnode, Node.children]
              exact congrArg (· + 1) (hsum (List.forall₂_map_right_iff.mpr
                (List.forall₂_map_left_iff.mpr (hvalues.imp fun _ _ hmember => ih hmember.2))))

omit [DecidableEq A] in
/-- The graph below `r` unfolds to an exact JSON value within both bounds. -/
def Judgeable (h : Heap A) (r : Ref A) : Prop :=
  ∃ v, Unfolds h r v ∧ v.nesting ≤ maxComparisonDepth ∧ nodes v ≤ maxComparisonNodes ∧
    v.Admits JudgedAtom StrKey

/-- Only the unfolded tree decides, not the order of the visits and not what is shared. -/
theorem prevalidateCanonical_eq_ok_iff {h : Heap A} {root : Ref A} :
    prevalidateCanonical h root = .ok () ↔ Judgeable h root := by
  have hvalue : Accepts h ∅ (maxComparisonNodes - 1) [.value root 1 ()] ↔
      AdmitsWithin h JudgedAtom StrKey maxComparisonDepth root ∧
        weight h maxComparisonDepth root ≤ maxComparisonNodes - 1 ∧ Accepts h ∅ _ [] :=
    accepts_value (Nat.add_sub_cancel ..) (by simp)
  refine hvalue.trans ?_
  simp only [accepts_nil, and_true]
  constructor
  · rintro ⟨⟨v, hunfold, hadmits⟩, hweight⟩
    obtain ⟨hunfolds, hnesting⟩ := unfold_eq_some_iff.mp hunfold
    have hnodes := weight_succ_of_unfold hunfold
    exact ⟨v, hunfolds, hnesting, by simp only [maxComparisonNodes] at *; omega, hadmits⟩
  · rintro ⟨v, hunfolds, hnesting, hnodes, hadmits⟩
    have hunfold := unfold_eq_some_iff.mpr ⟨hunfolds, hnesting⟩
    have hweight := weight_succ_of_unfold hunfold
    exact ⟨⟨v, hunfold, hadmits⟩, by omega⟩

theorem isCanonicalScalar_error {x : Atom} {e : Raised} (herror : isCanonicalScalar x = .error e) :
    e.IsRefusal := by
  cases x with
  | float value =>
      cases value <;> simp [isCanonicalScalar] at herror <;> subst herror <;> trivial
  | foreign o =>
      obtain rfl := Except.error.inj herror
      trivial
  | _ => simp [isCanonicalScalar] at herror

omit [DecidableEq A] in
theorem pushCanonicalChildren_error {node : Node A} {e : Raised}
    (herror : pushCanonicalChildren node = .error e) : e.IsRefusal := by
  cases node with
  | list items => simp [pushCanonicalChildren] at herror
  | dict members =>
      simp only [pushCanonicalChildren] at herror
      split_ifs at herror
      obtain rfl := Except.error.inj herror
      trivial

theorem reserveContainer_error {h : Heap A} {identity : A} {depth remaining : ℕ}
    {openIds : Finset A} {e : Raised}
    (herror : reserveContainer h identity depth openIds remaining = .error e) :
    e.IsRefusal := by
  unfold reserveContainer at herror
  dsimp only at herror
  split_ifs at herror <;> obtain rfl := Except.error.inj herror <;> trivial

theorem prevalidateStep_error {h : Heap A} {s : PrevalidationState A} {e : Raised}
    (herror : prevalidateStep h s = .error e) : e.IsRefusal := by
  obtain ⟨openIds, remaining, work⟩ := s
  cases work with
  | nil => simp [prevalidateStep] at herror
  | cons visit work =>
      cases visit with
      | close identity => simp [prevalidateStep] at herror
      | value payload depth context =>
          cases payload with
          | atom x =>
              cases hscalar : isCanonicalScalar x with
              | ok u => simp [prevalidateStep, hscalar] at herror
              | error raised =>
                  simp only [prevalidateStep, hscalar, error_bind, Except.error.injEq] at herror
                  exact herror ▸ isCanonicalScalar_error hscalar
          | node identity =>
              cases hreserve : reserveContainer h identity depth openIds remaining with
              | error raised =>
                  simp only [prevalidateStep, hreserve, error_bind, Except.error.injEq] at herror
                  exact herror ▸ reserveContainer_error hreserve
              | ok left =>
                  cases hchildren : pushCanonicalChildren (h identity) with
                  | error raised =>
                      simp only [prevalidateStep, hreserve, hchildren, ok_bind, error_bind,
                        Except.error.injEq] at herror
                      exact herror ▸ pushCanonicalChildren_error hchildren
                  | ok children => simp [prevalidateStep, hreserve, hchildren] at herror

/-- A subtree that cannot be judged is refused. -/
theorem prevalidateCanonical_refuses {h : Heap A} {root : Ref A} (hroot : ¬ Judgeable h root) :
    ∃ e, prevalidateCanonical h root = .error e ∧ e.IsRefusal := by
  cases hresult : prevalidateCanonical h root with
  | ok u => exact absurd (prevalidateCanonical_eq_ok_iff.mp hresult) hroot
  | error e =>
      exact ⟨e, rfl, run_error (prevalidateLoop h) (fun _ _ hstep => prevalidateStep_error hstep)
        hresult⟩

omit [DecidableEq A] in
/-- A container that reaches itself is below `r`, or is `r` itself. -/
def Cyclic (h : Heap A) : Ref A → Prop
  | .atom _ => False
  | .node a => ∃ b, Relation.ReflTransGen (Holds h) a b ∧ Relation.TransGen (Holds h) b b

omit [DecidableEq A] in
theorem not_judgeable_of_cyclic {h : Heap A} {r : Ref A} (hcyclic : Cyclic h r) :
    ¬ Judgeable h r := by
  rintro ⟨v, hv, -⟩
  cases r with
  | atom x => exact hcyclic
  | node a =>
      obtain ⟨b, hpath, hcycle⟩ := hcyclic
      rcases Relation.reflTransGen_iff_eq_or_transGen.mp hpath with rfl | hpath
      · exact not_unfolds_of_cycle hcycle hv
      · obtain ⟨w, hw, -⟩ := hv.exists_of_reaches hpath
        exact not_unfolds_of_cycle hcycle hw

end Walk

end TraigentSchema.Invariants
