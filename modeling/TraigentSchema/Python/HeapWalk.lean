import TraigentSchema.Library.VariantLoop
import TraigentSchema.Python.Heap

/-!
# Checking walks over the heap

The package checks object graphs with loops of one shape: a stack of values to
visit at a depth and of marks that a container has been left, the set of
containers that are open, a depth limit, a check on each scalar and one on each
container.  Such a walk ends, and it succeeds exactly on the graphs that unfold
within the limit to a tree of admitted scalars and keys.
-/

namespace TraigentSchema.Python

open TraigentSchema.Traverse
open TraigentSchema.VariantLoop

/-- What a walk does at a scalar and at a container, and what it raises.  `C` is
what the walk carries along a path, for its messages. -/
structure Walker (A C E : Type) where
  limit : ℕ
  leaf : C → Atom → Except E Unit
  /-- The children to visit, the first one first. -/
  enter : C → Node A → Except E (List (Ref A × C))
  tooDeep : C → E
  circular : C → E
  enter_perm : ∀ {c node children}, enter c node = .ok children →
    (children.map Prod.fst).Perm node.children

/-- An entry of the work stack. -/
inductive Visit (A C : Type) where
  | value (payload : Ref A) (depth : ℕ) (context : C)
  | close (identity : A)

structure WalkState (A C : Type) where
  openContainers : Finset A
  /-- The next entry first. -/
  work : List (Visit A C)

variable {A C E : Type} [DecidableEq A]

def childVisits (children : List (Ref A × C)) (depth : ℕ) : List (Visit A C) :=
  children.map fun child => .value child.1 (depth + 1) child.2

def walkStep (walker : Walker A C E) (h : Heap A) (s : WalkState A C) :
    Except E (WalkState A C ⊕ Unit) :=
  match s.work with
  | [] => .ok (.inr ())
  | .close identity :: work =>
      .ok (.inl { openContainers := s.openContainers.erase identity, work := work })
  | .value (.atom x) _ context :: work => do
      walker.leaf context x
      return .inl { s with work := work }
  | .value (.node identity) depth context :: work => do
      if walker.limit < depth then
        throw (walker.tooDeep context)
      if identity ∈ s.openContainers then
        throw (walker.circular context)
      let children ← walker.enter context (h identity)
      return .inl
        { openContainers := insert identity s.openContainers
          work := childVisits children depth ++ .close identity :: work }

section Variant

omit [DecidableEq A]

/-- How many entries a visit takes off the stack, at most, when `n` more
containers may be opened below it. -/
def walkCost (h : Heap A) : (n : ℕ) → Ref A → ℕ
  | _, .atom _ => 1
  | 0, .node _ => 1
  | n + 1, .node a => ((h a).children.map (walkCost h n)).sum + 2

def visitsCost (walker : Walker A C E) (h : Heap A) : List (Visit A C) → ℕ
  | [] => 0
  | .close _ :: work => visitsCost walker h work + 1
  | .value payload depth _ :: work =>
      visitsCost walker h work + walkCost h (walker.limit + 1 - depth) payload

theorem visitsCost_append (walker : Walker A C E) (h : Heap A)
    (left right : List (Visit A C)) :
    visitsCost walker h (left ++ right) =
      visitsCost walker h left + visitsCost walker h right := by
  induction left with
  | nil => simp [visitsCost]
  | cons visit left ih =>
      cases visit <;> simp only [List.cons_append, visitsCost, ih] <;> omega

theorem visitsCost_childVisits (walker : Walker A C E) (h : Heap A)
    (children : List (Ref A × C)) (depth : ℕ) :
    visitsCost walker h (childVisits children depth) =
      ((children.map Prod.fst).map (walkCost h (walker.limit - depth))).sum := by
  induction children with
  | nil => rfl
  | cons child children ih =>
      unfold childVisits at ih ⊢
      simp only [List.map_cons, visitsCost, ih, List.sum_cons,
        Nat.add_sub_add_right]
      omega

theorem walkCost_pos (h : Heap A) (n : ℕ) (r : Ref A) : 0 < walkCost h n r := by
  cases r with
  | atom x => cases n <;> simp [walkCost]
  | node a => cases n <;> simp [walkCost]

end Variant

theorem walkStep_decreases {walker : Walker A C E} {h : Heap A}
    {s s' : WalkState A C} (hstep : walkStep walker h s = .ok (.inl s')) :
    visitsCost walker h s'.work < visitsCost walker h s.work := by
  obtain ⟨openContainers, work⟩ := s
  cases work with
  | nil => simp [walkStep] at hstep
  | cons visit work =>
      cases visit with
      | close identity =>
          simp [walkStep] at hstep
          simp [← hstep, visitsCost]
      | value payload depth context =>
          cases payload with
          | atom x =>
              cases hleaf : walker.leaf context x with
              | error e => simp [walkStep, hleaf] at hstep
              | ok done =>
                  simp [walkStep, hleaf] at hstep
                  simp [← hstep, visitsCost, walkCost_pos]
          | node identity =>
              by_cases hdepth : walker.limit < depth
              · simp [walkStep, hdepth] at hstep
              by_cases hmem : identity ∈ openContainers
              · simp [walkStep, hdepth, hmem] at hstep
              cases henter : walker.enter context (h identity) with
              | error e => simp [walkStep, hdepth, hmem, henter] at hstep
              | ok children =>
                  simp [walkStep, hdepth, hmem, henter] at hstep
                  have hfuel : walker.limit + 1 - depth = walker.limit - depth + 1 := by
                    omega
                  have hperm := ((walker.enter_perm henter).map
                    (walkCost h (walker.limit - depth))).sum_eq
                  simp only [← hstep, visitsCost_append, visitsCost_childVisits,
                    visitsCost, hfuel, walkCost]
                  omega

def walkLoop (walker : Walker A C E) (h : Heap A) : Loop (WalkState A C) E Unit where
  step := walkStep walker h
  variant s := visitsCost walker h s.work
  decreases := walkStep_decreases

/-- Walk the graph below `root`. -/
def walk (walker : Walker A C E) (h : Heap A) (root : Ref A) (context : C) :
    Except E Unit :=
  run (walkLoop walker h)
    { openContainers := ∅, work := [.value root 1 context] }

/-! ## What a walk accepts -/

section Correct

variable (walker : Walker A C E) (h : Heap A)

/-- The rest of the walk succeeds from a state. -/
def Completes (openContainers : Finset A) (work : List (Visit A C)) : Prop :=
  run (walkLoop walker h) ⟨openContainers, work⟩ = .ok ()

variable {walker h} {openContainers : Finset A} {work : List (Visit A C)}

theorem completes_nil : Completes walker h openContainers [] :=
  run_of_exit (walkLoop walker h) rfl

theorem completes_of_step {openContainers' : Finset A} {work' : List (Visit A C)}
    (hstep : walkStep walker h ⟨openContainers, work⟩ =
      .ok (.inl ⟨openContainers', work'⟩)) :
    Completes walker h openContainers work ↔
      Completes walker h openContainers' work' := by
  rw [Completes, run_of_step (walkLoop walker h) hstep, Completes]

theorem not_completes_of_error {e : E}
    (hstep : walkStep walker h ⟨openContainers, work⟩ = .error e) :
    ¬ Completes walker h openContainers work := by
  rw [Completes, run_of_error (walkLoop walker h) hstep]
  simp

theorem completes_close {identity : A} :
    Completes walker h openContainers (.close identity :: work) ↔
      Completes walker h (openContainers.erase identity) work :=
  completes_of_step rfl

variable {leafOk : Atom → Prop} {keyOk : Key → Prop}
  (hleaf : ∀ c x, walker.leaf c x = .ok () ↔ leafOk x)
  (henter : ∀ c node, (∃ children, walker.enter c node = .ok children) ↔
    node.KeysOk keyOk)

include hleaf in
theorem completes_atom {x : Atom} {depth : ℕ} {c : C} :
    Completes walker h openContainers (.value (.atom x) depth c :: work) ↔
      leafOk x ∧ Completes walker h openContainers work := by
  by_cases hx : leafOk x
  · have hok := (hleaf c x).mpr hx
    have hstep : walkStep walker h
        ⟨openContainers, .value (.atom x) depth c :: work⟩ =
          .ok (.inl ⟨openContainers, work⟩) := by
      simp [walkStep, hok]
    simp [completes_of_step hstep, hx]
  · cases hok : walker.leaf c x with
    | ok done => exact absurd ((hleaf c x).mp hok) hx
    | error e =>
        have hstep : walkStep walker h
            ⟨openContainers, .value (.atom x) depth c :: work⟩ = .error e := by
          simp [walkStep, hok]
        simp [hx, not_completes_of_error hstep]

theorem completes_childVisits {n depth : ℕ} {children : List (Ref A × C)}
    (hvalue : ∀ child ∈ children, ∀ work,
      Completes walker h openContainers (.value child.1 (depth + 1) child.2 :: work) ↔
        AdmitsWithin h leafOk keyOk n child.1 ∧ Completes walker h openContainers work) :
    Completes walker h openContainers (childVisits children depth ++ work) ↔
      (∀ child ∈ children, AdmitsWithin h leafOk keyOk n child.1) ∧
        Completes walker h openContainers work := by
  induction children with
  | nil => simp [childVisits]
  | cons child children ih =>
      have hrest := ih fun c hc => hvalue c (List.mem_cons_of_mem _ hc)
      rw [childVisits, List.map_cons, List.cons_append, hvalue child (by simp),
        ← childVisits, hrest]
      simp [and_assoc]

include hleaf henter in
/-- Visiting one value: the walk passes it exactly when it is admitted, and
leaves the open set as it was. -/
theorem completes_value {n depth : ℕ} {r : Ref A} {openContainers : Finset A} {c : C}
    (hn : walker.limit + 1 - depth = n)
    (hopen : ∀ b ∈ openContainers, Reaches h b r) (work : List (Visit A C)) :
    Completes walker h openContainers (.value r depth c :: work) ↔
      AdmitsWithin h leafOk keyOk n r ∧ Completes walker h openContainers work := by
  induction n generalizing r depth openContainers c work with
  | zero =>
      cases r with
      | atom x => rw [completes_atom hleaf, admitsWithin_atom]
      | node a =>
          have hdeep : walker.limit < depth := by omega
          have hstep : walkStep walker h
              ⟨openContainers, .value (.node a) depth c :: work⟩ =
                .error (walker.tooDeep c) := by
            simp [walkStep, hdeep]
          simp [not_completes_of_error hstep, not_admitsWithin_zero]
  | succ n ih =>
      cases r with
      | atom x => rw [completes_atom hleaf, admitsWithin_atom]
      | node a =>
          have hdepth : ¬ walker.limit < depth := by omega
          by_cases hmem : a ∈ openContainers
          · have hstep : walkStep walker h
                ⟨openContainers, .value (.node a) depth c :: work⟩ =
                  .error (walker.circular c) := by
              simp [walkStep, hdepth, hmem]
            simp [not_completes_of_error hstep,
              not_admitsWithin_of_reaches (hopen a hmem)]
          rw [admitsWithin_node, ← henter c]
          cases hchildren : walker.enter c (h a) with
          | error e =>
              have hstep : walkStep walker h
                  ⟨openContainers, .value (.node a) depth c :: work⟩ = .error e := by
                simp [walkStep, hdepth, hmem, hchildren]
              simp [not_completes_of_error hstep]
          | ok children =>
              have hmemChild : ∀ child ∈ children, child.1 ∈ (h a).children :=
                fun child hchild => (walker.enter_perm hchildren).mem_iff.mp
                  (List.mem_map_of_mem hchild)
              have hinsert : ∀ child ∈ children, ∀ b ∈ insert a openContainers,
                  Reaches h b child.1 := by
                intro child hchild b hb
                rcases Finset.mem_insert.mp hb with rfl | hb
                · exact .of_child (hmemChild child hchild)
                · exact (hopen b hb).child (hmemChild child hchild)
              have hall : (∀ child ∈ children, AdmitsWithin h leafOk keyOk n child.1) ↔
                  ∀ r ∈ (h a).children, AdmitsWithin h leafOk keyOk n r := by
                constructor
                · intro hchildrenOk r hr
                  obtain ⟨child, hchild, rfl⟩ := List.mem_map.mp
                    ((walker.enter_perm hchildren).mem_iff.mpr hr)
                  exact hchildrenOk child hchild
                · exact fun hok child hchild => hok _ (hmemChild child hchild)
              have hstep : walkStep walker h
                  ⟨openContainers, .value (.node a) depth c :: work⟩ =
                    .ok (.inl ⟨insert a openContainers,
                      childVisits children depth ++ .close a :: work⟩) := by
                simp [walkStep, hdepth, hmem, hchildren]
              rw [completes_of_step hstep, completes_childVisits (n := n) fun child hchild =>
                  ih (by omega) (hinsert child hchild),
                completes_close, Finset.erase_insert hmem, hall]
              simp

include hleaf henter in
/-- A walk succeeds exactly on the graphs that unfold within its limit to a tree
of admitted scalars and keys. -/
theorem walk_eq_ok_iff {root : Ref A} {c : C} :
    walk walker h root c = .ok () ↔
      ∃ v, Unfolds h root v ∧ v.nesting ≤ walker.limit ∧ v.Admits leafOk keyOk := by
  have hvalue : Completes walker h ∅ [.value root 1 c] ↔
      AdmitsWithin h leafOk keyOk walker.limit root ∧ Completes walker h ∅ [] :=
    completes_value hleaf henter (Nat.add_sub_cancel ..) (by simp) []
  rw [← admitsWithin_iff]
  exact hvalue.trans (and_iff_left completes_nil)

end Correct

end TraigentSchema.Python
