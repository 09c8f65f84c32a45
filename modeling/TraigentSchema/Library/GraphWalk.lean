import TraigentSchema.Library.Traverse
import TraigentSchema.Library.VariantLoop

/-!
# Depth-first checks of a graph

A graph of leaves and containers is checked with a stack of values to visit at a depth
and of marks that a container has been left, and with the set of the containers that are
open.  Such a check ends on every graph.  It succeeds exactly where the graph unfolds
within the depth limit and every leaf and every container passes, so that a container
met twice on one path is refused and one shared by two paths is not.
-/

namespace TraigentSchema.GraphWalk

open TraigentSchema.VariantLoop

/-- What is done at a leaf and at a container, and what is raised. -/
structure Walker (A L E : Type) where
  limit : ℕ
  check : L → Except E Unit
  /-- The values held by a container, the first one to visit first. -/
  enter : A → Except E (List (L ⊕ A))
  tooDeep : E
  circular : E

inductive Visit (A L : Type) where
  | value (payload : L ⊕ A) (depth : ℕ)
  | close (identity : A)

structure WalkState (A L : Type) where
  openContainers : Finset A
  /-- The next entry first. -/
  work : List (Visit A L)

variable {A L E : Type}

def valueVisits (values : List (L ⊕ A)) (depth : ℕ) : List (Visit A L) :=
  values.map fun value => .value value depth

/-- The graph below a value passes within `n` containers. -/
def CleanWithin (walker : Walker A L E) : (n : ℕ) → L ⊕ A → Prop
  | _, .inl x => walker.check x = .ok ()
  | 0, .inr _ => False
  | n + 1, .inr a => ∃ values, walker.enter a = .ok values ∧
      ∀ value ∈ values, CleanWithin walker n value

/-- A value is met on some path from the root. -/
inductive Meets (walker : Walker A L E) (root : L ⊕ A) : L ⊕ A → Prop where
  | root : Meets walker root root
  | inside {a : A} {values : List (L ⊕ A)} {value : L ⊕ A} (ha : Meets walker root (.inr a))
      (hvalues : walker.enter a = .ok values) (hvalue : value ∈ values) :
      Meets walker root value

/-- A container has a value in it, at any depth. -/
inductive Encloses (walker : Walker A L E) (b : A) : L ⊕ A → Prop where
  | directly {values : List (L ⊕ A)} {value : L ⊕ A} (hvalues : walker.enter b = .ok values)
      (hvalue : value ∈ values) : Encloses walker b value
  | inside {a : A} {values : List (L ⊕ A)} {value : L ⊕ A} (ha : Encloses walker b (.inr a))
      (hvalues : walker.enter a = .ok values) (hvalue : value ∈ values) :
      Encloses walker b value

section Clean

variable {walker : Walker A L E} {n : ℕ}

theorem cleanWithin_leaf {x : L} :
    CleanWithin walker n (.inl x) ↔ walker.check x = .ok () := by
  cases n <;> rfl

theorem CleanWithin.of_encloses {b : A} {value : L ⊕ A} (hb : CleanWithin walker n (.inr b))
    (hencloses : Encloses walker b value) : ∃ m < n, CleanWithin walker m value := by
  have hchild : ∀ {a : A} {values : List (L ⊕ A)} {value : L ⊕ A} {m : ℕ},
      CleanWithin walker m (.inr a) → walker.enter a = .ok values → value ∈ values →
        ∃ k < m, CleanWithin walker k value := by
    intro a values value m ha hvalues hvalue
    cases m with
    | zero => exact ha.elim
    | succ k =>
        obtain ⟨values', hvalues', hclean⟩ := ha
        obtain rfl := Except.ok.inj (hvalues.symm.trans hvalues')
        exact ⟨k, Nat.lt_succ_self k, hclean value hvalue⟩
  induction hencloses with
  | directly hvalues hvalue => exact hchild hb hvalues hvalue
  | inside _ hvalues hvalue ih =>
      obtain ⟨m, hm, ha⟩ := ih
      obtain ⟨k, hk, hclean⟩ := hchild ha hvalues hvalue
      exact ⟨k, hk.trans hm, hclean⟩

/-- A container inside itself is clean at no depth. -/
theorem not_cleanWithin_of_cycle {a : A} (hcycle : Encloses walker a (.inr a)) (n : ℕ) :
    ¬ CleanWithin walker n (.inr a) := by
  induction n using Nat.strong_induction_on with
  | _ n ih =>
      intro hclean
      obtain ⟨m, hm, hclean'⟩ := hclean.of_encloses hcycle
      exact ih m hm hclean'

end Clean

section Walk

variable [DecidableEq A]

def walkStep (walker : Walker A L E) (s : WalkState A L) :
    Except E (WalkState A L ⊕ Unit) :=
  match s.work with
  | [] => .ok (.inr ())
  | .close identity :: work =>
      .ok (.inl { openContainers := s.openContainers.erase identity, work := work })
  | .value (.inl x) _ :: work => do
      walker.check x
      return .inl { s with work := work }
  | .value (.inr identity) depth :: work => do
      if walker.limit < depth then
        throw walker.tooDeep
      if identity ∈ s.openContainers then
        throw walker.circular
      let values ← walker.enter identity
      return .inl
        { openContainers := insert identity s.openContainers
          work := valueVisits values (depth + 1) ++ .close identity :: work }

/-- How many entries a visit takes off the stack, at most, when `n` more containers may
be opened below it. -/
def walkCost (walker : Walker A L E) : (n : ℕ) → L ⊕ A → ℕ
  | 0, _ => 1
  | n + 1, value =>
      match value with
      | .inl _ => 1
      | .inr a =>
          match walker.enter a with
          | .ok values => (values.map (walkCost walker n)).sum + 2
          | .error _ => 1

def visitsCost (walker : Walker A L E) : List (Visit A L) → ℕ
  | [] => 0
  | .close _ :: work => visitsCost walker work + 1
  | .value payload depth :: work =>
      visitsCost walker work + walkCost walker (walker.limit + 1 - depth) payload

omit [DecidableEq A] in
theorem visitsCost_append (walker : Walker A L E) (left right : List (Visit A L)) :
    visitsCost walker (left ++ right) = visitsCost walker left + visitsCost walker right := by
  induction left with
  | nil => simp [visitsCost]
  | cons visit left ih =>
      cases visit <;> simp only [List.cons_append, visitsCost, ih] <;> omega

omit [DecidableEq A] in
theorem visitsCost_valueVisits (walker : Walker A L E) (values : List (L ⊕ A)) (depth : ℕ) :
    visitsCost walker (valueVisits values depth) =
      (values.map (walkCost walker (walker.limit + 1 - depth))).sum := by
  induction values with
  | nil => rfl
  | cons value values ih =>
      unfold valueVisits at ih ⊢
      simp only [List.map_cons, visitsCost, ih, List.sum_cons]
      omega

omit [DecidableEq A] in
theorem walkCost_pos (walker : Walker A L E) (n : ℕ) (value : L ⊕ A) :
    0 < walkCost walker n value := by
  cases n with
  | zero => exact Nat.one_pos
  | succ n =>
      unfold walkCost
      split
      · exact Nat.one_pos
      · split <;> omega

theorem walkStep_decreases {walker : Walker A L E} {s s' : WalkState A L}
    (hstep : walkStep walker s = .ok (.inl s')) :
    visitsCost walker s'.work < visitsCost walker s.work := by
  obtain ⟨openContainers, work⟩ := s
  cases work with
  | nil => simp [walkStep] at hstep
  | cons visit work =>
      cases visit with
      | close identity =>
          simp [walkStep] at hstep
          simp [← hstep, visitsCost]
      | value payload depth =>
          cases payload with
          | inl x =>
              cases hcheck : walker.check x with
              | error e => simp [walkStep, hcheck] at hstep
              | ok done =>
                  simp [walkStep, hcheck] at hstep
                  simp [← hstep, visitsCost, walkCost_pos]
          | inr identity =>
              by_cases hdepth : walker.limit < depth
              · simp [walkStep, hdepth] at hstep
              by_cases hmem : identity ∈ openContainers
              · simp [walkStep, hdepth, hmem] at hstep
              cases henter : walker.enter identity with
              | error e => simp [walkStep, hdepth, hmem, henter] at hstep
              | ok values =>
                  simp [walkStep, hdepth, hmem, henter] at hstep
                  have hbelow : walker.limit + 1 - depth = walker.limit + 1 - (depth + 1) + 1 := by
                    omega
                  simp only [← hstep, visitsCost_append, visitsCost_valueVisits, visitsCost,
                    hbelow, walkCost, henter]
                  omega

def walkLoop (walker : Walker A L E) : Loop (WalkState A L) E Unit where
  step := walkStep walker
  variant s := visitsCost walker s.work
  decreases := walkStep_decreases

/-- Check the graph below `root`. -/
def walk (walker : Walker A L E) (root : L ⊕ A) : Except E Unit :=
  run (walkLoop walker) { openContainers := ∅, work := [.value root 1] }

/-! ## What passes -/

/-- The rest of the check succeeds from a state. -/
def Completes (walker : Walker A L E) (openContainers : Finset A) (work : List (Visit A L)) :
    Prop :=
  run (walkLoop walker) ⟨openContainers, work⟩ = .ok ()

variable {walker : Walker A L E} {openContainers : Finset A} {work : List (Visit A L)}

theorem completes_nil : Completes walker openContainers [] :=
  run_of_exit (walkLoop walker) rfl

theorem completes_of_step {openContainers' : Finset A} {work' : List (Visit A L)}
    (hstep : walkStep walker ⟨openContainers, work⟩ = .ok (.inl ⟨openContainers', work'⟩)) :
    Completes walker openContainers work ↔ Completes walker openContainers' work' := by
  rw [Completes, run_of_step (walkLoop walker) hstep, Completes]

theorem not_completes_of_error {e : E}
    (hstep : walkStep walker ⟨openContainers, work⟩ = .error e) :
    ¬ Completes walker openContainers work := by
  rw [Completes, run_of_error (walkLoop walker) hstep]
  simp

theorem completes_leaf {x : L} {depth : ℕ} :
    Completes walker openContainers (.value (.inl x) depth :: work) ↔
      walker.check x = .ok () ∧ Completes walker openContainers work := by
  cases hcheck : walker.check x with
  | ok done =>
      have hstep : walkStep walker ⟨openContainers, .value (.inl x) depth :: work⟩ =
          .ok (.inl ⟨openContainers, work⟩) := by
        simp [walkStep, hcheck]
      simp [completes_of_step hstep]
  | error e =>
      have hstep : walkStep walker ⟨openContainers, .value (.inl x) depth :: work⟩ =
          .error e := by
        simp [walkStep, hcheck]
      simp [not_completes_of_error hstep]

theorem completes_valueVisits {n depth : ℕ} {values : List (L ⊕ A)}
    (hvalue : ∀ value ∈ values, ∀ work,
      Completes walker openContainers (.value value depth :: work) ↔
        CleanWithin walker n value ∧ Completes walker openContainers work) :
    Completes walker openContainers (valueVisits values depth ++ work) ↔
      (∀ value ∈ values, CleanWithin walker n value) ∧
        Completes walker openContainers work := by
  induction values with
  | nil => simp [valueVisits]
  | cons value values ih =>
      have hrest := ih fun v hv => hvalue v (List.mem_cons_of_mem _ hv)
      rw [valueVisits, List.map_cons, List.cons_append, hvalue value (by simp), ← valueVisits,
        hrest]
      simp [and_assoc]

/-- Visiting one value: it passes exactly when it is clean, and the open containers are
as before. -/
theorem completes_value {n depth : ℕ} {value : L ⊕ A} {openContainers : Finset A}
    (hn : walker.limit + 1 - depth = n)
    (hopen : ∀ b ∈ openContainers, Encloses walker b value) (work : List (Visit A L)) :
    Completes walker openContainers (.value value depth :: work) ↔
      CleanWithin walker n value ∧ Completes walker openContainers work := by
  induction n generalizing value depth openContainers work with
  | zero =>
      cases value with
      | inl x => rw [completes_leaf, cleanWithin_leaf]
      | inr a =>
          have hdeep : walker.limit < depth := by omega
          have hstep : walkStep walker ⟨openContainers, .value (.inr a) depth :: work⟩ =
              .error walker.tooDeep := by
            simp [walkStep, hdeep]
          simp [not_completes_of_error hstep, CleanWithin]
  | succ n ih =>
      cases value with
      | inl x => rw [completes_leaf, cleanWithin_leaf]
      | inr a =>
          have hdepth : ¬ walker.limit < depth := by omega
          by_cases hmem : a ∈ openContainers
          · have hstep : walkStep walker ⟨openContainers, .value (.inr a) depth :: work⟩ =
                .error walker.circular := by
              simp [walkStep, hdepth, hmem]
            simp [not_completes_of_error hstep, not_cleanWithin_of_cycle (hopen a hmem)]
          cases henter : walker.enter a with
          | error e =>
              have hstep : walkStep walker ⟨openContainers, .value (.inr a) depth :: work⟩ =
                  .error e := by
                simp [walkStep, hdepth, hmem, henter]
              simp [not_completes_of_error hstep, CleanWithin, henter]
          | ok values =>
              have hinsert : ∀ value ∈ values, ∀ b ∈ insert a openContainers,
                  Encloses walker b value := by
                intro value hvalue b hb
                rcases Finset.mem_insert.mp hb with rfl | hb
                · exact .directly henter hvalue
                · exact .inside (hopen b hb) henter hvalue
              have hstep : walkStep walker ⟨openContainers, .value (.inr a) depth :: work⟩ =
                  .ok (.inl ⟨insert a openContainers,
                    valueVisits values (depth + 1) ++ .close a :: work⟩) := by
                simp [walkStep, hdepth, hmem, henter]
              have hclose : Completes walker (insert a openContainers) (.close a :: work) ↔
                  Completes walker openContainers work := by
                rw [completes_of_step rfl, Finset.erase_insert hmem]
              rw [completes_of_step hstep, completes_valueVisits (n := n) fun value hvalue =>
                ih (by omega) (hinsert value hvalue), hclose]
              simp [CleanWithin, henter]

/-- A check succeeds exactly on the graphs that are clean within its limit. -/
theorem walk_eq_ok_iff {root : L ⊕ A} :
    walk walker root = .ok () ↔ CleanWithin walker walker.limit root := by
  have hvalue : Completes walker ∅ [.value root 1] ↔
      CleanWithin walker walker.limit root ∧ Completes walker ∅ [] :=
    completes_value (Nat.add_sub_cancel ..) (by simp) []
  exact hvalue.trans (and_iff_left completes_nil)

/-! ## What is raised -/

/-- A failure is one of the walk itself, or the failure of a leaf or of a container that
it meets. -/
inductive Raises (walker : Walker A L E) (root : L ⊕ A) : E → Prop where
  | tooDeep : Raises walker root walker.tooDeep
  | circular : Raises walker root walker.circular
  | leaf {x : L} {e : E} (hx : Meets walker root (.inl x)) (hcheck : walker.check x = .error e) :
      Raises walker root e
  | container {a : A} {e : E} (ha : Meets walker root (.inr a))
      (henter : walker.enter a = .error e) : Raises walker root e

/-- Everything on the stack is met from the root. -/
def AllMet (walker : Walker A L E) (root : L ⊕ A) (s : WalkState A L) : Prop :=
  ∀ value depth, Visit.value value depth ∈ s.work → Meets walker root value

variable {root : L ⊕ A} {s s' : WalkState A L} {e : E}

theorem raises_of_walkStep (hmet : AllMet walker root s) (hstep : walkStep walker s = .error e) :
    Raises walker root e := by
  obtain ⟨openContainers, work⟩ := s
  cases work with
  | nil => simp [walkStep] at hstep
  | cons visit work =>
      cases visit with
      | close identity => simp [walkStep] at hstep
      | value payload depth =>
          have hpayload := hmet payload depth (List.mem_cons_self ..)
          cases payload with
          | inl x =>
              cases hcheck : walker.check x with
              | ok done => simp [walkStep, hcheck] at hstep
              | error raised =>
                  obtain rfl : raised = e := by simpa [walkStep, hcheck] using hstep
                  exact .leaf hpayload hcheck
          | inr identity =>
              by_cases hdepth : walker.limit < depth
              · obtain rfl : walker.tooDeep = e := by simpa [walkStep, hdepth] using hstep
                exact .tooDeep
              by_cases hmem : identity ∈ openContainers
              · obtain rfl : walker.circular = e := by
                  simpa [walkStep, hdepth, hmem] using hstep
                exact .circular
              cases henter : walker.enter identity with
              | ok values => simp [walkStep, hdepth, hmem, henter] at hstep
              | error raised =>
                  obtain rfl : raised = e := by simpa [walkStep, hdepth, hmem, henter] using hstep
                  exact .container hpayload henter

theorem AllMet.walkStep (hmet : AllMet walker root s)
    (hstep : walkStep walker s = .ok (.inl s')) : AllMet walker root s' := by
  obtain ⟨openContainers, work⟩ := s
  cases work with
  | nil => simp [GraphWalk.walkStep] at hstep
  | cons visit work =>
      have hrest : ∀ value depth, Visit.value value depth ∈ work → Meets walker root value :=
        fun value depth hmem => hmet value depth (List.mem_cons_of_mem _ hmem)
      cases visit with
      | close identity =>
          simp only [GraphWalk.walkStep, Except.ok.injEq, Sum.inl.injEq] at hstep
          rw [← hstep]
          exact hrest
      | value payload depth =>
          have hpayload := hmet payload depth (List.mem_cons_self ..)
          cases payload with
          | inl x =>
              cases hcheck : walker.check x with
              | error raised => simp [GraphWalk.walkStep, hcheck] at hstep
              | ok done =>
                  simp [GraphWalk.walkStep, hcheck] at hstep
                  rw [← hstep]
                  exact hrest
          | inr identity =>
              by_cases hdepth : walker.limit < depth
              · simp [GraphWalk.walkStep, hdepth] at hstep
              by_cases hmem : identity ∈ openContainers
              · simp [GraphWalk.walkStep, hdepth, hmem] at hstep
              cases henter : walker.enter identity with
              | error raised => simp [GraphWalk.walkStep, hdepth, hmem, henter] at hstep
              | ok values =>
                  simp [GraphWalk.walkStep, hdepth, hmem, henter] at hstep
                  rw [← hstep]
                  intro value depth' hvisit
                  rcases List.mem_append.mp hvisit with hinside | hother
                  · obtain ⟨child, hchild, heq⟩ := List.mem_map.mp hinside
                    obtain ⟨rfl, -⟩ := Visit.value.inj heq
                    exact .inside hpayload henter hchild
                  · rcases List.mem_cons.mp hother with heq | hother
                    · cases heq
                    · exact hrest value depth' hother

theorem raises_of_run (hmet : AllMet walker root s) (hrun : run (walkLoop walker) s = .error e) :
    Raises walker root e := by
  induction hvariant : visitsCost walker s.work using Nat.strong_induction_on generalizing s with
  | _ variant ih =>
      cases hnext : walkStep walker s with
      | error raised =>
          rw [run_of_error (walkLoop walker) hnext, Except.error.injEq] at hrun
          exact hrun ▸ raises_of_walkStep hmet hnext
      | ok next =>
          cases next with
          | inr leaving => simp [run_of_exit (walkLoop walker) hnext] at hrun
          | inl s' =>
              rw [run_of_step (walkLoop walker) hnext] at hrun
              exact ih _ (hvariant ▸ walkStep_decreases hnext) (hmet.walkStep hnext) hrun rfl

/-- What a check raises. -/
theorem raises_of_walk (hwalk : walk walker root = .error e) : Raises walker root e := by
  refine raises_of_run (fun value depth hvisit => ?_) hwalk
  obtain ⟨rfl, -⟩ := Visit.value.inj (List.mem_singleton.mp hvisit)
  exact .root

end Walk

end TraigentSchema.GraphWalk
