import TraigentSchema.Python.HeapWalk

/-!
# Where a walk fails

The places of a graph a walk gets to, each with what the walk carries along the path to it.
On a graph that unfolds within the limit of the walk, with containers that can be opened,
only the check of a scalar can fail, at a place the walk gets to.
-/

namespace TraigentSchema.Python

open TraigentSchema.Traverse
open TraigentSchema.VariantLoop

variable {A C E : Type}

/-- The walk gets from one place to another, through containers it opens. -/
inductive Gets (walker : Walker A C E) (h : Heap A) : Ref A → C → Ref A → C → Prop
  | here {r : Ref A} {c : C} : Gets walker h r c r c
  | inside {a : A} {c : C} {children : List (Ref A × C)} {child : Ref A × C} {r : Ref A} {c' : C} :
      walker.enter c (h a) = .ok children → child ∈ children →
      Gets walker h child.1 child.2 r c' → Gets walker h (.node a) c r c'

/-- The check of a scalar at a place below `r` fails with `e`. -/
def LeafFails (walker : Walker A C E) (h : Heap A) (leafOk : Atom → Prop) (r : Ref A) (c : C)
    (e : E) : Prop :=
  ∃ x c', Gets walker h r c (.atom x) c' ∧ leafOk x ∧ walker.leaf c' x = .error e

section Errors

variable [DecidableEq A] {walker : Walker A C E} {h : Heap A}
  {leafOk : Atom → Prop} {keyOk : Key → Prop}

/-- The rest of the walk fails from a state. -/
def Fails (walker : Walker A C E) (h : Heap A) (openContainers : Finset A)
    (work : List (Visit A C)) (e : E) : Prop :=
  run (walkLoop walker h) ⟨openContainers, work⟩ = .error e

variable {openContainers : Finset A} {work : List (Visit A C)} {e : E}

theorem not_fails_nil : ¬ Fails walker h openContainers [] e := by
  rw [Fails, run_of_exit (walkLoop walker h) rfl]
  simp

theorem fails_of_step {openContainers' : Finset A} {work' : List (Visit A C)}
    (hstep : walkStep walker h ⟨openContainers, work⟩ = .ok (.inl ⟨openContainers', work'⟩)) :
    Fails walker h openContainers work e ↔ Fails walker h openContainers' work' e := by
  rw [Fails, run_of_step (walkLoop walker h) hstep, Fails]

theorem fails_of_error {e' : E}
    (hstep : walkStep walker h ⟨openContainers, work⟩ = .error e') :
    Fails walker h openContainers work e ↔ e' = e := by
  rw [Fails, run_of_error (walkLoop walker h) hstep, Except.error.injEq]

theorem fails_atom {x : Atom} {depth : ℕ} {c : C} (hx : leafOk x)
    (hfails : Fails walker h openContainers (.value (.atom x) depth c :: work) e) :
    LeafFails walker h leafOk (.atom x) c e ∨ Fails walker h openContainers work e := by
  cases hcheck : walker.leaf c x with
  | ok u =>
      have hstep : walkStep walker h ⟨openContainers, .value (.atom x) depth c :: work⟩ =
          .ok (.inl ⟨openContainers, work⟩) := by
        simp [walkStep, hcheck]
      exact Or.inr ((fails_of_step hstep).mp hfails)
  | error e' =>
      have hstep : walkStep walker h ⟨openContainers, .value (.atom x) depth c :: work⟩ =
          .error e' := by
        simp [walkStep, hcheck]
      obtain rfl := (fails_of_error hstep).mp hfails
      exact Or.inl ⟨x, c, .here, hx, hcheck⟩

/-- The children are visited one after the other; each leaves the open containers as they
were. -/
theorem fails_childVisits {children : List (Ref A × C)} {depth : ℕ}
    (hvalue : ∀ child ∈ children, ∀ work,
      Fails walker h openContainers (.value child.1 (depth + 1) child.2 :: work) e →
        LeafFails walker h leafOk child.1 child.2 e ∨ Fails walker h openContainers work e)
    (hfails : Fails walker h openContainers (childVisits children depth ++ work) e) :
    (∃ child ∈ children, LeafFails walker h leafOk child.1 child.2 e) ∨
      Fails walker h openContainers work e := by
  induction children with
  | nil => exact Or.inr hfails
  | cons child children ih =>
      rcases hvalue child (List.mem_cons_self ..) _ hfails with hleaf | hrest
      · exact Or.inl ⟨child, List.mem_cons_self .., hleaf⟩
      · rcases ih (fun c hc => hvalue c (List.mem_cons_of_mem _ hc)) hrest with
          ⟨c, hc, hleaf⟩ | hwork
        · exact Or.inl ⟨c, List.mem_cons_of_mem _ hc, hleaf⟩
        · exact Or.inr hwork

variable (henter : ∀ c node, node.KeysOk keyOk → ∃ children, walker.enter c node = .ok children)

include henter in
/-- Visiting one value of a graph whose containers can all be opened. -/
theorem fails_value {n depth : ℕ} {r : Ref A} {openContainers : Finset A} {c : C}
    {work : List (Visit A C)} (hn : walker.limit + 1 - depth = n)
    (hopen : ∀ b ∈ openContainers, Reaches h b r) (hadmits : AdmitsWithin h leafOk keyOk n r)
    (hfails : Fails walker h openContainers (.value r depth c :: work) e) :
    LeafFails walker h leafOk r c e ∨ Fails walker h openContainers work e := by
  induction n generalizing r depth openContainers c work with
  | zero =>
      cases r with
      | node a => exact absurd hadmits not_admitsWithin_zero
      | atom x => exact fails_atom (admitsWithin_atom.mp hadmits) hfails
  | succ n ih =>
      cases r with
      | atom x => exact fails_atom (admitsWithin_atom.mp hadmits) hfails
      | node a =>
          have hdepth : ¬ walker.limit < depth := by omega
          have hmem : a ∉ openContainers := fun hmem =>
            not_admitsWithin_of_reaches (hopen a hmem) hadmits
          obtain ⟨hkeys, hbelow⟩ := admitsWithin_node.mp hadmits
          obtain ⟨children, hchildren⟩ := henter c (h a) hkeys
          have hstep : walkStep walker h ⟨openContainers, .value (.node a) depth c :: work⟩ =
              .ok (.inl ⟨insert a openContainers,
                childVisits children depth ++ .close a :: work⟩) := by
            simp [walkStep, hdepth, hmem, hchildren]
          have hmemChild : ∀ child ∈ children, child.1 ∈ (h a).children :=
            fun child hchild => (walker.enter_perm hchildren).mem_iff.mp
              (List.mem_map_of_mem hchild)
          have hinsert : ∀ child ∈ children, ∀ b ∈ insert a openContainers,
              Reaches h b child.1 := by
            intro child hchild b hb
            rcases Finset.mem_insert.mp hb with rfl | hb
            · exact .of_child (hmemChild child hchild)
            · exact (hopen b hb).child (hmemChild child hchild)
          have hvalue : ∀ child ∈ children, ∀ work,
              Fails walker h (insert a openContainers)
                (.value child.1 (depth + 1) child.2 :: work) e →
              LeafFails walker h leafOk child.1 child.2 e ∨
                Fails walker h (insert a openContainers) work e :=
            fun child hchild work => ih (by omega) (hinsert child hchild)
              (hbelow child.1 (hmemChild child hchild))
          rcases fails_childVisits hvalue ((fails_of_step hstep).mp hfails) with
            ⟨child, hchild, x, c', hgets, hx, hcheck⟩ | hrest
          · exact Or.inl ⟨x, c', .inside hchildren hchild hgets, hx, hcheck⟩
          · have hclose : walkStep walker h ⟨insert a openContainers, .close a :: work⟩ =
                .ok (.inl ⟨(insert a openContainers).erase a, work⟩) := rfl
            rw [fails_of_step hclose, Finset.erase_insert hmem] at hrest
            exact Or.inr hrest

include henter in
/-- A walk over a graph that unfolds within its limit, with keys it takes, fails only at a
scalar. -/
theorem leafFails_of_walk {root : Ref A} {c : C} {v : PyValue} (hv : Unfolds h root v)
    (hnesting : v.nesting ≤ walker.limit) (hadmits : v.Admits leafOk keyOk)
    (herror : walk walker h root c = .error e) : LeafFails walker h leafOk root c e := by
  have hwithin : AdmitsWithin h leafOk keyOk walker.limit root :=
    admitsWithin_iff.mpr ⟨v, hv, hnesting, hadmits⟩
  rcases fails_value henter (Nat.add_sub_cancel ..) (by simp) hwithin herror with hleaf | hnil
  · exact hleaf
  · exact absurd hnil not_fails_nil

end Errors

end TraigentSchema.Python
