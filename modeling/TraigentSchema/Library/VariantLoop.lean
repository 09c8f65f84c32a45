import Mathlib

/-!
# While loops with a variant

A loop is a step on a state that either raises, goes on with a new state or
leaves with a result, together with a natural number that every iteration
lowers.  Running such a loop is a total function, unfolds by one step, and obeys
the usual invariant rule.
-/

namespace TraigentSchema.VariantLoop

structure Loop (S E R : Type*) where
  step : S → Except E (S ⊕ R)
  variant : S → ℕ
  decreases : ∀ {s s'}, step s = .ok (.inl s') → variant s' < variant s

variable {S E R : Type*}

/-- At most `bound` iterations; the variant keeps the bound from running out. -/
def runWithin (loop : Loop S E R) : (bound : ℕ) → (s : S) →
    loop.variant s < bound → Except E R
  | 0, _, hbound => absurd hbound (Nat.not_lt_zero _)
  | bound + 1, s, hbound =>
      match hstep : loop.step s with
      | .error e => .error e
      | .ok (.inr result) => .ok result
      | .ok (.inl s') =>
          runWithin loop bound s'
            ((loop.decreases hstep).trans_le (Nat.le_of_lt_succ hbound))

def run (loop : Loop S E R) (s : S) : Except E R :=
  runWithin loop (loop.variant s + 1) s (Nat.lt_succ_self _)

private theorem runWithin_irrel (loop : Loop S E R) {bound bound' : ℕ} {s : S}
    (hbound : loop.variant s < bound) (hbound' : loop.variant s < bound') :
    runWithin loop bound s hbound = runWithin loop bound' s hbound' := by
  induction bound generalizing bound' s with
  | zero => exact absurd hbound (Nat.not_lt_zero _)
  | succ bound ih =>
      cases bound' with
      | zero => exact absurd hbound' (Nat.not_lt_zero _)
      | succ bound' =>
          simp only [runWithin]
          split
          · rfl
          · rfl
          · exact ih _ _

section Unfolding

variable (loop : Loop S E R) {s s' : S} {e : E} {result : R}

theorem run_of_error (hstep : loop.step s = .error e) :
    run loop s = .error e := by
  simp only [run, runWithin]
  split <;> simp_all

theorem run_of_exit (hstep : loop.step s = .ok (.inr result)) :
    run loop s = .ok result := by
  simp only [run, runWithin]
  split <;> simp_all

theorem run_of_step (hstep : loop.step s = .ok (.inl s')) :
    run loop s = run loop s' := by
  have hone : run loop s =
      runWithin loop (loop.variant s) s' (loop.decreases hstep) := by
    rw [run, runWithin]
    split
    · simp_all
    · simp_all
    · rename_i next hnext
      obtain rfl : s' = next := by simpa [hstep] using hnext
      rfl
  exact hone.trans (runWithin_irrel loop _ _)

end Unfolding

/-- What holds at the start and is kept by each iteration holds when the loop
leaves. -/
theorem run_invariant (loop : Loop S E R) (Inv : S → Prop) (Post : R → Prop)
    (hstep : ∀ s s', Inv s → loop.step s = .ok (.inl s') → Inv s')
    (hexit : ∀ s result, Inv s → loop.step s = .ok (.inr result) → Post result)
    {s : S} {result : R} (hinv : Inv s) (hrun : run loop s = .ok result) :
    Post result := by
  induction hvariant : loop.variant s using Nat.strong_induction_on
    generalizing s with
  | _ variant ih =>
      cases hnext : loop.step s with
      | error e => simp [run_of_error loop hnext] at hrun
      | ok next =>
          cases next with
          | inl s' =>
              rw [run_of_step loop hnext] at hrun
              exact ih _ (hvariant ▸ loop.decreases hnext)
                (hstep s s' hinv hnext) hrun rfl
          | inr leaving =>
              rw [run_of_exit loop hnext, Except.ok.injEq] at hrun
              exact hrun ▸ hexit s leaving hinv hnext

/-- What a loop raises is raised by one of its iterations. -/
theorem run_error (loop : Loop S E R) {P : E → Prop}
    (hstep : ∀ s e, loop.step s = .error e → P e) {s : S} {e : E}
    (hrun : run loop s = .error e) : P e := by
  induction hvariant : loop.variant s using Nat.strong_induction_on
    generalizing s with
  | _ variant ih =>
      cases hnext : loop.step s with
      | error raised =>
          rw [run_of_error loop hnext, Except.error.injEq] at hrun
          exact hrun ▸ hstep s raised hnext
      | ok next =>
          cases next with
          | inl s' =>
              rw [run_of_step loop hnext] at hrun
              exact ih _ (hvariant ▸ loop.decreases hnext) hrun rfl
          | inr leaving => simp [run_of_exit loop hnext] at hrun

end TraigentSchema.VariantLoop
