import Mathlib

/-!
# Histories

The states a system has been in, the newest first.  Each state is accepted against the one
before it; a relation that every accepted step establishes and that composes holds between
the newest state and all earlier ones.
-/

namespace TraigentSchema.Histories

variable {S : Type*} {start : S → Prop} {step : S → S → Prop}

/-- A first state, and steps from each state to the next. -/
inductive History (start : S → Prop) (step : S → S → Prop) : List S → Prop
  | start {s : S} (hstart : start s) : History start step [s]
  | step {s s' : S} {earlier : List S} (hhistory : History start step (s :: earlier))
      (hstep : step s s') : History start step (s' :: s :: earlier)

theorem History.newest_of_trans {R : S → S → Prop}
    (htrans : ∀ {s s' s''}, R s s' → R s' s'' → R s s'')
    (hpreserve : ∀ {s s'}, step s s' → R s s') {s : S} {earlier : List S}
    (hhistory : History start step (s :: earlier)) : ∀ s₀ ∈ earlier, R s₀ s := by
  induction earlier generalizing s with
  | nil => simp
  | cons previous earlier ih =>
      cases hhistory with
      | step hhistory hstep =>
          intro s₀ hs₀
          cases hs₀ with
          | head => exact hpreserve hstep
          | tail _ hs₀ => exact htrans (ih hhistory s₀ hs₀) (hpreserve hstep)

/-- The beginning of a history is a history. -/
theorem History.suffix {states : List S} (hhistory : History start step states) {s : S}
    {earlier : List S} (hsuffix : s :: earlier <:+ states) :
    History start step (s :: earlier) := by
  induction hhistory with
  | start hstart =>
      obtain ⟨rfl, rfl⟩ : s = _ ∧ earlier = [] := by
        simpa [List.suffix_cons_iff] using hsuffix
      exact .start hstart
  | step hhistory hstep ih =>
      rw [List.suffix_cons_iff] at hsuffix
      cases hsuffix with
      | inl heq =>
          obtain ⟨rfl, rfl⟩ := List.cons.inj heq
          exact .step hhistory hstep
      | inr hsuffix => exact ih hsuffix

/-- What the first state satisfies and every step preserves, with all that came before. -/
theorem History.invariant {P : S → List S → Prop} (hfirst : ∀ {s}, start s → P s [])
    (hpreserve : ∀ {s s' earlier}, History start step (s :: earlier) → P s earlier →
      step s s' → P s' (s :: earlier)) {s : S} {earlier : List S}
    (hhistory : History start step (s :: earlier)) : P s earlier := by
  induction earlier generalizing s with
  | nil =>
      cases hhistory with
      | start hstart => exact hfirst hstart
  | cons previous earlier ih =>
      cases hhistory with
      | step hhistory hstep => exact hpreserve hhistory (ih hhistory) hstep

end TraigentSchema.Histories
