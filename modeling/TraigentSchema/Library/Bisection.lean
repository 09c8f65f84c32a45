import Mathlib

/-!
# Integer bisection

The two forms of a bisection on a decidable predicate of the integers.  One keeps
a lower end at which the predicate holds and finds the last integer where it
does, the other keeps an upper end and finds the first.  Where the predicate
agrees on the interval with being below, respectively above, a threshold of the
interval, that threshold is the result.
-/

namespace TraigentSchema.Bisection

variable (holds : ℤ → Bool)

/-- Lower end kept, middle rounded up. -/
def bisectLast (low high : ℤ) : ℤ :=
  if low < high then
    let mid := (low + high + 1) / 2
    if holds mid then bisectLast mid high else bisectLast low (mid - 1)
  else low
termination_by (high - low).toNat

/-- Upper end kept, middle rounded down. -/
def bisectFirst (low high : ℤ) : ℤ :=
  if low < high then
    let mid := (low + high) / 2
    if holds mid then bisectFirst low mid else bisectFirst (mid + 1) high
  else low
termination_by (high - low).toNat

variable {holds} {low high threshold : ℤ}

theorem bisectLast_eq (hlow : low ≤ threshold) (hhigh : threshold ≤ high)
    (hholds : ∀ e, low ≤ e → e ≤ high → (holds e = true ↔ e ≤ threshold)) :
    bisectLast holds low high = threshold := by
  fun_induction bisectLast holds low high with
  | case1 low high hlt mid hmid ih =>
      have hle : mid ≤ threshold := (hholds mid (by omega) (by omega)).mp hmid
      apply ih hle hhigh
      intro e hlower hupper
      exact hholds e (by omega) hupper
  | case2 low high hlt mid hmid ih =>
      have hgt : ¬ mid ≤ threshold := fun hle =>
        hmid ((hholds mid (by omega) (by omega)).mpr hle)
      apply ih hlow (by omega)
      intro e hlower hupper
      exact hholds e hlower (by omega)
  | case3 low high hlt => omega

theorem bisectFirst_eq (hlow : low ≤ threshold) (hhigh : threshold ≤ high)
    (hholds : ∀ e, low ≤ e → e ≤ high → (holds e = true ↔ threshold ≤ e)) :
    bisectFirst holds low high = threshold := by
  fun_induction bisectFirst holds low high with
  | case1 low high hlt mid hmid ih =>
      have hle : threshold ≤ mid := (hholds mid (by omega) (by omega)).mp hmid
      apply ih hlow hle
      intro e hlower hupper
      exact hholds e hlower (by omega)
  | case2 low high hlt mid hmid ih =>
      have hgt : ¬ threshold ≤ mid := fun hle =>
        hmid ((hholds mid (by omega) (by omega)).mpr hle)
      apply ih (by omega) hhigh
      intro e hlower hupper
      exact hholds e (by omega) hupper
  | case3 low high hlt => omega

end TraigentSchema.Bisection
