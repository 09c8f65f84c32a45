import Mathlib

/-!
# Fallible computations and lists of them

How `Except` computations run and what is left of them when the error is
forgotten.  `List.mapM` in `Option` and in `Except` succeeds exactly when every
element does, with the results in order.
-/

namespace TraigentSchema.Traverse

section Except

variable {A B E : Type}

@[simp]
theorem ok_bind (a : A) (f : A → Except E B) : (Except.ok a >>= f) = f a := rfl

@[simp]
theorem error_bind (e : E) (f : A → Except E B) :
    (Except.error e >>= f) = .error e := rfl

@[simp]
theorem pure_eq_ok (a : A) : (pure a : Except E A) = .ok a := rfl

@[simp]
theorem throw_eq_error (e : E) : (throw e : Except E A) = .error e := rfl

@[simp]
theorem toOption_ok (a : A) : (Except.ok a : Except E A).toOption = some a := rfl

@[simp]
theorem toOption_error (e : E) : (Except.error e : Except E A).toOption = none := rfl

/-- Only a returned value is left when the error is forgotten. -/
theorem toOption_eq_some_iff {result : Except E A} {a : A} :
    result.toOption = some a ↔ result = .ok a := by
  cases result <;> simp

/-- A sequence returns exactly when both of its parts do. -/
theorem bind_eq_ok_iff {result : Except E A} {f : A → Except E B} {b : B} :
    (result >>= f) = .ok b ↔ ∃ a, result = .ok a ∧ f a = .ok b := by
  cases result <;> simp

/-- A sequence fails in its first part, or in the second after the first has returned. -/
theorem bind_eq_error_iff {result : Except E A} {f : A → Except E B} {e : E} :
    (result >>= f) = .error e ↔
      result = .error e ∨ ∃ a, result = .ok a ∧ f a = .error e := by
  cases result <;> simp

/-- A check before a computation has to pass, and nothing else. -/
theorem unit_bind_eq_ok_iff {result : Except E Unit} {f : Unit → Except E B} {b : B} :
    (result >>= f) = .ok b ↔ result = .ok () ∧ f () = .ok b := by
  cases result <;> simp

/-- A loop of checks passes exactly when each of them does, in whatever order they run. -/
theorem forM_eq_ok_iff {rows : List A} {f : A → Except E Unit} {u : Unit} :
    forM rows f = .ok u ↔ ∀ row ∈ rows, f row = .ok () := by
  induction rows with
  | nil => simp
  | cons row rows ih =>
      rw [List.forM_cons, bind_eq_ok_iff, List.forall_mem_cons]
      constructor
      · rintro ⟨_, hrow, hrows⟩
        exact ⟨hrow, ih.mp hrows⟩
      · rintro ⟨hrow, hrows⟩
        exact ⟨(), hrow, ih.mpr hrows⟩

end Except

variable {A B C E : Type*}

/-- A traversal has a result exactly when each row has one, and the results stand in the same
places. -/
theorem mapM_eq_some_iff {f : A → Option B} {rows : List A} {results : List B} :
    rows.mapM f = some results ↔
      List.Forall₂ (fun row result => f row = some result) rows results := by
  induction rows generalizing results with
  | nil => cases results <;> simp
  | cons row rows ih =>
      rw [List.mapM_cons]
      cases hrow : f row with
      | none => cases results <;> simp [hrow]
      | some value =>
          cases hrows : rows.mapM f with
          | none => cases results <;> simp [← ih, hrows]
          | some values => cases results <;> simp [← ih, hrow, hrows]

/-- As for `Option`: the results of a traversal are those of its rows, in their order. -/
theorem mapM_eq_ok_iff {f : A → Except E B} {rows : List A} {results : List B} :
    rows.mapM f = .ok results ↔
      List.Forall₂ (fun row result => f row = .ok result) rows results := by
  induction rows generalizing results with
  | nil => cases results <;> simp [pure, Except.pure]
  | cons row rows ih =>
      rw [List.mapM_cons]
      cases hrow : f row with
      | error e => cases results <;> simp [bind, Except.bind, hrow]
      | ok value =>
          cases hrows : rows.mapM f with
          | error e => cases results <;> simp [bind, Except.bind, ← ih, hrows]
          | ok values =>
              cases results <;>
                simp [bind, Except.bind, pure, Except.pure, ← ih, hrow, hrows]

/-- What is paired holds of a member of the left list and of some member of the right one. -/
theorem exists_of_mem_left {P : A → B → Prop} {rows : List A} {values : List B}
    (hrows : List.Forall₂ P rows values) {row : A} (hrow : row ∈ rows) :
    ∃ value ∈ values, P row value := by
  induction hrows with
  | nil => cases hrow
  | cons hhead _ ih =>
      rcases List.mem_cons.mp hrow with rfl | hrow
      · exact ⟨_, by simp, hhead⟩
      · obtain ⟨value, hvalue, hp⟩ := ih hrow
        exact ⟨value, List.mem_cons_of_mem _ hvalue, hp⟩

theorem exists_of_mem_right {P : A → B → Prop} {rows : List A} {values : List B}
    (hrows : List.Forall₂ P rows values) {value : B} (hvalue : value ∈ values) :
    ∃ row ∈ rows, P row value :=
  exists_of_mem_left hrows.flip hvalue

/-- A relation between two lists may be weakened where the members are known. -/
theorem forall₂_imp_of_mem {P Q : A → B → Prop} {rows : List A} {values : List B}
    (hrows : List.Forall₂ P rows values)
    (himp : ∀ row ∈ rows, ∀ value ∈ values, P row value → Q row value) :
    List.Forall₂ Q rows values := by
  induction hrows with
  | nil => exact .nil
  | cons hhead _ ih =>
      exact .cons (himp _ (by simp) _ (by simp) hhead)
        (ih fun row hrow value hvalue => himp row (List.mem_cons_of_mem _ hrow)
          value (List.mem_cons_of_mem _ hvalue))

/-- Rows that each have a value have a list of values. -/
theorem forall₂_of_forall_exists {P : A → B → Prop} {rows : List A}
    (hrows : ∀ row ∈ rows, ∃ value, P row value) :
    ∃ values, List.Forall₂ P rows values := by
  induction rows with
  | nil => exact ⟨[], .nil⟩
  | cons row rows ih =>
      obtain ⟨value, hvalue⟩ := hrows row (by simp)
      obtain ⟨values, hvalues⟩ := ih fun r hr => hrows r (List.mem_cons_of_mem _ hr)
      exact ⟨value :: values, .cons hvalue hvalues⟩

/-- Two images are one list exactly when the lists are paired by the equality of images. -/
theorem map_eq_map_iff_forall₂ {f : A → C} {g : B → C} {rows : List A}
    {values : List B} :
    rows.map f = values.map g ↔
      List.Forall₂ (fun row value => f row = g value) rows values := by
  calc
    rows.map f = values.map g ↔ List.Forall₂ Eq (rows.map f) (values.map g) := by
      rw [List.forall₂_eq_eq_eq]
    _ ↔ List.Forall₂ (fun row value => f row = g value) rows values := by
      rw [List.forall₂_map_left_iff, List.forall₂_map_right_iff]

/-- Two pairings go through a zip side by side. -/
theorem forall₂_zip_zip {D : Type*} {P : A → B → Prop} {Q : C → D → Prop} {rows : List A}
    {values : List B} {others : List C} {results : List D}
    (hrows : List.Forall₂ P rows values) (hothers : List.Forall₂ Q others results) :
    List.Forall₂ (fun pair result => P pair.1 result.1 ∧ Q pair.2 result.2)
      (rows.zip others) (values.zip results) := by
  induction hrows generalizing others results with
  | nil => simp
  | cons hhead _ ih =>
      cases hothers with
      | nil => simp
      | cons hother hothers => exact .cons ⟨hhead, hother⟩ (ih hothers)

/-- Two lists paired with one list are paired with each other. -/
theorem forall₂_of_common {P : A → B → Prop} {Q : A → C → Prop} {R : B → C → Prop}
    {rows : List A} {values : List B} {results : List C} (hvalues : List.Forall₂ P rows values)
    (hresults : List.Forall₂ Q rows results)
    (himp : ∀ row ∈ rows, ∀ value ∈ values, ∀ result, P row value → Q row result →
      R value result) : List.Forall₂ R values results := by
  induction hvalues generalizing results with
  | nil =>
      cases hresults
      exact .nil
  | cons hhead _ ih =>
      cases hresults with
      | cons hresult hresults =>
          refine .cons (himp _ (by simp) _ (by simp) _ hhead hresult) (ih hresults ?_)
          intro row hrow value hvalue
          exact himp row (List.mem_cons_of_mem _ hrow) value (List.mem_cons_of_mem _ hvalue)

end TraigentSchema.Traverse
