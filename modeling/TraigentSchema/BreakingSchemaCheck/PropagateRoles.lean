import TraigentSchema.Library.VariantLoop

/-!
# Roles along references

A schema file inherits the request and response roles of the files that reference it.
`propagate_roles` passes roles along the edges of the reference graph until a whole pass
over the graph has added none.  The files and targets come in the order in which the dicts
and sets happen to be iterated.
-/

namespace TraigentSchema.BreakingSchemaCheck

open TraigentSchema.VariantLoop

section Roles

variable {File R : Type} [DecidableEq File] [DecidableEq R]

/-- A `defaultdict(set)`: the files with an entry, and their roles. -/
abbrev RoleMap (File R : Type) := File → Option (Finset R)

namespace RoleMap

/-- `roles[f]`, read. -/
def get (roles : RoleMap File R) (f : File) : Finset R :=
  (roles f).getD ∅

/-- `roles[f] |= added`. -/
def add (roles : RoleMap File R) (f : File) (added : Finset R) : RoleMap File R :=
  Function.update roles f (some (roles.get f ∪ added))

theorem get_add (roles : RoleMap File R) (f x : File) (added : Finset R) :
    (roles.add f added).get x = if x = f then roles.get f ∪ added else roles.get x := by
  by_cases hx : x = f
  · simp [get, add, hx]
  · simp [get, add, hx]

theorem subset_get_add (roles : RoleMap File R) (f x : File) (added : Finset R) :
    roles.get x ⊆ (roles.add f added).get x := by
  rw [get_add]
  split_ifs with hx
  · exact hx ▸ Finset.subset_union_left
  · rfl

end RoleMap

/-- The iteration over the targets of one file, with the flag `changed`. -/
def propagateTarget (f : File) (state : RoleMap File R × Bool) (t : File) :
    RoleMap File R × Bool :=
  let before := (state.1.get t).card
  let roles := state.1.add t (state.1.get f)
  (roles, state.2 || (roles.get t).card != before)

/-- One file of the graph; files without an entry are skipped. -/
def propagateFile (state : RoleMap File R × Bool) (entry : File × List File) :
    RoleMap File R × Bool :=
  match state.1 entry.1 with
  | none => state
  | some _ => entry.2.foldl (propagateTarget entry.1) state

/-- The body of the `while` loop. -/
def propagatePass (graph : List (File × List File)) (roles : RoleMap File R) :
    RoleMap File R × Bool :=
  graph.foldl propagateFile (roles, false)

/-- The roles of the files that `*_endpoints.json` name directly. -/
def directRoles (direct : List (File × Finset R)) : RoleMap File R :=
  direct.foldl (fun roles entry => roles.add entry.1 entry.2) fun _ => none

/-! ## What a pass does -/

/-- The file `f` references the file `t`. -/
def Edge (graph : List (File × List File)) (f t : File) : Prop :=
  ∃ targets, (f, targets) ∈ graph ∧ t ∈ targets

/-- Every file the graph mentions. -/
def files (graph : List (File × List File)) : Finset File :=
  (graph.flatMap fun entry => entry.1 :: entry.2).toFinset

omit [DecidableEq R] in
theorem Edge.mem_files {graph : List (File × List File)} {f t : File} (hedge : Edge graph f t) :
    f ∈ files graph ∧ t ∈ files graph := by
  obtain ⟨targets, hentry, htarget⟩ := hedge
  simp only [files, List.mem_toFinset, List.mem_flatMap]
  exact ⟨⟨_, hentry, List.mem_cons_self⟩, ⟨_, hentry, List.mem_cons_of_mem _ htarget⟩⟩

/-- The roles that some file of the graph has. -/
def usedRoles (graph : List (File × List File)) (roles : RoleMap File R) : Finset R :=
  (files graph).biUnion roles.get

/-- How many roles the files of the graph still lack. -/
def missingRoles (graph : List (File × List File)) (roles : RoleMap File R) : ℕ :=
  ∑ f ∈ files graph, (usedRoles graph roles \ roles.get f).card

/-- What holds between the roles before a pass and those in the middle of it. -/
structure Extends (graph : List (File × List File)) (roles : RoleMap File R)
    (state : RoleMap File R × Bool) : Prop where
  grows : ∀ x, roles.get x ⊆ state.1.get x
  /-- Every role comes along edges from a file that had it. -/
  reached : ∀ x, ∀ r ∈ state.1.get x,
    ∃ f, r ∈ roles.get f ∧ Relation.ReflTransGen (Edge graph) f x
  used : usedRoles graph state.1 = usedRoles graph roles
  changed : state.2 = true → ∃ x ∈ files graph, roles.get x ⊂ state.1.get x

theorem Extends.refl (graph : List (File × List File)) (roles : RoleMap File R) :
    Extends graph roles (roles, false) where
  grows _ := subset_rfl
  reached x _ hr := ⟨x, hr, .refl⟩
  used := rfl
  changed hchanged := absurd hchanged Bool.false_ne_true

theorem card_get_add_ne_iff {roles : RoleMap File R} {t : File} {added : Finset R} :
    ((roles.add t added).get t).card ≠ (roles.get t).card ↔ ¬ added ⊆ roles.get t := by
  rw [RoleMap.get_add, if_pos rfl, not_iff_not]
  constructor
  · intro hcard
    have hunion : roles.get t = roles.get t ∪ added :=
      Finset.eq_of_subset_of_card_le Finset.subset_union_left hcard.le
    exact Finset.union_eq_left.mp hunion.symm
  · exact fun hsubset => congrArg Finset.card (Finset.union_eq_left.mpr hsubset)

theorem Extends.target {graph : List (File × List File)} {roles : RoleMap File R}
    {state : RoleMap File R × Bool} {f t : File} (hextends : Extends graph roles state)
    (hedge : Edge graph f t) : Extends graph roles (propagateTarget f state t) := by
  have hf := hedge.mem_files.1
  have ht := hedge.mem_files.2
  have hgrows : ∀ x, state.1.get x ⊆ (state.1.add t (state.1.get f)).get x :=
    fun x => RoleMap.subset_get_add ..
  refine ⟨fun x => (hextends.grows x).trans (hgrows x), ?_, ?_, ?_⟩
  · intro x r hr
    simp only [propagateTarget, RoleMap.get_add] at hr
    split_ifs at hr with hx
    · rcases Finset.mem_union.mp hr with hr | hr
      · exact hx ▸ hextends.reached t r hr
      · obtain ⟨origin, horigin, hpath⟩ := hextends.reached f r hr
        exact ⟨origin, horigin, hx ▸ hpath.tail hedge⟩
    · exact hextends.reached x r hr
  · rw [← hextends.used]
    ext r
    simp only [usedRoles, Finset.mem_biUnion, propagateTarget]
    constructor
    · rintro ⟨x, hx, hr⟩
      rw [RoleMap.get_add] at hr
      split_ifs at hr with hxt
      · rcases Finset.mem_union.mp hr with hr | hr
        · exact ⟨t, ht, hr⟩
        · exact ⟨f, hf, hr⟩
      · exact ⟨x, hx, hr⟩
    · rintro ⟨x, hx, hr⟩
      exact ⟨x, hx, hgrows x hr⟩
  · intro hchanged
    simp only [propagateTarget, Bool.or_eq_true, bne_iff_ne, card_get_add_ne_iff] at hchanged
    rcases hchanged with hchanged | hadded
    · obtain ⟨x, hx, hlt⟩ := hextends.changed hchanged
      exact ⟨x, hx, hlt.trans_subset (hgrows x)⟩
    · refine ⟨t, ht, (hextends.grows t).trans_ssubset ?_⟩
      refine Finset.ssubset_iff_subset_ne.mpr ⟨hgrows t, fun heq => hadded ?_⟩
      have hget : state.1.get t = (state.1.add t (state.1.get f)).get t := heq
      rw [RoleMap.get_add, if_pos rfl] at hget
      exact Finset.union_eq_left.mp hget.symm

theorem Extends.file {graph : List (File × List File)} {roles : RoleMap File R}
    {state : RoleMap File R × Bool} {entry : File × List File}
    (hextends : Extends graph roles state) (hentry : entry ∈ graph) :
    Extends graph roles (propagateFile state entry) := by
  unfold propagateFile
  split
  · exact hextends
  · exact List.foldlRecOn entry.2 (propagateTarget entry.1) hextends
      fun state' hextends' t ht => hextends'.target ⟨entry.2, hentry, ht⟩

theorem extends_propagatePass (graph : List (File × List File)) (roles : RoleMap File R) :
    Extends graph roles (propagatePass graph roles) :=
  List.foldlRecOn graph propagateFile (Extends.refl graph roles)
    fun _ hextends _ hentry => hextends.file hentry

/-- A pass that adds a role leaves fewer of them missing. -/
theorem missingRoles_lt {graph : List (File × List File)} {roles : RoleMap File R}
    (hchanged : (propagatePass graph roles).2 = true) :
    missingRoles graph (propagatePass graph roles).1 < missingRoles graph roles := by
  have hextends := extends_propagatePass graph roles
  obtain ⟨x, hx, hgrown⟩ := hextends.changed hchanged
  rw [missingRoles, missingRoles, hextends.used]
  refine Finset.sum_lt_sum (fun y _ => ?_) ⟨x, hx, ?_⟩
  · exact Finset.card_le_card (Finset.sdiff_subset_sdiff subset_rfl (hextends.grows y))
  · obtain ⟨r, hr, hold⟩ := Finset.exists_of_ssubset hgrown
    have hused : r ∈ usedRoles graph roles :=
      hextends.used ▸ Finset.mem_biUnion.mpr ⟨x, hx, hr⟩
    refine Finset.card_lt_card (Finset.ssubset_iff_subset_ne.mpr
      ⟨Finset.sdiff_subset_sdiff subset_rfl (hextends.grows x), fun heq => ?_⟩)
    have hmissing := heq.symm ▸ Finset.mem_sdiff.mpr ⟨hused, hold⟩
    exact (Finset.mem_sdiff.mp hmissing).2 hr

/-- A state without a change is one that no iteration changed: nothing was added, and
nothing was there to add. -/
structure Settled (before after : RoleMap File R × Bool) : Prop where
  unflagged : before.2 = false
  same : ∀ x, after.1.get x = before.1.get x

theorem settled_propagateTarget {f t : File} {state : RoleMap File R × Bool}
    (hflag : (propagateTarget f state t).2 = false) :
    Settled state (propagateTarget f state t) ∧ state.1.get f ⊆ state.1.get t := by
  simp only [propagateTarget, Bool.or_eq_false_iff, bne_eq_false_iff_eq] at hflag
  have hsubset : state.1.get f ⊆ state.1.get t :=
    not_not.mp fun hadded => card_get_add_ne_iff.mpr hadded hflag.2
  refine ⟨⟨hflag.1, fun x => ?_⟩, hsubset⟩
  simp only [propagateTarget, RoleMap.get_add]
  split_ifs with hx
  · rw [Finset.union_eq_left.mpr hsubset, hx]
  · rfl

theorem settled_targets {f : File} {targets : List File} {state : RoleMap File R × Bool}
    (hflag : (targets.foldl (propagateTarget f) state).2 = false) :
    Settled state (targets.foldl (propagateTarget f) state) ∧
      ∀ t ∈ targets, state.1.get f ⊆ state.1.get t := by
  induction targets generalizing state with
  | nil => exact ⟨⟨hflag, fun _ => rfl⟩, by simp⟩
  | cons t targets ih =>
      obtain ⟨hrest, hclosed⟩ := ih hflag
      obtain ⟨hfirst, hsubset⟩ := settled_propagateTarget hrest.unflagged
      refine ⟨⟨hfirst.unflagged, fun x => (hrest.same x).trans (hfirst.same x)⟩, ?_⟩
      rw [List.forall_mem_cons]
      refine ⟨hsubset, fun t' ht' => ?_⟩
      rw [← hfirst.same f, ← hfirst.same t']
      exact hclosed t' ht'

theorem settled_propagateFile {entry : File × List File} {state : RoleMap File R × Bool}
    (hflag : (propagateFile state entry).2 = false) :
    Settled state (propagateFile state entry) ∧
      ∀ t ∈ entry.2, state.1.get entry.1 ⊆ state.1.get t := by
  unfold propagateFile at hflag ⊢
  cases hentry : state.1 entry.1 with
  | none =>
      simp only [hentry] at hflag ⊢
      have hempty : state.1.get entry.1 = ∅ := by rw [RoleMap.get, hentry, Option.getD_none]
      exact ⟨⟨hflag, fun _ => rfl⟩, fun t _ => hempty ▸ Finset.empty_subset _⟩
  | some rs =>
      simp only [hentry] at hflag ⊢
      exact settled_targets hflag

/-- After a pass without a change the roles are closed under the edges. -/
theorem settled_pass {graph : List (File × List File)} {state : RoleMap File R × Bool}
    (hflag : (graph.foldl propagateFile state).2 = false) :
    Settled state (graph.foldl propagateFile state) ∧
      ∀ f t, Edge graph f t → state.1.get f ⊆ state.1.get t := by
  induction graph generalizing state with
  | nil => exact ⟨⟨hflag, fun _ => rfl⟩, fun f t ⟨_, hentry, _⟩ => absurd hentry (by simp)⟩
  | cons entry graph ih =>
      obtain ⟨hrest, hclosed⟩ := ih hflag
      obtain ⟨hfirst, hsubset⟩ := settled_propagateFile hrest.unflagged
      refine ⟨⟨hfirst.unflagged, fun x => (hrest.same x).trans (hfirst.same x)⟩, ?_⟩
      rintro f t ⟨targets, hentry, htarget⟩
      rcases List.mem_cons.mp hentry with rfl | hentry
      · exact hsubset t htarget
      · rw [← hfirst.same f, ← hfirst.same t]
        exact hclosed f t ⟨targets, hentry, htarget⟩

/-- The `while` loop. -/
def propagateLoop (graph : List (File × List File)) :
    Loop (RoleMap File R) Empty (RoleMap File R) where
  step roles :=
    let (roles', changed) := propagatePass graph roles
    .ok (if changed then .inl roles' else .inr roles')
  variant := missingRoles graph
  decreases {roles roles'} hstep := by
    cases hchanged : (propagatePass graph roles).2 with
    | false => simp [hchanged] at hstep
    | true =>
        simp only [hchanged, if_true, Except.ok.injEq, Sum.inl.injEq] at hstep
        exact hstep ▸ missingRoles_lt hchanged

def propagateRoles (direct : List (File × Finset R)) (graph : List (File × List File)) :
    RoleMap File R :=
  match run (propagateLoop graph) (directRoles direct) with
  | .ok roles => roles
  | .error e => e.elim

/-! ## Roles are reachability -/

/-- The endpoints give the file `f` the role `r` themselves. -/
def DirectRole (direct : List (File × Finset R)) (f : File) (r : R) : Prop :=
  ∃ rs, (f, rs) ∈ direct ∧ r ∈ rs

theorem mem_get_directRoles {direct : List (File × Finset R)} {f : File} {r : R} :
    r ∈ (directRoles direct).get f ↔ DirectRole direct f r := by
  have hfold : ∀ (direct : List (File × Finset R)) (roles : RoleMap File R),
      r ∈ (direct.foldl (fun roles entry => roles.add entry.1 entry.2) roles).get f ↔
        r ∈ roles.get f ∨ DirectRole direct f r := by
    intro direct
    induction direct with
    | nil => simp [DirectRole]
    | cons entry direct ih =>
        obtain ⟨file, rs⟩ := entry
        intro roles
        rw [List.foldl_cons, ih, RoleMap.get_add]
        split_ifs with hf
        · subst hf
          simp only [Finset.mem_union, or_assoc, DirectRole, List.mem_cons, Prod.mk.injEq,
            true_and, or_and_right, exists_or, exists_eq_left]
        · simp [DirectRole, hf]
  rw [directRoles, hfold]
  simp [RoleMap.get]

/-- What the loop keeps. -/
structure Derived (direct : List (File × Finset R)) (graph : List (File × List File))
    (roles : RoleMap File R) : Prop where
  starts : ∀ f r, DirectRole direct f r → r ∈ roles.get f
  derived : ∀ t, ∀ r ∈ roles.get t,
    ∃ f, DirectRole direct f r ∧ Relation.ReflTransGen (Edge graph) f t

theorem derived_directRoles (direct : List (File × Finset R))
    (graph : List (File × List File)) : Derived direct graph (directRoles direct) where
  starts _ _ hdirect := mem_get_directRoles.mpr hdirect
  derived t _ hr := ⟨t, mem_get_directRoles.mp hr, .refl⟩

theorem Derived.pass {direct : List (File × Finset R)} {graph : List (File × List File)}
    {roles : RoleMap File R} (hderived : Derived direct graph roles) :
    Derived direct graph (propagatePass graph roles).1 := by
  have hextends := extends_propagatePass graph roles
  refine ⟨fun f r hdirect => hextends.grows f (hderived.starts f r hdirect), ?_⟩
  intro t r hr
  obtain ⟨f, hf, hpath⟩ := hextends.reached t r hr
  obtain ⟨origin, horigin, hpath'⟩ := hderived.derived f r hf
  exact ⟨origin, horigin, hpath'.trans hpath⟩

theorem propagateRoles_eq {direct : List (File × Finset R)} {graph : List (File × List File)} :
    run (propagateLoop graph) (directRoles direct) = .ok (propagateRoles direct graph) := by
  unfold propagateRoles
  cases run (propagateLoop graph) (directRoles direct) with
  | ok roles => rfl
  | error e => exact e.elim

/-- The loop leaves with roles that are derived and closed under the edges. -/
theorem derived_propagateRoles (direct : List (File × Finset R))
    (graph : List (File × List File)) :
    Derived direct graph (propagateRoles direct graph) ∧
      ∀ f t, Edge graph f t →
        (propagateRoles direct graph).get f ⊆ (propagateRoles direct graph).get t := by
  refine run_invariant (propagateLoop graph) (Derived direct graph)
    (fun result => Derived direct graph result ∧
      ∀ f t, Edge graph f t → result.get f ⊆ result.get t) ?_ ?_
    (derived_directRoles direct graph) propagateRoles_eq
  · intro roles roles' hderived hstep
    cases hchanged : (propagatePass graph roles).2 with
    | false => simp [propagateLoop, hchanged] at hstep
    | true =>
        simp only [propagateLoop, hchanged, if_true, Except.ok.injEq, Sum.inl.injEq] at hstep
        exact hstep ▸ hderived.pass
  · intro roles result hderived hstep
    cases hchanged : (propagatePass graph roles).2 with
    | true => simp [propagateLoop, hchanged] at hstep
    | false =>
        simp only [propagateLoop, hchanged, Bool.false_eq_true, if_false, Except.ok.injEq,
          Sum.inr.injEq] at hstep
        obtain ⟨hsettled, hclosed⟩ := settled_pass hchanged
        refine ⟨hstep ▸ hderived.pass, fun f t hedge => ?_⟩
        have hsame : ∀ x, result.get x = roles.get x := fun x => hstep ▸ hsettled.same x
        rw [hsame, hsame]
        exact hclosed f t hedge

/-- A file has the roles of the files it is reachable from. -/
theorem mem_propagateRoles_iff {direct : List (File × Finset R)}
    {graph : List (File × List File)} {t : File} {r : R} :
    r ∈ (propagateRoles direct graph).get t ↔
      ∃ f, DirectRole direct f r ∧ Relation.ReflTransGen (Edge graph) f t := by
  obtain ⟨hderived, hclosed⟩ := derived_propagateRoles direct graph
  constructor
  · exact hderived.derived t r
  · rintro ⟨f, hdirect, hpath⟩
    induction hpath with
    | refl => exact hderived.starts f r hdirect
    | tail _ hedge ih => exact hclosed _ _ hedge ih

/-! ## The entries of the result -/

/-- No file has an entry without a role. -/
def NoEmptyEntry (roles : RoleMap File R) : Prop :=
  ∀ f rs, roles f = some rs → rs.Nonempty

theorem NoEmptyEntry.add {roles : RoleMap File R} {f : File} {added : Finset R}
    (hroles : NoEmptyEntry roles) (hadded : added.Nonempty) :
    NoEmptyEntry (roles.add f added) := by
  intro x rs hx
  by_cases hxf : x = f
  · subst hxf
    simp only [RoleMap.add, Function.update_self, Option.some.injEq] at hx
    exact hx ▸ hadded.mono Finset.subset_union_right
  · rw [RoleMap.add, Function.update_of_ne hxf] at hx
    exact hroles x rs hx

theorem NoEmptyEntry.file {state : RoleMap File R × Bool} {entry : File × List File}
    (hstate : NoEmptyEntry state.1) : NoEmptyEntry (propagateFile state entry).1 := by
  unfold propagateFile
  split
  · exact hstate
  · rename_i rs hrs
    have hget : (state.1.get entry.1).Nonempty := by
      rw [RoleMap.get, hrs, Option.getD_some]
      exact hstate _ _ hrs
    refine (List.foldlRecOn (motive := fun state' : RoleMap File R × Bool =>
      NoEmptyEntry state'.1 ∧ (state'.1.get entry.1).Nonempty) entry.2
        (propagateTarget entry.1) ⟨hstate, hget⟩ ?_).1
    rintro state' ⟨hstate', hget'⟩ t -
    exact ⟨hstate'.add hget', hget'.mono (RoleMap.subset_get_add ..)⟩

theorem noEmptyEntry_propagateRoles {direct : List (File × Finset R)}
    {graph : List (File × List File)} (hdirect : ∀ entry ∈ direct, entry.2.Nonempty) :
    NoEmptyEntry (propagateRoles direct graph) := by
  have hpass : ∀ roles : RoleMap File R, NoEmptyEntry roles →
      NoEmptyEntry (propagatePass graph roles).1 := fun roles hroles =>
    List.foldlRecOn (motive := fun state : RoleMap File R × Bool => NoEmptyEntry state.1) graph
      propagateFile hroles fun _ hstate _ _ => hstate.file
  have hstart : NoEmptyEntry (directRoles direct) :=
    List.foldlRecOn (motive := NoEmptyEntry) direct
      (fun roles entry => roles.add entry.1 entry.2) (by simp [NoEmptyEntry])
      fun _ hroles entry hentry => hroles.add (hdirect entry hentry)
  refine run_invariant (propagateLoop graph) NoEmptyEntry NoEmptyEntry ?_ ?_ hstart
    propagateRoles_eq
  · intro roles roles' hroles hstep
    cases hchanged : (propagatePass graph roles).2 with
    | false => simp [propagateLoop, hchanged] at hstep
    | true =>
        simp only [propagateLoop, hchanged, if_true, Except.ok.injEq, Sum.inl.injEq] at hstep
        exact hstep ▸ hpass roles hroles
  · intro roles result hroles hstep
    cases hchanged : (propagatePass graph roles).2 with
    | true => simp [propagateLoop, hchanged] at hstep
    | false =>
        simp only [propagateLoop, hchanged, Bool.false_eq_true, if_false, Except.ok.injEq,
          Sum.inr.injEq] at hstep
        exact hstep ▸ hpass roles hroles

omit [DecidableEq File] [DecidableEq R] in
theorem NoEmptyEntry.ext {roles roles' : RoleMap File R} (hroles : NoEmptyEntry roles)
    (hroles' : NoEmptyEntry roles') (hget : ∀ f, roles.get f = roles'.get f) :
    roles = roles' := by
  funext f
  have hf := hget f
  unfold RoleMap.get at hf
  cases hleft : roles f with
  | none =>
      cases hright : roles' f with
      | none => rfl
      | some rs =>
          rw [hleft, hright, Option.getD_none, Option.getD_some] at hf
          exact absurd (hf ▸ hroles' f rs hright) Finset.not_nonempty_empty
  | some rs =>
      cases hright : roles' f with
      | none =>
          rw [hleft, hright, Option.getD_none, Option.getD_some] at hf
          exact absurd (hf ▸ hroles f rs hleft) Finset.not_nonempty_empty
      | some rs' =>
          rw [hleft, hright, Option.getD_some, Option.getD_some] at hf
          rw [hf]

/-- A file gets a role exactly when it is reachable from a file that has the role directly.
The order in which dicts and sets are iterated decides at most which files without any role
have an entry, and nothing at all when every direct entry names a role. -/
theorem propagateRoles_is_reachability (direct : List (File × Finset R))
    (graph : List (File × List File)) :
    (∀ t r, r ∈ (propagateRoles direct graph).get t ↔
      ∃ f, DirectRole direct f r ∧ Relation.ReflTransGen (Edge graph) f t) ∧
    ∀ (direct' : List (File × Finset R)) (graph' : List (File × List File)),
      (∀ f r, DirectRole direct f r ↔ DirectRole direct' f r) →
      (∀ f t, Edge graph f t ↔ Edge graph' f t) →
      (∀ t, (propagateRoles direct graph).get t = (propagateRoles direct' graph').get t) ∧
      ((∀ entry ∈ direct ++ direct', entry.2.Nonempty) →
        propagateRoles direct graph = propagateRoles direct' graph') := by
  refine ⟨fun t r => mem_propagateRoles_iff, fun direct' graph' hdirect hgraph => ?_⟩
  have hedge : Edge graph = Edge graph' := by
    funext f t
    exact propext (hgraph f t)
  have hget : ∀ t, (propagateRoles direct graph).get t =
      (propagateRoles direct' graph').get t := by
    intro t
    ext r
    rw [mem_propagateRoles_iff, mem_propagateRoles_iff, hedge]
    simp only [hdirect]
  refine ⟨hget, fun hentries => ?_⟩
  rw [List.forall_mem_append] at hentries
  exact (noEmptyEntry_propagateRoles hentries.1).ext
    (noEmptyEntry_propagateRoles hentries.2) hget

end Roles

/-- A direct entry without roles reaches `c` in one order of the graph and not in the
other. -/
theorem propagateRoles_depends_on_order :
    propagateRoles [("a", (∅ : Finset String))] [("a", ["b"]), ("b", ["c"])] "c" = some ∅ ∧
      propagateRoles [("a", (∅ : Finset String))] [("b", ["c"]), ("a", ["b"])] "c" = none := by
  decide +kernel

theorem propagateRoles_is_reachability_cycle :
    propagateRoles [("a", {"request"})] [("a", ["b"]), ("b", ["a", "b"])] =
      propagateRoles [("a", {"request"})] [("b", ["b", "a"]), ("a", ["b"])] :=
  (((propagateRoles_is_reachability [("a", {"request"})]
    [("a", ["b"]), ("b", ["a", "b"])]).2 [("a", {"request"})]
      [("b", ["b", "a"]), ("a", ["b"])] (fun _ _ => Iff.rfl) (by
        intro f t
        simp only [Edge, List.mem_cons, Prod.mk.injEq, List.not_mem_nil, or_false]
        constructor <;> rintro ⟨targets, ⟨rfl, rfl⟩ | ⟨rfl, rfl⟩, ht⟩ <;>
          simp_all [or_comm])).2
    (by simp))

end TraigentSchema.BreakingSchemaCheck
