import TraigentSchema.AgentCertificate.Preparation
import TraigentSchema.Python.HeapWalk

/-!
# The preflight on object graphs

Before a prepared projection is validated it is measured: a loop over the object graph counts
the values it visits and adds up an estimate of their encoded size.  The loop ends on every
graph; it passes exactly the graphs that unfold to a tree within the limits, and the estimate
of a tree bounds the UTF-8 form of its canonical text.
-/

namespace TraigentSchema.AgentCertificate

open TraigentSchema.Unicode
open TraigentSchema.Binary64
open TraigentSchema.Certification
open TraigentSchema.Fp2
open TraigentSchema.JsonText (commaSeparated arrayText leftBrace rightBrace colon)
open TraigentSchema.Python
open TraigentSchema.Traverse
open TraigentSchema.VariantLoop

/-! ## The loop -/

section Loop

variable {A : Type}

/-- The size of a container and its children, the next one to visit first. -/
def preflightContainer : Node A → Checked (ℕ × List (Ref A))
  | .list items => .ok (2 + items.length, items.reverse)
  | .dict members => do
      let keys ← members.items.mapM fun member => preflightKeySize member.1
      return (2 + keys.sum, (members.items.map Prod.snd).reverse)

structure PreflightState (A : Type) where
  active : Finset A
  estimatedSize : ℕ
  nodes : ℕ
  /-- The next entry first. -/
  pending : List (Visit A Unit)

def pushChildren (children : List (Ref A)) (depth : ℕ) : List (Visit A Unit) :=
  children.map fun child => .value child (depth + 1) ()

variable [DecidableEq A]

/-- What one visit adds to the estimate, and the entries it pushes. -/
def preflightVisit (h : Heap A) (active : Finset A) (depth : ℕ) :
    Ref A → Checked (ℕ × Finset A × List (Visit A Unit))
  | .atom x => do
      let size ← preflightScalarSize x
      return (size, active, [])
  | .node identity => do
      demand (decide (identity ∉ active)) "CO_PROJECTION"
      let (size, children) ← preflightContainer (h identity)
      return (size, insert identity active, pushChildren children depth ++ [.close identity])

/-- One iteration of the loop of `_preflight_client_projection`. -/
def preflightStep (h : Heap A) (s : PreflightState A) :
    Checked (PreflightState A ⊕ Unit) :=
  match s.pending with
  | [] => .ok (.inr ())
  | .close identity :: pending =>
      .ok (.inl { s with active := s.active.erase identity, pending := pending })
  | .value payload depth _ :: pending => do
      demand (decide (depth ≤ maxClientCertificateValueDepth)) "CO_PROJECTION"
      demand (decide (s.nodes + 1 ≤ maxClientCertificateNodes)) "CO_PROJECTION"
      let (size, active, pushed) ← preflightVisit h s.active depth payload
      demand (decide (s.estimatedSize + size ≤ maxClientCertificateProjectionBytes))
        "CO_PROJECTION"
      return .inl
        { active := active
          estimatedSize := s.estimatedSize + size
          nodes := s.nodes + 1
          pending := pushed ++ pending }

/-- The containers still to be left. -/
def closings : List (Visit A Unit) → ℕ
  | [] => 0
  | .close _ :: pending => closings pending + 1
  | .value _ _ _ :: pending => closings pending

/-- The visits that the limit on the nodes leaves, and the containers to be left. -/
def preflightVariant (s : PreflightState A) : ℕ :=
  2 * (maxClientCertificateNodes - s.nodes) + closings s.pending

omit [DecidableEq A] in
theorem closings_append (left right : List (Visit A Unit)) :
    closings (left ++ right) = closings left + closings right := by
  induction left with
  | nil => simp [closings]
  | cons visit left ih =>
      cases visit with
      | close identity =>
          rw [List.cons_append, closings, closings, ih]
          omega
      | value payload depth u => rw [List.cons_append, closings, closings, ih]

omit [DecidableEq A] in
theorem closings_pushChildren (children : List (Ref A)) (depth : ℕ) :
    closings (pushChildren children depth) = 0 := by
  induction children with
  | nil => rfl
  | cons child children ih =>
      rw [pushChildren, List.map_cons, closings]
      exact ih

/-- A visit leaves one container to close at most. -/
theorem closings_preflightVisit {h : Heap A} {active active' : Finset A} {depth size : ℕ}
    {r : Ref A} {pushed : List (Visit A Unit)}
    (hvisit : preflightVisit h active depth r = .ok (size, active', pushed)) :
    closings pushed ≤ 1 := by
  cases r with
  | atom x =>
      obtain ⟨scalar, -, hrest⟩ := bind_eq_ok_iff.mp hvisit
      obtain ⟨-, -, rfl⟩ := by simpa using hrest
      simp [closings]
  | node identity =>
      obtain ⟨-, hrest⟩ := unit_bind_eq_ok_iff.mp hvisit
      obtain ⟨⟨total, children⟩, -, hrest⟩ := bind_eq_ok_iff.mp hrest
      obtain ⟨-, -, rfl⟩ := by simpa using hrest
      rw [closings_append, closings_pushChildren]
      simp [closings]

/-- What an iteration at a value has checked, and the state it leaves. -/
theorem preflightStep_value_eq_ok_iff {h : Heap A} {active : Finset A} {estimate nodes depth : ℕ}
    {r : Ref A} {u : Unit} {pending : List (Visit A Unit)} {next : PreflightState A ⊕ Unit} :
    preflightStep h ⟨active, estimate, nodes, .value r depth u :: pending⟩ = .ok next ↔
      depth ≤ maxClientCertificateValueDepth ∧ nodes + 1 ≤ maxClientCertificateNodes ∧
      ∃ size active' pushed, preflightVisit h active depth r = .ok (size, active', pushed) ∧
        estimate + size ≤ maxClientCertificateProjectionBytes ∧
        next = .inl ⟨active', estimate + size, nodes + 1, pushed ++ pending⟩ := by
  simp only [preflightStep, demand_eq_ok_iff, decide_eq_true_eq,
    bind_eq_ok_iff, Prod.exists, pure_eq_ok, Except.ok.injEq, exists_const, @eq_comm _ next]

/-- Each step either uses up a node of the budget or closes a container. -/
theorem preflightStep_decreases {h : Heap A} {s s' : PreflightState A}
    (hstep : preflightStep h s = .ok (.inl s')) : preflightVariant s' < preflightVariant s := by
  obtain ⟨active, estimate, nodes, pending⟩ := s
  cases pending with
  | nil => simp [preflightStep] at hstep
  | cons visit pending =>
      cases visit with
      | close identity =>
          obtain rfl : _ = s' := Sum.inl.inj (Except.ok.inj hstep)
          simp [preflightVariant, closings]
      | value r depth u =>
          obtain ⟨-, hnodes, size, active', pushed, hvisit, -, hnext⟩ :=
            preflightStep_value_eq_ok_iff.mp hstep
          obtain rfl := Sum.inl.inj hnext
          have hpushed := closings_preflightVisit hvisit
          simp only [preflightVariant, closings_append, closings]
          omega

def preflightLoop (h : Heap A) : VariantLoop.Loop (PreflightState A) Failure Unit where
  step := preflightStep h
  variant := preflightVariant
  decreases := preflightStep_decreases

/-- `_preflight_client_projection`, on an object graph. -/
def preflightGraph (h : Heap A) (root : Ref A) : Checked Unit := do
  match root with
  | .atom _ => refuse "CO_PROJECTION"
  | .node identity =>
      match h identity with
      | .list _ => refuse "CO_PROJECTION"
      | .dict _ => run (preflightLoop h) ⟨∅, 0, 0, [.value root 1 ()]⟩

/-! ## What the loop passes -/

omit [DecidableEq A] in
/-- The graph below a value unfolds to a tree of a given extent, on so many levels. -/
def Fits (h : Heap A) (levels : ℕ) (r : Ref A) (e : Extent) : Prop :=
  ∃ v, Unfolds h r v ∧ preflightExtent v = .ok e ∧ e.depth ≤ levels

theorem forall₂_exists_iff {B C D : Type*} {P : B → C → Prop} {Q : C → D → Prop} {left : List B}
    {right : List D} : List.Forall₂ (fun b d => ∃ c, P b c ∧ Q c d) left right ↔
      ∃ middle, List.Forall₂ P left middle ∧ List.Forall₂ Q middle right := by
  constructor
  · intro hall
    induction hall with
    | nil => exact ⟨[], .nil, .nil⟩
    | cons hrow _ ih =>
        obtain ⟨c, hleft, hright⟩ := hrow
        obtain ⟨middle, hlefts, hrights⟩ := ih
        exact ⟨c :: middle, .cons hleft hlefts, .cons hright hrights⟩
  · rintro ⟨middle, hleft, hright⟩
    induction hleft generalizing right with
    | nil =>
        cases hright
        exact .nil
    | cons hrow _ ih =>
        cases hright with
        | cons hrow' hrest => exact .cons ⟨_, hrow, hrow'⟩ (ih hrest)

theorem forall₂_and_forall_right {B C : Type*} {P : B → C → Prop} {q : C → Prop} {left : List B}
    {right : List C} : List.Forall₂ (fun b c => P b c ∧ q c) left right ↔
      List.Forall₂ P left right ∧ ∀ c ∈ right, q c := by
  constructor
  · intro hall
    exact ⟨hall.imp fun _ _ hrow => hrow.1, fun c hc => by
      obtain ⟨_, _, hrow⟩ := exists_of_mem_right hall hc
      exact hrow.2⟩
  · rintro ⟨hall, hright⟩
    exact forall₂_imp_of_mem hall fun _ _ c hc hrow => ⟨hrow, hright c hc⟩

theorem depth_around_le_iff {size levels : ℕ} {children : List Extent} :
    (Extent.around size children).depth ≤ levels + 1 ↔ ∀ e ∈ children, e.depth ≤ levels := by
  have hmax : ∀ depths : List ℕ,
      depths.foldr max 0 ≤ levels ↔ ∀ depth ∈ depths, depth ≤ levels := by
    intro depths
    induction depths with
    | nil => simp
    | cons depth depths ih => simp [ih]
  rw [Extent.around, Nat.add_le_add_iff_right, hmax, List.forall_mem_map]

theorem preflightExtent_leaf_eq_ok_iff {x : Atom} {e : Extent} :
    preflightExtent (.leaf x) = .ok e ↔
      ∃ size, preflightScalarSize x = .ok size ∧ e = ⟨1, 1, size⟩ := by
  simp only [preflightExtent, Tree.fold_leaf, bind_eq_ok_iff, pure_eq_ok, Except.ok.injEq,
    @eq_comm _ e]

/-- The extent of a list is that of its items, its brackets and its commas. -/
theorem preflightExtent_list_eq_ok_iff {items : List PyValue} {e : Extent} :
    preflightExtent (.list items) = .ok e ↔
      ∃ es, List.Forall₂ (fun item e => preflightExtent item = .ok e) items es ∧
        e = Extent.around (2 + items.length) es := by
  simp only [preflightExtent, Tree.fold_list, bind_eq_ok_iff, mapM_eq_ok_iff, id,
    List.forall₂_map_left_iff, List.length_map, pure_eq_ok, Except.ok.injEq, @eq_comm _ e]

/-- The extent of a dict counts its keys beside its values. -/
theorem preflightExtent_dict_eq_ok_iff {members : List (Key × PyValue)} {e : Extent} :
    preflightExtent (.dict members) = .ok e ↔
      ∃ keys, List.Forall₂ (fun key size => preflightKeySize key = .ok size)
          (members.map Prod.fst) keys ∧
        ∃ es, List.Forall₂ (fun value e => preflightExtent value = .ok e)
            (members.map Prod.snd) es ∧
          e = Extent.around (2 + keys.sum) es := by
  simp only [preflightExtent, Tree.fold_dict, bind_eq_ok_iff, mapM_eq_ok_iff,
    List.forall₂_map_left_iff, pure_eq_ok, Except.ok.injEq, @eq_comm _ e]

section Nodes

variable {h : Heap A} {a : A} {levels : ℕ} {e : Extent}

omit [DecidableEq A] in
theorem forall₂_fits_iff {refs : List (Ref A)} {es : List Extent} :
    List.Forall₂ (Fits h levels) refs es ↔
      ∃ values, List.Forall₂ (Unfolds h) refs values ∧
        List.Forall₂ (fun value e => preflightExtent value = .ok e) values es ∧
          ∀ e ∈ es, e.depth ≤ levels := by
  simp only [← forall₂_and_forall_right]
  exact forall₂_exists_iff

omit [DecidableEq A] in
/-- A list fits when its items do, one level down. -/
theorem fits_list {items : List (Ref A)} (hnode : h a = .list items) :
    Fits h (levels + 1) (.node a) e ↔
      ∃ es, List.Forall₂ (Fits h levels) items es ∧ e = Extent.around (2 + items.length) es := by
  simp only [Fits, unfolds_list hnode, forall₂_fits_iff]
  constructor
  · rintro ⟨_, ⟨values, rfl, hvalues⟩, hextent, hdepth⟩
    obtain ⟨es, hes, rfl⟩ := preflightExtent_list_eq_ok_iff.mp hextent
    exact ⟨es, ⟨values, hvalues, hes, depth_around_le_iff.mp hdepth⟩,
      by rw [hvalues.length_eq]⟩
  · rintro ⟨es, ⟨values, hvalues, hes, hdepth⟩, rfl⟩
    exact ⟨_, ⟨values, rfl, hvalues⟩,
      preflightExtent_list_eq_ok_iff.mpr ⟨es, hes, by rw [hvalues.length_eq]⟩,
      depth_around_le_iff.mpr hdepth⟩

omit [DecidableEq A] in
theorem forall₂_memberUnfolds_iff {members : List (Key × Ref A)} {values : List (Key × PyValue)} :
    List.Forall₂ (MemberUnfolds h) members values ↔
      members.map Prod.fst = values.map Prod.fst ∧
        List.Forall₂ (Unfolds h) (members.map Prod.snd) (values.map Prod.snd) := by
  rw [map_eq_map_iff_forall₂, List.forall₂_map_left_iff, List.forall₂_map_right_iff]
  constructor
  · intro hall
    exact ⟨hall.imp fun _ _ hrow => hrow.1, hall.imp fun _ _ hrow => hrow.2⟩
  · rintro ⟨hkeys, hvalues⟩
    induction hkeys with
    | nil => exact .nil
    | cons hkey _ ih =>
        cases hvalues with
        | cons hvalue hrest => exact .cons ⟨hkey, hvalue⟩ (ih hrest)

omit [DecidableEq A] in
/-- A dict fits when its keys have a size and its values fit, one level down. -/
theorem fits_dict {members : Dict (Ref A)} (hnode : h a = .dict members) :
    Fits h (levels + 1) (.node a) e ↔
      ∃ keys, List.Forall₂ (fun key size => preflightKeySize key = .ok size)
          (members.items.map Prod.fst) keys ∧
        ∃ es, List.Forall₂ (Fits h levels) (members.items.map Prod.snd) es ∧
          e = Extent.around (2 + keys.sum) es := by
  simp only [Fits, unfolds_dict hnode, forall₂_fits_iff, forall₂_memberUnfolds_iff]
  constructor
  · rintro ⟨_, ⟨values, rfl, hnames, hvalues⟩, hextent, hdepth⟩
    obtain ⟨keys, hkeys, es, hes, rfl⟩ := preflightExtent_dict_eq_ok_iff.mp hextent
    exact ⟨keys, hnames ▸ hkeys, es, ⟨_, hvalues, hes, depth_around_le_iff.mp hdepth⟩, rfl⟩
  · rintro ⟨keys, hkeys, es, ⟨values, hvalues, hes, hdepth⟩, rfl⟩
    have hlength : (members.items.map Prod.fst).length = values.length := by
      rw [List.length_map, ← hvalues.length_eq, List.length_map]
    refine ⟨.dict ((members.items.map Prod.fst).zip values), ⟨_, rfl, ?_, ?_⟩, ?_, ?_⟩
    · rw [List.map_fst_zip hlength.le]
    · rwa [List.map_snd_zip hlength.ge]
    · rw [preflightExtent_dict_eq_ok_iff, List.map_fst_zip hlength.le,
        List.map_snd_zip hlength.ge]
      exact ⟨keys, hkeys, es, hes, rfl⟩
    · exact depth_around_le_iff.mpr hdepth

end Nodes

/-- The rest of the loop succeeds from a state. -/
def Passes (h : Heap A) (active : Finset A) (estimate nodes : ℕ)
    (pending : List (Visit A Unit)) : Prop :=
  run (preflightLoop h) ⟨active, estimate, nodes, pending⟩ = .ok ()

section Passes

variable {h : Heap A} {active : Finset A} {estimate nodes : ℕ} {pending : List (Visit A Unit)}

theorem passes_nil : Passes h active estimate nodes [] :=
  run_of_exit (preflightLoop h) rfl

/-- Closing a container only takes it off the active ones. -/
theorem passes_close {identity : A} :
    Passes h active estimate nodes (.close identity :: pending) ↔
      Passes h (active.erase identity) estimate nodes pending := by
  have hstep : (preflightLoop h).step ⟨active, estimate, nodes, .close identity :: pending⟩ =
      .ok (.inl ⟨active.erase identity, estimate, nodes, pending⟩) := rfl
  rw [Passes, run_of_step (preflightLoop h) hstep, Passes]

/-- An iteration at a value. -/
theorem passes_value_iff {depth : ℕ} {r : Ref A} {u : Unit} :
    Passes h active estimate nodes (.value r depth u :: pending) ↔
      depth ≤ maxClientCertificateValueDepth ∧ nodes + 1 ≤ maxClientCertificateNodes ∧
      ∃ size active' pushed, preflightVisit h active depth r = .ok (size, active', pushed) ∧
        estimate + size ≤ maxClientCertificateProjectionBytes ∧
        Passes h active' (estimate + size) (nodes + 1) (pushed ++ pending) := by
  cases hstep : preflightStep h ⟨active, estimate, nodes, .value r depth u :: pending⟩ with
  | error e =>
      have herror : (preflightLoop h).step ⟨active, estimate, nodes, .value r depth u :: pending⟩ =
          .error e := hstep
      rw [Passes, run_of_error (preflightLoop h) herror]
      refine iff_of_false (by simp) ?_
      rintro ⟨hdepth, hnodes, size, active', pushed, hvisit, hsize, -⟩
      rw [preflightStep_value_eq_ok_iff.mpr
        ⟨hdepth, hnodes, size, active', pushed, hvisit, hsize, rfl⟩] at hstep
      cases hstep
  | ok next =>
      obtain ⟨hdepth, hnodes, size, active', pushed, hvisit, hsize, rfl⟩ :=
        preflightStep_value_eq_ok_iff.mp hstep
      have hok : (preflightLoop h).step ⟨active, estimate, nodes, .value r depth u :: pending⟩ =
          .ok (.inl ⟨active', estimate + size, nodes + 1, pushed ++ pending⟩) := hstep
      rw [Passes, run_of_step (preflightLoop h) hok]
      constructor
      · exact fun hrest => ⟨hdepth, hnodes, size, active', pushed, hvisit, hsize, hrest⟩
      · rintro ⟨-, -, size', active'', pushed', hvisit', -, hrest⟩
        obtain ⟨rfl, hsame⟩ := Prod.mk.inj (Except.ok.inj (hvisit.symm.trans hvisit'))
        obtain ⟨rfl, rfl⟩ := Prod.mk.inj hsame
        exact hrest

/-- Several values one after the other: their extents add up. -/
theorem passes_children {levels depth : ℕ} {children : List (Ref A)}
    (hvalue : ∀ child ∈ children, ∀ estimate nodes pending,
      Passes h active estimate nodes (.value child (depth + 1) () :: pending) ↔
        ∃ e, Fits h levels child e ∧ nodes + e.nodes ≤ maxClientCertificateNodes ∧
          estimate + e.size ≤ maxClientCertificateProjectionBytes ∧
          Passes h active (estimate + e.size) (nodes + e.nodes) pending)
    (hnodes : nodes ≤ maxClientCertificateNodes)
    (hestimate : estimate ≤ maxClientCertificateProjectionBytes) :
    Passes h active estimate nodes (pushChildren children depth ++ pending) ↔
      ∃ es, List.Forall₂ (Fits h levels) children es ∧
        nodes + (es.map Extent.nodes).sum ≤ maxClientCertificateNodes ∧
        estimate + (es.map Extent.size).sum ≤ maxClientCertificateProjectionBytes ∧
        Passes h active (estimate + (es.map Extent.size).sum)
          (nodes + (es.map Extent.nodes).sum) pending := by
  induction children generalizing estimate nodes with
  | nil => simp [pushChildren, hnodes, hestimate]
  | cons child children ih =>
      rw [pushChildren, List.map_cons, List.cons_append,
        hvalue child (List.mem_cons_self ..), ← pushChildren]
      have hrest := fun c hc => hvalue c (List.mem_cons_of_mem _ hc)
      constructor
      · rintro ⟨e, hfits, hnodes', hestimate', hpasses⟩
        obtain ⟨es, hes, hsum, hsize, hpasses⟩ := (ih hrest hnodes' hestimate').mp hpasses
        refine ⟨e :: es, .cons hfits hes, ?_, ?_, ?_⟩
        · simpa [← Nat.add_assoc] using hsum
        · simpa [← Nat.add_assoc] using hsize
        · simpa [← Nat.add_assoc] using hpasses
      · rintro ⟨_, hall, hsum, hsize, hpasses⟩
        cases hall with
        | @cons _ e _ es hfits hes =>
            simp only [List.map_cons, List.sum_cons, ← Nat.add_assoc] at hsum hsize hpasses
            have hnodes' : nodes + e.nodes ≤ maxClientCertificateNodes :=
              (Nat.le_add_right _ _).trans hsum
            have hestimate' : estimate + e.size ≤ maxClientCertificateProjectionBytes :=
              (Nat.le_add_right _ _).trans hsize
            exact ⟨e, hfits, hnodes', hestimate', (ih hrest hnodes' hestimate').mpr
              ⟨es, hes, hsum, hsize, hpasses⟩⟩

omit [DecidableEq A] in
/-- A container is entered with a size, and then its extent lies around those of its children,
or it is refused and has no extent. -/
theorem preflightContainer_cases (h : Heap A) (a : A) :
    (∃ size, preflightContainer (h a) = .ok (size, (h a).children.reverse) ∧
      ∀ levels e, Fits h (levels + 1) (.node a) e ↔
        ∃ es, List.Forall₂ (Fits h levels) (h a).children es ∧ e = Extent.around size es) ∨
    (∀ size children, preflightContainer (h a) ≠ .ok (size, children)) ∧
      ∀ levels e, ¬ Fits h (levels + 1) (.node a) e := by
  cases hnode : h a with
  | list items => exact Or.inl ⟨2 + items.length, rfl, fun levels e => fits_list hnode⟩
  | dict members =>
      cases hkeys : members.items.mapM fun member => preflightKeySize member.1 with
      | ok keys =>
          have hsizes := mapM_eq_ok_iff.mp hkeys
          refine Or.inl ⟨2 + keys.sum, by simp [preflightContainer, hkeys, Node.children], ?_⟩
          intro levels e
          rw [fits_dict hnode]
          constructor
          · rintro ⟨keys', hkeys', es, hes, rfl⟩
            rw [List.forall₂_map_left_iff, ← mapM_eq_ok_iff, hkeys] at hkeys'
            rw [← Except.ok.inj hkeys']
            exact ⟨es, hes, rfl⟩
          · rintro ⟨es, hes, rfl⟩
            exact ⟨keys, List.forall₂_map_left_iff.mpr hsizes, es, hes, rfl⟩
      | error e =>
          refine Or.inr ⟨fun size children => by simp [preflightContainer, hkeys], ?_⟩
          intro levels e' hfits
          obtain ⟨keys, hkeys', -⟩ := (fits_dict hnode).mp hfits
          rw [List.forall₂_map_left_iff, ← mapM_eq_ok_iff, hkeys] at hkeys'
          cases hkeys'

/-- A container is visited when it is not on the way to itself and its keys have a size. -/
theorem preflightVisit_node_eq_ok_iff {a : A} {depth size : ℕ} {active' : Finset A}
    {pushed : List (Visit A Unit)} :
    preflightVisit h active depth (.node a) = .ok (size, active', pushed) ↔
      a ∉ active ∧ ∃ children, preflightContainer (h a) = .ok (size, children) ∧
        active' = insert a active ∧ pushed = pushChildren children depth ++ [.close a] := by
  rw [preflightVisit, unit_bind_eq_ok_iff]
  simp only [demand_eq_ok_iff, decide_eq_true_eq, bind_eq_ok_iff, Prod.exists, pure_eq_ok,
    Except.ok.injEq, Prod.mk.injEq]
  constructor
  · rintro ⟨hmem, _, children, hcontainer, rfl, rfl, rfl⟩
    exact ⟨hmem, children, hcontainer, rfl, rfl⟩
  · rintro ⟨hmem, children, hcontainer, rfl, rfl⟩
    exact ⟨hmem, _, children, hcontainer, rfl, rfl, rfl⟩

omit [DecidableEq A] in
theorem fits_atom {levels : ℕ} {x : Atom} {e : Extent} :
    Fits h (levels + 1) (.atom x) e ↔
      ∃ size, preflightScalarSize x = .ok size ∧ e = ⟨1, 1, size⟩ := by
  simp only [Fits, unfolds_atom, exists_eq_left, preflightExtent_leaf_eq_ok_iff]
  constructor
  · exact fun hfits => hfits.1
  · rintro ⟨size, hsize, rfl⟩
    exact ⟨⟨size, hsize, rfl⟩, Nat.le_add_left ..⟩

theorem depth_pos_of_preflightExtent {v : PyValue} {e : Extent}
    (hextent : preflightExtent v = .ok e) : 0 < e.depth := by
  cases v with
  | leaf x =>
      obtain ⟨size, -, rfl⟩ := preflightExtent_leaf_eq_ok_iff.mp hextent
      exact Nat.one_pos
  | list items =>
      obtain ⟨es, -, rfl⟩ := preflightExtent_list_eq_ok_iff.mp hextent
      exact Nat.succ_pos _
  | dict members =>
      obtain ⟨keys, -, es, -, rfl⟩ := preflightExtent_dict_eq_ok_iff.mp hextent
      exact Nat.succ_pos _

/-- The children of a container and the mark that it has been left. -/
theorem passes_pushed {levels depth : ℕ} {a : A} {active : Finset A} {n s : ℕ}
    {pending : List (Visit A Unit)} (hmem : a ∉ active)
    (hvalue : ∀ child ∈ (h a).children, ∀ estimate nodes pending,
      Passes h (insert a active) estimate nodes (.value child (depth + 1) () :: pending) ↔
        ∃ e, Fits h levels child e ∧ nodes + e.nodes ≤ maxClientCertificateNodes ∧
          estimate + e.size ≤ maxClientCertificateProjectionBytes ∧
          Passes h (insert a active) (estimate + e.size) (nodes + e.nodes) pending)
    (hn : n ≤ maxClientCertificateNodes) (hs : s ≤ maxClientCertificateProjectionBytes) :
    Passes h (insert a active) s n
        (pushChildren (h a).children.reverse depth ++ [.close a] ++ pending) ↔
      ∃ es, List.Forall₂ (Fits h levels) (h a).children es ∧
        n + (es.map Extent.nodes).sum ≤ maxClientCertificateNodes ∧
        s + (es.map Extent.size).sum ≤ maxClientCertificateProjectionBytes ∧
        Passes h active (s + (es.map Extent.size).sum) (n + (es.map Extent.nodes).sum)
          pending := by
  rw [List.append_assoc, passes_children (fun child hchild =>
    hvalue child (List.mem_reverse.mp hchild)) hn hs]
  constructor
  · rintro ⟨es, hes, hsum, hsize, hpasses⟩
    refine ⟨es.reverse, ?_, ?_, ?_, ?_⟩
    · rwa [← List.forall₂_reverse_iff, List.reverse_reverse]
    · simpa using hsum
    · simpa using hsize
    · simpa [passes_close, Finset.erase_insert hmem] using hpasses
  · rintro ⟨es, hes, hsum, hsize, hpasses⟩
    refine ⟨es.reverse, List.forall₂_reverse_iff.mpr hes, ?_, ?_, ?_⟩
    · simpa using hsum
    · simpa using hsize
    · simpa [passes_close, Finset.erase_insert hmem] using hpasses

/-- Visiting one value: it is passed exactly when its tree fits into what is left, and the
active containers are left as they were. -/
theorem passes_value {levels depth : ℕ} {r : Ref A} {active : Finset A} {estimate nodes : ℕ}
    {pending : List (Visit A Unit)} {u : Unit}
    (hlevels : depth + levels = maxClientCertificateValueDepth + 1)
    (hopen : ∀ b ∈ active, Reaches h b r) :
    Passes h active estimate nodes (.value r depth u :: pending) ↔
      ∃ e, Fits h levels r e ∧ nodes + e.nodes ≤ maxClientCertificateNodes ∧
        estimate + e.size ≤ maxClientCertificateProjectionBytes ∧
        Passes h active (estimate + e.size) (nodes + e.nodes) pending := by
  induction levels generalizing r depth active estimate nodes pending u with
  | zero =>
      rw [passes_value_iff]
      refine iff_of_false (fun hleft => by omega) ?_
      rintro ⟨e, ⟨v, -, hextent, hdepth⟩, -⟩
      exact absurd (depth_pos_of_preflightExtent hextent) (by omega)
  | succ levels ih =>
      rw [passes_value_iff]
      have hdepth : depth ≤ maxClientCertificateValueDepth := by omega
      cases r with
      | atom x =>
          simp only [fits_atom, hdepth, true_and]
          constructor
          · rintro ⟨hnodes, _, _, _, hvisit, hsize, hrest⟩
            obtain ⟨size, hscalar, heq⟩ := bind_eq_ok_iff.mp hvisit
            obtain ⟨rfl, rfl, rfl⟩ := by simpa using heq
            exact ⟨_, ⟨size, hscalar, rfl⟩, hnodes, hsize, hrest⟩
          · rintro ⟨_, ⟨size, hscalar, rfl⟩, hnodes, hsize, hrest⟩
            exact ⟨hnodes, size, active, [], by simp [preflightVisit, hscalar], hsize, hrest⟩
      | node a =>
          by_cases hmem : a ∈ active
          · refine iff_of_false ?_ ?_
            · rintro ⟨-, -, _, _, _, hvisit, -⟩
              exact (preflightVisit_node_eq_ok_iff.mp hvisit).1 hmem
            · rintro ⟨e, ⟨v, hv, -⟩, -⟩
              exact not_unfolds_of_reaches (hopen a hmem) hv
          have hchild : ∀ child ∈ (h a).children.reverse, ∀ b ∈ insert a active,
              Reaches h b child := by
            intro child hchild b hb
            have hchild' := List.mem_reverse.mp hchild
            rcases Finset.mem_insert.mp hb with rfl | hb
            · exact .of_child hchild'
            · exact (hopen b hb).child hchild'
          rcases preflightContainer_cases h a with ⟨size, hcontainer, hfits⟩ | ⟨hnone, hnofit⟩
          · have hvalue : ∀ child ∈ (h a).children, ∀ estimate nodes pending,
                Passes h (insert a active) estimate nodes (.value child (depth + 1) () :: pending) ↔
                  ∃ e, Fits h levels child e ∧ nodes + e.nodes ≤ maxClientCertificateNodes ∧
                    estimate + e.size ≤ maxClientCertificateProjectionBytes ∧
                    Passes h (insert a active) (estimate + e.size) (nodes + e.nodes) pending :=
              fun child hmember estimate nodes pending => ih (by omega)
                (hchild child (List.mem_reverse.mpr hmember))
            simp only [hfits, hdepth, true_and, Extent.around]
            constructor
            · rintro ⟨hnodes, _, _, _, hok, hsize, hrest⟩
              obtain ⟨-, children, hcontainer', rfl, rfl⟩ := preflightVisit_node_eq_ok_iff.mp hok
              obtain ⟨rfl, rfl⟩ := Prod.mk.inj (Except.ok.inj (hcontainer'.symm.trans hcontainer))
              obtain ⟨es, hes, hsum, hsizes, hpasses⟩ :=
                (passes_pushed hmem hvalue hnodes hsize).mp hrest
              refine ⟨_, ⟨es, hes, rfl⟩, ?_, ?_, ?_⟩
              · dsimp only
                omega
              · dsimp only
                omega
              · convert hpasses using 1 <;> dsimp only <;> omega
            · rintro ⟨_, ⟨es, hes, rfl⟩, hsum, hsizes, hpasses⟩
              dsimp only at hsum hsizes hpasses
              have hnodes : nodes + 1 ≤ maxClientCertificateNodes := by omega
              have hsize : estimate + size ≤ maxClientCertificateProjectionBytes := by omega
              refine ⟨hnodes, size, insert a active, _, preflightVisit_node_eq_ok_iff.mpr
                ⟨hmem, _, hcontainer, rfl, rfl⟩, hsize, (passes_pushed hmem hvalue hnodes hsize).mpr
                  ⟨es, hes, by omega, by omega, ?_⟩⟩
              convert hpasses using 1 <;> omega
          · refine iff_of_false ?_ ?_
            · rintro ⟨-, -, size, _, _, hvisit, -⟩
              obtain ⟨-, children, hcontainer, -⟩ := preflightVisit_node_eq_ok_iff.mp hvisit
              exact hnone size children hcontainer
            · rintro ⟨e, hfits, -⟩
              exact hnofit levels e hfits

/-- The preflight passes a dict within the three limits. -/
theorem preflightClientProjection_eq_ok_iff {v : PyValue} :
    preflightClientProjection v = .ok () ↔ v.isDict = true ∧ ∃ e, preflightExtent v = .ok e ∧
      e.depth ≤ maxClientCertificateValueDepth ∧ e.nodes ≤ maxClientCertificateNodes ∧
      e.size ≤ maxClientCertificateProjectionBytes := by
  rw [preflightClientProjection, unit_bind_eq_ok_iff]
  simp only [demand_eq_ok_iff, bind_eq_ok_iff, decide_eq_true_eq]

/-- The loop passes the graphs whose tree the measure passes. -/
theorem preflightGraph_eq_ok_iff {root : Ref A} :
    preflightGraph h root = .ok () ↔
      ∃ v, Unfolds h root v ∧ preflightClientProjection v = .ok () := by
  simp only [preflightClientProjection_eq_ok_iff]
  cases root with
  | atom x =>
      refine iff_of_false (by simp [preflightGraph]) ?_
      rintro ⟨v, hv, hdict, -⟩
      rw [unfolds_atom.mp hv] at hdict
      cases hdict
  | node a =>
      cases hnode : h a with
      | list items =>
          refine iff_of_false (by simp [preflightGraph, hnode]) ?_
          rintro ⟨v, hv, hdict, -⟩
          obtain ⟨values, rfl, -⟩ := (unfolds_list hnode).mp hv
          cases hdict
      | dict members =>
          have hrun : preflightGraph h (.node a) = .ok () ↔
              Passes h ∅ 0 0 [.value (.node a) 1 ()] := by
            rw [preflightGraph, hnode, Passes]
          have hlevels : 1 + maxClientCertificateValueDepth =
              maxClientCertificateValueDepth + 1 := Nat.add_comm ..
          rw [hrun, passes_value hlevels (by simp)]
          constructor
          · rintro ⟨e, ⟨v, hv, hextent, hdepth⟩, hnodes, hsize, -⟩
            obtain ⟨values, rfl, -⟩ := (unfolds_dict hnode).mp hv
            exact ⟨_, hv, rfl, e, hextent, hdepth, by omega, by omega⟩
          · rintro ⟨v, hv, -, e, hextent, hdepth, hnodes, hsize⟩
            exact ⟨e, ⟨v, hv, hextent, hdepth⟩, by omega, by omega, passes_nil⟩

end Passes

end Loop

/-! ## The estimate bounds the canonical text -/

theorem length_utf8_of_ascii {s : Text} (hs : ∀ c ∈ s, c.val < 0x80) :
    (utf8 s).length = s.length := by
  induction s with
  | nil => rfl
  | cons c s ih =>
      have hc : c.val < 0x80 := hs c (List.mem_cons_self ..)
      rw [utf8, List.flatMap_cons, List.length_append, ← utf8,
        ih fun d hd => hs d (List.mem_cons_of_mem _ hd), utf8Char, dif_pos hc, List.length_cons,
        List.length_nil, List.length_cons]
      omega

theorem length_unitEscape (n : ℕ) : (unitEscape n).length = 6 := rfl

/-- A character takes no more bytes in UTF-8 than in its escaped form. -/
theorem length_utf8_encodeCharacter_le (c : CodePoint) :
    (utf8 (encodeCharacter c)).length ≤ (asciiEscape c).length := by
  rw [encodeCharacter, asciiEscape]
  cases hescape : escapes c with
  | some escape =>
      rw [escapes] at hescape
      split_ifs at hescape <;> rw [← Option.some.inj hescape] <;> exact le_of_eq rfl
  | none =>
      have hlength : (utf8 [c]).length = (utf8Char c).length := by simp [utf8]
      by_cases hcontrol : c.val < 0x20
      · have hprintable : ¬ (0x20 ≤ c.val ∧ c.val ≤ 0x7E) := by omega
        have hunit : c.val < 0x10000 := by omega
        simp only [hcontrol, hprintable, hunit, if_true, if_false, length_unitEscape]
        rw [length_utf8_of_ascii]
        · exact le_of_eq rfl
        · have hdigit : ∀ d < 16, (Hashing.hexDigit d).val < 0x80 := by decide
          intro d hd
          rcases List.mem_append.mp hd with hfront | hhex
          · fin_cases hfront <;> decide
          · have hmod : ∀ n : ℕ, n % 16 < 16 := fun n => Nat.mod_lt _ (by norm_num)
            simp only [hexText4, List.mem_cons, List.not_mem_nil, or_false] at hhex
            obtain rfl | rfl | rfl | rfl := hhex <;> exact hdigit _ (hmod _)
      · simp only [hcontrol, if_false, hlength, utf8Char]
        split_ifs <;> simp [length_unitEscape] <;> omega

/-- The estimate of a text is never below its bytes. -/
theorem length_utf8_quoted_le (s : Text) : (utf8 (quoted s)).length ≤ dumpedSize s := by
  have hbody : (utf8 (s.flatMap encodeCharacter)).length ≤ (s.flatMap asciiEscape).length := by
    induction s with
    | nil => exact le_rfl
    | cons c s ih =>
        rw [List.flatMap_cons, List.flatMap_cons, utf8_append, List.length_append,
          List.length_append]
        exact Nat.add_le_add (length_utf8_encodeCharacter_le c) ih
  have hquote : (utf8 (text "\"")).length = 1 := rfl
  rw [quoted, utf8_append, utf8_append, List.length_append, List.length_append, hquote,
    dumpedSize]
  omega

theorem length_utf8_integerText (i : ℤ) :
    (utf8 (integerText i)).length = (integerText i).length := by
  apply length_utf8_of_ascii
  have hdigits : ∀ c ∈ Decimal.decimalText i.natAbs, c.val < 0x80 := by
    intro c hc
    have hdigit := (Decimal.digits_decimalText i.natAbs c hc).2
    omega
  rw [integerText]
  split_ifs with hneg
  · intro c hc
    rcases List.mem_append.mp hc with hsign | hc
    · fin_cases hsign
      decide
    · exact hdigits c hc
  · exact hdigits

/-- An integral double within the safe integers is the integer it stands for. -/
theorem integral_floatValue (negative : Bool) {m : Magnitude} (hden : m.value.den = 1)
    (hnum : m.value.num ≤ maxSafeInteger) :
    floatValue negative m = (floatValue negative m).num ∧
      (floatValue negative m).num.natAbs ≤ maxSafeInteger := by
  have hnonneg : 0 ≤ m.value.num := Rat.num_nonneg.mpr m.value_nonneg
  have hinteger : (m.value.num : ℚ) = m.value := Rat.coe_int_num_of_den_eq_one hden
  cases negative with
  | false =>
      simp only [floatValue, Bool.false_eq_true, if_false]
      exact ⟨hinteger.symm, by omega⟩
  | true =>
      simp only [floatValue, if_true, Rat.num_neg_eq_neg_num]
      refine ⟨?_, by omega⟩
      rw [Int.cast_neg, hinteger]

/-- The estimate of a scalar is never below its bytes. -/
theorem length_utf8_atomText_le (float : FloatRepr) {x : Atom} {size : ℕ}
    (hsize : preflightScalarSize x = .ok size) :
    (utf8 (atomText float x)).length ≤ size := by
  cases x with
  | none =>
      rw [← Except.ok.inj hsize]
      exact (by decide : (utf8 (text "null")).length ≤ 5)
  | bool b =>
      rw [← Except.ok.inj hsize]
      cases b
      · exact (by decide : (utf8 (text "false")).length ≤ 5)
      · exact (by decide : (utf8 (text "true")).length ≤ 5)
  | int i =>
      obtain ⟨-, hlength⟩ := unit_bind_eq_ok_iff.mp hsize
      rw [← Except.ok.inj hlength]
      exact (length_utf8_integerText i).le
  | float value =>
      cases value with
      | finite negative m =>
          obtain ⟨hintegral, hlength⟩ := unit_bind_eq_ok_iff.mp hsize
          rw [demand_eq_ok_iff, decide_eq_true_eq] at hintegral
          obtain ⟨hvalue, hsafe⟩ := integral_floatValue negative hintegral.1 hintegral.2
          rw [← Except.ok.inj hlength, atomText,
            ecmascriptNumberToString_of_integer float hsafe hvalue]
          exact (length_utf8_integerText _).le
      | nan => cases hsize
      | infinity negative => cases hsize
  | str s =>
      rw [← Except.ok.inj hsize]
      exact length_utf8_quoted_le s
  | foreign o => cases hsize

theorem length_utf8_commaSeparated_le (texts : List Text) :
    (utf8 (commaSeparated texts)).length ≤
      (texts.map fun t => (utf8 t).length).sum + texts.length := by
  have hcomma : (utf8Char JsonText.comma).length = 1 := rfl
  cases texts with
  | nil => exact Nat.zero_le _
  | cons first others =>
      have hothers : (utf8 (others.flatMap fun other => JsonText.comma :: other)).length =
          (others.map fun t => (utf8 t).length).sum + others.length := by
        induction others with
        | nil => rfl
        | cons other others ih =>
            rw [List.flatMap_cons, utf8_append, List.length_append, ih, utf8, List.flatMap_cons,
              List.length_append, ← utf8, hcomma, List.map_cons, List.sum_cons, List.length_cons]
            omega
      rw [commaSeparated, utf8_append, List.length_append, hothers, List.map_cons, List.sum_cons,
        List.length_cons]
      omega

theorem length_utf8_enclosed {front back : CodePoint} (hfront : (utf8Char front).length = 1)
    (hback : (utf8Char back).length = 1) (t : Text) :
    (utf8 (front :: (t ++ [back]))).length = (utf8 t).length + 2 := by
  have hlast : (utf8 [back]).length = 1 := by rw [utf8, List.flatMap_singleton, hback]
  rw [utf8, List.flatMap_cons, List.length_append, ← utf8, hfront, utf8_append,
    List.length_append, hlast]
  omega

/-- A member is its key, the colon and its value. -/
theorem length_utf8_memberText (key : Key) (t : Text) :
    (utf8 (memberText (key, t))).length =
      (utf8 (quoted (keyText key))).length + 1 + (utf8 t).length := by
  have hcolon : (utf8Char colon).length = 1 := rfl
  have hrest : (utf8 (colon :: t)).length = 1 + (utf8 t).length := by
    rw [utf8, List.flatMap_cons, List.length_append, hcolon, ← utf8]
  rw [memberText, utf8_append, List.length_append, hrest, Nat.add_assoc]

theorem sum_rows {B : Type*} (rows : List B) (f g : B → ℕ) :
    (rows.map fun row => f row + 1 + g row).sum + rows.length =
      (rows.map fun row => f row + 2).sum + (rows.map g).sum := by
  induction rows with
  | nil => rfl
  | cons row rows ih =>
      simp only [List.map_cons, List.sum_cons, List.length_cons]
      omega

theorem length_utf8_keyText_le {key : Key} {size : ℕ} (hsize : preflightKeySize key = .ok size) :
    (utf8 (quoted (keyText key))).length + 2 ≤ size := by
  cases key with
  | str s =>
      rw [← Except.ok.inj hsize]
      exact Nat.add_le_add_right (length_utf8_quoted_le s) 2
  | foreign o => cases hsize

theorem sum_map_le_of_forall₂ {B C : Type*} {P : B → C → Prop} {f : B → ℕ} {g : C → ℕ}
    {left : List B} {right : List C} (hall : List.Forall₂ P left right)
    (hle : ∀ b ∈ left, ∀ c, P b c → f b ≤ g c) : (left.map f).sum ≤ (right.map g).sum := by
  apply List.Forall₂.sum_le_sum
  rw [List.forall₂_map_left_iff, List.forall₂_map_right_iff]
  exact forall₂_imp_of_mem hall fun b hb c _ hrow => hle b hb c hrow

/-- The canonical text of a measured tree is no longer than the estimate. -/
theorem length_utf8_canonicalText_le (float : FloatRepr) {v : PyValue} {e : Extent}
    (hextent : preflightExtent v = .ok e) : (utf8 (canonicalText float v)).length ≤ e.size := by
  induction v using Tree.induct generalizing e with
  | leaf x =>
      obtain ⟨size, hsize, rfl⟩ := preflightExtent_leaf_eq_ok_iff.mp hextent
      rw [canonicalText_leaf]
      exact length_utf8_atomText_le float hsize
  | list items ih =>
      obtain ⟨es, hes, rfl⟩ := preflightExtent_list_eq_ok_iff.mp hextent
      have hitems : (items.map fun item => (utf8 (canonicalText float item)).length).sum ≤
          (es.map Extent.size).sum :=
        sum_map_le_of_forall₂ hes fun item hitem e he => ih item hitem he
      have hcommas := length_utf8_commaSeparated_le (items.map (canonicalText float))
      rw [List.map_map, List.length_map] at hcommas
      rw [canonicalText_list, arrayText, length_utf8_enclosed rfl rfl]
      simp only [Extent.around]
      simp only [Function.comp_def] at hcommas
      omega
  | dict members ih =>
      obtain ⟨keys, hkeys, es, hes, rfl⟩ := preflightExtent_dict_eq_ok_iff.mp hextent
      rw [List.forall₂_map_left_iff] at hkeys hes
      have hnames : (members.map fun member =>
          (utf8 (quoted (keyText member.1))).length + 2).sum ≤ (keys.map id).sum :=
        sum_map_le_of_forall₂ hkeys fun member _ size hsize => length_utf8_keyText_le hsize
      have hvalues : (members.map fun member =>
          (utf8 (canonicalText float member.2)).length).sum ≤ (es.map Extent.size).sum :=
        sum_map_le_of_forall₂ hes fun member hmember e he => ih member hmember he
      have hperm : (orderedMembers members).Perm members := SortedBy.sortedBy_perm _ _
      have hrows := length_utf8_commaSeparated_le ((orderedMembers members).map
        (memberText ∘ fun member => (member.1, canonicalText float member.2)))
      have hsum : (((orderedMembers members).map (memberText ∘ fun member =>
          (member.1, canonicalText float member.2))).map fun t => (utf8 t).length).sum =
          (members.map fun member => (utf8 (quoted (keyText member.1))).length + 1 +
            (utf8 (canonicalText float member.2)).length).sum := by
        rw [List.map_map, (hperm.map _).sum_eq]
        congr 2
        funext member
        exact length_utf8_memberText member.1 _
      have hsplit := sum_rows members (fun member => (utf8 (quoted (keyText member.1))).length)
        fun member => (utf8 (canonicalText float member.2)).length
      rw [hsum, List.length_map, hperm.length_eq] at hrows
      rw [List.map_id] at hnames
      rw [canonicalText_dict, objectText, ← orderedMembers, orderedMembers_map, List.map_map,
        length_utf8_enclosed rfl rfl]
      apply (Nat.add_le_add_right hrows 2).trans
      simp only [Extent.around]
      omega

/-! ## What an accepted projection is -/

/-- The exact JSON scalars, with numbers that are safe integers. -/
def ProjectionAtom : Atom → Prop
  | .int i => i.natAbs ≤ maxSafeInteger
  | .float (.finite _ m) => m.value.den = 1 ∧ m.value.num ≤ maxSafeInteger
  | .float _ => False
  | .foreign _ => False
  | _ => True

def StringKey : Key → Prop
  | .str _ => True
  | .foreign _ => False

/-- The levels of a value, a scalar being one. -/
def valueDepth : PyValue → ℕ :=
  Tree.fold (fun _ => 1) (fun depths => depths.foldr max 0 + 1)
    fun depths => (depths.map Prod.snd).foldr max 0 + 1

/-- The values in a value, itself included; what is shared counts each time. -/
def valueCount : PyValue → ℕ :=
  Tree.fold (fun _ => 1) (fun counts => counts.sum + 1) fun counts => (counts.map Prod.snd).sum + 1

/-- No lone surrogate in a string or a key. -/
def EncodableLeaf : Atom → Prop
  | .str s => Encodable s
  | _ => True

def EncodableName : Key → Prop
  | .str s => Encodable s
  | .foreign _ => True

theorem projectionAtom_of_preflightScalarSize {x : Atom} {size : ℕ}
    (hsize : preflightScalarSize x = .ok size) : ProjectionAtom x := by
  cases x with
  | int i => simpa [ProjectionAtom] using (unit_bind_eq_ok_iff.mp hsize).1
  | float value =>
      cases value with
      | finite negative m => simpa [ProjectionAtom] using (unit_bind_eq_ok_iff.mp hsize).1
      | nan => cases hsize
      | infinity negative => cases hsize
  | foreign o => cases hsize
  | _ => trivial

theorem eq_map_of_forall₂ {B C D : Type*} {P : B → C → Prop} {f : B → D} {g : C → D}
    {left : List B} {right : List C} (hall : List.Forall₂ P left right)
    (heq : ∀ b ∈ left, ∀ c, P b c → f b = g c) : left.map f = right.map g := by
  rw [map_eq_map_iff_forall₂]
  exact forall₂_imp_of_mem hall fun b hb c _ hrow => heq b hb c hrow

/-- A measured tree: its scalars and keys, its levels and its values. -/
theorem measured_of_preflightExtent {v : PyValue} {e : Extent}
    (hextent : preflightExtent v = .ok e) :
    v.Admits ProjectionAtom StringKey ∧ e.depth = valueDepth v ∧ e.nodes = valueCount v := by
  induction v using Tree.induct generalizing e with
  | leaf x =>
      obtain ⟨size, hsize, rfl⟩ := preflightExtent_leaf_eq_ok_iff.mp hextent
      exact ⟨(Tree.admits_leaf x).mpr (projectionAtom_of_preflightScalarSize hsize),
        by simp [valueDepth], by simp [valueCount]⟩
  | list items ih =>
      obtain ⟨es, hes, rfl⟩ := preflightExtent_list_eq_ok_iff.mp hextent
      refine ⟨(Tree.admits_list items).mpr fun item hitem => ?_, ?_, ?_⟩
      · obtain ⟨e, -, he⟩ := exists_of_mem_left hes hitem
        exact (ih item hitem he).1
      · have hdepths : items.map valueDepth = es.map Extent.depth :=
          eq_map_of_forall₂ hes fun item hitem e he => (ih item hitem he).2.1.symm
        rw [Extent.around, valueDepth, Tree.fold_list, ← valueDepth, hdepths]
      · have hcounts : items.map valueCount = es.map Extent.nodes :=
          eq_map_of_forall₂ hes fun item hitem e he => (ih item hitem he).2.2.symm
        rw [Extent.around, valueCount, Tree.fold_list, ← valueCount, hcounts]
  | dict members ih =>
      obtain ⟨keys, hkeys, es, hes, rfl⟩ := preflightExtent_dict_eq_ok_iff.mp hextent
      rw [List.forall₂_map_left_iff] at hkeys hes
      refine ⟨(Tree.admits_dict members).mpr fun member hmember => ⟨?_, ?_⟩, ?_, ?_⟩
      · obtain ⟨size, -, hsize⟩ := exists_of_mem_left hkeys hmember
        cases hkey : member.1 with
        | str s => trivial
        | foreign o =>
            rw [hkey] at hsize
            cases hsize
      · obtain ⟨e, -, he⟩ := exists_of_mem_left hes hmember
        exact (ih member hmember he).1
      · have hdepths : members.map (fun member => valueDepth member.2) = es.map Extent.depth :=
          eq_map_of_forall₂ hes fun member hmember e he => (ih member hmember he).2.1.symm
        rw [Extent.around, valueDepth, Tree.fold_dict, ← valueDepth, List.map_map, ← hdepths]
        rfl
      · have hcounts : members.map (fun member => valueCount member.2) = es.map Extent.nodes :=
          eq_map_of_forall₂ hes fun member hmember e he => (ih member hmember he).2.2.symm
        rw [Extent.around, valueCount, Tree.fold_dict, ← valueCount, List.map_map, ← hcounts]
        rfl

/-- What passes the preflight is supported, when its texts hold no surrogate. -/
theorem supported_of_projection {v : PyValue} (hv : v.Admits ProjectionAtom StringKey)
    (hencodable : v.Admits EncodableLeaf EncodableName) : Supported v := by
  refine (Tree.admits_and.mpr ⟨hv, hencodable⟩).imp ?_ ?_
  · rintro x ⟨hx, hleaf⟩
    cases x with
    | float value =>
        cases value with
        | finite negative m => trivial
        | nan => exact hx.elim
        | infinity negative => exact hx.elim
    | int i => exact hx
    | str s => exact hleaf
    | foreign o => exact hx.elim
    | _ => trivial
  · rintro key ⟨hkey, hname⟩
    cases key with
    | str s => exact hname
    | foreign o => exact hkey.elim

/-- The preflight counts scalars as a level, the nesting does not. -/
theorem nesting_le_valueDepth (v : PyValue) : v.nesting ≤ valueDepth v := by
  have hmax : ∀ {B : Type} (rows : List B) (f g : B → ℕ), (∀ row ∈ rows, f row ≤ g row) →
      (rows.map f).foldr max 0 ≤ (rows.map g).foldr max 0 := by
    intro B rows f g hle
    induction rows with
    | nil => exact le_rfl
    | cons row rows ih =>
        exact max_le_max (hle row (List.mem_cons_self ..))
          (ih fun r hr => hle r (List.mem_cons_of_mem _ hr))
  induction v using Tree.induct with
  | leaf x => simp
  | list items ih =>
      rw [Tree.nesting, Tree.fold_list, valueDepth, Tree.fold_list]
      exact Nat.succ_le_succ (hmax items _ _ ih)
  | dict members ih =>
      rw [Tree.nesting, Tree.fold_dict, valueDepth, Tree.fold_dict, List.map_map, List.map_map]
      exact Nat.succ_le_succ (hmax members _ _ ih)

/-! ## The one error -/

theorem error_of_demand {condition : Bool} {code : String} {e : Failure}
    (herror : demand condition code = .error e) : e = .relyingParty code := by
  rw [demand] at herror
  split_ifs at herror
  exact (Except.error.inj herror).symm

theorem mapM_error {B C : Type} {P : Failure → Prop} {f : B → Checked C} {rows : List B}
    (hrows : ∀ row ∈ rows, ∀ e, f row = .error e → P e) {e : Failure}
    (herror : rows.mapM f = .error e) : P e := by
  induction rows with
  | nil => cases herror
  | cons row rows ih =>
      rw [List.mapM_cons, bind_eq_error_iff] at herror
      rcases herror with hrow | ⟨b, -, hrest⟩
      · exact hrows row (List.mem_cons_self ..) e hrow
      · rcases bind_eq_error_iff.mp hrest with hrest | ⟨bs, -, hdone⟩
        · exact ih (fun r hr => hrows r (List.mem_cons_of_mem _ hr)) hrest
        · cases hdone

theorem error_of_preflightScalarSize {x : Atom} {e : Failure}
    (herror : preflightScalarSize x = .error e) : e = .relyingParty "CO_PROJECTION" := by
  have hchecked : ∀ {condition : Bool} {size : ℕ},
      (do demand condition "CO_PROJECTION"; return size : Checked ℕ) = .error e →
        e = .relyingParty "CO_PROJECTION" := by
    intro condition size hfails
    rcases bind_eq_error_iff.mp hfails with hdemand | ⟨_, -, hdone⟩
    · exact error_of_demand hdemand
    · cases hdone
  cases x with
  | int i => exact hchecked herror
  | float value =>
      cases value with
      | finite negative m => exact hchecked herror
      | nan => exact (Except.error.inj herror).symm
      | infinity negative => exact (Except.error.inj herror).symm
  | foreign o => exact (Except.error.inj herror).symm
  | _ => cases herror

section Errors

variable {A : Type} {h : Heap A} {e : Failure}

theorem error_of_preflightContainer {node : Node A}
    (herror : preflightContainer node = .error e) : e = .relyingParty "CO_PROJECTION" := by
  cases node with
  | list items => cases herror
  | dict members =>
      rcases bind_eq_error_iff.mp herror with hkeys | ⟨keys, -, hdone⟩
      · refine mapM_error (P := fun e => e = .relyingParty "CO_PROJECTION")
          (fun member _ e' he' => ?_) hkeys
        cases hkey : member.1 with
        | str s =>
            rw [hkey] at he'
            cases he'
        | foreign o =>
            rw [hkey] at he'
            exact (Except.error.inj he').symm
      · cases hdone

variable [DecidableEq A]

/-- A visit is refused with the code of the projection. -/
theorem error_of_preflightVisit {active : Finset A} {depth : ℕ} {r : Ref A}
    (herror : preflightVisit h active depth r = .error e) :
    e = .relyingParty "CO_PROJECTION" := by
  cases r with
  | atom x =>
      rcases bind_eq_error_iff.mp herror with hscalar | ⟨size, -, hdone⟩
      · exact error_of_preflightScalarSize hscalar
      · cases hdone
  | node a =>
      rcases bind_eq_error_iff.mp herror with hdemand | ⟨_, -, hrest⟩
      · exact error_of_demand hdemand
      · rcases bind_eq_error_iff.mp hrest with hcontainer | ⟨_, -, hdone⟩
        · exact error_of_preflightContainer hcontainer
        · cases hdone

/-- So is a step. -/
theorem error_of_preflightStep {s : PreflightState A} (herror : preflightStep h s = .error e) :
    e = .relyingParty "CO_PROJECTION" := by
  obtain ⟨active, estimate, nodes, pending⟩ := s
  cases pending with
  | nil => cases herror
  | cons visit pending =>
      cases visit with
      | close identity => cases herror
      | value r depth u =>
          rcases bind_eq_error_iff.mp herror with hdepth | ⟨_, -, hrest⟩
          · exact error_of_demand hdepth
          rcases bind_eq_error_iff.mp hrest with hnodes | ⟨_, -, hrest⟩
          · exact error_of_demand hnodes
          rcases bind_eq_error_iff.mp hrest with hvisit | ⟨_, -, hrest⟩
          · exact error_of_preflightVisit hvisit
          rcases bind_eq_error_iff.mp hrest with hsize | ⟨_, -, hdone⟩
          · exact error_of_demand hsize
          · cases hdone

/-- The loop ends on every graph, with success or with its one error. -/
theorem preflightGraph_cases (root : Ref A) :
    preflightGraph h root = .ok () ∨ preflightGraph h root = refuse "CO_PROJECTION" := by
  cases root with
  | atom x => exact Or.inr rfl
  | node a =>
      cases hnode : h a with
      | list items => exact Or.inr (by simp [preflightGraph, hnode])
      | dict members =>
          have hrun : preflightGraph h (.node a) =
              run (preflightLoop h) ⟨∅, 0, 0, [.value (.node a) 1 ()]⟩ := by
            simp [preflightGraph, hnode]
          rw [hrun]
          cases hresult : run (preflightLoop h) ⟨∅, 0, 0, [.value (.node a) 1 ()]⟩ with
          | ok u => exact Or.inl rfl
          | error e =>
              rw [run_error (preflightLoop h) (fun s e he => error_of_preflightStep he) hresult]
              exact Or.inr rfl

/-- A container that reaches itself can be reached. -/
def Cyclic (h : Heap A) (root : Ref A) : Prop :=
  ∃ a b, root = .node a ∧ Relation.ReflTransGen (Holds h) a b ∧ Relation.TransGen (Holds h) b b

/-- The preflight is a sound bound on resources.  What it accepts is an acyclic value of exact
JSON types within the limits, whose canonical text is bounded by the size limit and is refused
for a lone surrogate only; it ends on a cyclic graph with its error. -/
theorem preflight_bounds_resources (float : FloatRepr) (h : Heap A) (root : Ref A) :
    (preflightGraph h root = .ok () → ¬ Cyclic h root ∧
      ∃ v, Unfolds h root v ∧ v.Admits ProjectionAtom StringKey ∧ valueDepth v ≤ 64 ∧
        valueCount v ≤ 100000 ∧
        (∀ literal, canonicalize float h root = .ok literal →
          (utf8 literal).length ≤ maxClientCertificateProjectionBytes) ∧
        ((∃ e, canonicalize float h root = .error e) → ¬ v.Admits EncodableLeaf EncodableName)) ∧
    (Cyclic h root → preflightGraph h root = refuse "CO_PROJECTION") := by
  have hacyclic : preflightGraph h root = .ok () → ¬ Cyclic h root := by
    rintro hpasses ⟨a, b, rfl, hreach, hcycle⟩
    obtain ⟨v, hv, -⟩ := preflightGraph_eq_ok_iff.mp hpasses
    exact not_unfolds_of_reaches_cycle hreach hcycle hv
  constructor
  · intro hpasses
    obtain ⟨v, hv, hprojection⟩ := preflightGraph_eq_ok_iff.mp hpasses
    obtain ⟨-, e, hextent, hdepth, hnodes, hsize⟩ :=
      preflightClientProjection_eq_ok_iff.mp hprojection
    obtain ⟨hadmits, hlevels, hcount⟩ := measured_of_preflightExtent hextent
    rw [hlevels] at hdepth
    refine ⟨hacyclic hpasses, v, hv, hadmits, hdepth, hcount ▸ hnodes, ?_, ?_⟩
    · intro literal hcanonical
      obtain ⟨w, hw, -, -, rfl⟩ := canonicalize_eq_ok_iff.mp hcanonical
      rw [← hv.unique hw]
      exact (length_utf8_canonicalText_le float hextent).trans hsize
    · rintro ⟨error, herror⟩ hencodable
      have hnesting : v.nesting ≤ maxDepth :=
        (nesting_le_valueDepth v).trans (hdepth.trans (by decide))
      rw [canonicalize_of_unfolds hv hnesting (supported_of_projection hadmits hencodable)]
        at herror
      cases herror
  · intro hcyclic
    exact (preflightGraph_cases root).resolve_left fun hpasses => hacyclic hpasses hcyclic

end Errors

/-- A dict that holds one list under two names, and a dict that holds itself. -/
def sharingHeap : Heap Bool
  | true => .dict ⟨[(.str (text "k"), .node false), (.str (text "l"), .node false)], by simp⟩
  | false => .list [.atom (.str (text "é")), .atom (.float (.finite true .zero))]

def loopHeap : Heap Unit :=
  fun _ => .dict ⟨[(.str (text "k"), .node ())], by simp⟩

theorem preflight_bounds_resources_sharing :
    (preflightGraph sharingHeap (.node true) = .ok () ∧ ¬ Cyclic sharingHeap (.node true)) ∧
      preflightGraph loopHeap (.node ()) = refuse "CO_PROJECTION" := by
  have hpasses : preflightGraph sharingHeap (.node true) = .ok () := by decide +kernel
  have hself : Holds loopHeap () () := List.mem_singleton_self _
  exact ⟨⟨hpasses,
    ((preflight_bounds_resources .fewestDigits sharingHeap (.node true)).1 hpasses).1⟩,
    (preflight_bounds_resources .fewestDigits loopHeap (.node ())).2
      ⟨(), (), rfl, .refl, .single hself⟩⟩

end TraigentSchema.AgentCertificate
