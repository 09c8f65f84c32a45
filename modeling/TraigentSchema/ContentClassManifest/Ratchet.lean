import TraigentSchema.Library.Histories
import TraigentSchema.Library.Unicode

/-!
# The legacy ratchet

The manifest maps every annotated location to its content class, and the dispositions
document explains every location that left `legacy_content`.  The ratchet compares the
working tree with the copies on the anchored branch; merged changes make a history of
trees, each checked against the one before it.
-/

namespace TraigentSchema.ContentClassManifest

open TraigentSchema.Unicode
open TraigentSchema.Histories

/-- A `dict` from locations to classes. -/
abbrev Classes := Finmap fun _ : Text => Text

def legacy : Text := text "legacy_content"

def removed : Text := text "removed"

/-- `now or "removed"`. -/
def orRemoved : Option Text → Text
  | some cls => if cls = [] then removed else cls
  | none => removed

/-- One element of the dispositions list.  What `!=` compares beside the members read here
is `other`. -/
structure Disposition (D : Type) where
  location : Text
  /-- The member `to`. -/
  toClass : Option Text
  reference : Option Text
  other : D
  deriving DecidableEq

structure DispositionsDocument (D : Type) where
  legacyRegister : List Text := []
  dispositions : List (Disposition D) := []

/-- One entry of the report. -/
inductive Problem where
  /-- working-tree manifest does not equal the live annotations -/
  | staleManifest
  /-- new legacy_content not in the anchored manifest -/
  | newLegacy (loc : Text)
  /-- legacy_register lost anchored entries; the first three -/
  | registerLost (entries : List Text)
  /-- anchored disposition edited or removed -/
  | dispositionEdited (loc : Text)
  /-- left legacy_content with no disposition -/
  | noDisposition (loc now : Text)
  /-- disposition says another class than the live one -/
  | wrongDisposition (loc : Text) (declared : Option Text) (now : Text)
  | badReference (loc why : Text)
  deriving DecidableEq

section Ratchet

variable {D : Type} [DecidableEq D]

/-- `{d["location"]: d for d in dispositions}.get(loc)`: the last one counts. -/
def dispositionAt (dispositions : List (Disposition D)) (loc : Text) :
    Option (Disposition D) :=
  dispositions.reverse.find? fun d => d.location = loc

/-- The keys of that dict in order. -/
def dispositionLocations (dispositions : List (Disposition D)) : List Text :=
  (dispositions.map Disposition.location).eraseDups

def sortedLocations (locs : Finset Text) : List Text :=
  locs.sort (· ≤ ·)

/-- What is wrong with a location that was legacy in the anchor and is not any more. -/
def leavingProblems (referenceProblem : Option Text → Option Text)
    (current : List (Disposition D)) (loc : Text) (now : Option Text) : List Problem :=
  match dispositionAt current loc with
  | none => [.noDisposition loc (orRemoved now)]
  | some d =>
      (if d.toClass ≠ some (orRemoved now) then [.wrongDisposition loc d.toClass (orRemoved now)]
        else []) ++
      match referenceProblem d.reference with
      | some why => [.badReference loc why]
      | none => []

def ratchetProblems (referenceProblem : Option Text → Option Text) (live treeManifest : Classes)
    (treeDisp : DispositionsDocument D) (anchorManifest : Option Classes)
    (anchorDisp : Option (DispositionsDocument D)) : List Problem :=
  let stale := if treeManifest ≠ live then [Problem.staleManifest] else []
  match anchorManifest with
  | none => stale
  | some anchor =>
      let anchored := anchorDisp.getD {}
      let fresh := live.keys.filter fun loc =>
        live.lookup loc = some legacy ∧ anchor.lookup loc ≠ some legacy
      let lost := anchored.legacyRegister.toFinset \ treeDisp.legacyRegister.toFinset
      let edited := (dispositionLocations anchored.dispositions).filter fun loc =>
        dispositionAt treeDisp.dispositions loc ≠ dispositionAt anchored.dispositions loc
      let left := anchor.keys.filter fun loc =>
        anchor.lookup loc = some legacy ∧ live.lookup loc ≠ some legacy
      stale ++ (sortedLocations fresh).map .newLegacy ++
        (if lost = ∅ then [] else [.registerLost ((sortedLocations lost).take 3)]) ++
        edited.map .dispositionEdited ++
        (sortedLocations left).flatMap fun loc =>
          leavingProblems referenceProblem treeDisp.dispositions loc (live.lookup loc)

/-! ## Histories of trees -/

/-- A tree with what its references can be checked against. -/
structure TreeState (D : Type) where
  live : Classes
  manifest : Classes
  disp : DispositionsDocument D
  referenceProblem : Option Text → Option Text

namespace TreeState

/-- The first introduction: there is nothing to compare with. -/
def Introduced (s : TreeState D) : Prop :=
  ratchetProblems s.referenceProblem s.live s.manifest s.disp none none = []

/-- The check of a tree against the one before. -/
def Accepted (s s' : TreeState D) : Prop :=
  ratchetProblems s'.referenceProblem s'.live s'.manifest s'.disp (some s.manifest)
    (some s.disp) = []

def IsLegacy (s : TreeState D) (loc : Text) : Prop :=
  s.live.lookup loc = some legacy

instance (s : TreeState D) : Decidable s.Introduced :=
  inferInstanceAs (Decidable (_ = _))

instance (s s' : TreeState D) : Decidable (s.Accepted s') :=
  inferInstanceAs (Decidable (_ = _))

omit [DecidableEq D] in
instance (s : TreeState D) (loc : Text) : Decidable (s.IsLegacy loc) :=
  inferInstanceAs (Decidable (_ = _))

end TreeState

/-- A history of trees that the ratchet lets through, the newest first. -/
abbrev Ratcheted (states : List (TreeState D)) : Prop :=
  History TreeState.Introduced TreeState.Accepted states

/-! ## What one check establishes -/

omit [DecidableEq D] in
theorem mem_sortedLocations {locs : Finset Text} {loc : Text} :
    loc ∈ sortedLocations locs ↔ loc ∈ locs :=
  Finset.mem_sort _

/-- Acceptance, check by check. -/
structure Checks (s s' : TreeState D) : Prop where
  manifest : s'.manifest = s'.live
  legacy : ∀ loc, s'.IsLegacy loc → s.manifest.lookup loc = some legacy
  register : ∀ loc ∈ s.disp.legacyRegister, loc ∈ s'.disp.legacyRegister
  dispositions : ∀ d ∈ s.disp.dispositions,
    dispositionAt s'.disp.dispositions d.location =
      dispositionAt s.disp.dispositions d.location
  leaving : ∀ loc, s.manifest.lookup loc = some ContentClassManifest.legacy →
    ¬ s'.IsLegacy loc →
    ∃ d, dispositionAt s'.disp.dispositions loc = some d ∧
      d.toClass = some (orRemoved (s'.live.lookup loc))

omit [DecidableEq D] in
theorem leavingProblems_eq_nil {referenceProblem : Option Text → Option Text}
    {current : List (Disposition D)} {loc : Text} {now : Option Text}
    (hnone : leavingProblems referenceProblem current loc now = []) :
    ∃ d, dispositionAt current loc = some d ∧ d.toClass = some (orRemoved now) := by
  unfold leavingProblems at hnone
  split at hnone
  · cases hnone
  · rename_i d hd
    refine ⟨d, hd, ?_⟩
    rw [List.append_eq_nil_iff] at hnone
    by_contra hother
    rw [if_pos hother] at hnone
    cases hnone.1

theorem checks_of_accepted {s s' : TreeState D} (haccepted : s.Accepted s') : Checks s s' := by
  simp only [TreeState.Accepted, ratchetProblems, Option.getD_some, List.append_eq_nil_iff,
    List.map_eq_nil_iff, List.flatMap_eq_nil_iff, List.filter_eq_nil_iff] at haccepted
  obtain ⟨⟨⟨⟨hstale, hfresh⟩, hlost⟩, hedited⟩, hleft⟩ := haccepted
  exact {
    manifest := by
      by_contra hne
      rw [if_pos hne] at hstale
      cases hstale
    legacy := by
      intro loc hloc
      by_contra hanchor
      have hmem : loc ∈ sortedLocations (s'.live.keys.filter fun loc =>
          s'.live.lookup loc = some ContentClassManifest.legacy ∧
            s.manifest.lookup loc ≠ some ContentClassManifest.legacy) := by
        rw [mem_sortedLocations, Finset.mem_filter, Finmap.mem_keys]
        exact ⟨Finmap.mem_of_lookup_eq_some hloc, hloc, hanchor⟩
      rw [hfresh] at hmem
      cases hmem
    register := by
      intro loc hloc
      by_contra hmissing
      have hmem : loc ∈ s.disp.legacyRegister.toFinset \ s'.disp.legacyRegister.toFinset := by
        rw [Finset.mem_sdiff, List.mem_toFinset, List.mem_toFinset]
        exact ⟨hloc, hmissing⟩
      split_ifs at hlost with hempty
      · rw [hempty] at hmem
        exact absurd hmem (Finset.notMem_empty loc)
    dispositions := by
      intro d hd
      have hlocation : d.location ∈ dispositionLocations s.disp.dispositions := by
        rw [dispositionLocations, List.mem_eraseDups]
        exact List.mem_map_of_mem hd
      simpa using hedited d.location hlocation
    leaving := by
      intro loc hanchor hleaves
      apply leavingProblems_eq_nil (hleft loc _)
      rw [mem_sortedLocations, Finset.mem_filter, Finmap.mem_keys]
      exact ⟨Finmap.mem_of_lookup_eq_some hanchor, hanchor, hleaves⟩ }

theorem manifest_of_introduced {s : TreeState D} (hintroduced : s.Introduced) :
    s.manifest = s.live := by
  by_contra hne
  rw [TreeState.Introduced, ratchetProblems, if_pos hne] at hintroduced
  cases hintroduced

/-- In a history every manifest is the live one. -/
theorem manifest_of_ratcheted {s : TreeState D} {earlier : List (TreeState D)}
    (hratcheted : Ratcheted (s :: earlier)) : s.manifest = s.live := by
  cases hratcheted with
  | start hstart => exact manifest_of_introduced hstart
  | step hhistory hstep => exact (checks_of_accepted hstep).manifest

omit [DecidableEq D] in
theorem dispositionAt_eq_some {dispositions : List (Disposition D)} {loc : Text}
    {d : Disposition D} (hd : dispositionAt dispositions loc = some d) :
    d ∈ dispositions ∧ d.location = loc := by
  have hmem := List.mem_of_find?_eq_some hd
  exact ⟨List.mem_reverse.mp hmem, by simpa using List.find?_some hd⟩

omit [DecidableEq D] in
theorem exists_dispositionAt {dispositions : List (Disposition D)} {d : Disposition D}
    (hd : d ∈ dispositions) : ∃ d', dispositionAt dispositions d.location = some d' := by
  apply Option.isSome_iff_exists.mp
  rw [dispositionAt, List.find?_isSome]
  exact ⟨d, List.mem_reverse.mpr hd, decide_eq_true rfl⟩

/-! ## The law of a history -/

/-- What the newest state owes to the earlier ones. -/
structure Law (s : TreeState D) (earlier : List (TreeState D)) : Prop where
  legacyShrinks : ∀ s₀ ∈ earlier, ∀ loc, s.IsLegacy loc → s₀.IsLegacy loc
  registerKept : ∀ s₀ ∈ earlier, ∀ loc ∈ s₀.disp.legacyRegister, loc ∈ s.disp.legacyRegister
  dispositionsKept : ∀ s₀ ∈ earlier, ∀ d ∈ s₀.disp.dispositions, d ∈ s.disp.dispositions
  disposed : ∀ s₀ ∈ earlier, ∀ loc, s₀.IsLegacy loc → ¬ s.IsLegacy loc →
    ∃ d ∈ s.disp.dispositions, d.location = loc ∧
      d.toClass = some (orRemoved (s.live.lookup loc))

/-- The law for every state of a history. -/
def LawHolds (states : List (TreeState D)) : Prop :=
  ∀ s earlier, s :: earlier <:+ states → Law s earlier

/-- A location is named by one disposition, which may be listed twice. -/
def Unambiguous (dispositions : List (Disposition D)) : Prop :=
  ∀ d ∈ dispositions, ∀ d' ∈ dispositions, d.location = d'.location → d = d'

/-- A location that left `legacy_content` before the anchor keeps the class it has there. -/
def KeepsClasses (s' s : TreeState D) (earlier : List (TreeState D)) : Prop :=
  ∀ loc, (∃ s₀ ∈ earlier, s₀.IsLegacy loc) → ¬ s.IsLegacy loc →
    orRemoved (s'.live.lookup loc) = orRemoved (s.live.lookup loc)

/-- The condition on every step: of the state before it, and of the classes it changes. -/
def Conforming : List (TreeState D) → Prop
  | s' :: s :: earlier =>
      Unambiguous s.disp.dispositions ∧ KeepsClasses s' s earlier ∧ Conforming (s :: earlier)
  | _ => True

omit [DecidableEq D] in
theorem dispositionAt_of_mem {dispositions : List (Disposition D)}
    (hunambiguous : Unambiguous dispositions) {d : Disposition D} (hd : d ∈ dispositions) :
    dispositionAt dispositions d.location = some d := by
  obtain ⟨d', hd'⟩ := exists_dispositionAt hd
  obtain ⟨hmem, hlocation⟩ := dispositionAt_eq_some hd'
  rw [hd', hunambiguous d' hmem d hd hlocation]

theorem isLegacy_of_accepted {s s' : TreeState D} {earlier : List (TreeState D)}
    (hhistory : Ratcheted (s :: earlier)) (haccepted : s.Accepted s') {loc : Text}
    (hlegacy : s'.IsLegacy loc) : s.IsLegacy loc := by
  have hanchor := (checks_of_accepted haccepted).legacy loc hlegacy
  rwa [manifest_of_ratcheted hhistory] at hanchor

/-- The legacy locations never grow. -/
theorem legacy_shrinks {s : TreeState D} {earlier : List (TreeState D)}
    (hratcheted : Ratcheted (s :: earlier)) :
    ∀ s₀ ∈ earlier, ∀ loc, s.IsLegacy loc → s₀.IsLegacy loc := by
  apply History.invariant (P := fun s earlier =>
    ∀ s₀ ∈ earlier, ∀ loc, s.IsLegacy loc → s₀.IsLegacy loc) _ _ hratcheted
  · simp
  · intro s s' earlier hhistory ih haccepted s₀ hs₀ loc hlegacy
    have hprevious := isLegacy_of_accepted hhistory haccepted hlegacy
    cases hs₀ with
    | head => exact hprevious
    | tail _ hs₀ => exact ih s₀ hs₀ loc hprevious

/-- The register loses no entry. -/
theorem register_kept {s : TreeState D} {earlier : List (TreeState D)}
    (hratcheted : Ratcheted (s :: earlier)) :
    ∀ s₀ ∈ earlier, ∀ loc ∈ s₀.disp.legacyRegister, loc ∈ s.disp.legacyRegister := by
  apply History.newest_of_trans (R := fun s s' : TreeState D =>
    ∀ loc ∈ s.disp.legacyRegister, loc ∈ s'.disp.legacyRegister) _ _ hratcheted
  · intro s s' s'' hfirst hsecond loc hloc
    exact hsecond loc (hfirst loc hloc)
  · intro s s' haccepted
    exact (checks_of_accepted haccepted).register

theorem dispositions_kept {s : TreeState D} {earlier : List (TreeState D)}
    (hratcheted : Ratcheted (s :: earlier)) (hconforming : Conforming (s :: earlier)) :
    ∀ s₀ ∈ earlier, ∀ d ∈ s₀.disp.dispositions, d ∈ s.disp.dispositions := by
  induction earlier generalizing s with
  | nil => simp
  | cons previous earlier ih =>
      obtain ⟨hunambiguous, -, hrest⟩ := hconforming
      cases hratcheted with
      | step hhistory haccepted =>
          have hstep : ∀ d ∈ previous.disp.dispositions, d ∈ s.disp.dispositions := by
            intro d hd
            have hkept := (checks_of_accepted haccepted).dispositions d hd
            rw [dispositionAt_of_mem hunambiguous hd] at hkept
            exact (dispositionAt_eq_some hkept).1
          intro s₀ hs₀ d hd
          cases hs₀ with
          | head => exact hstep d hd
          | tail _ hs₀ => exact hstep d (ih hhistory hrest s₀ hs₀ d hd)

/-- The disposition of a location names the class it has now. -/
theorem disposed {s : TreeState D} {earlier : List (TreeState D)}
    (hratcheted : Ratcheted (s :: earlier)) (hconforming : Conforming (s :: earlier)) :
    ∀ s₀ ∈ earlier, ∀ loc, s₀.IsLegacy loc → ¬ s.IsLegacy loc →
      ∃ d, dispositionAt s.disp.dispositions loc = some d ∧
        d.toClass = some (orRemoved (s.live.lookup loc)) := by
  induction earlier generalizing s with
  | nil => simp
  | cons previous earlier ih =>
      obtain ⟨-, hkeeps, hrest⟩ := hconforming
      cases hratcheted with
      | step hhistory haccepted =>
          have hchecks := checks_of_accepted haccepted
          intro s₀ hs₀ loc hlegacy hleft
          by_cases hprevious : previous.IsLegacy loc
          · apply hchecks.leaving loc _ hleft
            rwa [manifest_of_ratcheted hhistory]
          · -- it left before: its disposition and its class are those of the anchor
            cases hs₀ with
            | head => exact absurd hlegacy hprevious
            | tail _ hs₀ =>
                obtain ⟨d, hd, hclass⟩ := ih hhistory hrest s₀ hs₀ loc hlegacy hprevious
                obtain ⟨hmem, rfl⟩ := dispositionAt_eq_some hd
                refine ⟨d, ?_, ?_⟩
                · rw [hchecks.dispositions d hmem, hd]
                · rw [hclass, hkeeps d.location ⟨s₀, hs₀, hlegacy⟩ hprevious]

omit [DecidableEq D] in
theorem conforming_of_suffix {states states' : List (TreeState D)}
    (hsuffix : states' <:+ states) (hconforming : Conforming states) : Conforming states' := by
  induction states with
  | nil =>
      rw [List.suffix_nil.mp hsuffix]
      trivial
  | cons s states ih =>
      rw [List.suffix_cons_iff] at hsuffix
      cases hsuffix with
      | inl heq => exact heq ▸ hconforming
      | inr hsuffix =>
          apply ih hsuffix
          cases states with
          | nil => trivial
          | cons previous earlier => exact hconforming.2.2

/-- In every history that the ratchet lets through the legacy locations never grow and the
register loses nothing; where every step conforms the dispositions hold as well. -/
theorem ratchet_law {states : List (TreeState D)} (hratcheted : Ratcheted states) :
    (∀ s earlier, s :: earlier <:+ states → ∀ s₀ ∈ earlier,
      (∀ loc, s.IsLegacy loc → s₀.IsLegacy loc) ∧
      ∀ loc ∈ s₀.disp.legacyRegister, loc ∈ s.disp.legacyRegister) ∧
    (Conforming states → LawHolds states) := by
  constructor
  · intro s earlier hsuffix s₀ hs₀
    have hhistory := hratcheted.suffix hsuffix
    exact ⟨legacy_shrinks hhistory s₀ hs₀, register_kept hhistory s₀ hs₀⟩
  · intro hconforming s earlier hsuffix
    have hhistory := hratcheted.suffix hsuffix
    have hconforming' := conforming_of_suffix hsuffix hconforming
    exact {
      legacyShrinks := legacy_shrinks hhistory
      registerKept := register_kept hhistory
      dispositionsKept := dispositions_kept hhistory hconforming'
      disposed := by
        intro s₀ hs₀ loc hlegacy hleft
        obtain ⟨d, hd, hclass⟩ := disposed hhistory hconforming' s₀ hs₀ loc hlegacy hleft
        obtain ⟨hmem, hlocation⟩ := dispositionAt_eq_some hd
        exact ⟨d, hmem, hlocation, hclass⟩ }

end Ratchet

/-! ## A location in small histories -/

def exampleLocation : Text := text "agent_schema.json#/properties/name"

/-- A tree with at most one annotation; the reason stands for the other members. -/
def exampleTree (cls : Option Text) (dispositions : List (Disposition Text)) :
    TreeState Text where
  live := (cls.map (Finmap.singleton exampleLocation)).getD ∅
  manifest := (cls.map (Finmap.singleton exampleLocation)).getD ∅
  disp := { legacyRegister := [exampleLocation], dispositions := dispositions }
  referenceProblem _ := none

/-- A disposition of the location, with its reason. -/
def exampleDisposition (reason : String) : Disposition Text where
  location := exampleLocation
  toClass := some removed
  reference := some (text "DESIGN-v2.2 §6")
  other := text reason

/-- The location is removed under a disposition. -/
def removalHistory : List (TreeState Text) :=
  [exampleTree none [exampleDisposition "the field is deleted"],
    exampleTree (some legacy) []]

theorem ratcheted_removalHistory : Ratcheted removalHistory :=
  .step (.start (by decide +kernel)) (by decide +kernel)

theorem conforming_removalHistory : Conforming removalHistory := by
  refine ⟨?_, ?_, trivial⟩
  · intro d hd
    cases hd
  · rintro loc ⟨s₀, hs₀, -⟩
    cases hs₀

def otherLocation : Text := text "agent_schema.json#/properties/version"

/-- Another field is annotated after the removal, and the disposition is kept. -/
def annotationHistory : List (TreeState Text) :=
  { exampleTree none [exampleDisposition "the field is deleted"] with
    live := Finmap.singleton otherLocation (text "opaque_ref")
    manifest := Finmap.singleton otherLocation (text "opaque_ref") } :: removalHistory

theorem ratcheted_annotationHistory : Ratcheted annotationHistory :=
  .step ratcheted_removalHistory (by decide +kernel)

/-- The removed field keeps its class, which is to have none. -/
theorem conforming_annotationHistory : Conforming annotationHistory := by
  refine ⟨?_, ?_, conforming_removalHistory⟩
  · intro d hd d' hd' _
    rw [List.mem_singleton.mp hd, List.mem_singleton.mp hd']
  · rintro loc ⟨s₀, hs₀, hlegacy⟩ -
    obtain rfl := List.mem_singleton.mp hs₀
    have hloc : loc = exampleLocation := by
      have hmem := Finmap.mem_of_lookup_eq_some hlegacy
      simpa [exampleTree, Finmap.mem_singleton] using hmem
    subst hloc
    decide +kernel

/-- The law holds over all three states: the disposition of the removed field is still there
when the other one is annotated. -/
theorem ratchet_law_annotationHistory :
    Ratcheted annotationHistory ∧ LawHolds annotationHistory :=
  ⟨ratcheted_annotationHistory,
    (ratchet_law ratcheted_annotationHistory).2 conforming_annotationHistory⟩

/-- The location comes back under a class its disposition does not name. -/
def returnHistory : List (TreeState Text) :=
  exampleTree (some (text "opaque_ref")) [exampleDisposition "the field is deleted"] ::
    removalHistory

/-- The first of two dispositions of the location is dropped. -/
def duplicateHistory : List (TreeState Text) :=
  [exampleTree none [exampleDisposition "the second reason"],
    exampleTree none [exampleDisposition "the first reason",
      exampleDisposition "the second reason"]]

/-- The ratchet lets both histories through, and neither keeps the law. -/
theorem ratchet_lets_through :
    (Ratcheted returnHistory ∧ ¬ LawHolds returnHistory) ∧
    Ratcheted duplicateHistory ∧ ¬ LawHolds duplicateHistory := by
  refine ⟨⟨.step ratcheted_removalHistory (by decide +kernel), fun hlaw => ?_⟩,
    .step (.start (by decide +kernel)) (by decide +kernel), fun hlaw => ?_⟩
  · have hdisposed := (hlaw _ _ (List.suffix_refl returnHistory)).disposed
      (exampleTree (some legacy) []) (by simp [removalHistory]) exampleLocation
      (by decide +kernel) (by decide +kernel)
    revert hdisposed
    decide +kernel
  · have hkept := (hlaw _ _ (List.suffix_refl duplicateHistory)).dispositionsKept
      _ List.mem_cons_self (exampleDisposition "the first reason") List.mem_cons_self
    revert hkept
    decide +kernel

end TraigentSchema.ContentClassManifest
