import Mathlib.Data.List.Perm.Basic
import TraigentSchema.PathSafety.TarMembers

/-!
# What an approved archive is

The checks before extraction, taken together, are about the set of the members and not about
their order.  An archive is approved when every name and every link target is safe, the policy
admits every type, no two members share a destination, and no file stands above another member.
-/

namespace TraigentSchema.PathSafety

open TraigentSchema.Traverse
open TraigentSchema.Unicode

variable {isDriveLetter : CodePoint → Bool}

/-! ## Destinations -/

theorem resolve_of_plain {path : Path} (hplain : text ".." ∉ path) : resolve path = path := by
  have hfold : ∀ (front rest : Path), text ".." ∉ rest →
      rest.foldl (fun front part => if part = text ".." then front.dropLast
        else front ++ [part]) front = front ++ rest := by
    intro front rest
    induction rest generalizing front with
    | nil => simp
    | cons part rest ih =>
        intro hrest
        rw [List.mem_cons, not_or] at hrest
        obtain ⟨hpart, hrest⟩ := hrest
        rw [List.foldl_cons, if_neg (Ne.symm hpart), ih _ hrest, List.append_assoc]
        rfl
  simpa [resolve] using hfold [] path hplain

/-- A name of a path strictly below the archive's root. -/
structure SafeName (isDriveLetter : CodePoint → Bool) (raw : Text) : Prop where
  notForeign : isForeign isDriveLetter raw = false
  plain : text ".." ∉ posixParts raw
  nonempty : posixParts raw ≠ []

/-- Where a member goes. -/
def destination (dest : Destination) (member : TarMember) : Path :=
  dest.path ++ posixParts member.name

theorem safeTarRelativePath_eq_ok_iff {raw : Text} {description : String} {path : Path} :
    safeTarRelativePath isDriveLetter raw description = .ok path ↔
      (isForeign isDriveLetter raw = false ∧ raw ≠ text "." ∧ raw ≠ text "./" ∧
        text ".." ∉ posixParts raw) ∧ path = posixParts raw := by
  rw [safeTarRelativePath]
  split_ifs with hrefused
  · simp only [Bool.or_eq_true, beq_iff_eq, List.contains_iff_mem] at hrefused
    simp only [false_iff]
    rintro ⟨⟨hforeign, hdot, hslash, hplain⟩, -⟩
    simp_all
  · simp only [Bool.or_eq_true, beq_iff_eq, List.contains_iff_mem, not_or,
      Bool.not_eq_true] at hrefused
    rw [Except.ok.injEq, eq_comm]
    exact ⟨fun heq => ⟨⟨hrefused.1.1.1, hrefused.1.1.2, hrefused.1.2, hrefused.2⟩, heq⟩, And.right⟩

theorem memberDestination_eq_ok_iff {member : TarMember} {dest : Destination}
    {relativePath memberPath : Path} :
    memberDestination isDriveLetter member dest = .ok (relativePath, memberPath) ↔
      SafeName isDriveLetter member.name ∧ relativePath = posixParts member.name ∧
        memberPath = destination dest member := by
  have hdot : posixParts (text ".") = [] := by decide
  have hslash : posixParts (text "./") = [] := by decide
  simp only [memberDestination, bind_eq_ok_iff, safeTarRelativePath_eq_ok_iff]
  constructor
  · rintro ⟨_, ⟨⟨hforeign, hne, hne', hplain⟩, rfl⟩, hwithin⟩
    have hresolve : resolve (dest.path ++ posixParts member.name) =
        dest.path ++ posixParts member.name :=
      resolve_of_plain (by simp [dest.resolved, hplain])
    rw [hresolve] at hwithin
    split_ifs at hwithin with hescapes
    obtain ⟨rfl, rfl⟩ := Prod.mk.inj (Except.ok.inj hwithin)
    refine ⟨⟨hforeign, hplain, fun hnil => hescapes (Or.inl ?_)⟩, rfl, rfl⟩
    rw [hnil, List.append_nil]
  · rintro ⟨⟨hforeign, hplain, hnonempty⟩, rfl, rfl⟩
    have hresolve : resolve (dest.path ++ posixParts member.name) =
        dest.path ++ posixParts member.name :=
      resolve_of_plain (by simp [dest.resolved, hplain])
    refine ⟨posixParts member.name, ⟨⟨hforeign, fun heq => hnonempty (heq ▸ hdot),
      fun heq => hnonempty (heq ▸ hslash), hplain⟩, rfl⟩, ?_⟩
    rw [hresolve, if_neg (by simpa using hnonempty)]
    rfl

/-- A member's place is strictly below the destination. -/
theorem destination_inside {dest : Destination} {member : TarMember}
    (hsafe : SafeName isDriveLetter member.name) :
    dest.path <+: destination dest member ∧ destination dest member ≠ dest.path :=
  ⟨List.prefix_append _ _, by simpa [destination] using hsafe.nonempty⟩

/-! ## The stages -/

/-- A safe name and, of a link, a safe target. -/
def SafeMember (isDriveLetter : CodePoint → Bool) (dest : Destination) (member : TarMember) :
    Prop :=
  SafeName isDriveLetter member.name ∧ (isLink member = true →
    validateTarLinkStaysWithin isDriveLetter member (destination dest member) dest = .ok ())

theorem validateTarMembersStayWithin_eq_ok_iff {members : List TarMember} {dest : Destination} :
    validateTarMembersStayWithin isDriveLetter members dest = .ok () ↔
      ∀ member ∈ members, SafeMember isDriveLetter dest member := by
  rw [validateTarMembersStayWithin, forM_eq_ok_iff]
  refine forall₂_congr fun member _ => ?_
  rw [bind_eq_ok_iff]
  constructor
  · rintro ⟨⟨relativePath, memberPath⟩, hplace, hlink⟩
    obtain ⟨hsafe, -, rfl⟩ := memberDestination_eq_ok_iff.mp hplace
    refine ⟨hsafe, fun hislink => ?_⟩
    dsimp only at hlink
    rwa [if_pos hislink] at hlink
  · rintro ⟨hsafe, hlink⟩
    refine ⟨_, memberDestination_eq_ok_iff.mpr ⟨hsafe, rfl, rfl⟩, ?_⟩
    dsimp only
    by_cases hislink : isLink member = true
    · rw [if_pos hislink]
      exact hlink hislink
    · rw [if_neg hislink]
      rfl

/-- The plan of a member. -/
def planOf (dest : Destination) (member : TarMember) : Plan :=
  ⟨member, destination dest member, posixParts member.name⟩

/-- The plans of the regular files and directories, in archive order. -/
def plansOf (dest : Destination) (members : List TarMember) : List Plan :=
  (members.filter TarMember.isPlanned).map (planOf dest)

/-- A member the plan takes or leaves out without complaint. -/
def Admitted (isDriveLetter : CodePoint → Bool) (policy : SpecialMemberPolicy)
    (member : TarMember) : Prop :=
  SafeName isDriveLetter member.name ∧ (policy = .reject → member.isPlanned = true)

theorem any_memberPath_iff {plans : List Plan} {path : Path} :
    (plans.any fun plan => plan.memberPath == path) = true ↔
      path ∈ plans.map Plan.memberPath := by
  simp only [List.any_eq_true, beq_iff_eq, List.mem_map]

theorem planStep_eq_ok_iff {dest : Destination} {policy : SpecialMemberPolicy}
    {plans plans' : List Plan} {member : TarMember} :
    planStep isDriveLetter dest policy plans member = .ok plans' ↔
      Admitted isDriveLetter policy member ∧ plans' = plans ++ plansOf dest [member] ∧
        (member.isPlanned = true → destination dest member ∉ plans.map Plan.memberPath) := by
  rw [planStep, bind_eq_ok_iff]
  constructor
  · rintro ⟨⟨relativePath, memberPath⟩, hplace, hstep⟩
    obtain ⟨hsafe, rfl, rfl⟩ := memberDestination_eq_ok_iff.mp hplace
    cases hplanned : member.isPlanned with
    | false =>
        cases policy with
        | reject => simp [hplanned] at hstep
        | skip =>
            simp only [hplanned, Bool.not_false, if_true, reduceCtorEq, if_false, pure_eq_ok,
              Except.ok.injEq] at hstep
            simp [Admitted, hsafe, plansOf, hplanned, hstep]
    | true =>
        simp only [hplanned, Bool.not_true, Bool.false_eq_true, if_false, pure_eq_ok] at hstep
        split_ifs at hstep with hduplicate
        have hnew : destination dest member ∉ plans.map Plan.memberPath := fun hmem =>
          hduplicate (any_memberPath_iff.mpr hmem)
        exact ⟨⟨hsafe, fun _ => hplanned⟩,
          by simp [plansOf, hplanned, planOf, ← Except.ok.inj hstep], fun _ => hnew⟩
  · rintro ⟨⟨hsafe, hpolicy⟩, rfl, hnew⟩
    refine ⟨_, memberDestination_eq_ok_iff.mpr ⟨hsafe, rfl, rfl⟩, ?_⟩
    cases hplanned : member.isPlanned with
    | false =>
        have hskip : policy ≠ .reject := fun heq => by simp [hpolicy heq] at hplanned
        simp [plansOf, hplanned, hskip]
    | true =>
        have hfresh : (plans.any fun plan => plan.memberPath == destination dest member) =
            false := by
          rw [Bool.eq_false_iff, Ne, any_memberPath_iff]
          exact hnew hplanned
        simp [plansOf, hplanned, hfresh, planOf]

theorem plansOf_cons (dest : Destination) (member : TarMember) (members : List TarMember) :
    plansOf dest (member :: members) = plansOf dest [member] ++ plansOf dest members := by
  rw [plansOf, ← List.singleton_append, List.filter_append, List.map_append]
  rfl

theorem nodup_append_plansOf {dest : Destination} {plans : List Plan} {member : TarMember}
    (hplans : (plans.map Plan.memberPath).Nodup)
    (hnew : member.isPlanned = true → destination dest member ∉ plans.map Plan.memberPath) :
    ((plans ++ plansOf dest [member]).map Plan.memberPath).Nodup := by
  cases hplanned : member.isPlanned with
  | false => simpa [plansOf, hplanned] using hplans
  | true =>
      have hmap : (plansOf dest [member]).map Plan.memberPath = [destination dest member] := by
        simp [plansOf, hplanned, planOf]
      rw [List.map_append, hmap, List.nodup_append_comm]
      exact List.nodup_cons.mpr ⟨hnew hplanned, hplans⟩

theorem planTarMembers_eq_ok_iff {dest : Destination} {policy : SpecialMemberPolicy}
    {members : List TarMember} {plans : List Plan} :
    planTarMembers isDriveLetter members dest policy = .ok plans ↔
      (∀ member ∈ members, Admitted isDriveLetter policy member) ∧
        plans = plansOf dest members ∧ (plans.map Plan.memberPath).Nodup := by
  have hloop : ∀ (members : List TarMember) (start plans : List Plan),
      (start.map Plan.memberPath).Nodup →
      (members.foldlM (planStep isDriveLetter dest policy) start = .ok plans ↔
        (∀ member ∈ members, Admitted isDriveLetter policy member) ∧
          plans = start ++ plansOf dest members ∧ (plans.map Plan.memberPath).Nodup) := by
    intro members
    induction members with
    | nil =>
        intro start plans hstart
        have hend : start ++ plansOf dest [] = start := List.append_nil _
        rw [hend, List.foldlM_nil, pure_eq_ok, Except.ok.injEq, eq_comm]
        exact ⟨fun heq => ⟨by simp, heq, heq ▸ hstart⟩, fun hall => hall.2.1⟩
    | cons member members ih =>
        intro start plans hstart
        rw [List.foldlM_cons, bind_eq_ok_iff, plansOf_cons, List.forall_mem_cons,
          ← List.append_assoc]
        constructor
        · rintro ⟨_, hstep, hrest⟩
          obtain ⟨hadmitted, rfl, hnew⟩ := planStep_eq_ok_iff.mp hstep
          obtain ⟨hrest, hplans⟩ := (ih _ _ (nodup_append_plansOf hstart hnew)).mp hrest
          exact ⟨⟨hadmitted, hrest⟩, hplans⟩
        · rintro ⟨⟨hadmitted, hrest⟩, rfl, hnodup⟩
          have hfront : ((start ++ plansOf dest [member]).map Plan.memberPath).Nodup := by
            rw [List.map_append] at hnodup
            exact hnodup.of_append_left
          have hnew : member.isPlanned = true →
              destination dest member ∉ start.map Plan.memberPath := by
            intro hplanned hmem
            rw [List.map_append] at hfront
            exact (List.nodup_append.mp hfront).2.2 _ hmem _
              (by simp [plansOf, hplanned, planOf]) rfl
          exact ⟨_, planStep_eq_ok_iff.mpr ⟨hadmitted, rfl, hnew⟩,
            (ih _ _ hfront).mpr ⟨hrest, rfl, hnodup⟩⟩
  exact hloop members [] plans List.nodup_nil

/-- On the way from a destination, only directories are planned.  By induction on the components
below the destination. -/
theorem checkParents_eq_ok_iff {plans : List Plan} {dest : Destination} {name : Text}
    (hnodup : (plans.map Plan.memberPath).Nodup)
    (hinside : ∀ plan ∈ plans, dest.path <+: plan.memberPath ∧ plan.memberPath ≠ dest.path)
    (rest : Path) :
    checkParents plans dest name (dest.path ++ rest) = .ok () ↔
      ∀ plan ∈ plans, plan.memberPath <+: dest.path ++ rest → plan.member.isDir = true := by
  induction rest using List.reverseRecOn with
  | nil =>
      rw [List.append_nil, checkParents, if_pos rfl]
      refine iff_of_true rfl fun plan hplan hpre => ?_
      obtain ⟨hbelow, hne⟩ := hinside plan hplan
      exact absurd (hpre.eq_of_length_le hbelow.length_le) hne
  | append_singleton rest part ih =>
      have hne : dest.path ++ (rest ++ [part]) ≠ dest.path := by simp
      have hroot : dest.path ++ (rest ++ [part]) ≠ [] := by simp
      have hup : (dest.path ++ (rest ++ [part])).dropLast = dest.path ++ rest := by
        rw [← List.append_assoc, List.dropLast_concat]
      have hsplit : ∀ path : Path, path <+: dest.path ++ (rest ++ [part]) ↔
          path = dest.path ++ (rest ++ [part]) ∨ path <+: dest.path ++ rest := by
        intro path
        rw [← List.append_assoc, List.prefix_concat_iff]
      simp only [hsplit]
      rw [checkParents, if_neg hne]
      cases hfind : plans.find? fun plan =>
          plan.memberPath == dest.path ++ (rest ++ [part]) with
      | none =>
          have habsent := List.find?_eq_none.mp hfind
          simp only [beq_iff_eq] at habsent
          rw [dif_neg hroot, hup, ih]
          refine forall₂_congr fun plan hplan => ?_
          rw [or_iff_right (habsent plan hplan)]
      | some plan =>
          have hplan := List.mem_of_find?_eq_some hfind
          have hat : plan.memberPath = dest.path ++ (rest ++ [part]) := by
            simpa using List.find?_some hfind
          cases hdir : plan.member.isDir with
          | false =>
              simp only [hdir, Bool.not_false, if_true, reduceCtorEq, false_iff]
              intro hall
              simpa [hdir] using hall plan hplan (Or.inl hat)
          | true =>
              simp only [hdir, Bool.not_true, Bool.false_eq_true, if_false]
              rw [dif_neg hroot, hup, ih]
              constructor
              · rintro hall plan' hplan' (hsame | hpre)
                · have heq := List.inj_on_of_nodup_map hnodup hplan' hplan (hsame.trans hat.symm)
                  rwa [heq]
                · exact hall plan' hplan' hpre
              · exact fun hall plan' hplan' hpre => hall plan' hplan' (Or.inr hpre)

/-- No file is planned above another member. -/
def DirectoriesAbove (plans : List Plan) : Prop :=
  ∀ plan ∈ plans, ∀ parent ∈ plans, parent.memberPath <+: plan.memberPath →
    parent.memberPath ≠ plan.memberPath → parent.member.isDir = true

theorem prefix_dropLast_iff {path path' : Path} (hne : path' ≠ []) :
    path <+: path'.dropLast ↔ path <+: path' ∧ path ≠ path' := by
  obtain ⟨front, part, rfl⟩ : ∃ front part, path' = front ++ [part] :=
    ⟨_, _, (List.dropLast_append_getLast hne).symm⟩
  rw [List.dropLast_concat, List.prefix_concat_iff]
  constructor
  · intro hpre
    refine ⟨Or.inr hpre, fun heq => ?_⟩
    have hle := hpre.length_le
    simp [heq] at hle
  · rintro ⟨heq | hpre, hdiffer⟩
    · exact absurd heq hdiffer
    · exact hpre

theorem rejectNonDirectoryParents_eq_ok_iff {plans : List Plan} {dest : Destination}
    (hnodup : (plans.map Plan.memberPath).Nodup)
    (hinside : ∀ plan ∈ plans, dest.path <+: plan.memberPath ∧ plan.memberPath ≠ dest.path) :
    rejectNonDirectoryParents plans dest = .ok () ↔ DirectoriesAbove plans := by
  rw [rejectNonDirectoryParents, forM_eq_ok_iff]
  refine forall₂_congr fun plan hplan => ?_
  obtain ⟨⟨rest, hrest⟩, hne⟩ := hinside plan hplan
  have hrest' : rest ≠ [] := fun hnil => hne (by rw [← hrest, hnil, List.append_nil])
  have hpath : plan.memberPath ≠ [] := by simp [← hrest, hrest']
  have hup : plan.memberPath.dropLast = dest.path ++ rest.dropLast := by
    rw [← hrest, List.dropLast_append_of_ne_nil hrest']
  rw [hup, checkParents_eq_ok_iff hnodup hinside, ← hup]
  refine forall₂_congr fun parent _ => ?_
  rw [prefix_dropLast_iff hpath, and_imp]

/-- The check of the required paths looks at the plans as a set. -/
theorem requireTarDirectories_perm {plans plans' : List Plan} {requiredPaths : List Text}
    (hperm : plans.Perm plans') :
    requireTarDirectories isDriveLetter plans requiredPaths =
      requireTarDirectories isDriveLetter plans' requiredPaths := by
  simp only [requireTarDirectories, hperm.any_eq]

/-! ## Approval -/

/-- An archive that passes. -/
structure Extractable (isDriveLetter : CodePoint → Bool) (dest : Destination)
    (policy : SpecialMemberPolicy) (requiredPaths : List Text) (members : List TarMember) :
    Prop where
  safe : ∀ member ∈ members, SafeMember isDriveLetter dest member
  admitted : policy = .reject → ∀ member ∈ members, member.isPlanned = true
  distinct : ((plansOf dest members).map Plan.memberPath).Nodup
  parents : DirectoriesAbove (plansOf dest members)
  required : requireTarDirectories isDriveLetter (plansOf dest members) requiredPaths = .ok ()

theorem mem_plansOf {dest : Destination} {members : List TarMember} {plan : Plan} :
    plan ∈ plansOf dest members ↔
      ∃ member ∈ members, member.isPlanned = true ∧ planOf dest member = plan := by
  simp [plansOf, and_assoc]

theorem plansOf_inside {dest : Destination} {members : List TarMember}
    (hsafe : ∀ member ∈ members, SafeMember isDriveLetter dest member) :
    ∀ plan ∈ plansOf dest members,
      dest.path <+: plan.memberPath ∧ plan.memberPath ≠ dest.path := by
  intro plan hplan
  obtain ⟨member, hmember, -, rfl⟩ := mem_plansOf.mp hplan
  exact destination_inside (hsafe member hmember).1

theorem prevalidateTarMembers_eq_ok_iff {members : List TarMember} {dest : Destination}
    {policy : SpecialMemberPolicy} {requiredPaths : List Text} {plans : List Plan} :
    prevalidateTarMembers isDriveLetter members dest policy requiredPaths = .ok plans ↔
      Extractable isDriveLetter dest policy requiredPaths members ∧
        plans = plansOf dest members := by
  simp only [prevalidateTarMembers, unit_bind_eq_ok_iff, validateTarMembersStayWithin_eq_ok_iff]
  simp only [bind_eq_ok_iff, pure_eq_ok, Except.ok.injEq, planTarMembers_eq_ok_iff]
  constructor
  · rintro ⟨hsafe, plans, ⟨hadmitted, rfl, hnodup⟩, _, hparents, _, hrequired, rfl⟩
    have hinside := plansOf_inside hsafe
    exact ⟨⟨hsafe, fun hreject member hmember => (hadmitted member hmember).2 hreject, hnodup,
      (rejectNonDirectoryParents_eq_ok_iff hnodup hinside).mp hparents, hrequired⟩, rfl⟩
  · rintro ⟨⟨hsafe, hadmitted, hnodup, hparents, hrequired⟩, rfl⟩
    have hinside := plansOf_inside hsafe
    exact ⟨hsafe, _, ⟨fun member hmember => ⟨(hsafe member hmember).1,
      fun hreject => hadmitted hreject member hmember⟩, rfl, hnodup⟩,
      (), (rejectNonDirectoryParents_eq_ok_iff hnodup hinside).mpr hparents, (), hrequired, rfl⟩

theorem plansOf_perm {members members' : List TarMember} (dest : Destination)
    (hperm : members.Perm members') : (plansOf dest members).Perm (plansOf dest members') :=
  (hperm.filter _).map _

/-- Approval does not depend on the order of the members. -/
theorem Extractable.perm {dest : Destination} {policy : SpecialMemberPolicy}
    {requiredPaths : List Text} {members members' : List TarMember}
    (hextractable : Extractable isDriveLetter dest policy requiredPaths members)
    (hperm : members.Perm members') :
    Extractable isDriveLetter dest policy requiredPaths members' where
  safe member hmember := hextractable.safe member (hperm.mem_iff.mpr hmember)
  admitted hreject member hmember :=
    hextractable.admitted hreject member (hperm.mem_iff.mpr hmember)
  distinct := ((plansOf_perm dest hperm).map _).nodup_iff.mp hextractable.distinct
  parents := fun plan hplan parent hparent =>
    hextractable.parents plan ((plansOf_perm dest hperm).mem_iff.mpr hplan) parent
      ((plansOf_perm dest hperm).mem_iff.mpr hparent)
  required := (requireTarDirectories_perm (plansOf_perm dest hperm)).symm.trans
    hextractable.required

end TraigentSchema.PathSafety
