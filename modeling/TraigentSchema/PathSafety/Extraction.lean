import TraigentSchema.Library.FileTree
import TraigentSchema.PathSafety.Prevalidation

/-!
# Extraction of an approved archive

The plans are carried out one after the other.  Into an empty directory nothing that was
approved can fail, and what is there afterwards depends on the set of the members alone.
-/

namespace TraigentSchema.PathSafety

open TraigentSchema.FileTree
open TraigentSchema.Unicode

variable {isDriveLetter : CodePoint → Bool}

abbrev Tree := Files Text Bytes

/-! ## The second half of `extract_validated_tar_members` -/

def materialize (t : Tree) (plan : Plan) : Outcome OsError Tree :=
  if plan.member.isDir then mkdirParents t plan.memberPath
  else
    let above := mkdirParents t plan.memberPath.dropLast
    match above.error with
    | some _ => above
    | none =>
        match create above.tree plan.memberPath plan.member.payload with
        | .error error => ⟨above.tree, some error⟩
        | .ok t' => ⟨t', none⟩

def materializeAll (t : Tree) : List Plan → Outcome OsError Tree
  | [] => ⟨t, none⟩
  | plan :: plans =>
      let made := materialize t plan
      match made.error with
      | some _ => made
      | none => materializeAll made.tree plans

/-- What the extraction raises. -/
inductive Failure where
  | refused (refusal : Refusal)
  | system (error : OsError)
  deriving DecidableEq

def extractValidatedTarMembers (isDriveLetter : CodePoint → Bool) (t : Tree)
    (members : List TarMember) (dest : Destination) (policy : SpecialMemberPolicy)
    (requiredPaths : List Text) : Outcome Failure Tree :=
  match prevalidateTarMembers isDriveLetter members dest policy requiredPaths with
  | .error refusal => ⟨t, some (.refused refusal)⟩
  | .ok plans =>
      let made := materializeAll t plans
      ⟨made.tree, made.error.map .system⟩

/-! ## What the plans leave -/

/-- A directory with nothing below it. -/
structure EmptyDirectory (t : Tree) (path : Path) : Prop where
  here : ∀ q, q <+: path → t q = some .directory
  empty : ∀ q, path <+: q → q ≠ path → t q = none

/-- The tree `t` is `t₀` with what the plans ask for, and with the directories on the way. -/
structure Planted (t₀ : Tree) (plans : List Plan) (t : Tree) : Prop where
  files : ∀ plan ∈ plans, plan.member.isDir = false →
    t plan.memberPath = some (.file plan.member.payload)
  directories : ∀ q, (∃ plan ∈ plans, q <+: plan.memberPath) →
    (∀ plan ∈ plans, plan.member.isDir = false → plan.memberPath ≠ q) →
    t q = some .directory
  others : ∀ q, (∀ plan ∈ plans, ¬q <+: plan.memberPath) → t q = t₀ q

theorem Planted.start (t₀ : Tree) : Planted t₀ [] t₀ where
  files := by simp
  directories := by simp
  others _ _ := rfl

/-- The plans leave one tree only, whatever their order. -/
theorem Planted.unique {t₀ t t' : Tree} {plans plans' : List Plan}
    (hplanted : Planted t₀ plans t) (hplanted' : Planted t₀ plans' t')
    (hperm : plans.Perm plans') : t = t' := by
  funext q
  by_cases hfile : ∃ plan ∈ plans, plan.member.isDir = false ∧ plan.memberPath = q
  · obtain ⟨plan, hplan, hisfile, rfl⟩ := hfile
    exact (hplanted.files plan hplan hisfile).trans
      (hplanted'.files plan (hperm.mem_iff.mp hplan) hisfile).symm
  · push Not at hfile
    by_cases hway : ∃ plan ∈ plans, q <+: plan.memberPath
    · have hway' : ∃ plan ∈ plans', q <+: plan.memberPath := by
        simpa only [hperm.mem_iff] using hway
      exact (hplanted.directories q hway hfile).trans (hplanted'.directories q hway'
        fun plan hplan => hfile plan (hperm.mem_iff.mpr hplan)).symm
    · push Not at hway
      exact (hplanted.others q hway).trans
        (hplanted'.others q fun plan hplan => hway plan (hperm.mem_iff.mpr hplan)).symm

/-! ## One plan -/

/-- A plan that goes with those already carried out. -/
structure Fits (dest : Destination) (done : List Plan) (plan : Plan) : Prop where
  inside : dest.path <+: plan.memberPath ∧ plan.memberPath ≠ dest.path
  fresh : ∀ other ∈ done, other.memberPath ≠ plan.memberPath
  above : ∀ other ∈ done, other.memberPath <+: plan.memberPath → other.member.isDir = true
  below : ∀ other ∈ done, plan.memberPath <+: other.memberPath → plan.member.isDir = true

section Step

variable {t₀ t : Tree} {dest : Destination} {done : List Plan} {plan : Plan}

/-- No file that is there stands in the way of a plan that fits. -/
theorem clear_of_fits (hempty : EmptyDirectory t₀ dest.path) (hplanted : Planted t₀ done t)
    (hfits : Fits dest done plan) : Clear t plan.memberPath := by
  intro q hq content hcontent
  have hdirectory : t q = some .directory → False := fun hdir => by simp [hdir] at hcontent
  by_cases hway : ∃ other ∈ done, q <+: other.memberPath
  · refine hdirectory (hplanted.directories q hway fun other hother hisfile heq => ?_)
    have hisdir := hfits.above other hother (heq ▸ hq)
    simp [hisfile] at hisdir
  · push Not at hway
    rw [hplanted.others q hway] at hcontent
    rcases List.prefix_or_prefix_of_prefix hq hfits.inside.1 with hover | hunder
    · rw [hempty.here q hover] at hcontent
      simp at hcontent
    · by_cases hself : q = dest.path
      · rw [hempty.here q (hself ▸ List.prefix_refl _)] at hcontent
        simp at hcontent
      · rw [hempty.empty q hunder hself] at hcontent
        simp at hcontent

/-- A file that is there is not touched by directories made on the way to a clear path. -/
theorem withDirectories_file {path : Path} (hclear : Clear t path)
    {q : Path} {content : Bytes} (hfile : t q = some (.file content)) :
    withDirectories t path q = some (.file content) := by
  rw [withDirectories, if_neg fun hpre => hclear q hpre content hfile, hfile]

theorem Planted.directory (hempty : EmptyDirectory t₀ dest.path) (hplanted : Planted t₀ done t)
    (hfits : Fits dest done plan) (hisdir : plan.member.isDir = true) :
    Planted t₀ (done ++ [plan]) (withDirectories t plan.memberPath) := by
  have hclear := clear_of_fits hempty hplanted hfits
  constructor
  · intro other hother hisfile
    rcases List.mem_append.mp hother with hdone | hlast
    · exact withDirectories_file hclear (hplanted.files other hdone hisfile)
    · rw [List.mem_singleton.mp hlast, hisdir] at hisfile
      exact absurd hisfile (by decide)
  · rintro q ⟨other, hother, hpre⟩ hnotfile
    by_cases hway : q <+: plan.memberPath
    · exact if_pos hway
    · rw [withDirectories, if_neg hway]
      rcases List.mem_append.mp hother with hdone | hlast
      · exact hplanted.directories q ⟨other, hdone, hpre⟩
          fun file hfile => hnotfile file (List.mem_append_left _ hfile)
      · exact absurd (List.mem_singleton.mp hlast ▸ hpre) hway
  · intro q hnone
    rw [withDirectories, if_neg (hnone plan (by simp))]
    exact hplanted.others q fun other hother => hnone other (List.mem_append_left _ hother)

theorem Planted.file (hempty : EmptyDirectory t₀ dest.path) (hplanted : Planted t₀ done t)
    (hfits : Fits dest done plan) (hisfile : plan.member.isDir = false) :
    Planted t₀ (done ++ [plan])
      (Function.update (withDirectories t plan.memberPath.dropLast) plan.memberPath
        (some (.file plan.member.payload))) := by
  have hclear : Clear t plan.memberPath.dropLast := fun q hq =>
    clear_of_fits hempty hplanted hfits q (hq.trans (List.dropLast_prefix _))
  constructor
  · intro other hother hotherfile
    rcases List.mem_append.mp hother with hdone | hlast
    · rw [Function.update_of_ne (hfits.fresh other hdone)]
      exact withDirectories_file hclear (hplanted.files other hdone hotherfile)
    · rw [List.mem_singleton.mp hlast, Function.update_self]
  · rintro q ⟨other, hother, hpre⟩ hnotfile
    have hne : q ≠ plan.memberPath := fun heq => hnotfile plan (by simp) hisfile heq.symm
    rw [Function.update_of_ne hne]
    by_cases hway : q <+: plan.memberPath
    · exact if_pos (prefix_dropLast_of_ne hway hne)
    · rw [withDirectories, if_neg fun hup => hway (hup.trans (List.dropLast_prefix _))]
      rcases List.mem_append.mp hother with hdone | hlast
      · exact hplanted.directories q ⟨other, hdone, hpre⟩
          fun file hfile => hnotfile file (List.mem_append_left _ hfile)
      · exact absurd (List.mem_singleton.mp hlast ▸ hpre) hway
  · intro q hnone
    have hway := hnone plan (by simp)
    have hne : q ≠ plan.memberPath := fun heq => hway (heq ▸ List.prefix_refl _)
    rw [Function.update_of_ne hne, withDirectories,
      if_neg fun hup => hway (hup.trans (List.dropLast_prefix _))]
    exact hplanted.others q fun other hother => hnone other (List.mem_append_left _ hother)

/-- Where a file is to be made nothing stands yet. -/
theorem absent_of_fits (hempty : EmptyDirectory t₀ dest.path) (hplanted : Planted t₀ done t)
    (hfits : Fits dest done plan) (hisfile : plan.member.isDir = false) :
    t plan.memberPath = none := by
  have hway : ∀ other ∈ done, ¬plan.memberPath <+: other.memberPath := fun other hother hpre => by
    have hisdir := hfits.below other hother hpre
    simp [hisfile] at hisdir
  rw [hplanted.others _ hway]
  exact hempty.empty _ hfits.inside.1 hfits.inside.2

/-- One plan that fits is carried out. -/
theorem materialize_eq (hempty : EmptyDirectory t₀ dest.path) (hplanted : Planted t₀ done t)
    (hfits : Fits dest done plan) :
    ∃ t', materialize t plan = ⟨t', none⟩ ∧ Planted t₀ (done ++ [plan]) t' := by
  have hclear := clear_of_fits hempty hplanted hfits
  cases hkind : plan.member.isDir with
  | true =>
      refine ⟨_, ?_, hplanted.directory hempty hfits hkind⟩
      rw [materialize, if_pos hkind]
      exact mkdirParents_eq hclear
  | false =>
      have hup : Clear t plan.memberPath.dropLast := fun q hq =>
        hclear q (hq.trans (List.dropLast_prefix _))
      have hnonempty : plan.memberPath ≠ [] := fun hnil => by
        have hdest := List.prefix_nil.mp (hnil ▸ hfits.inside.1)
        exact hfits.inside.2 (hnil.trans hdest.symm)
      have hnot : ¬plan.memberPath <+: plan.memberPath.dropLast := fun hpre =>
        ((prefix_dropLast_iff hnonempty).mp hpre).2 rfl
      have hparents : HasParents (withDirectories t plan.memberPath.dropLast)
          plan.memberPath := fun q hq hne => if_pos (prefix_dropLast_of_ne hq hne)
      have habsent : withDirectories t plan.memberPath.dropLast plan.memberPath = none := by
        rw [withDirectories, if_neg hnot]
        exact absent_of_fits hempty hplanted hfits hkind
      refine ⟨_, ?_, hplanted.file hempty hfits hkind⟩
      rw [materialize, if_neg (by simp [hkind]), mkdirParents_eq hup]
      dsimp only
      rw [create_eq hparents habsent]

end Step

/-! ## All of them -/

/-- Plans of distinct destinations with directories above fit one after the other. -/
theorem fits_of_directoriesAbove {dest : Destination} {done rest : List Plan} {plan : Plan}
    (hinside : dest.path <+: plan.memberPath ∧ plan.memberPath ≠ dest.path)
    (hnodup : ((done ++ plan :: rest).map Plan.memberPath).Nodup)
    (hparents : DirectoriesAbove (done ++ plan :: rest)) : Fits dest done plan := by
  have hfresh : ∀ other ∈ done, other.memberPath ≠ plan.memberPath := by
    intro other hother
    rw [List.map_append, List.nodup_append] at hnodup
    exact hnodup.2.2 _ (List.mem_map_of_mem hother) _ (by simp)
  have hplan : plan ∈ done ++ plan :: rest := by simp
  refine ⟨hinside, hfresh, fun other hother hpre => ?_, fun other hother hpre => ?_⟩
  · exact hparents plan hplan other (List.mem_append_left _ hother) hpre (hfresh other hother)
  · exact hparents other (List.mem_append_left _ hother) plan hplan hpre
      (hfresh other hother).symm

theorem materializeAll_eq {t₀ : Tree} {dest : Destination}
    (hempty : EmptyDirectory t₀ dest.path) {plans done : List Plan} {t : Tree}
    (hplanted : Planted t₀ done t)
    (hinside : ∀ plan ∈ plans, dest.path <+: plan.memberPath ∧ plan.memberPath ≠ dest.path)
    (hnodup : ((done ++ plans).map Plan.memberPath).Nodup)
    (hparents : DirectoriesAbove (done ++ plans)) :
    ∃ t', materializeAll t plans = ⟨t', none⟩ ∧ Planted t₀ (done ++ plans) t' := by
  induction plans generalizing done t with
  | nil => exact ⟨t, rfl, by rwa [List.append_nil]⟩
  | cons plan plans ih =>
      have hfits := fits_of_directoriesAbove (hinside plan (by simp)) hnodup hparents
      obtain ⟨t₁, hmade, hplanted₁⟩ := materialize_eq hempty hplanted hfits
      rw [List.append_cons] at hnodup hparents ⊢
      obtain ⟨t₂, hrest, hplanted₂⟩ := ih hplanted₁
        (fun other hother => hinside other (List.mem_cons_of_mem _ hother)) hnodup hparents
      refine ⟨t₂, ?_, hplanted₂⟩
      rw [materializeAll, hmade]
      exact hrest

/-- The extraction either refuses the archive and touches nothing, or carries out the plans. -/
theorem extractValidatedTarMembers_eq {t₀ : Tree} {dest : Destination}
    (hempty : EmptyDirectory t₀ dest.path) (members : List TarMember)
    (policy : SpecialMemberPolicy) (requiredPaths : List Text) :
    (¬Extractable isDriveLetter dest policy requiredPaths members ∧ ∃ refusal,
      extractValidatedTarMembers isDriveLetter t₀ members dest policy requiredPaths =
        ⟨t₀, some (.refused refusal)⟩) ∨
    (Extractable isDriveLetter dest policy requiredPaths members ∧ ∃ t,
      extractValidatedTarMembers isDriveLetter t₀ members dest policy requiredPaths =
        ⟨t, none⟩ ∧ Planted t₀ (plansOf dest members) t) := by
  cases hresult : prevalidateTarMembers isDriveLetter members dest policy requiredPaths with
  | error refusal =>
      refine Or.inl ⟨fun hextractable => ?_, refusal, ?_⟩
      · rw [prevalidateTarMembers_eq_ok_iff.mpr ⟨hextractable, rfl⟩] at hresult
        exact absurd hresult (by simp)
      · rw [extractValidatedTarMembers, hresult]
  | ok plans =>
      obtain ⟨hextractable, rfl⟩ := prevalidateTarMembers_eq_ok_iff.mp hresult
      obtain ⟨t, hmade, hplanted⟩ := materializeAll_eq hempty (Planted.start t₀)
        (plansOf_inside hextractable.safe) hextractable.distinct hextractable.parents
      refine Or.inr ⟨hextractable, t, ?_, hplanted⟩
      rw [extractValidatedTarMembers, hresult]
      dsimp only
      rw [hmade]
      rfl

/-! ## What there is afterwards -/

/-- What an extraction leaves, in terms of the members.  A member of another type adds nothing:
whatever was made stands on the way to a regular file or a directory of the archive. -/
structure Extracted (dest : Destination) (members : List TarMember) (t₀ t : Tree) : Prop where
  inside : ∀ q, t q ≠ t₀ q → dest.path <+: q ∧ q ≠ dest.path
  regularFiles : ∀ q content, (t₀ q = none ∧ t q = some (.file content)) ↔
    ∃ member ∈ members, member.isFile = true ∧ destination dest member = q ∧
      member.payload = content
  ownPaths : ((members.filter TarMember.isFile).map (destination dest)).Nodup
  directories : ∀ member ∈ members, member.isDir = true →
    t (destination dest member) = some .directory
  created : ∀ q, t₀ q = none → t q ≠ none →
    ∃ member ∈ members, member.isPlanned = true ∧ q <+: destination dest member

theorem isDir_eq_false_iff {member : TarMember} (hplanned : member.isPlanned = true) :
    member.isDir = false ↔ member.isFile = true := by
  cases member with
  | mk name type linkname payload =>
      cases type <;>
        simp_all [TarMember.isPlanned, TarMember.isFile, TarMember.isDir]

section Result

variable {t₀ t : Tree} {dest : Destination} {members : List TarMember}

theorem absent_of_below (hempty : EmptyDirectory t₀ dest.path)
    (hsafe : ∀ member ∈ members, SafeMember isDriveLetter dest member) {member : TarMember}
    (hmember : member ∈ members) : t₀ (destination dest member) = none := by
  obtain ⟨hbelow, hne⟩ := @destination_inside isDriveLetter dest member (hsafe member hmember).1
  exact hempty.empty _ hbelow hne

theorem mem_plansOf_of_mem {member : TarMember} (hmember : member ∈ members)
    (hplanned : member.isPlanned = true) : planOf dest member ∈ plansOf dest members :=
  mem_plansOf.mpr ⟨member, hmember, hplanned, rfl⟩

/-- What is new stands at a plan's path or on the way to it. -/
theorem Planted.created (hplanted : Planted t₀ (plansOf dest members) t) {q : Path}
    (hnew : t q ≠ t₀ q) :
    ∃ member ∈ members, member.isPlanned = true ∧ q <+: destination dest member := by
  by_contra hnone
  push Not at hnone
  refine hnew (hplanted.others q fun plan hplan => ?_)
  obtain ⟨member, hmember, hisplanned, rfl⟩ := mem_plansOf.mp hplan
  exact hnone member hmember hisplanned

theorem Planted.inside (hempty : EmptyDirectory t₀ dest.path)
    (hsafe : ∀ member ∈ members, SafeMember isDriveLetter dest member)
    (hplanted : Planted t₀ (plansOf dest members) t) {q : Path} (hnew : t q ≠ t₀ q) :
    dest.path <+: q ∧ q ≠ dest.path := by
  obtain ⟨member, hmember, hisplanned, hway⟩ := hplanted.created hnew
  have hinside := plansOf_inside hsafe
  have hnotover : ¬q <+: dest.path := by
    intro hover
    refine hnew ((hplanted.directories q ?_ ?_).trans (hempty.here q hover).symm)
    · exact ⟨_, mem_plansOf_of_mem hmember hisplanned, hway⟩
    · rintro plan hplan - rfl
      obtain ⟨hbelow, hne⟩ := hinside plan hplan
      exact hne (hover.eq_of_length_le hbelow.length_le)
  refine ⟨?_, fun heq => hnotover (heq ▸ List.prefix_refl _)⟩
  rcases List.prefix_or_prefix_of_prefix hway
    (hinside _ (mem_plansOf_of_mem hmember hisplanned)).1 with hover | hunder
  · exact absurd hover hnotover
  · exact hunder

theorem Planted.regularFiles (hempty : EmptyDirectory t₀ dest.path)
    (hsafe : ∀ member ∈ members, SafeMember isDriveLetter dest member)
    (hplanted : Planted t₀ (plansOf dest members) t) (q : Path) (content : Bytes) :
    (t₀ q = none ∧ t q = some (.file content)) ↔
      ∃ member ∈ members, member.isFile = true ∧ destination dest member = q ∧
        member.payload = content := by
  constructor
  · rintro ⟨habsent, hfile⟩
    obtain ⟨member, hmember, hisplanned, hway⟩ :=
      hplanted.created (q := q) (by simp [habsent, hfile])
    have hstands : ∃ plan ∈ plansOf dest members, plan.member.isDir = false ∧
        plan.memberPath = q := by
      by_contra hnone
      push Not at hnone
      have hdirectory := hplanted.directories q
        ⟨_, mem_plansOf_of_mem hmember hisplanned, hway⟩ hnone
      simp [hfile] at hdirectory
    obtain ⟨plan, hplan, hisfile, rfl⟩ := hstands
    have hpayload := hplanted.files plan hplan hisfile
    obtain ⟨source, hsource, hsourceplanned, rfl⟩ := mem_plansOf.mp hplan
    refine ⟨source, hsource, (isDir_eq_false_iff hsourceplanned).mp hisfile, rfl, ?_⟩
    rw [hfile] at hpayload
    exact (Node.file.inj (Option.some.inj hpayload)).symm
  · rintro ⟨member, hmember, hisfile, rfl, rfl⟩
    have hisplanned : member.isPlanned = true := by simp [TarMember.isPlanned, hisfile]
    exact ⟨absent_of_below hempty hsafe hmember,
      hplanted.files _ (mem_plansOf_of_mem hmember hisplanned)
        ((isDir_eq_false_iff hisplanned).mpr hisfile)⟩

theorem Planted.extracted {policy : SpecialMemberPolicy} {requiredPaths : List Text}
    (hempty : EmptyDirectory t₀ dest.path)
    (hextractable : Extractable isDriveLetter dest policy requiredPaths members)
    (hplanted : Planted t₀ (plansOf dest members) t) : Extracted dest members t₀ t where
  inside _ := hplanted.inside hempty hextractable.safe
  regularFiles := hplanted.regularFiles hempty hextractable.safe
  ownPaths := by
    have hfiles : (members.filter TarMember.isFile).Sublist
        (members.filter TarMember.isPlanned) :=
      List.monotone_filter_right members fun member hisfile => by
        simp [TarMember.isPlanned, hisfile]
    have hpaths : (plansOf dest members).map Plan.memberPath =
        (members.filter TarMember.isPlanned).map (destination dest) := by
      rw [plansOf, List.map_map]
      rfl
    have hdistinct := hextractable.distinct
    rw [hpaths] at hdistinct
    exact hdistinct.sublist (hfiles.map _)
  directories member hmember hisdir := by
    have hisplanned : member.isPlanned = true := by simp [TarMember.isPlanned, hisdir]
    have hplan := @mem_plansOf_of_mem dest members member hmember hisplanned
    refine hplanted.directories _ ⟨_, hplan, List.prefix_refl _⟩ fun plan hother hisfile hsame => ?_
    have heq := List.inj_on_of_nodup_map hextractable.distinct hother hplan hsame
    rw [heq] at hisfile
    exact absurd (hisdir.symm.trans hisfile) (by decide)
  created q habsent hthere := hplanted.created fun hsame => hthere (hsame.trans habsent)

end Result

/-- Into an empty directory an archive is either refused before anything is made, or extracted
without an error: everything made stands strictly inside, the files made are the regular members
with their bytes, each at a path of its own, and the members' directories are there.  Which of
the two happens, and the tree in the end, are the same for every order of the members. -/
theorem extraction_stays_inside {t₀ : Tree} {dest : Destination}
    (hempty : EmptyDirectory t₀ dest.path) (members : List TarMember)
    (policy : SpecialMemberPolicy) (requiredPaths : List Text) :
    let extract := fun order =>
      extractValidatedTarMembers isDriveLetter t₀ order dest policy requiredPaths
    ((∃ refusal, extract members = ⟨t₀, some (.refused refusal)⟩) ∨
      (extract members).error = none ∧ Extracted dest members t₀ (extract members).tree) ∧
    ∀ order, members.Perm order →
      ((extract order).error = none ↔ (extract members).error = none) ∧
        (extract order).tree = (extract members).tree := by
  intro extract
  have houtcome := fun order =>
    @extractValidatedTarMembers_eq isDriveLetter t₀ dest hempty order policy requiredPaths
  constructor
  · rcases houtcome members with
      ⟨-, hrefused⟩ | ⟨hextractable, t, hmade, hplanted⟩
    · exact Or.inl hrefused
    · refine Or.inr ⟨congrArg Outcome.error hmade, ?_⟩
      have htree : (extract members).tree = t := congrArg Outcome.tree hmade
      rw [htree]
      exact hplanted.extracted hempty hextractable
  · intro order hperm
    rcases houtcome members with
      ⟨hnot, refusal, hmade⟩ | ⟨hextractable, t, hmade, hplanted⟩ <;>
    rcases houtcome order with
      ⟨hnot', refusal', hmade'⟩ | ⟨hextractable', t', hmade', hplanted'⟩
    · simp [extract, hmade, hmade']
    · exact absurd (hextractable'.perm hperm.symm) hnot
    · exact absurd (hextractable.perm hperm) hnot'
    · have htree := hplanted.unique hplanted' (plansOf_perm dest hperm)
      simp [extract, hmade, hmade', htree]

/-- A file whose parent is only named by a later member is extracted in either order. -/
theorem extraction_stays_inside_implicit_parent :
    let dest : Destination := ⟨[text "out"], by decide⟩
    let t₀ : Tree := fun q => if q <+: dest.path then some .directory else none
    let file : TarMember := ⟨text "a//./b", .regular, [], [1]⟩
    let directory : TarMember := ⟨text "a/", .directory, [], []⟩
    let extract := fun order =>
      extractValidatedTarMembers (fun c => 65 ≤ c ∧ c ≤ 122) t₀ order dest .reject []
    (extract [file, directory]).error = none ∧
      Extracted dest [file, directory] t₀ (extract [file, directory]).tree ∧
      (extract [directory, file]).error = none ∧
      (extract [directory, file]).tree = (extract [file, directory]).tree := by
  intro dest t₀ file directory extract
  have hempty : EmptyDirectory t₀ dest.path :=
    ⟨fun _ hpre => if_pos hpre, fun _ hpre hne => if_neg fun hover =>
      hne (hover.eq_of_length_le hpre.length_le)⟩
  obtain ⟨hresult, horder⟩ :=
    @extraction_stays_inside (fun c => 65 ≤ c ∧ c ≤ 122) t₀ dest hempty [file, directory] .reject []
  have hdone : (extract [file, directory]).error = none := by
    decide +kernel
  obtain ⟨hswapped, htree⟩ := horder _ (List.Perm.swap directory file [])
  rcases hresult with ⟨refusal, hrefused⟩ | ⟨-, hextracted⟩
  · rw [show extract [file, directory] = _ from hrefused] at hdone
    cases hdone
  · exact ⟨hdone, hextracted, hswapped.mpr hdone, htree⟩

end TraigentSchema.PathSafety
