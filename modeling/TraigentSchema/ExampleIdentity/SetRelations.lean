import TraigentSchema.ExampleIdentity.MultisetRoot

/-!
# Relations between multisets

The statistics compare committed multisets by inclusion and by the inputs they share.  On what
the root computation returns, both are the relations of the multisets that the items denote.
-/

namespace TraigentSchema.ExampleIdentity

open TraigentSchema.Hashing
open TraigentSchema.Python
open TraigentSchema.SortedBy
open TraigentSchema.Unicode

/-- `available.get(pair, 0)`, in the dict of the members' counts, where the last one counts. -/
def available (members : List MultisetMember) (pair : Pair) : ℕ :=
  ((members.reverse.find? fun member => member.pair = pair).map MultisetMember.count).getD 0

def isSubMultiset (inner outer : MultisetRoot) : Bool :=
  if inner.keyId = outer.keyId then
    inner.members.all fun member => decide (member.count ≤ available outer.members member.pair)
  else false

def exampleIdOverlap (first second : MultisetRoot) : Except ContentIdentityError (List Text) :=
  if first.keyId = second.keyId then
    let exampleIds := (first.members.map MultisetMember.exampleId).dedup
    .ok (sortedBy id (exampleIds.filter fun exampleId =>
      second.members.any fun member => decide (member.exampleId = exampleId)))
  else .error ⟨"cannot compare multisets minted under different key ids"⟩

/-! ## Merged members -/

section Merged

variable {members members' : List MultisetMember} {count count' : Pair → ℕ}

theorem countOf_pos {member : MultisetMember} (hmember : member ∈ members) :
    0 < countOf members member.pair := by
  induction members with
  | nil => exact absurd hmember List.not_mem_nil
  | cons head members ih =>
      rw [countOf_cons]
      rcases List.mem_cons.mp hmember with rfl | htail
      · rw [if_pos rfl]
        exact Nat.add_pos_left member.countRange.1 _
      · exact Nat.add_pos_right _ (ih htail)

/-- A merged member has the count of its pair. -/
theorem Merged.count_of_mem (hmerged : Merged members count) {member : MultisetMember}
    (hmember : member ∈ members) :
    0 < member.count ∧ member.count = count member.pair :=
  (hmerged.mem_iff member.pair member.count).mp ⟨member, hmember, rfl, rfl⟩

/-- The dict of merged members gives every pair its count. -/
theorem Merged.available_eq (hmerged : Merged members count) (pair : Pair) :
    available members pair = count pair := by
  rw [available]
  cases hfound : members.reverse.find? fun member => member.pair = pair with
  | none =>
      by_contra hcount
      have hpos : 0 < count pair := Nat.pos_of_ne_zero fun hzero => hcount hzero.symm
      obtain ⟨member, hmember, hpair, _⟩ := (hmerged.mem_iff pair _).mpr ⟨hpos, rfl⟩
      have hnone := List.find?_eq_none.mp hfound member (List.mem_reverse.mpr hmember)
      simp [hpair] at hnone
  | some member =>
      have hmember := List.mem_reverse.mp (List.mem_of_find?_eq_some hfound)
      have hpair : member.pair = pair := by simpa using List.find?_some hfound
      rw [← hpair]
      exact (hmerged.count_of_mem hmember).2

/-- Comparing the members of one multiset is comparing the counts of all pairs. -/
theorem Merged.all_le_iff (hmerged : Merged members count) :
    (∀ member ∈ members, member.count ≤ count' member.pair) ↔ ∀ pair, count pair ≤ count' pair := by
  constructor
  · intro hall pair
    rcases Nat.eq_zero_or_pos (count pair) with hzero | hpos
    · omega
    · obtain ⟨member, hmember, hpair, htotal⟩ := (hmerged.mem_iff pair _).mpr ⟨hpos, rfl⟩
      have hle := hall member hmember
      rwa [hpair, htotal] at hle
  · intro hall member hmember
    rw [(hmerged.count_of_mem hmember).2]
    exact hall member.pair

theorem any_exampleId_iff {exampleId : Text} :
    (members.any fun member => decide (member.exampleId = exampleId)) = true ↔
      exampleId ∈ members.map MultisetMember.exampleId := by
  simp only [List.any_eq_true, decide_eq_true_eq, List.mem_map]

/-- The ids of merged members are those of the pairs that occur. -/
theorem Merged.mem_exampleIds_iff (hmerged : Merged members count) {exampleId : Text} :
    exampleId ∈ members.map MultisetMember.exampleId ↔
      ∃ exampleVersion, 0 < count (exampleId, exampleVersion) := by
  rw [List.mem_map]
  constructor
  · rintro ⟨member, hmember, rfl⟩
    obtain ⟨hpos, hcount⟩ := hmerged.count_of_mem hmember
    exact ⟨member.exampleVersion, hcount ▸ hpos⟩
  · rintro ⟨exampleVersion, hpos⟩
    obtain ⟨member, hmember, hpair, _⟩ := (hmerged.mem_iff _ _).mpr ⟨hpos, rfl⟩
    exact ⟨member, hmember, congrArg Prod.fst hpair⟩

end Merged

/-! ## Committed multisets -/

section Committed

variable {sha256 : Hash} {float : FloatRepr} {items items' : List MultisetItem}
  {keyId keyId' : Option PyValue} {result result' : MultisetRoot} {count count' : Pair → ℕ}

theorem Denotes.unique (hdenotes : Denotes items count) (hdenotes' : Denotes items count') :
    count = count' := by
  obtain ⟨members, hmembers, rfl⟩ := hdenotes
  obtain ⟨members', hmembers', rfl⟩ := hdenotes'
  rw [hmembers, Except.ok.injEq] at hmembers'
  rw [hmembers']

/-- The members of a result are those of the multiset that the items denote. -/
theorem merged_of_computeMultisetRoot
    (hresult : computeMultisetRoot sha256 float items keyId = .ok result)
    (hdenotes : Denotes items count) : Merged result.members count := by
  obtain ⟨_, hdenotes', hmerged⟩ :=
    denotes_of_normalize (computeMultisetRoot_eq_ok_iff.mp hresult).normalized
  rwa [hdenotes.unique hdenotes']

/-- One multiset under one key has one result. -/
theorem result_eq_of_denotes
    (hresult : computeMultisetRoot sha256 float items keyId = .ok result)
    (hresult' : computeMultisetRoot sha256 float items' keyId' = .ok result')
    (hkey : result.keyId = result'.keyId) (hdenotes : Denotes items count)
    (hdenotes' : Denotes items' count) : result = result' := by
  have haccepted := computeMultisetRoot_eq_ok_iff.mp hresult
  have haccepted' := computeMultisetRoot_eq_ok_iff.mp hresult'
  have hmembers : result.members = result'.members := by
    have hnormalized := (normalize_congr hdenotes hdenotes' _).mp haccepted.normalized
    rw [haccepted'.normalized, Except.ok.injEq] at hnormalized
    exact hnormalized.symm
  have hroot := haccepted.root
  have hdistinct := haccepted.distinctCount
  have htotal := haccepted.totalCount
  have hconflicts := haccepted.conflicts
  rw [hmembers, hkey, ← haccepted'.root] at hroot
  rw [hmembers, ← haccepted'.distinctCount] at hdistinct
  rw [hmembers, ← haccepted'.totalCount] at htotal
  rw [hmembers, ← haccepted'.conflicts] at hconflicts
  cases result
  cases result'
  simp only [MultisetRoot.mk.injEq]
  exact ⟨hroot, hkey, hmembers, hdistinct, htotal, hconflicts⟩

theorem isSubMultiset_iff
    (hresult : computeMultisetRoot sha256 float items keyId = .ok result)
    (hresult' : computeMultisetRoot sha256 float items' keyId' = .ok result')
    (hdenotes : Denotes items count) (hdenotes' : Denotes items' count') :
    isSubMultiset result result' = true ↔
      result.keyId = result'.keyId ∧ ∀ pair, count pair ≤ count' pair := by
  have hmerged := merged_of_computeMultisetRoot hresult hdenotes
  have hmerged' := merged_of_computeMultisetRoot hresult' hdenotes'
  rw [isSubMultiset]
  split_ifs with hkey
  · simp only [List.all_eq_true, decide_eq_true_eq, hmerged'.available_eq, hmerged.all_le_iff,
      hkey, true_and]
  · simp [hkey]

/-- Of two results the first is a sub-multiset of the second when they have one key and no pair
occurs more often in it, whatever the items were given as; and two results that are sub-multisets
of each other are equal, so that they have one root. -/
theorem isSubMultiset_is_inclusion
    (hresult : computeMultisetRoot sha256 float items keyId = .ok result)
    (hresult' : computeMultisetRoot sha256 float items' keyId' = .ok result')
    (hdenotes : Denotes items count) (hdenotes' : Denotes items' count') :
    (isSubMultiset result result' = true ↔
      result.keyId = result'.keyId ∧ ∀ pair, count pair ≤ count' pair) ∧
    (isSubMultiset result result' = true → isSubMultiset result' result = true →
      result = result') := by
  refine ⟨isSubMultiset_iff hresult hresult' hdenotes hdenotes', fun hsub hsuper => ?_⟩
  obtain ⟨hkey, hle⟩ := (isSubMultiset_iff hresult hresult' hdenotes hdenotes').mp hsub
  obtain ⟨_, hge⟩ := (isSubMultiset_iff hresult' hresult hdenotes' hdenotes).mp hsuper
  have hcount : count = count' := funext fun pair => le_antisymm (hle pair) (hge pair)
  exact result_eq_of_denotes hresult hresult' hkey hdenotes (hcount ▸ hdenotes')

/-- The overlap of two results under one key lists, in order and once each, the ids that occur in
both of the multisets, under whatever versions; under two keys there is no answer. -/
theorem exampleIdOverlap_is_intersection
    (hresult : computeMultisetRoot sha256 float items keyId = .ok result)
    (hresult' : computeMultisetRoot sha256 float items' keyId' = .ok result')
    (hdenotes : Denotes items count) (hdenotes' : Denotes items' count') :
    (result.keyId = result'.keyId → ∃ exampleIds, exampleIdOverlap result result' = .ok exampleIds ∧
      exampleIds.Pairwise (· < ·) ∧
      ∀ exampleId, exampleId ∈ exampleIds ↔
        (∃ version, 0 < count (exampleId, version)) ∧
          ∃ version, 0 < count' (exampleId, version)) ∧
    (result.keyId ≠ result'.keyId → ∃ e, exampleIdOverlap result result' = .error e) := by
  have hmerged := merged_of_computeMultisetRoot hresult hdenotes
  have hmerged' := merged_of_computeMultisetRoot hresult' hdenotes'
  constructor
  · intro hkey
    refine ⟨_, if_pos hkey, ?_, fun exampleId => ?_⟩
    · have hnodup : (sortedBy id ((result.members.map MultisetMember.exampleId).dedup.filter
          fun exampleId => result'.members.any fun member =>
            decide (member.exampleId = exampleId))).Nodup :=
        (sortedBy_perm id _).nodup_iff.mpr ((List.nodup_dedup _).filter _)
      exact ((pairwise_sortedBy id _).and hnodup).imp fun ⟨hle, hne⟩ => lt_of_le_of_ne hle hne
    · rw [mem_sortedBy, List.mem_filter, List.mem_dedup, any_exampleId_iff,
        hmerged.mem_exampleIds_iff, hmerged'.mem_exampleIds_iff]
  · exact fun hkey => ⟨_, if_neg hkey⟩

end Committed

/-! A part of the sample, and a multiset that shares one id with that part. -/

def partMembers : List MultisetMember := [onceMember, thriceMember]

noncomputable def partRoot : MultisetRoot :=
  rootOf Sha256.sha256 FloatRepr.fewestDigits partMembers

theorem computeMultisetRoot_partMembers :
    computeMultisetRoot Sha256.sha256 FloatRepr.fewestDigits
      (partMembers.map MultisetItem.member) none = .ok partRoot :=
  computeMultisetRoot_rootOf (by decide +kernel) (by decide +kernel) (by decide +kernel)
    (by decide)

/-- The part is included in the sample, and the sample is not in the part. -/
theorem isSubMultiset_is_inclusion_sample :
    isSubMultiset partRoot sampleRoot = true ∧ ¬isSubMultiset sampleRoot partRoot = true := by
  have hpart := (isSubMultiset_is_inclusion computeMultisetRoot_partMembers
    computeMultisetRoot_sampleMembers (denotes_members _) (denotes_members _)).1
  have hsample := (isSubMultiset_is_inclusion computeMultisetRoot_sampleMembers
    computeMultisetRoot_partMembers (denotes_members _) (denotes_members _)).1
  have htwice : twiceMember.pair = onceMember.pair := rfl
  have hcounts : onceMember.count = 1 ∧ twiceMember.count = 2 := ⟨rfl, rfl⟩
  constructor
  · refine hpart.mpr ⟨rfl, fun pair => ?_⟩
    simp only [partMembers, sampleMembers, countOf_cons, htwice, hcounts.1, hcounts.2]
    split_ifs <;> omega
  · intro hincluded
    have hle := (hsample.mp hincluded).2 twiceMember.pair
    rw [countOf_eq_count sampleMembers_nodup (show twiceMember ∈ sampleMembers from
        List.mem_cons_self), htwice, countOf_eq_count (show (partMembers.map _).Nodup by
        decide +kernel) (show onceMember ∈ partMembers from List.mem_cons_self)] at hle
    exact absurd hle (by decide)

def otherMembers : List MultisetMember := [relabelledMember, fourthMember]

noncomputable def otherRoot : MultisetRoot :=
  rootOf Sha256.sha256 FloatRepr.fewestDigits otherMembers

theorem computeMultisetRoot_otherMembers :
    computeMultisetRoot Sha256.sha256 FloatRepr.fewestDigits
      (otherMembers.map MultisetItem.member) none = .ok otherRoot :=
  computeMultisetRoot_rootOf (by decide +kernel) (by decide +kernel) (by decide +kernel)
    (by decide)

/-- The two share the id that they have under different versions, and no other. -/
theorem exampleIdOverlap_is_intersection_sample :
    ∃ exampleIds, exampleIdOverlap partRoot otherRoot = .ok exampleIds ∧
      onceMember.exampleId ∈ exampleIds ∧ thriceMember.exampleId ∉ exampleIds := by
  obtain ⟨exampleIds, hok, -, hmem⟩ := (exampleIdOverlap_is_intersection
    computeMultisetRoot_partMembers computeMultisetRoot_otherMembers (denotes_members _)
    (denotes_members _)).1 rfl
  refine ⟨exampleIds, hok, (hmem _).mpr ⟨⟨onceMember.exampleVersion, ?_⟩,
    relabelledMember.exampleVersion, ?_⟩, fun hthrice => ?_⟩
  · exact countOf_pos (show onceMember ∈ partMembers from List.mem_cons_self)
  · exact countOf_pos (show relabelledMember ∈ otherMembers from List.mem_cons_self)
  · obtain ⟨-, version, hpos⟩ := (hmem _).mp hthrice
    obtain ⟨member, hmember, hpair⟩ := mem_pair_of_countOf_pos hpos
    have hids : ∀ member ∈ otherMembers, member.exampleId ≠ thriceMember.exampleId := by
      decide +kernel
    exact hids member hmember (congrArg Prod.fst hpair)

end TraigentSchema.ExampleIdentity
