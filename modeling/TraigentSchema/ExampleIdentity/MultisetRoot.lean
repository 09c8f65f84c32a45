import TraigentSchema.ExampleIdentity.InclusionProof
import TraigentSchema.Fp2.Members
import TraigentSchema.Library.SortedBy
import TraigentSchema.Library.Traverse

/-!
# The root of a multiset

Items are merged by their pair of id and version, the merged members are sorted, and the tree of
their hashes has one root.  The root does not depend on the order in which the items come, and
it commits to the summed count of every pair.
-/

namespace TraigentSchema.ExampleIdentity

open TraigentSchema.Fp2
open TraigentSchema.Hashing
open TraigentSchema.MerkleTree
open TraigentSchema.Python
open TraigentSchema.SortedBy
open TraigentSchema.Traverse
open TraigentSchema.Unicode

/-! ## Items -/

inductive MultisetItem where
  | member (member : MultisetMember)
  /-- A tuple or a list. -/
  | sequence (values : List PyValue)
  | other

/-- `isinstance(value, str)`. -/
def exactStr : PyValue → Option Text
  | .leaf (.str s) => some s
  | _ => none

/-- `MultisetMember.__post_init__`. -/
def makeMember (exampleId exampleVersion count : PyValue) :
    Except ContentIdentityError MultisetMember :=
  match exactStr exampleId, exactStr exampleVersion with
  | some id, some version =>
      match hid : tokenMatch "ex1" id, hversion : tokenMatch "exv1" version with
      | some (keyId, idDigest), some (versionKeyId, versionDigest) =>
          if hkey : keyId = versionKeyId then
            match exactInt count with
            | some i =>
                if hrange : 1 ≤ i ∧ i ≤ maxCount then
                  .ok
                    { exampleId := id
                      exampleVersion := version
                      count := i.toNat
                      tokens := ⟨keyId, idDigest, versionDigest, hid, hkey ▸ hversion⟩
                      countRange := by omega }
                else .error ⟨"member count must be an int in [1, 2**53-1]"⟩
            | none => .error ⟨"member count must be an int in [1, 2**53-1]"⟩
          else .error ⟨"member id and version carry different key ids"⟩
      | _, _ => .error ⟨"member is not a v1 (example_id, example_version) pair"⟩
  | _, _ => .error ⟨"member is not a v1 (example_id, example_version) pair"⟩

def coerceMember : MultisetItem → Except ContentIdentityError MultisetMember
  | .member member => .ok member
  | .sequence [exampleId, exampleVersion] =>
      makeMember exampleId exampleVersion (.leaf (.int 1))
  | .sequence [exampleId, exampleVersion, count] =>
      makeMember exampleId exampleVersion count
  | _ => .error
      ⟨"multiset items must be MultisetMember or (example_id, example_version[, count])"⟩

def coerceMembers (items : List MultisetItem) :
    Except ContentIdentityError (List MultisetMember) :=
  items.mapM coerceMember

/-! ## Normalization -/

abbrev Pair := Text × Text

/-- A `dict` from pairs to counts, in insertion order. -/
abbrev Totals := List (Pair × ℕ)

def MultisetMember.pair (member : MultisetMember) : Pair :=
  (member.exampleId, member.exampleVersion)

/-- `totals.get(pair, 0)`. -/
def getTotal (totals : Totals) (pair : Pair) : ℕ :=
  ((totals.find? fun row => row.1 = pair).map Prod.snd).getD 0

/-- `totals[pair] = total`. -/
def setTotal (totals : Totals) (pair : Pair) (total : ℕ) : Totals :=
  if pair ∈ totals.map Prod.fst then
    totals.map fun row => if row.1 = pair then (pair, total) else row
  else totals ++ [(pair, total)]

def addMember (totals : Totals) (member : MultisetMember) :
    Except ContentIdentityError Totals :=
  let total := getTotal totals member.pair + member.count
  if maxCount < total then .error ⟨"member count overflows 2**53-1"⟩
  else .ok (setTotal totals member.pair total)

/-- Tuples are compared from the left. -/
def totalKey (row : Pair × ℕ) : (Text ×ₗ Text) ×ₗ ℕ :=
  toLex (toLex row.1, row.2)

/-- `MultisetMember(example_id, example_version, count)`, on a row of the totals. -/
def memberOfRow (row : Pair × ℕ) : Except ContentIdentityError MultisetMember :=
  makeMember (.leaf (.str row.1.1)) (.leaf (.str row.1.2)) (.leaf (.int row.2))

def normalize (items : List MultisetItem) : Except ContentIdentityError (List MultisetMember) := do
  let members ← coerceMembers items
  let totals ← members.foldlM addMember []
  (sortedBy totalKey totals).mapM memberOfRow

/-- The `key_id` that is given, which may be any value. -/
def explicitKeyIds : Option PyValue → Except ContentIdentityError (List Text)
  | none => .ok []
  | some value =>
      match exactStr value with
      | some s => if IsKeyId s then .ok [s] else .error ⟨"key_id is not a v1 key id"⟩
      | none => .error ⟨"key_id is not a v1 key id"⟩

def singleKeyId (members : List MultisetMember) (keyId : Option PyValue) :
    Except ContentIdentityError Text := do
  match (members.map MultisetMember.keyId ++ (← explicitKeyIds keyId)).dedup with
  | [] => .error ⟨"an empty multiset needs an explicit key_id"⟩
  | [resolved] => return resolved
  | _ => .error ⟨"a multiset cannot mix key ids"⟩

def conflictingExampleIds (members : List MultisetMember) : List Text :=
  let exampleIds := members.map MultisetMember.exampleId
  sortedBy id (exampleIds.dedup.filter fun exampleId => 1 < exampleIds.count exampleId)

/-! ## The tree -/

section Tree

variable (sha256 : Hash)

def mth (leafHashes : List Digest) : Digest :=
  if _hn : 2 ≤ leafHashes.length then
    nodeHash sha256 (mth (leafHashes.take (split leafHashes.length)))
      (mth (leafHashes.drop (split leafHashes.length)))
  else match leafHashes with
    | [] => sha256 []
    | leaf :: _ => leaf
termination_by leafHashes.length
decreasing_by
  · rw [List.length_take, split_eq _hn]
    exact (min_le_left _ _).trans_lt (splitPoint_lt _hn)
  · rw [List.length_drop, split_eq _hn]
    exact Nat.sub_lt (by omega) (splitPoint_pos _)

def path (m : ℕ) (leafHashes : List Digest) : List Digest :=
  if _hn : 2 ≤ leafHashes.length then
    if m < split leafHashes.length then
      path m (leafHashes.take (split leafHashes.length)) ++
        [mth sha256 (leafHashes.drop (split leafHashes.length))]
    else
      path (m - split leafHashes.length) (leafHashes.drop (split leafHashes.length)) ++
        [mth sha256 (leafHashes.take (split leafHashes.length))]
  else []
termination_by leafHashes.length
decreasing_by
  · rw [List.length_take, split_eq _hn]
    exact (min_le_left _ _).trans_lt (splitPoint_lt _hn)
  · rw [List.length_drop, split_eq _hn]
    exact Nat.sub_lt (by omega) (splitPoint_pos _)

structure MultisetRoot where
  root : Text
  keyId : Text
  members : List MultisetMember
  distinctCount : ℕ
  totalCount : ℕ
  conflictingExampleIds : List Text

variable (float : FloatRepr)

/-- `[_leaf_hash(multiset_leaf_data(member)) for member in members]`. -/
def leafHashes (members : List MultisetMember) : Except ContentIdentityError (List Digest) :=
  members.mapM fun member => do return leafHash sha256 (← multisetLeafData float member)

/-- Everything but the warning about conflicting versions. -/
def computeMultisetRoot (items : List MultisetItem) (keyId : Option PyValue) :
    Except ContentIdentityError MultisetRoot := do
  let members ← normalize items
  let resolvedKeyId ← singleKeyId members keyId
  let totalCount := (members.map MultisetMember.count).sum
  if maxCount < totalCount then .error ⟨"multiset total_count overflows 2**53-1"⟩
  else
    let hashes ← leafHashes sha256 float members
    return {
      root := token "msr1" resolvedKeyId (hexdigest (mth sha256 hashes))
      keyId := resolvedKeyId
      members := members
      distinctCount := members.length
      totalCount := totalCount
      conflictingExampleIds := conflictingExampleIds members }

/-- `index` finds the first equal member. -/
def buildInclusionProof (multiset : MultisetRoot) (member : MultisetMember) :
    Except ContentIdentityError InclusionProof := do
  let index := multiset.members.idxOf member
  if multiset.members.length ≤ index then
    .error ⟨"member is not a leaf of this multiset"⟩
  else
    let hashes ← leafHashes sha256 float multiset.members
    return {
      member := member
      leafIndex := .leaf (.int index)
      treeSize := .leaf (.int hashes.length)
      auditPath := .list ((path sha256 index hashes).map fun node =>
        .leaf (.str (hexdigest node)))
      root := .leaf (.str multiset.root) }

end Tree

/-! ## What is hashed -/

/-- The inputs of the tree: nothing, leaf data and pairs of digests with their prefixes. -/
def treeInputs : Inputs Bytes Digest Bytes where
  empty := []
  leaf data := 0 :: data
  node left right := 1 :: (left.toList ++ right.toList)
  leaf_injective _ _ heq := (List.cons.inj heq).2
  node_injective l r l' r' heq := by
    have hlength : l.toList.length = l'.toList.length := by
      rw [l.toList_length, l'.toList_length]
    obtain ⟨hleft, hright⟩ := List.append_inj (List.cons.inj heq).2 hlength
    exact ⟨List.Vector.eq _ _ hleft, List.Vector.eq _ _ hright⟩
  empty_ne_leaf _ := (List.cons_ne_nil _ _).symm
  empty_ne_node _ _ := (List.cons_ne_nil _ _).symm
  leaf_ne_node _ _ _ heq := absurd (List.cons.inj heq).1 (by decide)

/-- The leaf data of a member. -/
def leafData (float : FloatRepr) (member : MultisetMember) : Bytes :=
  utf8 (text domainMultisetLeaf) ++ 0 :: utf8 (leafText float member)

section Root

variable {sha256 : Hash} {float : FloatRepr}

/-- The tree of leaf hashes is the tree of the leaf data. -/
theorem mth_map_leafHash (datas : List Bytes) :
    mth sha256 (datas.map (leafHash sha256)) = root treeInputs sha256 datas := by
  induction hlength : datas.length using Nat.strong_induction_on generalizing datas with
  | _ n ih =>
      rw [mth, root]
      by_cases hn : 2 ≤ datas.length
      · have hlt := splitPoint_lt hn
        have hpos := splitPoint_pos datas.length
        have hleft := ih _ (by rw [List.length_take]; omega)
          (datas.take (splitPoint datas.length)) rfl
        have hright := ih _ (by rw [List.length_drop]; omega)
          (datas.drop (splitPoint datas.length)) rfl
        rw [dif_pos (by rwa [List.length_map]), dif_pos hn, List.length_map, split_eq hn,
          ← List.map_take, ← List.map_drop, hleft, hright]
        rfl
      · rw [dif_neg (by rwa [List.length_map]), dif_neg hn]
        cases datas <;> rfl

/-- Every member has a leaf, for its payload is always canonicalizable. -/
theorem leafHashes_eq (members : List MultisetMember) :
    leafHashes sha256 float members =
      .ok ((members.map (leafData float)).map (leafHash sha256)) := by
  induction members with
  | nil => rfl
  | cons member members ih =>
      have hrest := ih
      rw [leafHashes] at hrest
      rw [leafHashes, List.mapM_cons, multisetLeafData_eq, hrest]
      rfl

end Root

/-! ## Merged counts -/

/-- The summed count of a pair. -/
def countOf (members : List MultisetMember) (pair : Pair) : ℕ :=
  ((members.filter fun member => member.pair = pair).map MultisetMember.count).sum

/-- The items are well formed and denote a multiset of pairs. -/
def Denotes (items : List MultisetItem) (count : Pair → ℕ) : Prop :=
  ∃ members, coerceMembers items = .ok members ∧ countOf members = count

/-- The totals hold the pairs that occur, each with its count. -/
structure Tallies (totals : Totals) (count : Pair → ℕ) : Prop where
  nodup : (totals.map Prod.fst).Nodup
  mem_iff : ∀ pair total, (pair, total) ∈ totals ↔ 0 < total ∧ total = count pair

theorem tallies_nil : Tallies [] fun _ => 0 := by
  refine ⟨List.nodup_nil, fun pair total => ?_⟩
  simp only [List.not_mem_nil, false_iff, not_and]
  omega

theorem countOf_cons (member : MultisetMember) (members : List MultisetMember) (pair : Pair) :
    countOf (member :: members) pair =
      (if member.pair = pair then member.count else 0) + countOf members pair := by
  rw [countOf, List.filter_cons]
  by_cases hpair : member.pair = pair
  · simp [hpair, countOf]
  · simp [hpair, countOf]

section Tallies

variable {totals totals' : Totals} {count : Pair → ℕ} {pair : Pair}

/-- The pairs that were counted are those of a positive count. -/
theorem Tallies.mem_keys (htallies : Tallies totals count) :
    pair ∈ totals.map Prod.fst ↔ 0 < count pair := by
  rw [List.mem_map]
  constructor
  · rintro ⟨⟨pair', total⟩, hmem, rfl⟩
    obtain ⟨hpos, rfl⟩ := (htallies.mem_iff pair' total).mp hmem
    exact hpos
  · exact fun hpos => ⟨(pair, count pair), (htallies.mem_iff _ _).mpr ⟨hpos, rfl⟩, rfl⟩

/-- The total found for a pair is its count. -/
theorem Tallies.getTotal_eq (htallies : Tallies totals count) :
    getTotal totals pair = count pair := by
  rw [getTotal]
  cases hfind : totals.find? fun row => row.1 = pair with
  | none =>
      have habsent : pair ∉ totals.map Prod.fst := by
        rintro hmem
        obtain ⟨row, hrow, hkey⟩ := List.mem_map.mp hmem
        have hother := List.find?_eq_none.mp hfind row hrow
        exact hother (decide_eq_true hkey)
      rw [htallies.mem_keys] at habsent
      simp only [Option.map_none, Option.getD_none]
      omega
  | some row =>
      have hkey : row.1 = pair := by simpa using List.find?_some hfind
      have hmem := List.mem_of_find?_eq_some hfind
      exact ((htallies.mem_iff pair row.2).mp (by rwa [← hkey])).2

/-- Setting the total of a pair changes the count of that pair only. -/
theorem Tallies.set (htallies : Tallies totals count) {total : ℕ} (htotal : 0 < total) :
    Tallies (setTotal totals pair total) (Function.update count pair total) := by
  rw [setTotal]
  split_ifs with hkey
  · have hkeys : (totals.map fun row => if row.1 = pair then (pair, total) else row).map
        Prod.fst = totals.map Prod.fst := by
      rw [List.map_map]
      refine List.map_congr_left fun row _ => ?_
      by_cases hrow : row.1 = pair <;> simp [hrow]
    refine ⟨by rw [hkeys]; exact htallies.nodup, fun other total' => ?_⟩
    rw [List.mem_map]
    by_cases hother : other = pair
    · rw [hother, Function.update_self]
      constructor
      · rintro ⟨row, -, hrow⟩
        by_cases hat : row.1 = pair
        · rw [if_pos hat] at hrow
          obtain rfl := (Prod.mk.inj hrow).2
          exact ⟨htotal, rfl⟩
        · rw [if_neg hat] at hrow
          exact absurd (congrArg Prod.fst hrow) hat
      · rintro ⟨-, rfl⟩
        obtain ⟨row, hrow, hat⟩ := List.mem_map.mp hkey
        exact ⟨row, hrow, if_pos hat⟩
    · rw [Function.update_of_ne hother, ← htallies.mem_iff]
      constructor
      · rintro ⟨row, hrow, heq⟩
        by_cases hat : row.1 = pair
        · rw [if_pos hat] at heq
          exact absurd (Prod.mk.inj heq).1.symm hother
        · rw [if_neg hat] at heq
          rwa [← heq]
      · exact fun hmem => ⟨_, hmem, if_neg hother⟩
  · have hzero : ¬0 < count pair := fun hpos => hkey (htallies.mem_keys.mpr hpos)
    refine ⟨?_, fun other total' => ?_⟩
    · rw [List.map_append, List.map_singleton, List.nodup_append_comm]
      exact List.nodup_cons.mpr ⟨hkey, htallies.nodup⟩
    · rw [List.mem_append, List.mem_singleton, Prod.mk.injEq, htallies.mem_iff]
      by_cases hother : other = pair
      · rw [hother, Function.update_self]
        simp only [true_and]
        omega
      · rw [Function.update_of_ne hother]
        simp [hother]

/-- Two tallies of one count have the same rows. -/
theorem Tallies.perm (htallies : Tallies totals count) (htallies' : Tallies totals' count) :
    totals.Perm totals' := by
  rw [List.perm_ext_iff_of_nodup (.of_map _ htallies.nodup) (.of_map _ htallies'.nodup)]
  rintro ⟨pair, total⟩
  rw [htallies.mem_iff, htallies'.mem_iff]

end Tallies

/-- The loop over the members sums their counts, and fails where a sum leaves the range.  By
induction on the members; sums only grow. -/
theorem foldlM_addMember (members : List MultisetMember) {totals : Totals} {count : Pair → ℕ}
    (htallies : Tallies totals count) (hrange : ∀ pair, count pair ≤ maxCount) :
    (∀ pair, count pair + countOf members pair ≤ maxCount) ∧
      (∃ totals', members.foldlM addMember totals = .ok totals' ∧
        Tallies totals' fun pair => count pair + countOf members pair) ∨
    (∃ pair, maxCount < count pair + countOf members pair) ∧
      ∃ e, members.foldlM addMember totals = .error e := by
  induction members generalizing totals count with
  | nil => exact Or.inl ⟨hrange, totals, rfl, htallies⟩
  | cons member members ih =>
      have hsum : (fun pair => count pair + countOf (member :: members) pair) = fun pair =>
          Function.update count member.pair (count member.pair + member.count) pair +
            countOf members pair := by
        funext pair
        rw [countOf_cons]
        by_cases hpair : member.pair = pair
        · rw [← hpair, Function.update_self, if_pos rfl, Nat.add_assoc]
        · rw [Function.update_of_ne (Ne.symm hpair), if_neg hpair, Nat.zero_add]
      have hsum' := fun pair => congrFun hsum pair
      have htotal : getTotal totals member.pair + member.count =
          count member.pair + member.count := by rw [htallies.getTotal_eq]
      simp only [hsum']
      rw [List.foldlM_cons, addMember, htotal]
      by_cases hover : maxCount < count member.pair + member.count
      · right
        refine ⟨⟨member.pair, ?_⟩, _, by rw [if_pos hover]; rfl⟩
        rw [Function.update_self]
        omega
      · rw [if_neg hover, ok_bind]
        apply ih (htallies.set (by have hpos := member.countRange.1; omega))
        intro pair
        by_cases hpair : pair = member.pair
        · rw [hpair, Function.update_self]
          omega
        · rw [Function.update_of_ne hpair]
          exact hrange pair

/-! ## The merged members -/

theorem makeMember_of_pair (member : MultisetMember) {total : ℕ} (hpos : 0 < total)
    (htotal : total ≤ maxCount) :
    ∃ merged, makeMember (.leaf (.str member.exampleId)) (.leaf (.str member.exampleVersion))
      (.leaf (.int total)) = .ok merged ∧ merged.pair = member.pair ∧ merged.count = total := by
  obtain ⟨keyId, idDigest, versionDigest, hid, hversion⟩ := member.tokens
  have hrange : (1 : ℤ) ≤ total ∧ (total : ℤ) ≤ maxCount := by omega
  refine ⟨⟨member.exampleId, member.exampleVersion, (total : ℤ).toNat,
    ⟨keyId, idDigest, versionDigest, hid, hversion⟩, by omega⟩, ?_, rfl, Int.toNat_natCast _⟩
  simp only [makeMember, exactStr, exactInt]
  split
  · rename_i keyId' _ versionKeyId _ hid' hversion'
    obtain rfl : keyId = keyId' := (Prod.mk.inj (Option.some.inj (hid.symm.trans hid'))).1
    obtain rfl : keyId = versionKeyId :=
      (Prod.mk.inj (Option.some.inj (hversion.symm.trans hversion'))).1
    rw [dif_pos rfl, dif_pos hrange]
  · rename_i hnone
    exact (hnone keyId idDigest keyId versionDigest hid hversion).elim

/-- The members that are left are the pairs that occur, each once, with its count. -/
structure Merged (members : List MultisetMember) (count : Pair → ℕ) : Prop where
  nodup : (members.map MultisetMember.pair).Nodup
  mem_iff : ∀ pair total, (∃ member ∈ members, member.pair = pair ∧ member.count = total) ↔
    0 < total ∧ total = count pair

theorem mem_pair_of_countOf_pos {members : List MultisetMember} {pair : Pair}
    (hpos : 0 < countOf members pair) : ∃ member ∈ members, member.pair = pair := by
  by_contra hnone
  push Not at hnone
  have hfilter : members.filter (fun member => member.pair = pair) = [] :=
    List.filter_eq_nil_iff.mpr fun member hmember => by simpa using hnone member hmember
  rw [countOf, hfilter] at hpos
  exact absurd hpos (by decide)

/-- The sort key keeps identifier and version apart. -/
theorem totalKey_injective : Function.Injective totalKey := by
  intro row row' heq
  have hparts := Prod.mk.inj (toLex.injective heq)
  exact Prod.ext (toLex.injective hparts.1) hparts.2

/-- The rows of totals make members. -/
theorem exists_merged {members : List MultisetMember} {totals : Totals}
    (htallies : Tallies totals (countOf members))
    (hrange : ∀ pair, countOf members pair ≤ maxCount) :
    ∃ merged, (sortedBy totalKey totals).mapM memberOfRow = .ok merged ∧
      Merged merged (countOf members) := by
  have hrows : ∀ row ∈ sortedBy totalKey totals, ∃ member, memberOfRow row = .ok member ∧
      (member.pair, member.count) = row := by
    intro row hrow
    obtain ⟨hpos, htotal⟩ := (htallies.mem_iff row.1 row.2).mp (mem_sortedBy.mp hrow)
    obtain ⟨member, -, hpair⟩ := mem_pair_of_countOf_pos (htotal ▸ hpos)
    obtain ⟨merged, hmade, hsame, hcount⟩ :=
      makeMember_of_pair member hpos (htotal ▸ hrange row.1)
    rw [memberOfRow, ← hpair]
    exact ⟨merged, hmade, Prod.ext (hsame.trans hpair) hcount⟩
  obtain ⟨merged, hmerged⟩ := forall₂_of_forall_exists hrows
  have hmap : merged.map (fun member => (member.pair, member.count)) =
      sortedBy totalKey totals := by
    rw [← List.map_id (sortedBy totalKey totals)]
    exact map_eq_map_iff_forall₂.mpr (hmerged.flip.imp fun _ _ hrow => hrow.2)
  have hmem : ∀ pair total, (∃ member ∈ merged, member.pair = pair ∧ member.count = total) ↔
      (pair, total) ∈ totals := by
    intro pair total
    rw [← @mem_sortedBy _ _ _ totalKey, ← hmap, List.mem_map]
    simp only [Prod.mk.injEq]
  refine ⟨merged, mapM_eq_ok_iff.mpr (hmerged.imp fun _ _ hrow => hrow.1), ?_, ?_⟩
  · have hkeys : merged.map MultisetMember.pair =
        (sortedBy totalKey totals).map Prod.fst := by
      rw [← hmap, List.map_map]
      rfl
    rw [hkeys]
    exact ((sortedBy_perm totalKey totals).map _).nodup_iff.mpr htallies.nodup
  · exact fun pair total => (hmem pair total).trans (htallies.mem_iff pair total)

/-- Normalization takes items whose counts stay in range to their merged members. -/
theorem normalize_cases {items : List MultisetItem} {count : Pair → ℕ}
    (hdenotes : Denotes items count) :
    (∀ pair, count pair ≤ maxCount) ∧
      (∃ totals merged, Tallies totals count ∧ Merged merged count ∧
        (sortedBy totalKey totals).mapM memberOfRow = .ok merged ∧
        normalize items = .ok merged) ∨
    (∃ pair, maxCount < count pair) ∧ ∃ e, normalize items = .error e := by
  obtain ⟨members, hmembers, rfl⟩ := hdenotes
  have hloop := foldlM_addMember members tallies_nil fun _ => Nat.zero_le _
  simp only [Nat.zero_add] at hloop
  rcases hloop with ⟨hrange, totals, htotals, htallies⟩ | ⟨hover, e, herror⟩
  · obtain ⟨merged, hrows, hmerged⟩ := exists_merged htallies hrange
    refine Or.inl ⟨hrange, totals, merged, htallies, hmerged, hrows, ?_⟩
    rw [normalize, hmembers, ok_bind, htotals, ok_bind]
    exact hrows
  · refine Or.inr ⟨hover, e, ?_⟩
    rw [normalize, hmembers, ok_bind, herror]
    rfl

/-- What a multiset is normalized to depends on its counts alone. -/
theorem normalize_congr {items items' : List MultisetItem} {count : Pair → ℕ}
    (hdenotes : Denotes items count) (hdenotes' : Denotes items' count)
    (merged : List MultisetMember) :
    normalize items = .ok merged ↔ normalize items' = .ok merged := by
  rcases normalize_cases hdenotes with
    ⟨hrange, totals, made, htallies, -, hrows, hok⟩ | ⟨⟨pair, hover⟩, e, herror⟩ <;>
  rcases normalize_cases hdenotes' with
    ⟨hrange', totals', made', htallies', -, hrows', hok'⟩ | ⟨⟨pair', hover'⟩, e', herror'⟩
  · have hsorted := sortedBy_eq_of_perm totalKey (htallies.perm htallies')
      fun _ _ _ _ heq => totalKey_injective heq
    rw [hsorted, hrows', Except.ok.injEq] at hrows
    rw [hok, hok', hrows]
  · exact absurd (hrange pair') (Nat.not_le.mpr hover')
  · exact absurd (hrange' pair) (Nat.not_le.mpr hover)
  · rw [herror, herror']
    simp

/-- Accepted items denote a multiset, and their members are merged. -/
theorem denotes_of_normalize {items : List MultisetItem} {merged : List MultisetMember}
    (hnormalize : normalize items = .ok merged) :
    ∃ count, Denotes items count ∧ Merged merged count := by
  obtain ⟨members, hmembers, -⟩ := bind_eq_ok_iff.mp hnormalize
  have hdenotes : Denotes items (countOf members) := ⟨members, hmembers, rfl⟩
  refine ⟨countOf members, hdenotes, ?_⟩
  rcases normalize_cases hdenotes with ⟨-, totals, made, -, hmerged, -, hok⟩ | ⟨-, e, herror⟩
  · rw [hnormalize, Except.ok.injEq] at hok
    rwa [hok]
  · rw [hnormalize] at herror
    cases herror

/-- The merged members determine the counts. -/
theorem Merged.count_eq {members : List MultisetMember} {count count' : Pair → ℕ}
    (hmerged : Merged members count) (hmerged' : Merged members count') : count = count' := by
  funext pair
  by_cases hpos : 0 < count pair
  · exact ((hmerged'.mem_iff pair _).mp ((hmerged.mem_iff pair _).mpr ⟨hpos, rfl⟩)).2
  · by_cases hpos' : 0 < count' pair
    · exact ((hmerged.mem_iff pair _).mp ((hmerged'.mem_iff pair _).mpr ⟨hpos', rfl⟩)).2.symm
    · omega

/-! ## Members in order -/

theorem MultisetMember.ext_pair {member member' : MultisetMember}
    (hpair : member.pair = member'.pair) (hcount : member.count = member'.count) :
    member = member' := by
  obtain ⟨hid, hversion⟩ := Prod.mk.inj hpair
  cases member
  cases member'
  cases hid
  cases hversion
  cases hcount
  rfl

theorem makeMember_self (member : MultisetMember) :
    makeMember (.leaf (.str member.exampleId)) (.leaf (.str member.exampleVersion))
      (.leaf (.int member.count)) = .ok member := by
  obtain ⟨made, hmade, hpair, hcount⟩ :=
    makeMember_of_pair member member.countRange.1 member.countRange.2
  rw [hmade, MultisetMember.ext_pair hpair hcount]

/-- A list of members denotes the sum of their counts. -/
theorem denotes_members (members : List MultisetMember) :
    Denotes (members.map MultisetItem.member) (countOf members) := by
  refine ⟨members, ?_, rfl⟩
  rw [coerceMembers, mapM_eq_ok_iff, List.forall₂_map_left_iff, List.forall₂_same]
  exact fun member _ => rfl

/-- The count of a member of a list without repeated pairs. -/
theorem countOf_eq_count {members : List MultisetMember}
    (hnodup : (members.map MultisetMember.pair).Nodup) {member : MultisetMember}
    (hmember : member ∈ members) : countOf members member.pair = member.count := by
  induction members with
  | nil => exact absurd hmember List.not_mem_nil
  | cons head members ih =>
      rw [List.map_cons, List.nodup_cons] at hnodup
      rw [countOf_cons]
      rcases List.mem_cons.mp hmember with rfl | htail
      · have habsent : ¬0 < countOf members member.pair := by
          intro hpos
          obtain ⟨other, hother, hpair⟩ := mem_pair_of_countOf_pos hpos
          exact hnodup.1 (List.mem_map.mpr ⟨other, hother, hpair⟩)
        rw [if_pos rfl]
        omega
      · have hne : head.pair ≠ member.pair := fun heq =>
          hnodup.1 (heq ▸ List.mem_map_of_mem htail)
        rw [if_neg hne, Nat.zero_add, ih hnodup.2 htail]

/-- The row of the totals that a member makes. -/
def MultisetMember.row (member : MultisetMember) : Pair × ℕ :=
  (member.pair, member.count)

theorem tallies_rows {members : List MultisetMember}
    (hnodup : (members.map MultisetMember.pair).Nodup) :
    Tallies (members.map MultisetMember.row) (countOf members) where
  nodup := by
    rw [List.map_map]
    exact hnodup
  mem_iff pair total := by
    rw [List.mem_map]
    constructor
    · rintro ⟨member, hmember, hrow⟩
      obtain ⟨rfl, rfl⟩ := Prod.mk.inj hrow
      exact ⟨member.countRange.1, (countOf_eq_count hnodup hmember).symm⟩
    · rintro ⟨hpos, rfl⟩
      obtain ⟨member, hmember, rfl⟩ := mem_pair_of_countOf_pos hpos
      exact ⟨member, hmember, Prod.ext rfl (countOf_eq_count hnodup hmember).symm⟩

/-- Members in order, no two of one pair, are their own normal form. -/
theorem normalize_members {members : List MultisetMember}
    (hnodup : (members.map MultisetMember.pair).Nodup)
    (hsorted : (members.map MultisetMember.row).Pairwise fun row row' =>
      totalKey row ≤ totalKey row') :
    normalize (members.map MultisetItem.member) = .ok members := by
  have htallies := tallies_rows hnodup
  have hrows : (members.map MultisetMember.row).mapM memberOfRow = .ok members := by
    rw [mapM_eq_ok_iff, List.forall₂_map_left_iff, List.forall₂_same]
    exact fun member _ => makeMember_self member
  rcases normalize_cases (denotes_members members) with
    ⟨-, totals, merged, htallies', -, hmerged, hok⟩ | ⟨⟨pair, hover⟩, -⟩
  · have hperm := sortedBy_eq_of_perm totalKey (htallies.perm htallies')
      fun _ _ _ _ heq => totalKey_injective heq
    rw [← hperm, sortedBy_eq_self hsorted, hrows, Except.ok.injEq] at hmerged
    rw [hok, hmerged]
  · obtain ⟨member, hmember, rfl⟩ := mem_pair_of_countOf_pos ((Nat.zero_le _).trans_lt hover)
    rw [countOf_eq_count hnodup hmember] at hover
    exact absurd member.countRange.2 (Nat.not_le.mpr hover)

/-! ## What a root commits to -/

theorem hasCanonicalText_leafPayload (member : MultisetMember) :
    HasCanonicalText (leafPayload member) where
  supported := (strict_iff.mp (strict_leafPayload member)).1
  wellFormed := (unfolds_leafHeap member).wellFormed

/-- The framing of a leaf keeps its id, its version and its count. -/
theorem leafData_injective (float : FloatRepr) : Function.Injective (leafData float) := by
  intro member member' heq
  have htext : leafText float member = leafText float member' :=
    utf8_injective (List.cons.inj (List.append_cancel_left heq)).2
  have hjson := ((hasCanonicalText_leafPayload member).jsonValue_eq_iff float
    (hasCanonicalText_leafPayload member')).mp htext
  simp only [leafPayload, jsonValue_list, List.map_cons, List.map_nil, jsonValue_leaf, jsonAtom,
    JsonReading.JsonValue.arr.injEq, List.cons.injEq, JsonReading.JsonValue.str.injEq,
    JsonReading.JsonValue.num.injEq, Int.cast_natCast, Nat.cast_inj, and_true] at hjson
  obtain ⟨hid, hversion, hcount⟩ := hjson
  exact MultisetMember.ext_pair (Prod.ext hid hversion) hcount

theorem isKeyId_of_explicitKeyIds {keyId : Option PyValue} {keyIds : List Text}
    (hkeys : explicitKeyIds keyId = .ok keyIds) : ∀ key ∈ keyIds, IsKeyId key := by
  intro key hkey
  cases keyId with
  | none =>
      obtain rfl := Except.ok.inj hkeys
      exact absurd hkey List.not_mem_nil
  | some value =>
      rw [explicitKeyIds] at hkeys
      split at hkeys
      · split_ifs at hkeys with hform
        obtain rfl := Except.ok.inj hkeys
        rwa [List.mem_singleton.mp hkey]
      · cases hkeys

theorem isKeyId_of_singleKeyId {members : List MultisetMember} {keyId : Option PyValue}
    {resolved : Text} (hkey : singleKeyId members keyId = .ok resolved) : IsKeyId resolved := by
  obtain ⟨explicit, hexplicit, hresolved⟩ := bind_eq_ok_iff.mp hkey
  have hmem : resolved ∈ members.map MultisetMember.keyId ++ explicit := by
    split at hresolved
    · cases hresolved
    · rename_i key hdedup
      obtain rfl := Except.ok.inj hresolved
      rw [← List.mem_dedup, hdedup]
      exact List.mem_singleton_self key
    · cases hresolved
  rcases List.mem_append.mp hmem with hmember | hgiven
  · obtain ⟨member, -, rfl⟩ := List.mem_map.mp hmember
    exact member.isKeyId
  · exact isKeyId_of_explicitKeyIds hexplicit resolved hgiven

/-- The inputs that are hashed for the root of some members. -/
def hashedInputs (sha256 : Hash) (float : FloatRepr) (members : List MultisetMember) :
    List Bytes :=
  hashed treeInputs sha256 (members.map (leafData float))

section Commits

variable {sha256 : Hash} {float : FloatRepr}

/-- What an accepted list of items is, and what its root is the text of. -/
structure Accepted (sha256 : Hash) (float : FloatRepr) (items : List MultisetItem)
    (keyId : Option PyValue) (result : MultisetRoot) : Prop where
  normalized : normalize items = .ok result.members
  keyed : singleKeyId result.members keyId = .ok result.keyId
  inRange : (result.members.map MultisetMember.count).sum ≤ maxCount
  root : result.root = token "msr1" result.keyId
    (hexdigest (MerkleTree.root treeInputs sha256 (result.members.map (leafData float))))
  distinctCount : result.distinctCount = result.members.length
  totalCount : result.totalCount = (result.members.map MultisetMember.count).sum
  conflicts : result.conflictingExampleIds = conflictingExampleIds result.members

/-- A root exists exactly of the items that are accepted. -/
theorem computeMultisetRoot_eq_ok_iff {items : List MultisetItem} {keyId : Option PyValue}
    {result : MultisetRoot} :
    computeMultisetRoot sha256 float items keyId = .ok result ↔
      Accepted sha256 float items keyId result := by
  simp only [computeMultisetRoot, leafHashes_eq, ok_bind, bind_eq_ok_iff, mth_map_leafHash,
    pure_eq_ok]
  constructor
  · rintro ⟨members, hmembers, resolved, hkey, hresult⟩
    split_ifs at hresult with hover
    obtain rfl := Except.ok.inj hresult
    exact ⟨hmembers, hkey, Nat.le_of_not_lt hover, rfl, rfl, rfl, rfl⟩
  · intro haccepted
    refine ⟨_, haccepted.normalized, _, haccepted.keyed, ?_⟩
    rw [if_neg (Nat.not_lt.mpr haccepted.inRange), ← haccepted.root, ← haccepted.distinctCount,
      ← haccepted.totalCount, ← haccepted.conflicts]

/-- The root depends on the counts, and not on how the items spell them. -/
theorem Accepted.congr {items items' : List MultisetItem} {count : Pair → ℕ}
    {keyId : Option PyValue} {result : MultisetRoot} (hdenotes : Denotes items count)
    (hdenotes' : Denotes items' count) (haccepted : Accepted sha256 float items keyId result) :
    Accepted sha256 float items' keyId result :=
  { haccepted with
    normalized := (normalize_congr hdenotes hdenotes' _).mp haccepted.normalized }

/-- The root spells the key and the hash of the tree. -/
theorem Accepted.rootMatch {items : List MultisetItem} {keyId : Option PyValue}
    {result : MultisetRoot} (haccepted : Accepted sha256 float items keyId result) :
    tokenMatch "msr1" result.root = some (result.keyId,
      hexdigest (MerkleTree.root treeInputs sha256 (result.members.map (leafData float)))) :=
  tokenMatch_eq_some_iff.mpr
    ⟨isKeyId_of_singleKeyId haccepted.keyed, isHashHex_hexdigest _, haccepted.root⟩

/-- Equal roots have equal members below them, or there is a collision. -/
theorem Accepted.members_eq_or_collision {items items' : List MultisetItem}
    {keyId keyId' : Option PyValue} {result result' : MultisetRoot}
    (haccepted : Accepted sha256 float items keyId result)
    (haccepted' : Accepted sha256 float items' keyId' result')
    (hroot : result.root = result'.root) :
    result.members = result'.members ∨
      Collision sha256 (hashedInputs sha256 float result.members)
        (hashedInputs sha256 float result'.members) := by
  have hmatch := haccepted.rootMatch
  rw [hroot, haccepted'.rootMatch, Option.some.injEq, Prod.mk.injEq] at hmatch
  have hroots := hexdigest_injective hmatch.2.symm
  refine (eq_or_collision_of_root hroots).imp_left fun hleaves => ?_
  exact List.map_injective_iff.mpr (leafData_injective float) hleaves

end Commits

def digitHex (digit : Fin 10) : Text :=
  List.replicate 64 (codePoint (Char.ofNat (48 + digit)))

theorem isHashHex_digitHex (digit : Fin 10) : IsHashHex (digitHex digit) := by
  have hdigit : ∀ digit : Fin 10, IsHexDigit (codePoint (Char.ofNat (48 + digit))) := by decide
  exact ⟨List.length_replicate, fun c hc => List.eq_of_mem_replicate hc ▸ hdigit digit⟩

/-- The member whose id and version repeat two digits. -/
def digitMember (idDigit versionDigit : Fin 10) (count : ℕ)
    (hcount : 1 ≤ count ∧ count ≤ maxCount) : MultisetMember where
  exampleId := token "ex1" zeroKeyId (digitHex idDigit)
  exampleVersion := token "exv1" zeroKeyId (digitHex versionDigit)
  count := count
  tokens := ⟨zeroKeyId, digitHex idDigit, digitHex versionDigit,
    tokenMatch_eq_some_iff.mpr ⟨isKeyId_zeroKeyId, isHashHex_digitHex idDigit, rfl⟩,
    tokenMatch_eq_some_iff.mpr ⟨isKeyId_zeroKeyId, isHashHex_digitHex versionDigit, rfl⟩⟩
  countRange := hcount

theorem countRange_one : 1 ≤ 1 ∧ 1 ≤ maxCount := by
  decide

def onceMember : MultisetMember := digitMember 1 1 1 countRange_one

def twiceMember : MultisetMember := digitMember 1 1 2 (by decide)

def relabelledMember : MultisetMember := digitMember 1 2 1 countRange_one

def thriceMember : MultisetMember := digitMember 3 1 3 (by decide)

def fourthMember : MultisetMember := digitMember 4 1 1 countRange_one

def sampleMembers : List MultisetMember := [twiceMember, relabelledMember, thriceMember]

/-- The members in another order. -/
def sampleItems : List MultisetItem :=
  [thriceMember, twiceMember, relabelledMember].map MultisetItem.member

def pairItem (member : MultisetMember) : MultisetItem :=
  .sequence [.leaf (.str member.exampleId), .leaf (.str member.exampleVersion)]

/-- The first member comes in two parts, as pairs. -/
def splitItems : List MultisetItem :=
  [pairItem twiceMember, .member relabelledMember, pairItem twiceMember, .member thriceMember]

theorem sampleMembers_nodup : (sampleMembers.map MultisetMember.pair).Nodup := by
  decide +kernel

theorem sampleMembers_sorted : (sampleMembers.map MultisetMember.row).Pairwise fun row row' =>
    totalKey row ≤ totalKey row' := by
  decide +kernel

/-- The result for members of one key. -/
def rootOf (sha256 : Hash) (float : FloatRepr) (members : List MultisetMember) :
    MultisetRoot where
  root := token "msr1" zeroKeyId
    (hexdigest (MerkleTree.root treeInputs sha256 (members.map (leafData float))))
  keyId := zeroKeyId
  members := members
  distinctCount := members.length
  totalCount := (members.map MultisetMember.count).sum
  conflictingExampleIds := conflictingExampleIds members

/-- Members in order, no two of one pair and all of one key, have the result that is written out
for them. -/
theorem computeMultisetRoot_rootOf {sha256 : Hash} {float : FloatRepr}
    {members : List MultisetMember} (hnodup : (members.map MultisetMember.pair).Nodup)
    (hsorted : (members.map MultisetMember.row).Pairwise fun row row' =>
      totalKey row ≤ totalKey row')
    (hkey : singleKeyId members none = .ok zeroKeyId)
    (htotal : (members.map MultisetMember.count).sum ≤ maxCount) :
    computeMultisetRoot sha256 float (members.map MultisetItem.member) none =
      .ok (rootOf sha256 float members) :=
  computeMultisetRoot_eq_ok_iff.mpr
    ⟨normalize_members hnodup hsorted, hkey, htotal, rfl, rfl, rfl, rfl⟩

noncomputable def sampleRoot : MultisetRoot :=
  rootOf Sha256.sha256 FloatRepr.fewestDigits sampleMembers

theorem computeMultisetRoot_sampleMembers :
    computeMultisetRoot Sha256.sha256 FloatRepr.fewestDigits
      (sampleMembers.map MultisetItem.member) none = .ok sampleRoot :=
  computeMultisetRoot_rootOf sampleMembers_nodup sampleMembers_sorted (by decide +kernel)
    (by decide)

theorem denotes_sampleItems : Denotes sampleItems (countOf sampleMembers) := by
  have hcount : countOf [thriceMember, twiceMember, relabelledMember] = countOf sampleMembers := by
    funext pair
    simp only [sampleMembers, countOf_cons]
    omega
  exact hcount ▸ denotes_members _

theorem coerceMember_pairItem : coerceMember (pairItem twiceMember) = .ok onceMember := by
  have hpair : pairItem twiceMember = pairItem onceMember := rfl
  rw [hpair]
  exact makeMember_self onceMember

theorem coerceMembers_splitItems : coerceMembers splitItems =
    .ok [onceMember, relabelledMember, onceMember, thriceMember] := by
  simp only [coerceMembers, splitItems, List.mapM_cons, coerceMember_pairItem]
  rfl

theorem denotes_splitItems : Denotes splitItems (countOf sampleMembers) := by
  refine ⟨_, coerceMembers_splitItems, ?_⟩
  funext pair
  have htwice : twiceMember.pair = onceMember.pair := rfl
  simp only [sampleMembers, countOf_cons, htwice]
  by_cases hpair : onceMember.pair = pair
  · have hparts : onceMember.count + onceMember.count = twiceMember.count := rfl
    simp only [hpair, if_true]
    omega
  · simp only [hpair, if_false]
    omega

end TraigentSchema.ExampleIdentity
