import TraigentSchema.ExampleIdentity.MultisetRoot

/-!
# Inclusion proofs are complete and sound

The verifier shifts the index of the leaf and the last index bit by bit where the prover splits
the leaves; on every ragged tree they rebuild one value.  So every member of a root has a proof
that verifies, and a proof that verifies is about a member or shows a collision, whatever index,
size and path it claims.
-/

namespace TraigentSchema.ExampleIdentity

open TraigentSchema.Fp2
open TraigentSchema.Hashing
open TraigentSchema.MerkleTree
open TraigentSchema.Python
open TraigentSchema.Traverse
open TraigentSchema.Unicode

/-! ## Shifting and splitting -/

section Fold

variable {sha256 : Hash}

/-- The levels that are skipped carry the last leaf up. -/
theorem skipRightEdgeLevels_self (sha256 : Hash) {k : ℕ} (hk : 0 < k) :
    ∃ j, j % 2 = 1 ∧ skipRightEdgeLevels k k = (j, j) ∧ ∀ r siblings,
      rebuild (nodeHash sha256) r (k + 1) k siblings =
        rebuild (nodeHash sha256) r (j + 1) j siblings := by
  induction k using Nat.strong_induction_on with
  | _ k ih =>
      rw [skipRightEdgeLevels]
      by_cases heven : k % 2 = 0
      · obtain ⟨j, hodd, hskip, hcarried⟩ := ih (k / 2) (by omega) (by omega)
        refine ⟨j, hodd, by rw [if_pos ⟨heven, hk.ne'⟩, hskip], fun r siblings => ?_⟩
        have hhalf : (k + 1 + 1) / 2 = k / 2 + 1 := by omega
        rw [(halves (Nat.lt_succ_self k)).carry heven rfl, hhalf, hcarried]
      · exact ⟨k, by omega, by rw [if_neg fun h => heven h.1], fun _ _ => rfl⟩

/-- Shifting bit by bit rebuilds what splitting rebuilds.  By induction on the path: a round of
the loop is one level of the tree, or the levels a right edge skips. -/
theorem foldAuditPath_eq_rebuild (r : Digest) (path : List Digest) {fn sn : ℕ} (hle : fn ≤ sn) :
    foldAuditPath sha256 r path fn sn =
      rebuild (nodeHash sha256) r (sn + 1) fn path.reverse := by
  induction path generalizing r fn sn with
  | nil =>
      rw [foldAuditPath, List.reverse_nil, rebuild_nil]
      exact if_congr (by omega) rfl rfl
  | cons p path ih =>
      rw [foldAuditPath, List.reverse_cons]
      have hhalf : ∀ n, (n + 1 + 1) / 2 = n / 2 + 1 := fun n => by omega
      by_cases hlast : sn = 0
      · rw [if_pos hlast]
        cases hsiblings : path.reverse ++ [p] with
        | nil => exact absurd hsiblings (by simp)
        | cons top siblings => rw [rebuild_one_cons (by omega)]
      · rw [if_neg hlast]
        have hhalves : Halves (nodeHash sha256) (sn + 1) fn := halves (Nat.lt_succ_of_le hle)
        by_cases hodd : fn % 2 = 1
        · have hskipped : skipped fn sn = (fn, sn) := by
            rw [skipped, if_neg (by omega)]
          rw [if_pos (Or.inl hodd), hskipped, ih _ (by omega), hhalves.right hodd, hhalf]
        · by_cases hedge : fn = sn
          · subst hedge
            obtain ⟨j, hj, hskip, hcarried⟩ :=
              skipRightEdgeLevels_self sha256 (Nat.pos_of_ne_zero hlast)
            have hskipped : skipped fn fn = (j, j) := by
              rw [skipped, if_pos (by omega), hskip]
            rw [if_pos (Or.inr rfl), hskipped, ih _ (le_refl _), hcarried,
              (halves (Nat.lt_succ_self j)).right hj, hhalf]
          · rw [if_neg (by simp [hodd, hedge]), ih _ (by omega),
              hhalves.left (by omega) (by omega), hhalf]

/-- The path of a leaf rebuilds the root. -/
theorem rebuild_path (hashes : List Digest) {m : ℕ} (hm : m < hashes.length) :
    rebuild (nodeHash sha256) hashes[m] hashes.length m (path sha256 m hashes).reverse =
      some (mth sha256 hashes) := by
  induction hlength : hashes.length using Nat.strong_induction_on generalizing hashes m with
  | _ n ih =>
      subst hlength
      by_cases hn : 2 ≤ hashes.length
      · have hlt := splitPoint_lt hn
        have hpos := splitPoint_pos hashes.length
        have hroot : mth sha256 hashes =
            nodeHash sha256 (mth sha256 (hashes.take (splitPoint hashes.length)))
              (mth sha256 (hashes.drop (splitPoint hashes.length))) := by
          rw [mth, dif_pos hn, split_eq hn]
        rw [path, dif_pos hn, split_eq hn, hroot]
        split_ifs with hleft
        · have hrest := @ih _ (by rw [List.length_take]; omega)
            (hashes.take (splitPoint hashes.length)) m (by rw [List.length_take]; omega) rfl
          simp only [List.getElem_take, List.length_take_of_le hlt.le] at hrest
          rw [List.reverse_append, List.reverse_singleton, List.singleton_append,
            rebuild_left hn hleft, hrest]
          rfl
        · have hright := Nat.le_of_not_lt hleft
          have hrest := @ih _ (by rw [List.length_drop]; omega)
            (hashes.drop (splitPoint hashes.length)) (m - splitPoint hashes.length)
            (by rw [List.length_drop]; omega) rfl
          simp only [List.length_drop, List.getElem_drop, Nat.add_sub_cancel' hright] at hrest
          rw [List.reverse_append, List.reverse_singleton, List.singleton_append,
            rebuild_right hn hright, hrest]
          rfl
      · rw [path, dif_neg hn, mth, dif_neg hn]
        cases hashes with
        | nil => exact absurd hm (Nat.not_lt_zero _)
        | cons leaf rest =>
            cases rest with
            | nil =>
                obtain rfl : m = 0 := by simpa using hm
                simp
            | cons next rest => simp at hn

theorem length_path (hashes : List Digest) {m : ℕ} (hm : m < hashes.length) :
    (path sha256 m hashes).length = depth hashes.length m := by
  rw [← List.length_reverse]
  apply isSome_rebuild.mp
  rw [rebuild_path hashes hm]
  rfl

theorem foldAuditPath_path (hashes : List Digest) {m : ℕ} (hm : m < hashes.length) :
    foldAuditPath sha256 hashes[m] (path sha256 m hashes) m (hashes.length - 1) =
      some (mth sha256 hashes) := by
  rw [foldAuditPath_eq_rebuild _ _ (Nat.le_sub_one_of_lt hm),
    Nat.sub_add_cancel (Nat.one_le_of_lt hm), rebuild_path hashes hm]

end Fold

/-! ## Completeness -/

theorem keyId_eq_of_singleKeyId {members : List MultisetMember} {keyId : Option PyValue}
    {resolved : Text} (hkey : singleKeyId members keyId = .ok resolved)
    {member : MultisetMember} (hmember : member ∈ members) : member.keyId = resolved := by
  obtain ⟨explicit, -, hresolved⟩ := bind_eq_ok_iff.mp hkey
  have hmem : member.keyId ∈ (members.map MultisetMember.keyId ++ explicit).dedup :=
    List.mem_dedup.mpr (List.mem_append_left _ (List.mem_map_of_mem hmember))
  split at hresolved
  · cases hresolved
  · rename_i key hdedup
    obtain rfl := Except.ok.inj hresolved
    rw [hdedup] at hmem
    exact List.mem_singleton.mp hmem
  · cases hresolved

theorem hashNode_hexdigest (digest : Digest) :
    hashNode (.leaf (.str (hexdigest digest))) = some digest := by
  rw [hashNode, dif_pos (isHashHex_hexdigest digest), digestOfHex_hexdigest]

theorem decodeAuditPath_hexdigest (path : List Digest) :
    decodeAuditPath (.list (path.map fun node => .leaf (.str (hexdigest node)))) =
      .ok (some path) := by
  have hnodes : (path.map fun node => Tree.leaf (Atom.str (hexdigest node))).mapM hashNode =
      some path := by
    rw [mapM_eq_some_iff, List.forall₂_map_left_iff, List.forall₂_same]
    exact fun node _ => hashNode_hexdigest node
  exact congrArg Except.ok hnodes

section Complete

variable {sha256 : Hash} {float : FloatRepr}

theorem Accepted.nodup {items : List MultisetItem} {keyId : Option PyValue}
    {result : MultisetRoot} (haccepted : Accepted sha256 float items keyId result) :
    result.members.Nodup := by
  obtain ⟨count, -, hmerged⟩ := denotes_of_normalize haccepted.normalized
  exact hmerged.nodup.of_map

/-- The hashes of the leaves of some members. -/
def hashesOf (sha256 : Hash) (float : FloatRepr) (members : List MultisetMember) :
    List Digest :=
  (members.map (leafData float)).map (leafHash sha256)

/-- The proof that is built for the member at an index. -/
def builtProof (sha256 : Hash) (float : FloatRepr) (result : MultisetRoot) (m : ℕ)
    (member : MultisetMember) : InclusionProof where
  member := member
  leafIndex := .leaf (.int m)
  treeSize := .leaf (.int result.members.length)
  auditPath := .list ((path sha256 m (hashesOf sha256 float result.members)).map fun node =>
    .leaf (.str (hexdigest node)))
  root := .leaf (.str result.root)

theorem buildInclusionProof_getElem {result : MultisetRoot} (hnodup : result.members.Nodup)
    {m : ℕ} (hm : m < result.members.length) :
    buildInclusionProof sha256 float result result.members[m] =
      .ok (builtProof sha256 float result m result.members[m]) := by
  have hindex : result.members.idxOf result.members[m] = m := hnodup.idxOf_getElem m hm
  have hlength : (hashesOf sha256 float result.members).length = result.members.length := by
    simp [hashesOf]
  rw [buildInclusionProof, leafHashes_eq]
  simp only [hindex]
  rw [if_neg (by omega), ok_bind, builtProof, ← hlength]
  rfl

/-- A proof whose path folds to the digest of its root verifies. -/
theorem verify_of_foldAuditPath {proof : InclusionProof} {digest : Text} {m n : ℕ}
    {nodes : List Digest} {t : Digest} (hposition : claimedPosition proof = some (digest, m, n))
    (hnodes : decodeAuditPath proof.auditPath = .ok (some nodes))
    (hfold : foldAuditPath sha256 (leafHash sha256 (leafData float proof.member)) nodes m (n - 1) =
      some t) (ht : t.toList = fromHex digest) :
    verifyInclusionProof sha256 float proof = .ok true := by
  have hdata : multisetLeafData float proof.member = .ok (leafData float proof.member) :=
    multisetLeafData_eq float _
  rw [verifyInclusionProof, hposition]
  simp only [hnodes, ok_bind, hdata, Except.mapError, hfold, ht, beq_self_eq_true]
  rfl

theorem verifyInclusionProof_builtProof {items : List MultisetItem} {keyId : Option PyValue}
    {result : MultisetRoot} (haccepted : Accepted sha256 float items keyId result) {m : ℕ}
    (hm : m < result.members.length) :
    verifyInclusionProof sha256 float (builtProof sha256 float result m result.members[m]) =
      .ok true := by
  have hkey := keyId_eq_of_singleKeyId haccepted.keyed (List.getElem_mem hm)
  have hposition : claimedPosition (builtProof sha256 float result m result.members[m]) =
      some (hexdigest (MerkleTree.root treeInputs sha256 (result.members.map (leafData float))),
        m, result.members.length) :=
    claimedPosition_eq_some_iff.mpr
      ⟨by rw [builtProof, haccepted.root, hkey], isHashHex_hexdigest _, rfl, rfl, hm⟩
  have hfold := @foldAuditPath_path sha256 (hashesOf sha256 float result.members) m
    (by simpa [hashesOf] using hm)
  simp only [hashesOf, List.getElem_map, List.length_map, mth_map_leafHash] at hfold
  apply verify_of_foldAuditPath hposition (decodeAuditPath_hexdigest _) hfold
  rw [hexdigest, fromHex_hex]

end Complete

/-- Every member of an accepted list of items has a proof that verifies; and on every tree the
loop of the verifier gives what splitting as the prover does gives, which is a value exactly on
the paths as long as the leaf is deep. -/
theorem verifyInclusionProof_complete (sha256 : Hash) (float : FloatRepr) :
    (∀ items keyId result, computeMultisetRoot sha256 float items keyId = .ok result →
      ∀ (m : ℕ) (hm : m < result.members.length), ∃ proof,
        buildInclusionProof sha256 float result result.members[m] = .ok proof ∧
          verifyInclusionProof sha256 float proof = .ok true) ∧
    (∀ n, 2 ≤ n → split n = splitPoint n) ∧
    ∀ (r : Digest) (nodes : List Digest) (m n : ℕ), m < n →
      foldAuditPath sha256 r nodes m (n - 1) =
          rebuild (nodeHash sha256) r n m nodes.reverse ∧
        ((foldAuditPath sha256 r nodes m (n - 1)).isSome ↔ nodes.length = depth n m) := by
  refine ⟨fun items keyId result hresult m hm => ?_, fun n hn => split_eq hn,
    fun r nodes m n hm => ?_⟩
  · have haccepted := computeMultisetRoot_eq_ok_iff.mp hresult
    exact ⟨_, buildInclusionProof_getElem haccepted.nodup hm,
      verifyInclusionProof_builtProof haccepted hm⟩
  · rw [foldAuditPath_eq_rebuild r nodes (Nat.le_sub_one_of_lt hm),
      Nat.sub_add_cancel (Nat.one_le_of_lt hm), isSome_rebuild, List.length_reverse]
    exact ⟨rfl, Iff.rfl⟩

/-- Every one of three members has a proof that verifies; the last one is skipped past a level and
has a shorter path than the one before it. -/
theorem verifyInclusionProof_complete_sample :
    (∀ (m : ℕ) (hm : m < sampleMembers.length), ∃ proof,
      buildInclusionProof Sha256.sha256 FloatRepr.fewestDigits sampleRoot sampleMembers[m] =
          .ok proof ∧
        verifyInclusionProof Sha256.sha256 FloatRepr.fewestDigits proof = .ok true) ∧
    ∀ r node, (foldAuditPath Sha256.sha256 r [node] 2 2).isSome ∧
      ¬(foldAuditPath Sha256.sha256 r [node] 1 2).isSome := by
  obtain ⟨hverified, -, hfold⟩ :=
    verifyInclusionProof_complete Sha256.sha256 FloatRepr.fewestDigits
  refine ⟨hverified _ none _ computeMultisetRoot_sampleMembers, fun r node => ?_⟩
  rw [(hfold r [node] 2 3 (by decide)).2, (hfold r [node] 1 3 (by decide)).2,
    List.length_singleton]
  decide +kernel

/-! ## Soundness -/

section Sound

variable (sha256 : Hash)

/-- The inputs that are hashed on the way up an audit path. -/
def foldInputs (r : Digest) : (path : List Digest) → (fn sn : ℕ) → List Bytes
  | [], _, _ => []
  | p :: path, fn, sn =>
      if fn % 2 = 1 ∨ fn = sn then
        treeInputs.node p r ::
          foldInputs (nodeHash sha256 p r) path ((skipped fn sn).1 / 2) ((skipped fn sn).2 / 2)
      else treeInputs.node r p :: foldInputs (nodeHash sha256 r p) path (fn / 2) (sn / 2)

/-- The inputs that are hashed when a proof is verified. -/
def proofInputs (float : FloatRepr) (proof : InclusionProof) : List Bytes :=
  match claimedPosition proof, decodeAuditPath proof.auditPath with
  | some (_, m, n), .ok (some nodes) =>
      treeInputs.leaf (leafData float proof.member) ::
        foldInputs sha256 (leafHash sha256 (leafData float proof.member)) nodes m (n - 1)
  | _, _ => []

variable {sha256} {float : FloatRepr}

/-- What is folded leads up to the result. -/
theorem ascends_of_foldAuditPath {r t : Digest} {nodes : List Digest} {fn sn : ℕ}
    (hfold : foldAuditPath sha256 r nodes fn sn = some t) :
    Ascends treeInputs sha256 r (foldInputs sha256 r nodes fn sn) t := by
  induction nodes generalizing r fn sn with
  | nil =>
      rw [foldAuditPath] at hfold
      obtain ⟨-, hsame⟩ := Option.ite_none_right_eq_some.mp hfold
      rw [← Option.some.inj hsame]
      exact .top r
  | cons p nodes ih =>
      rw [foldAuditPath] at hfold
      rw [foldInputs]
      obtain ⟨-, hrest⟩ := Option.ite_none_left_eq_some.mp hfold
      split_ifs at hrest ⊢
      · exact .right (ih hrest)
      · exact .left (ih hrest)

/-- What a verified proof folds to. -/
theorem foldAuditPath_of_verify {proof : InclusionProof}
    (hverify : verifyInclusionProof sha256 float proof = .ok true) :
    ∃ digest m n nodes t, claimedPosition proof = some (digest, m, n) ∧
      decodeAuditPath proof.auditPath = .ok (some nodes) ∧
      foldAuditPath sha256 (leafHash sha256 (leafData float proof.member)) nodes m (n - 1) =
        some t ∧ t.toList = fromHex digest := by
  have hdata : multisetLeafData float proof.member = .ok (leafData float proof.member) :=
    multisetLeafData_eq float _
  rw [verifyInclusionProof] at hverify
  split at hverify
  · cases hverify
  · rename_i digest m n hposition
    obtain ⟨nodes, hnodes, hrest⟩ := bind_eq_ok_iff.mp hverify
    cases nodes with
    | none => cases hrest
    | some nodes =>
        simp only [hdata, Except.mapError, ok_bind] at hrest
        split at hrest
        · cases hrest
        · rename_i t hfold
          exact ⟨digest, m, n, nodes, t, hposition, hnodes, hfold,
            beq_iff_eq.mp (Except.ok.inj hrest)⟩

end Sound

/-- A proof that verifies against the root of an accepted list of items is about one of its
members, or two of the inputs that were hashed for the two collide. -/
theorem verifyInclusionProof_sound (sha256 : Hash) (float : FloatRepr)
    (items : List MultisetItem) (keyId : Option PyValue) (result : MultisetRoot)
    (proof : InclusionProof)
    (hresult : computeMultisetRoot sha256 float items keyId = .ok result)
    (hroot : proof.root = .leaf (.str result.root))
    (hverify : verifyInclusionProof sha256 float proof = .ok true) :
    proof.member ∈ result.members ∨
      Collision sha256 (proofInputs sha256 float proof)
        (hashedInputs sha256 float result.members) := by
  have haccepted := computeMultisetRoot_eq_ok_iff.mp hresult
  obtain ⟨digest, m, n, nodes, t, hposition, hnodes, hfold, ht⟩ :=
    foldAuditPath_of_verify hverify
  have hdigest : digest = hexdigest
      (MerkleTree.root treeInputs sha256 (result.members.map (leafData float))) := by
    have hplaced := claimedPosition_eq_some_iff.mp hposition
    have hmatch := (rootMatch_eq_some_iff.mpr
      ⟨proof.member.isKeyId, hplaced.isHashHex, hplaced.root⟩)
    rw [hroot, rootMatch, haccepted.rootMatch, Option.some.injEq, Prod.mk.injEq] at hmatch
    exact hmatch.2.symm
  have htop : t = MerkleTree.root treeInputs sha256 (result.members.map (leafData float)) := by
    rw [hdigest, hexdigest, fromHex_hex] at ht
    exact List.Vector.eq _ _ ht
  subst htop
  rcases mem_or_collision_of_ascends (ascends_of_foldAuditPath hfold) with hmem | hcollision
  · exact Or.inl ((List.mem_map_of_injective (leafData_injective float)).mp hmem)
  · refine Or.inr ?_
    rw [proofInputs, hposition, hnodes]
    exact hcollision

/-! The proof of the last of three members, under another index and a smaller size. -/

noncomputable def resizedProof : InclusionProof :=
  { builtProof Sha256.sha256 FloatRepr.fewestDigits sampleRoot 2 thriceMember with
    leafIndex := .leaf (.int 1)
    treeSize := .leaf (.int 2) }

/-- Right edges of one height fold alike. -/
theorem foldAuditPath_resized (r node : Digest) :
    foldAuditPath Sha256.sha256 r [node] 1 1 = foldAuditPath Sha256.sha256 r [node] 2 2 := by
  simp [foldAuditPath, skipped, skipRightEdgeLevels]

theorem verify_resizedProof :
    verifyInclusionProof Sha256.sha256 FloatRepr.fewestDigits resizedProof = .ok true := by
  have haccepted := computeMultisetRoot_eq_ok_iff.mp computeMultisetRoot_sampleMembers
  have hkey : thriceMember.keyId = zeroKeyId :=
    keyId_eq_of_singleKeyId haccepted.keyed
      (List.mem_cons_of_mem _ (List.mem_cons_of_mem _ List.mem_cons_self))
  have hfold := @foldAuditPath_path Sha256.sha256
    (hashesOf Sha256.sha256 FloatRepr.fewestDigits sampleMembers) 2 (by decide)
  have hlength := @length_path Sha256.sha256
    (hashesOf Sha256.sha256 FloatRepr.fewestDigits sampleMembers) 2 (by decide)
  have hdepth : depth 3 2 = 1 := by decide +kernel
  obtain ⟨node, hnode⟩ := List.length_eq_one_iff.mp (hlength.trans hdepth)
  have hplaced : WellPlaced resizedProof (hexdigest (MerkleTree.root treeInputs Sha256.sha256
      (sampleMembers.map (leafData FloatRepr.fewestDigits)))) 1 2 := by
    refine ⟨?_, isHashHex_hexdigest _, rfl, rfl, by decide⟩
    have hmember : resizedProof.member.keyId = zeroKeyId := hkey
    rw [hmember]
    rfl
  have hnodes : decodeAuditPath resizedProof.auditPath = .ok (some [node]) := by
    rw [← hnode]
    exact decodeAuditPath_hexdigest _
  have hmember : sampleMembers[2] = thriceMember := rfl
  have hsize : sampleMembers.length - 1 = 2 := rfl
  rw [hnode] at hfold
  simp only [hashesOf, List.getElem_map, List.length_map, hmember, hsize, mth_map_leafHash]
    at hfold
  rw [← foldAuditPath_resized] at hfold
  apply verify_of_foldAuditPath (claimedPosition_eq_some_iff.mpr hplaced) hnodes hfold
  rw [hexdigest, fromHex_hex]

/-- It verifies all the same, and is about a member. -/
theorem verifyInclusionProof_sound_resized :
    thriceMember ∈ sampleMembers ∨
      Collision Sha256.sha256
        (proofInputs Sha256.sha256 FloatRepr.fewestDigits resizedProof)
        (hashedInputs Sha256.sha256 FloatRepr.fewestDigits sampleMembers) :=
  verifyInclusionProof_sound Sha256.sha256 FloatRepr.fewestDigits _ none sampleRoot resizedProof
    computeMultisetRoot_sampleMembers rfl verify_resizedProof

end TraigentSchema.ExampleIdentity
