import TraigentSchema.ExampleIdentity.Multiset
import TraigentSchema.Library.Sha256

/-!
# Inclusion proofs

The proof that a member is a leaf of a root.  The member is well formed by construction; the
other fields of a proof are whatever was parsed.  Verification reads the index bit by bit and
consumes the audit path from the leaf up.
-/

namespace TraigentSchema.ExampleIdentity

open TraigentSchema.Hashing
open TraigentSchema.MerkleTree
open TraigentSchema.Python
open TraigentSchema.Unicode

structure InclusionProof where
  member : MultisetMember
  leafIndex : PyValue
  treeSize : PyValue
  auditPath : PyValue
  root : PyValue

/-- What verification can raise. -/
inductive ProofError where
  | contentIdentity (error : ContentIdentityError)
  /-- `TypeError: '…' object is not iterable`. -/
  | notIterable (typeName : Except String String)

/-! ## The audit path -/

/-- `isinstance(node, str)` and a full match of `_HASH_HEX_RE`. -/
def hashNode : PyValue → Option Digest
  | .leaf (.str s) =>
      if hs : IsHashHex s then some (digestOfHex s hs.1) else none
  | _ => none

/-- What `for` goes through: the items of a list, the keys of a dict, the characters of a
string.  Another value of JSON has nothing to go through. -/
def iterate : PyValue → Except ProofError (List PyValue)
  | .list items => .ok items
  | .dict members => .ok (members.map fun member =>
      match member.1 with
      | .str key => .leaf (.str key)
      | .foreign o => .leaf (.foreign o))
  | .leaf (.str s) => .ok (s.map fun c => .leaf (.str [c]))
  | .leaf x => .error (.notIterable x.typeName)

/-- Can be gone through. -/
def Iterable : PyValue → Prop
  | .list _ => True
  | .dict _ => True
  | .leaf (.str _) => True
  | .leaf _ => False

def decodeAuditPath (auditPath : PyValue) : Except ProofError (Option (List Digest)) := do
  return (← iterate auditPath).mapM hashNode

theorem exists_iterate_eq_ok_iff {v : PyValue} :
    (∃ items, iterate v = .ok items) ↔ Iterable v := by
  cases v with
  | list items => exact ⟨fun _ => trivial, fun _ => ⟨_, rfl⟩⟩
  | dict members => exact ⟨fun _ => trivial, fun _ => ⟨_, rfl⟩⟩
  | leaf x => cases x <;> simp [iterate, Iterable]

/-! ## Folding -/

def skipRightEdgeLevels (fn sn : ℕ) : ℕ × ℕ :=
  if fn % 2 = 0 ∧ fn ≠ 0 then skipRightEdgeLevels (fn / 2) (sn / 2) else (fn, sn)
termination_by fn
decreasing_by omega

/-- How often `_skip_right_edge_levels` goes round. -/
def skipRounds (fn : ℕ) : ℕ :=
  if fn % 2 = 0 ∧ fn ≠ 0 then skipRounds (fn / 2) + 1 else 0
termination_by fn
decreasing_by omega

/-- The index and the last index after the levels a right edge skips. -/
def skipped (fn sn : ℕ) : ℕ × ℕ :=
  if fn % 2 = 0 then skipRightEdgeLevels fn sn else (fn, sn)

section Verify

variable (sha256 : Hash)

def foldAuditPath (r : Digest) : (path : List Digest) → (fn sn : ℕ) → Option Digest
  | [], _, sn => if sn = 0 then some r else none
  | p :: path, fn, sn =>
      if sn = 0 then none
      else if fn % 2 = 1 ∨ fn = sn then
        foldAuditPath (nodeHash sha256 p r) path ((skipped fn sn).1 / 2) ((skipped fn sn).2 / 2)
      else foldAuditPath (nodeHash sha256 r p) path (fn / 2) (sn / 2)

/-- How often the two loops of `_fold_audit_path` go round. -/
def foldRounds : (path : List Digest) → (fn sn : ℕ) → ℕ
  | [], _, _ => 0
  | _ :: path, fn, sn =>
      if sn = 0 then 1
      else if fn % 2 = 1 ∨ fn = sn then
        foldRounds path ((skipped fn sn).1 / 2) ((skipped fn sn).2 / 2) +
          (if fn % 2 = 0 then skipRounds fn else 0) + 1
      else foldRounds path (fn / 2) (sn / 2) + 1

/-- `type(value) is int`. -/
def exactInt : PyValue → Option ℤ
  | .leaf (.int i) => some i
  | _ => none

/-- The key id and the digest of a root, when it is a string of that form. -/
def rootMatch : PyValue → Option (Text × Text)
  | .leaf (.str s) => tokenMatch "msr1" s
  | _ => none

/-- What the checks before the audit path leave: the digest of the root, the leaf index and
the size of the tree.  Every check that fails makes verification return `False`. -/
def claimedPosition (proof : InclusionProof) : Option (Text × ℕ × ℕ) := do
  let (keyId, digest) ← rootMatch proof.root
  guard (keyId = proof.member.keyId)
  let leafIndex ← exactInt proof.leafIndex
  let treeSize ← exactInt proof.treeSize
  guard (0 ≤ leafIndex ∧ leafIndex < treeSize)
  return (digest, leafIndex.toNat, treeSize.toNat)

variable (float : FloatRepr)

def verifyInclusionProof (proof : InclusionProof) : Except ProofError Bool :=
  match claimedPosition proof with
  | none => .ok false
  | some (digest, leafIndex, treeSize) => do
      match ← decodeAuditPath proof.auditPath with
      | none => return false
      | some path =>
          let data ← (multisetLeafData float proof.member).mapError .contentIdentity
          match foldAuditPath sha256 (leafHash sha256 data) path leafIndex (treeSize - 1) with
          | none => return false
          | some computed => return computed.toList == fromHex digest

/-- How often the loops over the path go round in a verification. -/
def verifyRounds (proof : InclusionProof) : ℕ :=
  match claimedPosition proof, decodeAuditPath proof.auditPath with
  | some (_, leafIndex, treeSize), .ok (some path) => foldRounds path leafIndex (treeSize - 1)
  | _, _ => 0

end Verify

/-! ## Verification ends -/

theorem size_half {n : ℕ} (hn : n ≠ 0) : Nat.size (n / 2) + 1 ≤ Nat.size n := by
  have hpos : 0 < Nat.size n := Nat.size_pos.mpr (Nat.pos_of_ne_zero hn)
  have hlt : n < 2 ^ (Nat.size n - 1 + 1) := by
    rw [Nat.sub_add_cancel hpos]
    exact Nat.lt_size_self n
  have hhalf : Nat.size (n / 2) ≤ Nat.size n - 1 := by
    rw [Nat.size_le]
    rw [pow_succ] at hlt
    omega
  omega

/-- A level skipped is a bit of the index gone. -/
theorem size_skipRightEdgeLevels (fn sn : ℕ) :
    Nat.size (skipRightEdgeLevels fn sn).1 + skipRounds fn ≤ Nat.size fn := by
  rw [skipRightEdgeLevels, skipRounds]
  split_ifs with hskip
  · have hhalf := size_half hskip.2
    have hrest := size_skipRightEdgeLevels (fn / 2) (sn / 2)
    omega
  · exact le_refl _
termination_by fn
decreasing_by omega

theorem size_skipped (fn sn : ℕ) :
    Nat.size (skipped fn sn).1 + (if fn % 2 = 0 then skipRounds fn else 0) ≤ Nat.size fn := by
  rw [skipped]
  split_ifs
  · exact size_skipRightEdgeLevels fn sn
  · exact le_refl _

theorem size_div_two_le (n : ℕ) : Nat.size (n / 2) ≤ Nat.size n :=
  Nat.size_le_size (Nat.div_le_self n 2)

/-- By induction on the path: a round of the outer loop takes a node of it, a round of the
inner one a bit of the index. -/
theorem foldRounds_le (path : List Digest) (fn sn : ℕ) :
    foldRounds path fn sn ≤ path.length + Nat.size fn := by
  induction path generalizing fn sn with
  | nil => exact Nat.zero_le _
  | cons p path ih =>
      rw [foldRounds, List.length_cons]
      split_ifs with hlast hright heven
      · omega
      · have hskip := size_skipped fn sn
        have hhalf := size_div_two_le (skipped fn sn).1
        have hrest := ih ((skipped fn sn).1 / 2) ((skipped fn sn).2 / 2)
        rw [if_pos heven] at hskip
        omega
      · have hskip := size_skipped fn sn
        have hhalf := size_div_two_le (skipped fn sn).1
        have hrest := ih ((skipped fn sn).1 / 2) ((skipped fn sn).2 / 2)
        rw [if_neg heven] at hskip
        omega
      · have hhalf := size_div_two_le fn
        have hrest := ih (fn / 2) (sn / 2)
        omega

/-- How many nodes there are to go through. -/
def auditLength (proof : InclusionProof) : ℕ :=
  ((iterate proof.auditPath).toOption.getD []).length

def bitLength (v : PyValue) : ℕ :=
  ((exactInt v).getD 0).natAbs.size

/-- What a proof has to be for its audit path to be read. -/
structure WellPlaced (proof : InclusionProof) (digest : Text) (m n : ℕ) : Prop where
  root : proof.root = .leaf (.str (token "msr1" proof.member.keyId digest))
  isHashHex : IsHashHex digest
  leafIndex : proof.leafIndex = .leaf (.int m)
  treeSize : proof.treeSize = .leaf (.int n)
  lt : m < n

theorem exactInt_eq_some_iff {v : PyValue} {i : ℤ} :
    exactInt v = some i ↔ v = .leaf (.int i) := by
  cases v with
  | leaf x => cases x <;> simp [exactInt]
  | list items => simp [exactInt]
  | dict members => simp [exactInt]

theorem rootMatch_eq_some_iff {v : PyValue} {keyId digest : Text} :
    rootMatch v = some (keyId, digest) ↔
      IsKeyId keyId ∧ IsHashHex digest ∧ v = .leaf (.str (token "msr1" keyId digest)) := by
  cases v with
  | leaf x => cases x <;> simp [rootMatch, tokenMatch_eq_some_iff]
  | list items => simp [rootMatch]
  | dict members => simp [rootMatch]

theorem MultisetMember.isKeyId (member : MultisetMember) : IsKeyId member.keyId := by
  obtain ⟨digest, hmatch⟩ := member.tokenMatch_exampleId
  exact (tokenMatch_eq_some_iff.mp hmatch).1

theorem claimedPosition_eq_some_iff {proof : InclusionProof} {digest : Text}
    {m n : ℕ} :
    claimedPosition proof = some (digest, m, n) ↔ WellPlaced proof digest m n := by
  simp only [claimedPosition, Option.bind_eq_bind, Option.bind_eq_some_iff, Prod.exists,
    rootMatch_eq_some_iff, exactInt_eq_some_iff, Option.guard_eq_some', Option.pure_def,
    Option.some.injEq, Prod.mk.injEq]
  constructor
  · rintro ⟨keyId, digest', ⟨-, hdigest, hroot⟩, -, rfl, i, hi, j, hj, -, ⟨hpos, hlt⟩, rfl, rfl,
      rfl⟩
    rw [← Int.toNat_of_nonneg hpos] at hi
    rw [← Int.toNat_of_nonneg (hpos.trans hlt.le)] at hj
    exact ⟨hroot, hdigest, hi, hj, by omega⟩
  · intro hplaced
    exact ⟨_, digest, ⟨proof.member.isKeyId, hplaced.isHashHex, hplaced.root⟩, (), rfl,
      _, hplaced.leafIndex, _, hplaced.treeSize, (),
      ⟨Int.natCast_nonneg _, Int.ofNat_lt.mpr hplaced.lt⟩, rfl, Int.toNat_natCast _,
      Int.toNat_natCast _⟩

theorem length_of_decodeAuditPath {auditPath : PyValue} {path : List Digest}
    (hpath : decodeAuditPath auditPath = .ok (some path)) :
    path.length = ((iterate auditPath).toOption.getD []).length := by
  obtain ⟨items, hitems, hok⟩ := Traverse.bind_eq_ok_iff.mp hpath
  have hnodes := Traverse.mapM_eq_some_iff.mp (Except.ok.inj hok)
  rw [hitems]
  exact hnodes.length_eq.symm

/-- The loops end in time whatever the proof. -/
theorem verifyRounds_le (proof : InclusionProof) :
    verifyRounds proof ≤ auditLength proof + bitLength proof.treeSize := by
  rw [verifyRounds]
  split
  · rename_i digest leafIndex treeSize path hposition hpath
    have hplaced := claimedPosition_eq_some_iff.mp hposition
    have hlength : auditLength proof = path.length := (length_of_decodeAuditPath hpath).symm
    have hbits : bitLength proof.treeSize = treeSize.size := by
      rw [bitLength, hplaced.treeSize]
      rfl
    rw [hlength, hbits]
    exact (foldRounds_le path leafIndex _).trans
      (Nat.add_le_add_left (Nat.size_le_size hplaced.lt.le) _)
  · exact Nat.zero_le _

section Total

variable (sha256 : Hash) (float : FloatRepr)

theorem exists_verifyInclusionProof_eq_ok_iff (proof : InclusionProof) :
    (∃ b, verifyInclusionProof sha256 float proof = .ok b) ↔
      (∀ digest m n, WellPlaced proof digest m n → Iterable proof.auditPath) := by
  rw [verifyInclusionProof]
  cases hposition : claimedPosition proof with
  | none =>
      refine ⟨fun _ digest m n hplaced => ?_, fun _ => ⟨false, rfl⟩⟩
      rw [claimedPosition_eq_some_iff.mpr hplaced] at hposition
      exact absurd hposition (Option.some_ne_none _)
  | some position =>
      obtain ⟨digest, m, n⟩ := position
      have hplaced := claimedPosition_eq_some_iff.mp hposition
      calc
        _ ↔ ∃ items, iterate proof.auditPath = .ok items := by
          cases hitems : iterate proof.auditPath with
          | error error => simp [decodeAuditPath, hitems]
          | ok items =>
              cases hpath : items.mapM hashNode with
              | none => simp [decodeAuditPath, hitems, hpath]
              | some path =>
                  simp only [decodeAuditPath, hitems, hpath, multisetLeafData_eq,
                    Except.mapError, Traverse.ok_bind, Traverse.pure_eq_ok]
                  cases foldAuditPath sha256 _ path m (n - 1) <;> simp
        _ ↔ Iterable proof.auditPath := exists_iterate_eq_ok_iff
        _ ↔ ∀ digest m n, WellPlaced proof digest m n → Iterable proof.auditPath :=
          ⟨fun h _ _ _ _ => h, fun h => h digest m n hplaced⟩

/-- The promise of verification: it returns a `bool`, and its loops over the path go round no
more often than the path has nodes and the size of the tree has bits. -/
def Total (proof : InclusionProof) : Prop :=
  (∃ b, verifyInclusionProof sha256 float proof = .ok b) ∧
    verifyRounds proof ≤ auditLength proof + bitLength proof.treeSize

end Total

/-! A well-placed proof whose audit path is `null`. -/

def zeroKeyId : Text :=
  codePoint 'k' :: List.replicate 16 (codePoint '0')

def zeroHex : Text :=
  List.replicate 64 (codePoint '0')

theorem isHashHex_zeroHex : IsHashHex zeroHex :=
  ⟨List.length_replicate, fun c hc => List.eq_of_mem_replicate hc ▸ by decide⟩

theorem isKeyId_zeroKeyId : IsKeyId zeroKeyId :=
  ⟨rfl, rfl, fun c hc => List.eq_of_mem_replicate hc ▸ by decide⟩

def zeroMember : MultisetMember where
  exampleId := token "ex1" zeroKeyId zeroHex
  exampleVersion := token "exv1" zeroKeyId zeroHex
  count := 1
  tokens := ⟨zeroKeyId, zeroHex, zeroHex,
    tokenMatch_eq_some_iff.mpr ⟨isKeyId_zeroKeyId, isHashHex_zeroHex, rfl⟩,
    tokenMatch_eq_some_iff.mpr ⟨isKeyId_zeroKeyId, isHashHex_zeroHex, rfl⟩⟩
  countRange := by decide

def nullPathProof : InclusionProof where
  member := zeroMember
  leafIndex := .leaf (.int 0)
  treeSize := .leaf (.int 1)
  auditPath := .leaf .none
  root := .leaf (.str (token "msr1" zeroKeyId zeroHex))

theorem wellPlaced_nullPathProof : WellPlaced nullPathProof zeroHex 0 1 := by
  have hkey : zeroMember.keyId = zeroKeyId :=
    secondPart_token (by decide) isKeyId_zeroKeyId
  refine ⟨?_, isHashHex_zeroHex, rfl, rfl, Nat.one_pos⟩
  exact congrArg (fun keyId => Tree.leaf (Atom.str (token "msr1" keyId zeroHex))) hkey.symm

end TraigentSchema.ExampleIdentity
