import AxiomGrid.Lib.Hex
import AxiomGrid.Lib.MerkleTree

/-!
# Merkle roots and inclusion proofs

`merkle_root`, `merkle_proof` and `verify_merkle_proof` of `kairo/trust/merkle.py`. The tree is the
instance `rfc6962` of the library's tree hash: SHA-256, the tags `0x00` and `0x01`, and a split at
the largest power of two below the number of leaves.
-/

namespace AxiomGrid.Trust

/-! ### The split point -/

/-- `while k * 2 < n: k *= 2`. -/
def doubleWhile (n : ℕ) : ℕ → ℕ → ℕ
  | 0, k => k
  | fuel + 1, k => if k * 2 < n then doubleWhile n fuel (k * 2) else k

/-- `_largest_power_of_two_lt(n)`. Each round at least adds one to `k`, so `n` rounds are enough. -/
def largestPowerOfTwoLt (n : ℕ) : ℕ := doubleWhile n n 1

/-- The loop ends at the power of two it is named after. -/
lemma doubleWhile_spec {n fuel k : ℕ} (hk : ∃ e, k = 2 ^ e) (hlt : k < n) (hfuel : n ≤ k + fuel) :
    (∃ e, doubleWhile n fuel k = 2 ^ e) ∧ doubleWhile n fuel k < n ∧
      n ≤ doubleWhile n fuel k * 2 := by
  induction fuel generalizing k with
  | zero => omega
  | succ fuel ih =>
    obtain ⟨e, rfl⟩ := hk
    have hpos : 0 < 2 ^ e := Nat.two_pow_pos e
    rw [doubleWhile]
    split
    · rename_i h
      exact ih ⟨e + 1, (pow_succ 2 e).symm⟩ h (by omega)
    · rename_i h
      exact ⟨⟨e, rfl⟩, hlt, by omega⟩

theorem largestPowerOfTwoLt_spec {n : ℕ} (h : 2 ≤ n) :
    (∃ e, largestPowerOfTwoLt n = 2 ^ e) ∧ largestPowerOfTwoLt n < n ∧
      n ≤ largestPowerOfTwoLt n * 2 :=
  doubleWhile_spec ⟨0, rfl⟩ h (by omega)

lemma largestPowerOfTwoLt_pos {n : ℕ} (h : 2 ≤ n) : 0 < largestPowerOfTwoLt n := by
  obtain ⟨⟨e, he⟩, -⟩ := largestPowerOfTwoLt_spec h
  rw [he]
  exact Nat.two_pow_pos e

/-! ### Roots -/

/-- `_LEAF_PREFIX`. -/
def leafPrefix : Bytes := [0x00]

/-- `_NODE_PREFIX`. -/
def nodePrefix : Bytes := [0x01]

/-- `merkle_leaf_hash(leaf)`. -/
def merkleLeafHash (leaf : Bytes) : String := (sha256 (leafPrefix ++ leaf)).hex

/-- `_mth(leaves)`. -/
def mth : List Bytes → Bytes
  | [] => sha256 []
  | [leaf] => sha256 (leafPrefix ++ leaf)
  | x :: y :: zs =>
    let leaves := x :: y :: zs
    let k := largestPowerOfTwoLt leaves.length
    sha256 (nodePrefix ++ mth (leaves.take k) ++ mth (leaves.drop k))
termination_by leaves => leaves.length
decreasing_by
  · have := (largestPowerOfTwoLt_spec (n := (x :: y :: zs).length) (by simp)).2.1
    rw [List.length_take]
    omega
  · have := largestPowerOfTwoLt_pos (n := (x :: y :: zs).length) (by simp)
    rw [List.length_drop]
    simp only [List.length_cons] at this ⊢
    omega

/-- `merkle_root(leaves)`. -/
def merkleRoot (leaves : List Bytes) : String := (mth leaves).hex

/-- The tree of RFC 6962. -/
def rfc6962 : TreeHash UInt8 where
  hash := sha256
  width := 32
  hash_length := sha256_length
  leafTag := 0x00
  nodeTag := 0x01
  tags_ne := by decide
  split := largestPowerOfTwoLt
  split_pos _ := largestPowerOfTwoLt_pos
  split_lt _ h := (largestPowerOfTwoLt_spec h).2.1

@[simp] lemma rfc6962_split (n : ℕ) : rfc6962.split n = largestPowerOfTwoLt n := rfl

/-- The code computes the root of the tree. -/
theorem mth_eq_root (leaves : List Bytes) : mth leaves = rfc6962.root leaves := by
  induction leaves using rfc6962.shape_induction with
  | nil =>
    rw [mth, TreeHash.root_nil]
    rfl
  | leaf x =>
    rw [mth, TreeHash.root_singleton]
    rfl
  | node leaves htwo ihl ihr =>
    rw [TreeHash.root_of_two_le htwo, ← ihl, ← ihr]
    match leaves, htwo with
    | x :: y :: zs, _ =>
      rw [mth]
      rfl

/-! ### Inclusion proofs -/

/-- The inner function `path` of `merkle_proof`, on a nonempty list. -/
def path : List Bytes → ℕ → List (String × String)
  | [], _ => []
  | [_], _ => []
  | x :: y :: zs, idx =>
    let lvs := x :: y :: zs
    let k := largestPowerOfTwoLt lvs.length
    if idx < k then path (lvs.take k) idx ++ [("R", (mth (lvs.drop k)).hex)]
    else path (lvs.drop k) (idx - k) ++ [("L", (mth (lvs.take k)).hex)]
termination_by lvs _ => lvs.length
decreasing_by
  · have := (largestPowerOfTwoLt_spec (n := (x :: y :: zs).length) (by simp)).2.1
    rw [List.length_take]
    omega
  · have := largestPowerOfTwoLt_pos (n := (x :: y :: zs).length) (by simp)
    rw [List.length_drop]
    simp only [List.length_cons] at this ⊢
    omega

/-- `merkle_proof(leaves, index)`; `none` is the `IndexError`. -/
def merkleProof (leaves : List Bytes) (index : ℤ) : Option (List (String × String)) :=
  if 0 ≤ index ∧ index < leaves.length then some (path leaves index.toNat) else none

/-- The loop of `verify_merkle_proof`; `none` is the `ValueError` of `bytes.fromhex`. -/
def verifyLoop (rootHex : String) : Bytes → List (String × String) → Option Bool
  | running, [] => some (running.hex = rootHex)
  | running, (side, siblingHex) :: proof => do
    let sibling ← Bytes.fromHex? siblingHex
    if side = "L" then verifyLoop rootHex (sha256 (nodePrefix ++ sibling ++ running)) proof
    else if side = "R" then verifyLoop rootHex (sha256 (nodePrefix ++ running ++ sibling)) proof
    else some false

/-- `verify_merkle_proof(leaf, index, tree_size, proof, root_hex)`. -/
def verifyMerkleProof (leaf : Bytes) (index treeSize : ℤ) (proof : List (String × String))
    (rootHex : String) : Option Bool :=
  if 0 ≤ index ∧ index < treeSize then verifyLoop rootHex (sha256 (leafPrefix ++ leaf)) proof
  else some false

/-- A proof as siblings with their sides, when every entry is well formed. -/
def decodeProof : List (String × String) → Option (List (Bool × Bytes))
  | [] => some []
  | (side, siblingHex) :: proof => do
    let sibling ← Bytes.fromHex? siblingHex
    let steps ← decodeProof proof
    if side = "L" then some ((true, sibling) :: steps)
    else if side = "R" then some ((false, sibling) :: steps)
    else none

lemma decodeProof_append (p q : List (String × String)) :
    decodeProof (p ++ q) = (decodeProof p).bind fun a => (decodeProof q).map (a ++ ·) := by
  induction p with
  | nil => simp [decodeProof]
  | cons e p ih =>
    obtain ⟨side, siblingHex⟩ := e
    simp only [List.cons_append, decodeProof, ih, Option.bind_eq_bind]
    cases Bytes.fromHex? siblingHex with
    | none => rfl
    | some sibling =>
      cases decodeProof p with
      | none => rfl
      | some a =>
        cases decodeProof q with
        | none => simp
        | some b =>
          simp only [Option.bind_some, Option.map_some]
          split_ifs <;> simp

/-- A proof is accepted exactly when it decodes to siblings that climb to the root. -/
lemma verifyLoop_eq_true {rootHex : String} {running : Bytes} {proof : List (String × String)} :
    verifyLoop rootHex running proof = some true ↔
      ∃ steps, decodeProof proof = some steps ∧
        Bytes.hex (rfc6962.climb running steps) = rootHex := by
  induction proof generalizing running with
  | nil => simp [verifyLoop, decodeProof]
  | cons e proof ih =>
    obtain ⟨side, siblingHex⟩ := e
    simp only [verifyLoop, decodeProof, Option.bind_eq_bind]
    cases Bytes.fromHex? siblingHex with
    | none => simp
    | some sibling =>
      simp only [Option.bind_some]
      split_ifs with hL hR
      · rw [ih]
        cases decodeProof proof with
        | none => simp
        | some steps =>
          simp only [Option.some.injEq, exists_eq_left', Option.bind_some]
          rfl
      · rw [ih]
        cases decodeProof proof with
        | none => simp
        | some steps =>
          simp only [Option.some.injEq, exists_eq_left', Option.bind_some]
          rfl
      · cases decodeProof proof <;> simp

/-- The proof for a tree of two leaves or more, by the side on which the leaf is. -/
lemma path_of_two_le {leaves : List Bytes} (htwo : 2 ≤ leaves.length) (idx : ℕ) :
    path leaves idx =
      if idx < largestPowerOfTwoLt leaves.length then
        path (leaves.take (largestPowerOfTwoLt leaves.length)) idx ++
          [("R", (mth (leaves.drop (largestPowerOfTwoLt leaves.length))).hex)]
      else path (leaves.drop (largestPowerOfTwoLt leaves.length))
          (idx - largestPowerOfTwoLt leaves.length) ++
          [("L", (mth (leaves.take (largestPowerOfTwoLt leaves.length))).hex)] := by
  cases leaves with
  | nil => simp at htwo
  | cons x xs =>
    cases xs with
    | nil => simp at htwo
    | cons y zs => rw [path]

/-- The proof the code builds decodes to the path in the tree. -/
lemma decodeProof_path (leaves : List Bytes) (idx : ℕ) :
    decodeProof (path leaves idx) = some (rfc6962.path leaves idx) := by
  induction leaves using rfc6962.shape_induction generalizing idx with
  | nil => simp [path, TreeHash.path, decodeProof]
  | leaf x => simp [path, decodeProof]
  | node leaves htwo ihl ihr =>
    simp only [rfc6962_split] at ihl ihr
    rw [path_of_two_le htwo, TreeHash.path_of_two_le htwo, mth_eq_root, mth_eq_root, rfc6962_split]
    split
    · rw [decodeProof_append, ihl]
      simp [decodeProof]
    · rw [decodeProof_append, ihr]
      simp [decodeProof]

/-! ### Completeness and soundness -/

/-- The messages `merkle_root` hashes. -/
def rootMessages (leaves : List Bytes) : List Bytes := rfc6962.inputs leaves

/-- The messages the loop of `verify_merkle_proof` hashes. -/
def loopMessages : Bytes → List (String × String) → List Bytes
  | _, [] => []
  | running, (side, siblingHex) :: proof =>
    match Bytes.fromHex? siblingHex with
    | none => []
    | some sibling =>
      if side = "L" then
        (nodePrefix ++ sibling ++ running) ::
          loopMessages (sha256 (nodePrefix ++ sibling ++ running)) proof
      else if side = "R" then
        (nodePrefix ++ running ++ sibling) ::
          loopMessages (sha256 (nodePrefix ++ running ++ sibling)) proof
      else []

/-- The messages `verify_merkle_proof` hashes. -/
def proofMessages (leaf : Bytes) (proof : List (String × String)) : List Bytes :=
  (leafPrefix ++ leaf) :: loopMessages (sha256 (leafPrefix ++ leaf)) proof

lemma loopMessages_eq {running : Bytes} {proof : List (String × String)}
    {steps : List (Bool × Bytes)} (h : decodeProof proof = some steps) :
    loopMessages running proof = rfc6962.climbInputs running steps := by
  induction proof generalizing running steps with
  | nil =>
    cases h
    rfl
  | cons e proof ih =>
    obtain ⟨side, siblingHex⟩ := e
    simp only [decodeProof, Option.bind_eq_bind, Option.bind_eq_some_iff] at h
    obtain ⟨sibling, hsib, steps', hsteps, h⟩ := h
    simp only [loopMessages, hsib]
    split_ifs at h ⊢
    · cases h
      rw [ih hsteps]
      rfl
    · cases h
      rw [ih hsteps]
      rfl

/-- The proof for a leaf is accepted at every index of the tree. -/
lemma verifyMerkleProof_path {leaves : List Bytes} {i : ℕ} {leaf : Bytes} {index : ℤ}
    (hleaf : leaves[i]? = some leaf) (hindex : 0 ≤ index ∧ index < leaves.length) :
    verifyMerkleProof leaf index leaves.length (path leaves i) (merkleRoot leaves) = some true := by
  rw [verifyMerkleProof, if_pos hindex, verifyLoop_eq_true]
  refine ⟨_, decodeProof_path leaves i, ?_⟩
  rw [merkleRoot, mth_eq_root, ← TreeHash.climb_path hleaf]
  rfl

/-- The messages hashed to verify it are those hashed for the root. -/
lemma proofMessages_path_subset {leaves : List Bytes} {i : ℕ} {leaf : Bytes}
    (hleaf : leaves[i]? = some leaf) :
    proofMessages leaf (path leaves i) ⊆ rootMessages leaves := by
  rw [proofMessages, loopMessages_eq (decodeProof_path leaves i)]
  exact @TreeHash.climbInputs_path_subset UInt8 rfc6962 leaves i leaf hleaf

/-- Every proof the code builds for a leaf is accepted against the root; and an accepted proof,
whatever its siblings, index and tree size, is for one of the leaves, unless two of the messages
hashed on the two sides collide. -/
theorem merkle_proof_correct :
    (∀ (leaves : List Bytes) (index : ℕ) (leaf : Bytes), leaves[index]? = some leaf →
      ∃ proof, merkleProof leaves index = some proof ∧
        verifyMerkleProof leaf index leaves.length proof (merkleRoot leaves) = some true) ∧
    (∀ (leaves : List Bytes) (leaf : Bytes) (index treeSize : ℤ) (proof : List (String × String)),
      leaves ≠ [] → CollisionFree (rootMessages leaves ++ proofMessages leaf proof) →
      verifyMerkleProof leaf index treeSize proof (merkleRoot leaves) = some true →
      leaf ∈ leaves) := by
  constructor
  · intro leaves index leaf hleaf
    have hlt : index < leaves.length := (List.getElem?_eq_some_iff.mp hleaf).1
    have hindex : (0 : ℤ) ≤ index ∧ (index : ℤ) < leaves.length := by omega
    refine ⟨path leaves index, ?_, verifyMerkleProof_path hleaf hindex⟩
    rw [merkleProof, if_pos hindex, Int.toNat_natCast]
  · intro leaves leaf index treeSize proof hne hfree hverify
    rw [verifyMerkleProof] at hverify
    split at hverify
    · rw [verifyLoop_eq_true] at hverify
      obtain ⟨steps, hsteps, hroot⟩ := hverify
      have hclimb := Bytes.hex_injective hroot
      rw [mth_eq_root] at hclimb
      refine TreeHash.mem_of_climb_eq_root hne steps ?_ hclimb
      intro a ha b hb hab
      refine hfree a ?_ b ?_ hab
      · rw [proofMessages, loopMessages_eq hsteps]
        exact List.mem_append.mpr ha
      · rw [proofMessages, loopMessages_eq hsteps]
        exact List.mem_append.mpr hb
    · simp at hverify

/-- A tree with two leaves. -/
def twoLeaves : List Bytes := [[1], [2]]

lemma collisionFree_twoLeaves :
    CollisionFree (rootMessages twoLeaves ++ proofMessages [2] (path twoLeaves 1)) := by
  have hmessages : rootMessages twoLeaves =
      [0x01 :: (sha256 [0, 1] ++ sha256 [0, 2]), [0, 1], [0, 2]] := by
    have hsplit : rfc6962.split twoLeaves.length = 1 := by decide
    rw [rootMessages, TreeHash.inputs_of_two_le (by decide), hsplit]
    simp only [twoLeaves, List.take_succ_cons, List.take_zero, List.drop_succ_cons, List.drop_zero,
      TreeHash.root_singleton, TreeHash.inputs_singleton]
    rfl
  have hfree : CollisionFree (rootMessages twoLeaves) := by
    rw [hmessages]
    exact .of_nodup (by decide +kernel)
  exact hfree.mono (List.append_subset.mpr ⟨List.Subset.refl _, proofMessages_path_subset rfl⟩)

/-- The proof for the second leaf is accepted, and being accepted it is for a member. -/
theorem merkle_proof_correct_twoLeaves :
    (∃ proof, merkleProof twoLeaves 1 = some proof ∧
      verifyMerkleProof [2] 1 2 proof (merkleRoot twoLeaves) = some true) ∧
    verifyMerkleProof [2] 1 2 (path twoLeaves 1) (merkleRoot twoLeaves) = some true ∧
    [2] ∈ twoLeaves := by
  have hverify : verifyMerkleProof [2] 1 2 (path twoLeaves 1) (merkleRoot twoLeaves) =
      some true :=
    @verifyMerkleProof_path twoLeaves 1 [2] 1 rfl (by decide)
  refine ⟨merkle_proof_correct.1 twoLeaves 1 [2] rfl, hverify, ?_⟩
  exact merkle_proof_correct.2 twoLeaves [2] 1 2 (path twoLeaves 1) (by decide)
    collisionFree_twoLeaves hverify

/-! ### Positions -/

/-- The siblings of the proof are those of the leaf at this position. -/
def IsProofOf (leaves : List Bytes) (leaf : Bytes) (proof : List (String × String)) (j : ℕ) : Prop :=
  leaves[j]? = some leaf ∧ decodeProof proof = decodeProof (path leaves j)

/-- What is accepted is a proof of the leaf at some position, and the index only has to be in range. -/
lemma verifyMerkleProof_iff {leaves : List Bytes} {leaf : Bytes} {index : ℤ}
    {proof : List (String × String)}
    (hfree : CollisionFree (rootMessages leaves ++ proofMessages leaf proof)) :
    verifyMerkleProof leaf index leaves.length proof (merkleRoot leaves) = some true ↔
      (0 ≤ index ∧ index < leaves.length) ∧ ∃ j, IsProofOf leaves leaf proof j := by
  rw [verifyMerkleProof]
  split_ifs with hindex
  · rw [verifyLoop_eq_true, merkleRoot, mth_eq_root]
    constructor
    · rintro ⟨steps, hsteps, hroot⟩
      have hne : leaves ≠ [] := by
        rintro rfl
        simp only [List.length_nil] at hindex
        omega
      obtain ⟨j, hj, rfl⟩ := TreeHash.path_of_climb_eq_root hne steps (by
        intro a ha b hb hab
        refine hfree a ?_ b ?_ hab
        · rw [proofMessages, loopMessages_eq hsteps]
          exact List.mem_append.mpr ha
        · rw [proofMessages, loopMessages_eq hsteps]
          exact List.mem_append.mpr hb) (Bytes.hex_injective hroot)
      exact ⟨hindex, j, hj, hsteps.trans (decodeProof_path leaves j).symm⟩
    · rintro ⟨-, j, hj, hproof⟩
      refine ⟨_, hproof.trans (decodeProof_path leaves j), ?_⟩
      rw [← TreeHash.climb_path hj]
      rfl
  · simp only [Option.some.injEq, Bool.false_eq_true, false_iff]
    exact fun h => hindex h.1

/-- An accepted proof is one for the index exactly when it is not the proof of the leaf at another
position; and a proof of any position is accepted at every index of the tree. -/
theorem verifyMerkleProof_index_iff (leaves : List Bytes) (leaf : Bytes) (proof : List (String × String))
    (hdistinct : leaves.Nodup)
    (hfree : CollisionFree (rootMessages leaves ++ proofMessages leaf proof)) :
    (∀ index : ℤ,
      (verifyMerkleProof leaf index leaves.length proof (merkleRoot leaves) = some true →
        0 ≤ index ∧ leaves[index.toNat]? = some leaf) ↔
      ¬(0 ≤ index ∧ index < leaves.length) ∨ ∀ j : ℕ, IsProofOf leaves leaf proof j → j = index) ∧
    ∀ i j : ℕ, i < leaves.length → j < leaves.length → i ≠ j →
      (¬(verifyMerkleProof leaf i leaves.length proof (merkleRoot leaves) = some true ∧
        verifyMerkleProof leaf j leaves.length proof (merkleRoot leaves) = some true) ↔
      ∀ k, ¬IsProofOf leaves leaf proof k) := by
  constructor
  · intro index
    rw [verifyMerkleProof_iff hfree]
    by_cases hindex : 0 ≤ index ∧ index < leaves.length
    · simp only [hindex, not_true_eq_false, false_or, true_and, and_self, forall_exists_index]
      refine forall_congr' fun j => imp_congr_right fun hj => ?_
      constructor
      · intro hleaf
        have hsame := (List.getElem?_inj (List.getElem?_eq_some_iff.mp hj.1).1 hdistinct).mp
          (hj.1.trans hleaf.symm)
        omega
      · rintro rfl
        rw [Int.toNat_natCast]
        exact hj.1
    · simp [hindex]
  · intro i j hi hj _
    have hrange : ∀ n : ℕ, n < leaves.length → (0 : ℤ) ≤ n ∧ (n : ℤ) < leaves.length := by omega
    rw [verifyMerkleProof_iff hfree, verifyMerkleProof_iff hfree]
    simp only [hrange i hi, hrange j hj, true_and, and_self, not_exists]

/-- At its own index the proof for the second leaf is for the index, and at the other it is not. -/
theorem verifyMerkleProof_index_twoLeaves :
    (verifyMerkleProof [2] 1 twoLeaves.length (path twoLeaves 1) (merkleRoot twoLeaves) = some true →
      (0 : ℤ) ≤ 1 ∧ twoLeaves[(1 : ℤ).toNat]? = some [2]) ∧
    ¬(verifyMerkleProof [2] 0 twoLeaves.length (path twoLeaves 1) (merkleRoot twoLeaves) = some true →
      (0 : ℤ) ≤ 0 ∧ twoLeaves[(0 : ℤ).toNat]? = some [2]) := by
  have hiff := (verifyMerkleProof_index_iff twoLeaves [2] (path twoLeaves 1) (by decide)
    collisionFree_twoLeaves).1
  have hproof : IsProofOf twoLeaves [2] (path twoLeaves 1) 1 := ⟨rfl, rfl⟩
  constructor
  · refine (hiff 1).mpr (.inr fun j hj => ?_)
    have hget := hj.1
    have hlt := (List.getElem?_eq_some_iff.mp hget).1
    obtain rfl | rfl : j = 0 ∨ j = 1 := by
      simp only [twoLeaves, List.length_cons, List.length_nil] at hlt
      omega
    · cases hget
    · rfl
  · intro h
    obtain hrange | honly := (hiff 0).mp h
    · exact hrange (by decide)
    · exact absurd (honly 1 hproof) (by decide)

/-- The proof for the second of two distinct leaves is accepted at the first index too. -/
theorem verifyMerkleProof_ignores_index :
    twoLeaves.Nodup ∧
    CollisionFree (rootMessages twoLeaves ++ proofMessages [2] (path twoLeaves 1)) ∧
    verifyMerkleProof [2] 0 twoLeaves.length (path twoLeaves 1) (merkleRoot twoLeaves) = some true ∧
    verifyMerkleProof [2] 1 twoLeaves.length (path twoLeaves 1) (merkleRoot twoLeaves) = some true ∧
    twoLeaves[0]? ≠ some [2] := by
  refine ⟨by decide, collisionFree_twoLeaves, ?_, ?_, by decide⟩
  · exact verifyMerkleProof_path rfl (by decide)
  · exact verifyMerkleProof_path rfl (by decide)

end AxiomGrid.Trust
