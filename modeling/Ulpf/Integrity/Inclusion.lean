import Ulpf.Integrity.MerkleRoot

/-!
# Inclusion proofs

An audit path collected from a built tree climbs back to its root. Conversely a path that
climbs to the root of a tree starts at one of its logs, whatever it was offered. The
verifier takes the sides of the path from the proof and not from the index, so only trees
of one leaf pin the position.
-/

namespace Ulpf.Integrity
open Ulpf.Library

variable {Digest : Type*} (hs : Hasher Digest)

def toSibling : Digest × Side → Sibling Digest
  | (siblingHash, .left) => .left siblingHash
  | (siblingHash, .right) => .right siblingHash

lemma join_toSibling (x : Digest) (s : Digest × Side) :
    (toSibling s).join hs.hashChildren x = foldSibling hs x s := by
  rcases s with ⟨d, _ | _⟩ <;> rfl

lemma foldl_foldSibling (x : Digest) (path : List (Digest × Side)) :
    path.foldl (foldSibling hs) x = climb hs.hashChildren x (path.map toSibling) := by
  rw [climb, List.foldl_map]
  congr 1
  funext y s
  exact (join_toSibling hs y s).symm

/-- A built node collects the siblings of the hash tree. -/
theorem collectAuditPath_buildSubtree (leaves : List Digest) (offset : ℕ) (hne : leaves ≠ [])
    (i : ℕ) :
    ((MerkleTree.buildSubtree hs leaves offset hne).collectAuditPath i).map toSibling =
      (rfcSplit.tree leaves hne).siblings hs.hashChildren i := by
  induction leaves, hne using rfcSplit.list_induction generalizing offset i with
  | single a =>
    rw [MerkleTree.buildSubtree_singleton, SplitRule.tree_singleton]
    rfl
  | split leaves hne h ihl ihr =>
    have hcut : (rfcSplit.left leaves).length = largestPowerOfTwoLessThan leaves.length :=
      rfcSplit.length_left h
    rw [MerkleTree.buildSubtree_split hs h, SplitRule.tree_split _ h, TreeNode.collectAuditPath,
      HashTree.siblings, SplitRule.leaves_tree, hcut]
    split_ifs with hi
    · rw [List.map_append, ihl, List.map_singleton, MerkleTree.hash_buildSubtree]
      rfl
    · rw [List.map_append, ihr, List.map_singleton, MerkleTree.hash_buildSubtree]
      rfl

lemma foldl_collectAuditPath {leaves : List Digest} {i : ℕ} {x : Digest} (hne : leaves ≠ [])
    (hx : leaves[i]? = some x) :
    ((MerkleTree.buildSubtree hs leaves 0 hne).collectAuditPath i).foldl (foldSibling hs) x =
      (MerkleTree.fromLeafHashes hs leaves).root := by
  rw [foldl_foldSibling, collectAuditPath_buildSubtree, MerkleTree.root_eq_head hs hne]
  apply HashTree.climb_siblings
  rw [SplitRule.leaves_tree]
  exact hx

/-! ### Completeness -/

lemma inclusionProof_of_lt {leaves : List Digest} {i : ℕ} (hi : i < leaves.length) :
    (MerkleTree.fromLeafHashes hs leaves).inclusionProof i =
      .ok ⟨i, leaves.length, (MerkleTree.buildSubtree hs leaves 0
        (List.length_pos_iff.mp (by omega))).collectAuditPath i⟩ := by
  have hne : leaves ≠ [] := List.length_pos_iff.mp (by omega)
  unfold MerkleTree.inclusionProof
  rw [MerkleTree.leafHashes_fromLeafHashes, MerkleTree.rootNode_eq hs hne, if_neg (by omega),
    if_neg (by omega)]

lemma inclusionProof_of_le {leaves : List Digest} {i : ℕ} (hi : leaves.length ≤ i) :
    ∃ e, (MerkleTree.fromLeafHashes hs leaves).inclusionProof i = .error e := by
  unfold MerkleTree.inclusionProof
  rw [MerkleTree.leafHashes_fromLeafHashes]
  dsimp only
  split_ifs
  · exact ⟨_, rfl⟩
  · exact ⟨_, rfl⟩

section Verify

variable [DecidableEq Digest]

lemma foldl_of_verify {x root : Digest} {i n : ℕ} {path : List (Digest × Side)}
    (h : verifyInclusionProofByHash hs x i n path root = true) :
    path.foldl (foldSibling hs) x = root := by
  unfold verifyInclusionProofByHash at h
  split_ifs at h with h0 h1
  · simp only [Bool.and_eq_true, decide_eq_true_eq, List.isEmpty_iff] at h
    rw [h.1.1]
    exact h.2
  · exact of_decide_eq_true h

lemma verify_eq_fold {x root : Digest} {i n : ℕ} (path : List (Digest × Side)) (hi : i < n)
    (hn : n ≠ 1) :
    verifyInclusionProofByHash hs x i n path root =
      decide (path.foldl (foldSibling hs) x = root) := by
  unfold verifyInclusionProofByHash
  rw [if_neg (by omega), if_neg hn]

lemma verify_collectAuditPath {leaves : List Digest} {i : ℕ} {x : Digest} (hne : leaves ≠ [])
    (hx : leaves[i]? = some x) :
    verifyInclusionProofByHash hs x i leaves.length
      ((MerkleTree.buildSubtree hs leaves 0 hne).collectAuditPath i)
      (MerkleTree.fromLeafHashes hs leaves).root = true := by
  obtain ⟨hi, hxi⟩ := List.getElem?_eq_some_iff.mp hx
  by_cases hn : leaves.length = 1
  · obtain ⟨a, rfl⟩ := List.length_eq_one_iff.mp hn
    have hi0 : i = 0 := by simpa using hi
    subst hi0
    rw [MerkleTree.buildSubtree_singleton, MerkleTree.root_singleton]
    simp [verifyInclusionProofByHash, TreeNode.collectAuditPath, ← hxi]
  · rw [verify_eq_fold hs _ hi hn]
    exact decide_eq_true (foldl_collectAuditPath hs hne hx)

/-- Inclusion proofs exist exactly for the indices of the tree, and each one is accepted for
its own log, under any digest function. -/
theorem inclusionProof_complete (logs : List Bytes) (i : ℕ) :
    let tree := MerkleTree.fromRawLogs hs logs
    ((∃ proof, tree.inclusionProof i = .ok proof) ↔ i < logs.length) ∧
      ∀ proof, tree.inclusionProof i = .ok proof →
        ∃ rawLog, logs[i]? = some rawLog ∧ proof.verify hs rawLog tree.root = true := by
  intro tree
  have hlen : (logs.map hs.hashLeaf).length = logs.length := List.length_map _
  by_cases hi : i < logs.length
  · have hok := inclusionProof_of_lt hs (hlen.symm ▸ hi)
    refine ⟨⟨fun _ => hi, fun _ => ⟨_, hok⟩⟩, ?_⟩
    intro proof hproof
    cases hok.symm.trans hproof
    refine ⟨logs[i], List.getElem?_eq_getElem hi, ?_⟩
    apply verify_collectAuditPath
    rw [List.getElem?_map, List.getElem?_eq_getElem hi]
    rfl
  · obtain ⟨e, he⟩ := inclusionProof_of_le hs (hlen.le.trans (not_lt.mp hi))
    refine ⟨⟨?_, fun h => absurd h hi⟩, ?_⟩
    · rintro ⟨proof, hproof⟩
      cases he.symm.trans hproof
    · intro proof hproof
      cases he.symm.trans hproof

/-! ### Position -/

/-- The sides RFC 6962 prescribes for leaf `i` of a tree with `n` leaves, the lowest first. -/
def auditSides (i n : ℕ) : List Side :=
  if h : 1 < n then
    let k := largestPowerOfTwoLessThan n
    if i < k then auditSides i k ++ [.right] else auditSides (i - k) (n - k) ++ [.left]
  else []
termination_by n
decreasing_by
  · exact largestPowerOfTwoLessThan_lt h
  · exact Nat.sub_lt (by omega) (largestPowerOfTwoLessThan_pos n)

omit [DecidableEq Digest] in
/-- Every tree with `n` leaves emits the prescribed sides. -/
theorem sides_collectAuditPath (leaves : List Digest) (offset : ℕ) (hne : leaves ≠ []) (i : ℕ) :
    ((MerkleTree.buildSubtree hs leaves offset hne).collectAuditPath i).map Prod.snd =
      auditSides i leaves.length := by
  induction leaves, hne using rfcSplit.list_induction generalizing offset i with
  | single a =>
    rw [MerkleTree.buildSubtree_singleton, auditSides, dif_neg (by simp)]
    rfl
  | split leaves hne h ihl ihr =>
    have hcut : (rfcSplit.left leaves).length = largestPowerOfTwoLessThan leaves.length :=
      rfcSplit.length_left h
    have hrest : (rfcSplit.right leaves).length =
        leaves.length - largestPowerOfTwoLessThan leaves.length := rfcSplit.length_right leaves
    rw [MerkleTree.buildSubtree_split hs h, TreeNode.collectAuditPath, auditSides, dif_pos h]
    dsimp only
    split_ifs with hi
    · rw [List.map_append, ihl, hcut, List.map_singleton]
    · rw [List.map_append, ihr, hrest, List.map_singleton]

omit [DecidableEq Digest] in
lemma auditSides_ne_nil (i : ℕ) {n : ℕ} (h : 1 < n) : auditSides i n ≠ [] := by
  rw [auditSides, dif_pos h]
  dsimp only
  split_ifs <;> simp

/-- Every accepted proof for leaf `i` of `n` has the length and the sides of RFC 6962. -/
def PinsPosition (i n : ℕ) : Prop :=
  ∀ leafHash auditPath expectedRoot,
    verifyInclusionProofByHash hs leafHash i n auditPath expectedRoot = true →
      auditPath.map Prod.snd = auditSides i n

/-- No proof made for one leaf of the tree is accepted under the index of another. -/
def RejectsRelabelling (leaves : List Digest) : Prop :=
  let tree := MerkleTree.fromLeafHashes hs leaves
  ∀ i j proof leafHash, i ≠ j → i < leaves.length → tree.inclusionProof j = .ok proof →
    leaves[j]? = some leafHash →
      verifyInclusionProofByHash hs leafHash i leaves.length proof.auditPath tree.root = false

/-- In a tree of two or more leaves every index accepts the proof of every leaf. -/
lemma verify_relabelled {leaves : List Digest} {i j : ℕ} {x : Digest}
    {proof : InclusionProof Digest} (hn : leaves.length ≠ 1) (hi : i < leaves.length)
    (hx : leaves[j]? = some x)
    (hproof : (MerkleTree.fromLeafHashes hs leaves).inclusionProof j = .ok proof) :
    verifyInclusionProofByHash hs x i leaves.length proof.auditPath
      (MerkleTree.fromLeafHashes hs leaves).root = true := by
  obtain ⟨hj, -⟩ := List.getElem?_eq_some_iff.mp hx
  cases (inclusionProof_of_lt hs hj).symm.trans hproof
  rw [verify_eq_fold hs _ hi hn]
  exact decide_eq_true (foldl_collectAuditPath hs _ hx)

lemma pinsPosition_iff {i n : ℕ} (hi : i < n) : PinsPosition hs i n ↔ n = 1 := by
  constructor
  · intro h
    by_contra hn
    have hempty : verifyInclusionProofByHash hs hs.emptyTreeHash i n [] hs.emptyTreeHash =
        true := by
      rw [verify_eq_fold hs _ hi hn]
      exact decide_eq_true rfl
    exact auditSides_ne_nil i (by omega) (h _ _ _ hempty).symm
  · rintro rfl leafHash auditPath expectedRoot h
    unfold verifyInclusionProofByHash at h
    rw [if_neg (by omega), if_pos rfl] at h
    simp only [Bool.and_eq_true, List.isEmpty_iff] at h
    rw [h.1.1, auditSides, dif_neg (lt_irrefl 1)]
    rfl

lemma rejectsRelabelling_iff {leaves : List Digest} (hne : leaves ≠ []) :
    RejectsRelabelling hs leaves ↔ leaves.length = 1 := by
  have hpos := List.length_pos_iff.mpr hne
  constructor
  · intro h
    by_contra hn
    have hok := inclusionProof_of_lt hs hpos
    have hx : leaves[0]? = some leaves[0] := List.getElem?_eq_getElem hpos
    have hfalse := h 1 0 _ _ (by decide) (by omega) hok hx
    have htrue := verify_relabelled hs hn (by omega : 1 < leaves.length) hx hok
    exact Bool.false_ne_true (hfalse.symm.trans htrue)
  · intro hn i j proof leafHash hij hi hproof hx
    obtain ⟨hj, -⟩ := List.getElem?_eq_some_iff.mp hx
    omega

/-- An accepted proof pins the position exactly in the trees of one leaf. -/
theorem accepted_position_pinned_iff (i n : ℕ) (hi : i < n) :
    (PinsPosition hs i n ↔ n = 1) ∧
      ∀ leaves : List Digest, leaves.length = n → (RejectsRelabelling hs leaves ↔ n = 1) := by
  refine ⟨pinsPosition_iff hs hi, ?_⟩
  rintro leaves rfl
  exact rejectsRelabelling_iff hs (List.length_pos_iff.mp (by omega))

end Verify

/-- Every index of a two-leaf tree is exposed, the index of a single leaf is pinned. -/
theorem accepted_position_pinned_iff_sha2 :
    PinsPosition (sha256Hasher sha2) 0 1 ∧ ¬PinsPosition (sha256Hasher sha2) 1 2 := by
  constructor
  · exact (accepted_position_pinned_iff (sha256Hasher sha2) 0 1 (by decide)).1.mpr rfl
  · exact (accepted_position_pinned_iff (sha256Hasher sha2) 1 2 (by decide)).1.not.mpr (by decide)

/-- The proof of the first of two logs is accepted when relabelled as a proof of the second. -/
theorem relabelled_proof_accepted :
    let hs := sha256Hasher sha2
    let tree := MerkleTree.fromRawLogs hs [[0x61], [0x62]]
    let path := [(hs.hashLeaf [0x62], Side.right)]
    tree.inclusionProof 0 = .ok ⟨0, 2, path⟩ ∧
      verifyInclusionProofByHash hs (hs.hashLeaf [0x61]) 1 2 path tree.root = true ∧
      path.map Prod.snd ≠ auditSides 1 2 := by
  intro hs tree path
  have hproof : tree.inclusionProof 0 = .ok ⟨0, 2, path⟩ := by
    have hpath : TreeNode.collectAuditPath (.internal (hs.hashChildren (hs.hashLeaf [0x61])
        (hs.hashLeaf [0x62])) 2 (.leaf (hs.hashLeaf [0x61]) 0) (.leaf (hs.hashLeaf [0x62]) 1)) 0 =
        path := rfl
    rw [← hpath, ← MerkleTree.buildSubtree_pair hs _ _ 0 (by simp)]
    exact inclusionProof_of_lt hs (by simp)
  refine ⟨hproof, ?_, ?_⟩
  · exact verify_relabelled hs (by simp) (by simp) rfl hproof
  · have hsides : auditSides 1 2 = [.left] := by decide +kernel
    simp [path, hsides]

/-! ### Soundness -/

section Soundness

variable (sha256 : Bytes → Hash)

/-- What the verifier feeds to SHA-256 when `x` meets a step of the path. -/
def siblingInput (x : Hash) : Hash × Side → Bytes
  | (siblingHash, .right) => nodeInput x siblingHash
  | (siblingHash, .left) => nodeInput siblingHash x

def auditInputs : Hash → List (Hash × Side) → List Bytes
  | _, [] => []
  | x, s :: path => siblingInput x s :: auditInputs (foldSibling (sha256Hasher sha256) x s) path

/-- Every byte string hashed by `verify_inclusion_proof`. -/
def inclusionInputs (rawLog : Bytes) (auditPath : List (Hash × Side)) : List Bytes :=
  leafInput rawLog :: auditInputs sha256 (sha256 (leafInput rawLog)) auditPath

variable {sha256}

lemma nodeInput_mem_of_mem_climbPairs (x : Hash) (path : List (Hash × Side)) (p : Hash × Hash)
    (hp : p ∈ climbPairs (sha256Hasher sha256).hashChildren x (path.map toSibling)) :
    nodeInput p.1 p.2 ∈ auditInputs sha256 x path := by
  induction path generalizing x with
  | nil => simp [climbPairs] at hp
  | cons s path ih =>
    rw [List.map_cons, climbPairs, List.mem_cons, join_toSibling] at hp
    rw [auditInputs, List.mem_cons]
    rcases hp with rfl | hp
    · left
      rcases s with ⟨d, _ | _⟩ <;> rfl
    · exact Or.inr (ih _ hp)

/-- A path that climbs to the root of a tree of logs starts at one of them. -/
lemma mem_of_verifyInclusionProof {sha256 : Bytes → Hash} {logs : List Bytes} (hne : logs ≠ [])
    {rawLog : Bytes} {leafIndex treeSize : ℕ} {auditPath : List (Hash × Side)}
    (hcf : CollisionFree sha256 (treeInputs sha256 logs ++ inclusionInputs sha256 rawLog auditPath))
    (hverify : verifyInclusionProof (sha256Hasher sha256) rawLog leafIndex treeSize auditPath
      (MerkleTree.fromRawLogs (sha256Hasher sha256) logs).root = true) : rawLog ∈ logs := by
  have htree := List.subset_append_left (treeInputs sha256 logs)
    (inclusionInputs sha256 rawLog auditPath)
  have hpath := List.subset_append_right (treeInputs sha256 logs)
    (inclusionInputs sha256 rawLog auditPath)
  have hfold := foldl_of_verify _ hverify
  rw [foldl_foldSibling, MerkleTree.fromRawLogs,
    MerkleTree.root_eq_head _ (by simpa using hne)] at hfold
  have hmem := HashTree.mem_leaves_of_climb_eq_root (separated_of_collisionFree hcf) _
    (within_of_treeInputs_subset hne htree) _ ⟨rawLog, hpath List.mem_cons_self, rfl⟩ _
    (fun p hp => hpath (List.mem_cons_of_mem _ (nodeInput_mem_of_mem_climbPairs _ _ p hp))) hfold
  rw [SplitRule.leaves_tree, List.mem_map] at hmem
  obtain ⟨data, hdata, heq⟩ := hmem
  have hleaf : leafInput data ∈ treeInputs sha256 logs := leafInput_mem_treeInputs hdata
  have hsame := leafInput_injective (hcf (htree hleaf) (hpath List.mem_cons_self) heq)
  rwa [← hsame]

/-- No audit path proves a log that is not in the tree. -/
theorem inclusionProof_sound (sha256 : Bytes → Hash) (logs : List Bytes) (hne : logs ≠ [])
    (rawLog : Bytes) (leafIndex treeSize : ℕ) (auditPath : List (Hash × Side))
    (hcf : CollisionFree sha256
      (treeInputs sha256 logs ++ inclusionInputs sha256 rawLog auditPath))
    (hverify : verifyInclusionProof (sha256Hasher sha256) rawLog leafIndex treeSize auditPath
      (MerkleTree.fromRawLogs (sha256Hasher sha256) logs).root = true) :
    rawLog ∈ logs :=
  mem_of_verifyInclusionProof hne hcf hverify

end Soundness

/-- A proof of the first of two logs meets every assumption of `inclusionProof_sound`. -/
theorem inclusionProof_sound_pair :
    let hs := sha256Hasher sha2
    let path := [(hs.hashLeaf [0x62], Side.right)]
    verifyInclusionProof hs [0x61] 0 2 path (MerkleTree.fromRawLogs hs [[0x61], [0x62]]).root =
      true ∧ ([0x61] : Bytes) ∈ [[0x61], [0x62]] := by
  intro hs path
  have hinputs : treeInputs sha2 [[0x61], [0x62]] = [leafInput [0x61], leafInput [0x62],
      nodeInput (sha2 (leafInput [0x61])) (sha2 (leafInput [0x62]))] := by
    simp [treeInputs, MerkleTree.childPairs, MerkleTree.fromRawLogs, MerkleTree.rootNode_eq,
      MerkleTree.buildSubtree_pair, TreeNode.childPairs, TreeNode.hash, sha256Hasher]
  have hcf : CollisionFree sha2 (treeInputs sha2 [[0x61], [0x62]]) :=
    collisionFree_of_nodup (by rw [hinputs]; decide +kernel)
  have hverify : verifyInclusionProof hs [0x61] 0 2 path
      (MerkleTree.fromRawLogs hs [[0x61], [0x62]]).root = true := by
    have hok := @verify_collectAuditPath _ hs _ ([[0x61], [0x62]].map hs.hashLeaf) 0 _
      (List.cons_ne_nil _ _) rfl
    simp only [List.map_cons, List.map_nil, MerkleTree.buildSubtree_pair] at hok
    exact hok
  refine ⟨hverify, inclusionProof_sound sha2 [[0x61], [0x62]] (by simp) [0x61] 0 2 path ?_ hverify⟩
  refine hcf.mono (List.append_subset.mpr ⟨fun _ h => h, ?_⟩)
  rw [hinputs]
  simp [inclusionInputs, auditInputs, siblingInput, path, hs, sha256Hasher]

end Ulpf.Integrity
