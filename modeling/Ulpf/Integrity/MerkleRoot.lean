import Ulpf.Integrity.Merkle

/-!
# Merkle roots

The node cached by `build_subtree` carries the head of the RFC 6962 hash tree. This file
connects the two, lists what is fed to SHA-256 while a tree is built, and proves that the
root commits to the whole list of raw logs.
-/

namespace Ulpf.Integrity
open Ulpf.Library

variable {Digest : Type*} (hs : Hasher Digest)

namespace MerkleTree

lemma buildSubtree_singleton (a : Digest) (offset : ℕ) (hne : [a] ≠ []) :
    buildSubtree hs [a] offset hne = .leaf a offset := by
  rw [buildSubtree, dif_pos List.length_singleton]
  rfl

lemma buildSubtree_split {leaves : List Digest} (h : 1 < leaves.length) (offset : ℕ)
    (hne : leaves ≠ []) :
    buildSubtree hs leaves offset hne =
      let left := buildSubtree hs (rfcSplit.left leaves) offset (rfcSplit.left_ne_nil h)
      let right := buildSubtree hs (rfcSplit.right leaves)
        (offset + largestPowerOfTwoLessThan leaves.length) (rfcSplit.right_ne_nil h)
      .internal (hs.hashChildren left.hash right.hash) leaves.length left right := by
  rw [buildSubtree, dif_neg (by omega)]
  rfl

lemma buildSubtree_pair (a b : Digest) (offset : ℕ) (hne : [a, b] ≠ []) :
    buildSubtree hs [a, b] offset hne =
      .internal (hs.hashChildren a b) 2 (.leaf a offset) (.leaf b (offset + 1)) := by
  have hcut : largestPowerOfTwoLessThan 2 = 1 := by decide +kernel
  rw [buildSubtree_split hs (by simp)]
  simp [SplitRule.left, SplitRule.right, rfcSplit, hcut, buildSubtree_singleton]

/-- The hash cached at the top of a built subtree is the head of its leaves. -/
theorem hash_buildSubtree (leaves : List Digest) (offset : ℕ) (hne : leaves ≠ []) :
    (buildSubtree hs leaves offset hne).hash = rfcSplit.head hs.hashChildren leaves hne := by
  induction leaves, hne using rfcSplit.list_induction generalizing offset with
  | single a =>
    rw [buildSubtree_singleton, SplitRule.head_singleton]
    rfl
  | split leaves hne h ihl ihr =>
    rw [buildSubtree_split hs h, SplitRule.head_split _ _ h]
    rw [TreeNode.hash_internal, ihl, ihr]

lemma root_eq_head {leaves : List Digest} (hne : leaves ≠ []) :
    (fromLeafHashes hs leaves).root = rfcSplit.head hs.hashChildren leaves hne := by
  rw [fromLeafHashes, dif_neg hne]
  exact hash_buildSubtree hs leaves 0 hne

lemma rootNode_eq {leaves : List Digest} (hne : leaves ≠ []) :
    (fromLeafHashes hs leaves).rootNode = some (buildSubtree hs leaves 0 hne) := by
  rw [fromLeafHashes, dif_neg hne]

@[simp] lemma leafHashes_fromLeafHashes (leaves : List Digest) :
    (fromLeafHashes hs leaves).leafHashes = leaves := by
  unfold fromLeafHashes
  split_ifs with h
  · exact h.symm
  · rfl

@[simp] lemma root_singleton (a : Digest) : (fromLeafHashes hs [a]).root = a := by
  rw [root_eq_head hs (List.cons_ne_nil a []), SplitRule.head_singleton]

lemma root_split {leaves : List Digest} (h : 1 < leaves.length) :
    (fromLeafHashes hs leaves).root =
      hs.hashChildren (fromLeafHashes hs (rfcSplit.left leaves)).root
        (fromLeafHashes hs (rfcSplit.right leaves)).root := by
  have hne : leaves ≠ [] := List.length_pos_iff.mp (by omega)
  rw [root_eq_head hs hne, root_eq_head hs (rfcSplit.left_ne_nil h),
    root_eq_head hs (rfcSplit.right_ne_nil h), SplitRule.head_split _ _ h]

end MerkleTree

/-! ### The inputs of the node hash -/

def TreeNode.childPairs : TreeNode Digest → List (Digest × Digest)
  | leaf _ _ => []
  | internal _ _ left right => (left.hash, right.hash) :: (left.childPairs ++ right.childPairs)

def MerkleTree.childPairs (t : MerkleTree Digest) : List (Digest × Digest) :=
  match t.rootNode with
  | none => []
  | some node => node.childPairs

lemma childPairs_buildSubtree (leaves : List Digest) (offset : ℕ) (hne : leaves ≠ []) :
    (MerkleTree.buildSubtree hs leaves offset hne).childPairs =
      (rfcSplit.tree leaves hne).pairs hs.hashChildren := by
  induction leaves, hne using rfcSplit.list_induction generalizing offset with
  | single a =>
    rw [MerkleTree.buildSubtree_singleton, SplitRule.tree_singleton]
    rfl
  | split leaves hne h ihl ihr =>
    rw [MerkleTree.buildSubtree_split hs h, SplitRule.tree_split _ h]
    simp only [TreeNode.childPairs, HashTree.pairs, ihl, ihr, MerkleTree.hash_buildSubtree]
    rfl

lemma childPairs_fromLeafHashes {leaves : List Digest} (hne : leaves ≠ []) :
    (MerkleTree.fromLeafHashes hs leaves).childPairs =
      (rfcSplit.tree leaves hne).pairs hs.hashChildren := by
  rw [MerkleTree.childPairs, MerkleTree.rootNode_eq hs hne]
  exact childPairs_buildSubtree hs leaves 0 hne

lemma childPairs_split {leaves : List Digest} (h : 1 < leaves.length) :
    (MerkleTree.fromLeafHashes hs leaves).childPairs =
      ((MerkleTree.fromLeafHashes hs (rfcSplit.left leaves)).root,
        (MerkleTree.fromLeafHashes hs (rfcSplit.right leaves)).root) ::
      ((MerkleTree.fromLeafHashes hs (rfcSplit.left leaves)).childPairs ++
        (MerkleTree.fromLeafHashes hs (rfcSplit.right leaves)).childPairs) := by
  have hne : leaves ≠ [] := List.length_pos_iff.mp (by omega)
  have hleft := rfcSplit.left_ne_nil h
  have hright := rfcSplit.right_ne_nil h
  rw [childPairs_fromLeafHashes hs hne, childPairs_fromLeafHashes hs hleft,
    childPairs_fromLeafHashes hs hright, SplitRule.tree_split _ h,
    MerkleTree.root_eq_head hs hleft, MerkleTree.root_eq_head hs hright]
  rfl

/-- `hash_children` has no collision among the listed pairs. -/
def ChildrenInjective (pairs : List (Digest × Digest)) : Prop :=
  Set.InjOn (fun p : Digest × Digest => hs.hashChildren p.1 p.2) {p | p ∈ pairs}

variable {hs} in
lemma ChildrenInjective.mono {pairs pairs' : List (Digest × Digest)}
    (h : ChildrenInjective hs pairs') (hsub : pairs ⊆ pairs') : ChildrenInjective hs pairs :=
  Set.InjOn.mono (fun _ hp => hsub hp) h

lemma childrenInjective_of_nodup {pairs : List (Digest × Digest)}
    (h : (pairs.map fun p => hs.hashChildren p.1 p.2).Nodup) : ChildrenInjective hs pairs :=
  fun _ ha _ hb hab => List.inj_on_of_nodup_map h ha hb hab

/-- Trees of one size agree at the root only on equal leaves. -/
theorem leaves_eq_of_root_eq {pairs : List (Digest × Digest)} (hinj : ChildrenInjective hs pairs)
    {A B : List Digest} (hA : A ≠ []) (hlen : A.length = B.length)
    (hpA : (MerkleTree.fromLeafHashes hs A).childPairs ⊆ pairs)
    (hpB : (MerkleTree.fromLeafHashes hs B).childPairs ⊆ pairs)
    (hroot : (MerkleTree.fromLeafHashes hs A).root = (MerkleTree.fromLeafHashes hs B).root) :
    A = B := by
  have hB : B ≠ [] := by
    rw [← List.length_pos_iff, ← hlen]
    exact List.length_pos_iff.mpr hA
  have within : ∀ {C : List Digest} (hC : C ≠ []),
      (MerkleTree.fromLeafHashes hs C).childPairs ⊆ pairs →
        (rfcSplit.tree C hC).Within hs.hashChildren Set.univ {p | p ∈ pairs} := by
    intro C hC hpC
    refine ⟨fun _ _ => trivial, fun p hp => hpC ?_⟩
    rwa [childPairs_fromLeafHashes hs hC]
  rw [MerkleTree.root_eq_head hs hA, MerkleTree.root_eq_head hs hB] at hroot
  exact rfcSplit.eq_of_head_eq_of_length_eq hinj hA hB (within hA hpA) (within hB hpB) hlen hroot

/-! ### The inputs of SHA-256 -/

variable (sha256 : Bytes → Hash)

/-- Every byte string hashed by `MerkleTree::from_raw_logs`. -/
def treeInputs (logs : List Bytes) : List Bytes :=
  let tree := MerkleTree.fromRawLogs (sha256Hasher sha256) logs
  if logs = [] then [[]]
  else logs.map leafInput ++ tree.childPairs.map fun p => nodeInput p.1 p.2

def leafDigests (inputs : List Bytes) : Set Hash :=
  {d | ∃ data, leafInput data ∈ inputs ∧ d = sha256 (leafInput data)}

def nodePairs (inputs : List Bytes) : Set (Hash × Hash) := {p | nodeInput p.1 p.2 ∈ inputs}

variable {sha256}

/-- The two domain prefixes keep leaves and nodes apart wherever SHA-256 has no collision. -/
theorem separated_of_collisionFree {inputs : List Bytes} (hcf : CollisionFree sha256 inputs) :
    HashTree.Separated (sha256Hasher sha256).hashChildren (leafDigests sha256 inputs)
      (nodePairs inputs) where
  inj p hp q hq h := by
    obtain ⟨h1, h2⟩ := nodeInput_inj (hcf hp hq h)
    exact Prod.ext h1 h2
  ne := by
    rintro _ ⟨data, hdata, rfl⟩ p hp h
    exact leafInput_ne_nodeInput data p.1 p.2 (hcf hdata hp h)

lemma treeInputs_singleton (data : Bytes) : treeInputs sha256 [data] = [leafInput data] := by
  simp [treeInputs, MerkleTree.childPairs, MerkleTree.fromRawLogs, MerkleTree.rootNode_eq,
    MerkleTree.buildSubtree_singleton, TreeNode.childPairs]

lemma leafInput_mem_treeInputs {logs : List Bytes} {data : Bytes} (h : data ∈ logs) :
    leafInput data ∈ treeInputs sha256 logs := by
  unfold treeInputs
  rw [if_neg (List.ne_nil_of_mem h)]
  exact List.mem_append_left _ (List.mem_map_of_mem h)

lemma nodeInput_mem_treeInputs {logs : List Bytes} {p : Hash × Hash}
    (h : p ∈ (MerkleTree.fromRawLogs (sha256Hasher sha256) logs).childPairs) :
    nodeInput p.1 p.2 ∈ treeInputs sha256 logs := by
  have hne : logs ≠ [] := by
    rintro rfl
    cases h
  unfold treeInputs
  rw [if_neg hne]
  exact List.mem_append_right _ (List.mem_map_of_mem h)

lemma within_of_treeInputs_subset {logs : List Bytes} {inputs : List Bytes} (hne : logs ≠ [])
    (hsub : treeInputs sha256 logs ⊆ inputs) :
    (rfcSplit.tree (logs.map (sha256Hasher sha256).hashLeaf) (by simpa using hne)).Within
      (sha256Hasher sha256).hashChildren (leafDigests sha256 inputs) (nodePairs inputs) where
  leaves_mem := by
    intro d hd
    rw [SplitRule.leaves_tree, List.mem_map] at hd
    obtain ⟨data, hdata, rfl⟩ := hd
    exact ⟨data, hsub (leafInput_mem_treeInputs hdata), rfl⟩
  pairs_mem := by
    intro p hp
    apply hsub
    apply nodeInput_mem_treeInputs
    rwa [MerkleTree.fromRawLogs, childPairs_fromLeafHashes]

lemma map_hashLeaf_inj {inputs : List Bytes} (hcf : CollisionFree sha256 inputs) {D E : List Bytes}
    (hD : treeInputs sha256 D ⊆ inputs) (hE : treeInputs sha256 E ⊆ inputs)
    (h : D.map (sha256Hasher sha256).hashLeaf = E.map (sha256Hasher sha256).hashLeaf) : D = E := by
  have hD' : ∀ data ∈ D, leafInput data ∈ inputs := fun _ h => hD (leafInput_mem_treeInputs h)
  have hE' : ∀ data ∈ E, leafInput data ∈ inputs := fun _ h => hE (leafInput_mem_treeInputs h)
  clear hD hE
  induction D generalizing E with
  | nil => exact (List.map_eq_nil_iff.mp h.symm).symm
  | cons a D ih =>
    cases E with
    | nil => simp at h
    | cons b E =>
      simp only [List.map_cons, List.cons.injEq] at h
      have hab := leafInput_injective
        (hcf (hD' a List.mem_cons_self) (hE' b List.mem_cons_self) h.1)
      rw [hab, ih h.2 (fun d hd => hD' d (List.mem_cons_of_mem _ hd))
        (fun d hd => hE' d (List.mem_cons_of_mem _ hd))]

/-- Non-empty lists of logs with one root are equal. -/
theorem rawLogs_eq_of_root_eq {D E : List Bytes} (hD : D ≠ []) (hE : E ≠ [])
    (hcf : CollisionFree sha256 (treeInputs sha256 D ++ treeInputs sha256 E))
    (hroot : (MerkleTree.fromRawLogs (sha256Hasher sha256) D).root =
      (MerkleTree.fromRawLogs (sha256Hasher sha256) E).root) : D = E := by
  have hsubD := List.subset_append_left (treeInputs sha256 D) (treeInputs sha256 E)
  have hsubE := List.subset_append_right (treeInputs sha256 D) (treeInputs sha256 E)
  rw [MerkleTree.fromRawLogs, MerkleTree.root_eq_head _ (by simpa using hD), MerkleTree.fromRawLogs,
    MerkleTree.root_eq_head _ (by simpa using hE)] at hroot
  apply map_hashLeaf_inj hcf hsubD hsubE
  exact rfcSplit.eq_of_head_eq (separated_of_collisionFree hcf) _ _
    (within_of_treeInputs_subset hD hsubD) (within_of_treeInputs_subset hE hsubE) hroot

lemma root_eq_digest (sha256 : Bytes → Hash) {E : List Bytes} (hE : E ≠ []) :
    ∃ b ∈ treeInputs sha256 E, b ≠ [] ∧
      (MerkleTree.fromRawLogs (sha256Hasher sha256) E).root = sha256 b := by
  let leaves := E.map (sha256Hasher sha256).hashLeaf
  by_cases hlen : 1 < leaves.length
  · let left := (MerkleTree.fromLeafHashes (sha256Hasher sha256) (rfcSplit.left leaves)).root
    let right := (MerkleTree.fromLeafHashes (sha256Hasher sha256) (rfcSplit.right leaves)).root
    refine ⟨nodeInput left right, ?_, List.cons_ne_nil _ _, ?_⟩
    · apply nodeInput_mem_treeInputs (p := (left, right))
      rw [MerkleTree.fromRawLogs, childPairs_split _ hlen]
      exact List.mem_cons_self
    · exact MerkleTree.root_split _ hlen
  · have hpos := List.length_pos_iff.mpr hE
    obtain ⟨e, rfl⟩ := List.length_eq_one_iff.mp (by simp [leaves] at hlen; omega : E.length = 1)
    refine ⟨leafInput e, leafInput_mem_treeInputs List.mem_cons_self, List.cons_ne_nil _ _, ?_⟩
    rw [MerkleTree.fromRawLogs, List.map_singleton, MerkleTree.root_singleton]
    rfl

lemma root_ne_of_nil {E : List Bytes} (hE : E ≠ [])
    (hcf : CollisionFree sha256 (treeInputs sha256 [] ++ treeInputs sha256 E)) :
    (MerkleTree.fromRawLogs (sha256Hasher sha256) []).root ≠
      (MerkleTree.fromRawLogs (sha256Hasher sha256) E).root := by
  intro h
  obtain ⟨b, hb, hbne, hroot⟩ := root_eq_digest sha256 hE
  have hnil : [] ∈ treeInputs sha256 [] := List.mem_cons_self
  rw [hroot] at h
  exact hbne (hcf (List.mem_append_left _ hnil) (List.mem_append_right _ hb) h).symm

/-- The Merkle root commits to the whole list of raw logs: content, order and length. -/
theorem merkle_root_commits (sha256 : Bytes → Hash) (D E : List Bytes)
    (hcf : CollisionFree sha256 (treeInputs sha256 D ++ treeInputs sha256 E))
    (hroot : (MerkleTree.fromRawLogs (sha256Hasher sha256) D).root =
      (MerkleTree.fromRawLogs (sha256Hasher sha256) E).root) : D = E := by
  by_cases hD : D = []
  · by_cases hE : E = []
    · rw [hD, hE]
    · subst hD
      exact (root_ne_of_nil hE hcf hroot).elim
  · by_cases hE : E = []
    · subst hE
      refine (root_ne_of_nil hD (hcf.mono ?_) hroot.symm).elim
      intro b hb
      rwa [List.mem_append, or_comm, ← List.mem_append]
    · exact rawLogs_eq_of_root_eq hD hE hcf hroot

theorem merkle_root_commits_pair : [asBytes "a", asBytes "b"] = [[0x61], [0x62]] := by
  have hbytes : [asBytes "a", asBytes "b"] = [[0x61], [0x62]] := by decide +kernel
  have hcf : CollisionFree sha2 (treeInputs sha2 [[0x61], [0x62]]) :=
    collisionFree_of_nodup (by decide +kernel)
  apply merkle_root_commits sha2
  · rw [hbytes]
    exact hcf.mono (by simp)
  · rw [hbytes]

end Ulpf.Integrity
