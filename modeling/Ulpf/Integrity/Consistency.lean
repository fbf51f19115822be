import Ulpf.Integrity.MerkleRoot

/-!
# Consistency proofs

The generator recurses on slices and the verifier on sizes, popping the proof from its
end. Both split at the same powers of two, since a snapshot that reaches past the split
of the larger tree is split there too. This gives completeness for any node hash, and
soundness for an injective one.
-/

namespace Ulpf.Integrity
open Ulpf.Library

variable {Digest : Type*} (hs : Hasher Digest)

/-! ### Prefixes of a split list -/

section Prefix

variable {α : Type*}

lemma take_left {m : ℕ} {l : List α} (hm : m ≤ largestPowerOfTwoLessThan l.length) :
    (rfcSplit.left l).take m = l.take m := by
  rw [SplitRule.left, List.take_take]
  congr 1
  exact min_eq_left hm

lemma left_append_take_right {m : ℕ} {l : List α} (hm : largestPowerOfTwoLessThan l.length < m) :
    rfcSplit.left l ++ (rfcSplit.right l).take (m - largestPowerOfTwoLessThan l.length) =
      l.take m := by
  have hadd : largestPowerOfTwoLessThan l.length +
      (m - largestPowerOfTwoLessThan l.length) = m := by omega
  conv_rhs => rw [← hadd, List.take_add]
  rfl

lemma cut_eq_of_lt {m : ℕ} {l p : List α} (hp : p.length = m) (hmn : m ≤ l.length)
    (hm : largestPowerOfTwoLessThan l.length < m) :
    rfcSplit.cut p.length = largestPowerOfTwoLessThan l.length := by
  rw [hp]
  exact rfcSplit_stable m l.length hm hmn

lemma left_take {m : ℕ} {l : List α} (hmn : m ≤ l.length)
    (hm : largestPowerOfTwoLessThan l.length < m) : rfcSplit.left (l.take m) = rfcSplit.left l := by
  have hcut := cut_eq_of_lt (List.length_take_of_le hmn) hmn hm
  rw [SplitRule.left, hcut, List.take_take, min_eq_left hm.le]
  rfl

lemma right_take {m : ℕ} {l : List α} (hmn : m ≤ l.length)
    (hm : largestPowerOfTwoLessThan l.length < m) :
    rfcSplit.right (l.take m) =
      (rfcSplit.right l).take (m - largestPowerOfTwoLessThan l.length) := by
  have hcut := cut_eq_of_lt (List.length_take_of_le hmn) hmn hm
  rw [SplitRule.right, hcut, List.drop_take]
  rfl

end Prefix

/-! ### The generator and the verifier, one split at a time -/

lemma subproof_self {leaves : List Digest} (b : Bool) (hm : 0 < leaves.length) :
    subproof hs leaves.length leaves b hm le_rfl =
      if b then [] else [(MerkleTree.fromLeafHashes hs leaves).root] := by
  rw [subproof, dif_pos rfl]

lemma subproof_left {m : ℕ} {leaves : List Digest} (b : Bool) (hm : 0 < m)
    (hlt : m < leaves.length) (hle : m ≤ (rfcSplit.left leaves).length) :
    subproof hs m leaves b hm hlt.le =
      subproof hs m (rfcSplit.left leaves) b hm hle ++
        [(MerkleTree.fromLeafHashes hs (rfcSplit.right leaves)).root] := by
  have hk : m ≤ largestPowerOfTwoLessThan leaves.length :=
    hle.trans_eq (rfcSplit.length_left (by omega))
  rw [subproof, dif_neg hlt.ne]
  dsimp only
  rw [dif_pos hk]
  rfl

lemma subproof_right {m : ℕ} {leaves : List Digest} (b : Bool) (hlt : m < leaves.length)
    (hk : largestPowerOfTwoLessThan leaves.length < m)
    (hle : m - largestPowerOfTwoLessThan leaves.length ≤ (rfcSplit.right leaves).length) :
    subproof hs m leaves b (by omega) hlt.le =
      subproof hs (m - largestPowerOfTwoLessThan leaves.length) (rfcSplit.right leaves) false
        (by omega) hle ++ [(MerkleTree.fromLeafHashes hs (rfcSplit.left leaves)).root] := by
  rw [subproof, dif_neg hlt.ne]
  dsimp only
  rw [dif_neg (by omega)]
  rfl

lemma verifySubproofFull_self (n : ℕ) (hn : 0 < n) (h : Digest) (proof : List Digest) :
    verifySubproofFull hs n n hn le_rfl (h :: proof) = some ((h, h), proof) := by
  rw [verifySubproofFull, dif_pos rfl]

lemma verifySubproofFull_left {m n : ℕ} (hm : 0 < m) (hlt : m < n)
    (hle : m ≤ largestPowerOfTwoLessThan n) (sibling : Digest) (proof : List Digest) :
    verifySubproofFull hs m n hm hlt.le (sibling :: proof) =
      (verifySubproofFull hs m (largestPowerOfTwoLessThan n) hm hle proof).map fun r =>
        ((r.1.1, hs.hashChildren r.1.2 sibling), r.2) := by
  rw [verifySubproofFull, dif_neg hlt.ne]
  dsimp only
  rw [dif_pos hle]
  cases verifySubproofFull hs m (largestPowerOfTwoLessThan n) hm hle proof <;> rfl

lemma verifySubproofFull_right {m n : ℕ} (hlt : m < n) (hk : largestPowerOfTwoLessThan n < m)
    (sibling : Digest) (proof : List Digest) :
    verifySubproofFull hs m n (by omega) hlt.le (sibling :: proof) =
      (verifySubproofFull hs (m - largestPowerOfTwoLessThan n) (n - largestPowerOfTwoLessThan n)
        (by omega) (by omega) proof).map fun r =>
          ((hs.hashChildren sibling r.1.1, hs.hashChildren sibling r.1.2), r.2) := by
  rw [verifySubproofFull, dif_neg hlt.ne]
  dsimp only
  rw [dif_neg (by omega)]
  cases verifySubproofFull hs (m - largestPowerOfTwoLessThan n) (n - largestPowerOfTwoLessThan n)
    (by omega) (by omega) proof <;> rfl

lemma verifySubproofFull_nil (m n : ℕ) (hm : 0 < m) (hmn : m ≤ n) :
    verifySubproofFull hs m n hm hmn [] = none := by
  rw [verifySubproofFull]
  split_ifs <;> rfl

section Internal

variable [DecidableEq Digest]

lemma verifyConsistencyInternal_self (n : ℕ) (hn : 0 < n) (proof : List Digest)
    (prevRoot : Digest) :
    verifyConsistencyInternal hs n n hn le_rfl proof prevRoot = some (prevRoot, proof) := by
  rw [verifyConsistencyInternal, dif_pos rfl]

lemma verifyConsistencyInternal_nil {m n : ℕ} (hm : 0 < m) (hlt : m < n) (prevRoot : Digest) :
    verifyConsistencyInternal hs m n hm hlt.le [] prevRoot = none := by
  rw [verifyConsistencyInternal, dif_neg hlt.ne]

lemma verifyConsistencyInternal_left {m n : ℕ} (hm : 0 < m) (hlt : m < n)
    (hle : m ≤ largestPowerOfTwoLessThan n) (sibling : Digest) (proof : List Digest)
    (prevRoot : Digest) :
    verifyConsistencyInternal hs m n hm hlt.le (sibling :: proof) prevRoot =
      (verifyConsistencyInternal hs m (largestPowerOfTwoLessThan n) hm hle proof prevRoot).map
        fun r => (hs.hashChildren r.1 sibling, r.2) := by
  rw [verifyConsistencyInternal, dif_neg hlt.ne]
  dsimp only
  rw [dif_pos hle]
  cases verifyConsistencyInternal hs m (largestPowerOfTwoLessThan n) hm hle proof prevRoot <;> rfl

lemma verifyConsistencyInternal_right {m n : ℕ} (hlt : m < n)
    (hk : largestPowerOfTwoLessThan n < m) (sibling : Digest) (proof : List Digest)
    (prevRoot : Digest) :
    verifyConsistencyInternal hs m n (by omega) hlt.le (sibling :: proof) prevRoot =
      (verifySubproofFull hs (m - largestPowerOfTwoLessThan n) (n - largestPowerOfTwoLessThan n)
        (by omega) (by omega) proof).bind fun r =>
          if hs.hashChildren sibling r.1.1 = prevRoot then
            some (hs.hashChildren sibling r.1.2, r.2)
          else none := by
  rw [verifyConsistencyInternal, dif_neg hlt.ne]
  dsimp only
  rw [dif_neg (by omega)]
  cases verifySubproofFull hs (m - largestPowerOfTwoLessThan n) (n - largestPowerOfTwoLessThan n)
    (by omega) (by omega) proof with
  | none => rfl
  | some r =>
    by_cases h : hs.hashChildren sibling r.1.1 = prevRoot
    · simp [h]
    · simp [h]

end Internal

/-! ### Completeness -/

/-- The verifier reads a generated subproof back from the stack, digest by digest. -/
theorem verifySubproofFull_subproof (leaves : List Digest) (hne : leaves ≠ []) (m : ℕ) (hm : 0 < m)
    (hmn : m ≤ leaves.length) (n : ℕ) (hn : leaves.length = n) (rest : List Digest) :
    verifySubproofFull hs m n hm (hn ▸ hmn)
        ((subproof hs m leaves false hm hmn).reverse ++ rest) =
      some (((MerkleTree.fromLeafHashes hs (leaves.take m)).root,
        (MerkleTree.fromLeafHashes hs leaves).root), rest) := by
  subst hn
  induction leaves, hne using rfcSplit.list_induction generalizing m rest with
  | single a =>
    have hm1 : m = [a].length := by
      rw [List.length_singleton] at hmn ⊢
      omega
    subst hm1
    rw [subproof_self]
    exact verifySubproofFull_self hs _ _ _ _
  | split leaves hne h ihl ihr =>
    have hleft : (rfcSplit.left leaves).length = largestPowerOfTwoLessThan leaves.length :=
      rfcSplit.length_left h
    have hright : (rfcSplit.right leaves).length =
        leaves.length - largestPowerOfTwoLessThan leaves.length := rfcSplit.length_right leaves
    rcases hmn.eq_or_lt with rfl | hlt
    · rw [subproof_self, List.take_length]
      exact verifySubproofFull_self hs _ _ _ _
    · by_cases hk : m ≤ largestPowerOfTwoLessThan leaves.length
      · have ih := ihl m hm (hleft ▸ hk) rest
        simp only [hleft] at ih
        rw [subproof_left hs false hm hlt (hleft ▸ hk), List.reverse_append,
          List.reverse_singleton, List.singleton_append, List.cons_append,
          verifySubproofFull_left hs hm hlt hk, ih, take_left hk, MerkleTree.root_split hs h]
        rfl
      · have hk' := not_le.mp hk
        have ih := ihr (m - largestPowerOfTwoLessThan leaves.length) (by omega) (by omega) rest
        simp only [hright] at ih
        have hpre : 1 < (leaves.take m).length := by
          rw [List.length_take_of_le hmn]
          have := largestPowerOfTwoLessThan_pos leaves.length
          omega
        rw [subproof_right hs false hlt hk' (by omega), List.reverse_append,
          List.reverse_singleton, List.singleton_append, List.cons_append,
          verifySubproofFull_right hs hlt hk', ih, MerkleTree.root_split hs h,
          MerkleTree.root_split hs hpre, left_take hmn hk', right_take hmn hk']
        rfl

section Verify

variable [DecidableEq Digest]

theorem verifyConsistencyInternal_subproof (leaves : List Digest) (hne : leaves ≠ []) (m : ℕ)
    (hm : 0 < m) (hmn : m ≤ leaves.length) (n : ℕ) (hn : leaves.length = n) (rest : List Digest) :
    verifyConsistencyInternal hs m n hm (hn ▸ hmn)
        ((subproof hs m leaves true hm hmn).reverse ++ rest)
        (MerkleTree.fromLeafHashes hs (leaves.take m)).root =
      some ((MerkleTree.fromLeafHashes hs leaves).root, rest) := by
  subst hn
  induction leaves, hne using rfcSplit.list_induction generalizing m rest with
  | single a =>
    have hm1 : m = [a].length := by
      rw [List.length_singleton] at hmn ⊢
      omega
    subst hm1
    rw [subproof_self]
    exact verifyConsistencyInternal_self hs _ _ _ _
  | split leaves hne h ihl ihr =>
    have hleft : (rfcSplit.left leaves).length = largestPowerOfTwoLessThan leaves.length :=
      rfcSplit.length_left h
    have hright : (rfcSplit.right leaves).length =
        leaves.length - largestPowerOfTwoLessThan leaves.length := rfcSplit.length_right leaves
    rcases hmn.eq_or_lt with rfl | hlt
    · rw [subproof_self, List.take_length]
      exact verifyConsistencyInternal_self hs _ _ _ _
    · by_cases hk : m ≤ largestPowerOfTwoLessThan leaves.length
      · have ih := ihl m hm (hleft ▸ hk) rest
        simp only [hleft, take_left hk] at ih
        rw [subproof_left hs true hm hlt (hleft ▸ hk), List.reverse_append,
          List.reverse_singleton, List.singleton_append, List.cons_append,
          verifyConsistencyInternal_left hs hm hlt hk, ih, MerkleTree.root_split hs h]
        rfl
      · have hk' := not_le.mp hk
        have hfull := verifySubproofFull_subproof hs (rfcSplit.right leaves)
          (rfcSplit.right_ne_nil h) (m - largestPowerOfTwoLessThan leaves.length) (by omega)
          (by omega) _ hright rest
        have hpre : 1 < (leaves.take m).length := by
          rw [List.length_take_of_le hmn]
          have := largestPowerOfTwoLessThan_pos leaves.length
          omega
        rw [subproof_right hs true hlt hk' (by omega), List.reverse_append,
          List.reverse_singleton, List.singleton_append, List.cons_append,
          verifyConsistencyInternal_right hs hlt hk', hfull, MerkleTree.root_split hs h,
          MerkleTree.root_split hs hpre, left_take hmn hk', right_take hmn hk', Option.bind_some,
          if_pos rfl]

omit [DecidableEq Digest] in
lemma consistencyProof_of_lt {t : MerkleTree Digest} {leaves : List Digest} {m : ℕ}
    (ht : t.leafHashes = leaves) (hm : 0 < m) (hlt : m < leaves.length) :
    t.consistencyProof hs m = .ok (subproof hs m leaves true hm hlt.le) := by
  subst ht
  unfold MerkleTree.consistencyProof
  rw [dif_neg (by omega), if_neg hlt.ne]

/-- Consistency proofs exist exactly for the sizes from one to that of the tree, and each one
is accepted for the two roots, under any digest function. -/
theorem consistencyProof_complete (leaves : List Digest) (m : ℕ) :
    let tree := MerkleTree.fromLeafHashes hs leaves
    ((∃ proof, tree.consistencyProof hs m = .ok proof) ↔ 1 ≤ m ∧ m ≤ leaves.length) ∧
      ∀ proof, tree.consistencyProof hs m = .ok proof →
        verifyConsistencyProof hs m leaves.length
          (MerkleTree.fromLeafHashes hs (leaves.take m)).root tree.root proof = true := by
  intro tree
  have htree : tree.leafHashes = leaves := MerkleTree.leafHashes_fromLeafHashes hs leaves
  by_cases hm : 1 ≤ m ∧ m ≤ leaves.length
  · rcases hm.2.eq_or_lt with rfl | hlt
    · have hok : tree.consistencyProof hs leaves.length = .ok [] := by
        unfold MerkleTree.consistencyProof
        rw [dif_neg (by rw [htree]; omega), if_pos (by rw [htree])]
      refine ⟨⟨fun _ => hm, fun _ => ⟨_, hok⟩⟩, ?_⟩
      intro proof hproof
      cases hok.symm.trans hproof
      unfold verifyConsistencyProof
      rw [dif_neg (by omega), if_pos rfl, List.take_length]
      exact Bool.and_eq_true_iff.mpr ⟨rfl, decide_eq_true rfl⟩
    · have hok := consistencyProof_of_lt hs htree hm.1 hlt
      refine ⟨⟨fun _ => hm, fun _ => ⟨_, hok⟩⟩, ?_⟩
      intro proof hproof
      cases hok.symm.trans hproof
      have hne : leaves ≠ [] := List.length_pos_iff.mp (by omega)
      have hread := verifyConsistencyInternal_subproof hs leaves hne m hm.1 hm.2 _ rfl []
      rw [List.append_nil] at hread
      unfold verifyConsistencyProof
      rw [dif_neg (by omega), if_neg hlt.ne, hread]
      exact Bool.and_eq_true_iff.mpr ⟨rfl, decide_eq_true rfl⟩
  · have herr : tree.consistencyProof hs m = .error (.invalidConsistencySize m leaves.length) := by
      unfold MerkleTree.consistencyProof
      rw [dif_pos (by rw [htree]; omega), htree]
    refine ⟨⟨?_, fun h => absurd h hm⟩, ?_⟩
    · rintro ⟨proof, hproof⟩
      cases herr.symm.trans hproof
    · intro proof hproof
      cases herr.symm.trans hproof

end Verify

/-! ### Soundness -/

lemma mem_subproofPairs_left {m n : ℕ} (hm : 0 < m) (hlt : m < n)
    (hle : m ≤ largestPowerOfTwoLessThan n) (sibling : Digest) {proof : List Digest}
    {r : (Digest × Digest) × List Digest}
    (hr : verifySubproofFull hs m (largestPowerOfTwoLessThan n) hm hle proof = some r)
    (p : Digest × Digest) :
    p ∈ subproofPairs hs m n hm hlt.le (sibling :: proof) ↔
      p = (r.1.2, sibling) ∨ p ∈ subproofPairs hs m (largestPowerOfTwoLessThan n) hm hle proof := by
  rw [subproofPairs, dif_neg hlt.ne]
  dsimp only
  rw [dif_pos hle, hr]
  simp

lemma mem_subproofPairs_right {m n : ℕ} (hm : 0 < m) (hlt : m < n)
    (hk : largestPowerOfTwoLessThan n < m) (sibling : Digest) {proof : List Digest}
    {r : (Digest × Digest) × List Digest}
    (hr : verifySubproofFull hs (m - largestPowerOfTwoLessThan n) (n - largestPowerOfTwoLessThan n)
      (by omega) (by omega) proof = some r) (p : Digest × Digest) :
    p ∈ subproofPairs hs m n hm hlt.le (sibling :: proof) ↔
      p = (sibling, r.1.1) ∨ p = (sibling, r.1.2) ∨
        p ∈ subproofPairs hs (m - largestPowerOfTwoLessThan n) (n - largestPowerOfTwoLessThan n)
          (by omega) (by omega) proof := by
  rw [subproofPairs, dif_neg hlt.ne]
  dsimp only
  rw [dif_neg (by omega), hr]
  simp

section Pairs

variable [DecidableEq Digest]

lemma mem_consistencyPairs_left {m n : ℕ} (hm : 0 < m) (hlt : m < n)
    (hle : m ≤ largestPowerOfTwoLessThan n) (sibling : Digest) {proof : List Digest}
    {prevRoot : Digest} {r : Digest × List Digest}
    (hr : verifyConsistencyInternal hs m (largestPowerOfTwoLessThan n) hm hle proof prevRoot =
      some r) (p : Digest × Digest) :
    p ∈ consistencyPairs hs m n hm hlt.le (sibling :: proof) prevRoot ↔
      p = (r.1, sibling) ∨
        p ∈ consistencyPairs hs m (largestPowerOfTwoLessThan n) hm hle proof prevRoot := by
  rw [consistencyPairs, dif_neg hlt.ne]
  dsimp only
  rw [dif_pos hle, hr]
  simp

lemma mem_consistencyPairs_right {m n : ℕ} (hm : 0 < m) (hlt : m < n)
    (hk : largestPowerOfTwoLessThan n < m) (sibling : Digest) {proof : List Digest}
    (prevRoot : Digest) {r : (Digest × Digest) × List Digest}
    (hr : verifySubproofFull hs (m - largestPowerOfTwoLessThan n) (n - largestPowerOfTwoLessThan n)
      (by omega) (by omega) proof = some r) (p : Digest × Digest) :
    p ∈ consistencyPairs hs m n hm hlt.le (sibling :: proof) prevRoot ↔
      p = (sibling, r.1.1) ∨ p = (sibling, r.1.2) ∨
        p ∈ subproofPairs hs (m - largestPowerOfTwoLessThan n) (n - largestPowerOfTwoLessThan n)
          (by omega) (by omega) proof := by
  rw [consistencyPairs, dif_neg hlt.ne]
  dsimp only
  rw [dif_neg (by omega), hr]
  simp

end Pairs

section Soundness

variable {hs} {pairs : List (Digest × Digest)} (hinj : ChildrenInjective hs pairs)

lemma childPairs_left_subset {B : List Digest} (h : 1 < B.length)
    (hB : (MerkleTree.fromLeafHashes hs B).childPairs ⊆ pairs) :
    (MerkleTree.fromLeafHashes hs (rfcSplit.left B)).childPairs ⊆ pairs := by
  intro p hp
  apply hB
  rw [childPairs_split hs h]
  exact List.mem_cons_of_mem _ (List.mem_append_left _ hp)

lemma childPairs_right_subset {B : List Digest} (h : 1 < B.length)
    (hB : (MerkleTree.fromLeafHashes hs B).childPairs ⊆ pairs) :
    (MerkleTree.fromLeafHashes hs (rfcSplit.right B)).childPairs ⊆ pairs := by
  intro p hp
  apply hB
  rw [childPairs_split hs h]
  exact List.mem_cons_of_mem _ (List.mem_append_right _ hp)

include hinj in
/-- A pair that hashes to the root of a split tree is the pair of its two roots. -/
lemma children_of_hash_eq_root {B : List Digest} (h : 1 < B.length) {x y : Digest}
    (hB : (MerkleTree.fromLeafHashes hs B).childPairs ⊆ pairs) (hp : (x, y) ∈ pairs)
    (hxy : hs.hashChildren x y = (MerkleTree.fromLeafHashes hs B).root) :
    x = (MerkleTree.fromLeafHashes hs (rfcSplit.left B)).root ∧
      y = (MerkleTree.fromLeafHashes hs (rfcSplit.right B)).root := by
  rw [MerkleTree.root_split hs h] at hxy
  apply Prod.mk.inj
  apply hinj hp _ hxy
  apply hB
  rw [childPairs_split hs h]
  exact List.mem_cons_self

lemma length_right_of_lt {A B : List Digest} {m : ℕ} (hA : A.length = m) (hmn : m ≤ B.length)
    (hk : largestPowerOfTwoLessThan B.length < m) :
    (rfcSplit.right A).length = m - largestPowerOfTwoLessThan B.length := by
  rw [SplitRule.length_right, cut_eq_of_lt hA hmn hk, hA]

include hinj in
lemma eq_take_of_sibling {A B : List Digest} {m : ℕ} (hA : A.length = m) (hmn : m ≤ B.length)
    (hk : largestPowerOfTwoLessThan B.length < m) {sibling subM subN : Digest}
    (hpA : (MerkleTree.fromLeafHashes hs A).childPairs ⊆ pairs)
    (hpB : (MerkleTree.fromLeafHashes hs B).childPairs ⊆ pairs)
    (hpM : (sibling, subM) ∈ pairs) (hpN : (sibling, subN) ∈ pairs)
    (hrootA : hs.hashChildren sibling subM = (MerkleTree.fromLeafHashes hs A).root)
    (hrootB : hs.hashChildren sibling subN = (MerkleTree.fromLeafHashes hs B).root)
    (hright : subM = (MerkleTree.fromLeafHashes hs (rfcSplit.right A)).root →
      subN = (MerkleTree.fromLeafHashes hs (rfcSplit.right B)).root →
      (MerkleTree.fromLeafHashes hs (rfcSplit.right A)).childPairs ⊆ pairs →
        rfcSplit.right A = (rfcSplit.right B).take (m - largestPowerOfTwoLessThan B.length)) :
    A = B.take m := by
  have hpos := largestPowerOfTwoLessThan_pos B.length
  have hAlen : 1 < A.length := by omega
  have hBlen : 1 < B.length := by omega
  obtain ⟨hleftA, hsubM⟩ := children_of_hash_eq_root hinj hAlen hpA hpM hrootA
  obtain ⟨hleftB, hsubN⟩ := children_of_hash_eq_root hinj hBlen hpB hpN hrootB
  have hlen : (rfcSplit.left A).length = (rfcSplit.left B).length := by
    rw [rfcSplit.length_left hAlen, rfcSplit.length_left hBlen, cut_eq_of_lt hA hmn hk]
    rfl
  have hleft : rfcSplit.left A = rfcSplit.left B :=
    leaves_eq_of_root_eq hs hinj (rfcSplit.left_ne_nil hAlen) hlen
      (childPairs_left_subset hAlen hpA) (childPairs_left_subset hBlen hpB)
      (hleftA.symm.trans hleftB)
  have hrest := hright hsubM hsubN (childPairs_right_subset hAlen hpA)
  rw [← left_append_take_right hk, ← hrest, ← hleft, SplitRule.left_append_right]

include hinj in
lemma eq_of_verifySubproofFull_self {A B : List Digest} (n : ℕ) (hA : A.length = n)
    (hB : B.length = n) (hn : 0 < n) (hpA : (MerkleTree.fromLeafHashes hs A).childPairs ⊆ pairs)
    (hpB : (MerkleTree.fromLeafHashes hs B).childPairs ⊆ pairs) (proof rest : List Digest)
    (h : verifySubproofFull hs n n hn le_rfl proof =
      some (((MerkleTree.fromLeafHashes hs A).root, (MerkleTree.fromLeafHashes hs B).root), rest)) :
    A = B := by
  have hAne : A ≠ [] := List.length_pos_iff.mp (hA.symm ▸ hn)
  cases proof with
  | nil =>
    rw [verifySubproofFull_nil] at h
    cases h
  | cons d proof =>
    rw [verifySubproofFull_self] at h
    simp only [Option.some.injEq, Prod.mk.injEq] at h
    exact leaves_eq_of_root_eq hs hinj hAne (hA.trans hB.symm) hpA hpB (h.1.1.symm.trans h.1.2)

include hinj in
/-- Whatever the stack held, the two roots it is read as are those of a list and its prefix. -/
theorem take_eq_of_verifySubproofFull (B : List Digest) (hB : B ≠ []) (A : List Digest) (m n : ℕ)
    (hA : A.length = m) (hn : B.length = n) (hm : 0 < m) (hmn : m ≤ n) (proof rest : List Digest)
    (hpA : (MerkleTree.fromLeafHashes hs A).childPairs ⊆ pairs)
    (hpB : (MerkleTree.fromLeafHashes hs B).childPairs ⊆ pairs)
    (hpairs : subproofPairs hs m n hm hmn proof ⊆ pairs)
    (h : verifySubproofFull hs m n hm hmn proof =
      some (((MerkleTree.fromLeafHashes hs A).root, (MerkleTree.fromLeafHashes hs B).root), rest)) :
    A = B.take m := by
  induction B, hB using rfcSplit.list_induction generalizing A m n proof rest with
  | single b =>
    obtain rfl : m = n := by
      rw [List.length_singleton] at hn
      omega
    rw [← hn, List.take_length]
    exact eq_of_verifySubproofFull_self hinj m hA hn hm hpA hpB proof rest h
  | split B hB hlen ihl ihr =>
    subst hn
    rcases hmn.eq_or_lt with rfl | hlt
    · rw [List.take_length]
      exact eq_of_verifySubproofFull_self hinj _ hA rfl hm hpA hpB proof rest h
    · cases proof with
      | nil =>
        rw [verifySubproofFull_nil] at h
        cases h
      | cons sibling proof =>
        by_cases hk : m ≤ largestPowerOfTwoLessThan B.length
        · rw [verifySubproofFull_left hs hm hlt hk, Option.map_eq_some_iff] at h
          obtain ⟨⟨⟨subM, subK⟩, left⟩, hsub, heq⟩ := h
          simp only [Prod.mk.injEq] at heq
          obtain ⟨⟨rfl, hroot⟩, rfl⟩ := heq
          have hmem := mem_subproofPairs_left hs hm hlt hk sibling hsub
          have hp := hpairs ((hmem _).mpr (Or.inl rfl))
          have hlow : subproofPairs hs m (largestPowerOfTwoLessThan B.length) hm hk proof ⊆ pairs :=
            fun p hp => hpairs ((hmem p).mpr (Or.inr hp))
          obtain ⟨rfl, -⟩ := children_of_hash_eq_root hinj hlen hpB hp hroot
          rw [ihl A m _ hA (rfcSplit.length_left hlen) hm hk proof left hpA
            (childPairs_left_subset hlen hpB) hlow hsub, take_left hk]
        · have hk' := not_le.mp hk
          rw [verifySubproofFull_right hs hlt hk', Option.map_eq_some_iff] at h
          obtain ⟨⟨⟨subM, subN⟩, left⟩, hsub, heq⟩ := h
          simp only [Prod.mk.injEq] at heq
          obtain ⟨⟨hrootA, hrootB⟩, rfl⟩ := heq
          have hmem := mem_subproofPairs_right hs hm hlt hk' sibling hsub
          have hpM := hpairs ((hmem _).mpr (Or.inl rfl))
          have hpN := hpairs ((hmem _).mpr (Or.inr (Or.inl rfl)))
          apply eq_take_of_sibling hinj hA hmn hk' hpA hpB hpM hpN hrootA hrootB
          rintro rfl rfl hpR
          exact ihr _ _ _ (length_right_of_lt hA hmn hk') (rfcSplit.length_right B) _ _ proof left
            hpR (childPairs_right_subset hlen hpB)
            (fun p hp => hpairs ((hmem p).mpr (Or.inr (Or.inr hp)))) hsub

variable [DecidableEq Digest]

include hinj in
theorem take_eq_of_verifyConsistencyInternal (B : List Digest) (hB : B ≠ []) (A : List Digest)
    (m n : ℕ) (hA : A.length = m) (hn : B.length = n) (hm : 0 < m) (hmn : m ≤ n)
    (proof rest : List Digest)
    (hpA : (MerkleTree.fromLeafHashes hs A).childPairs ⊆ pairs)
    (hpB : (MerkleTree.fromLeafHashes hs B).childPairs ⊆ pairs)
    (hpairs : consistencyPairs hs m n hm hmn proof (MerkleTree.fromLeafHashes hs A).root ⊆ pairs)
    (h : verifyConsistencyInternal hs m n hm hmn proof (MerkleTree.fromLeafHashes hs A).root =
      some ((MerkleTree.fromLeafHashes hs B).root, rest)) :
    A = B.take m := by
  have hAne : A ≠ [] := List.length_pos_iff.mp (hA.symm ▸ hm)
  induction B, hB using rfcSplit.list_induction generalizing m n proof rest with
  | single b =>
    obtain rfl : m = n := by
      rw [List.length_singleton] at hn
      omega
    rw [verifyConsistencyInternal_self] at h
    simp only [Option.some.injEq, Prod.mk.injEq] at h
    rw [← hn, List.take_length]
    exact leaves_eq_of_root_eq hs hinj hAne (hA.trans hn.symm) hpA hpB h.1
  | split B hB hlen ihl ihr =>
    subst hn
    rcases hmn.eq_or_lt with rfl | hlt
    · rw [verifyConsistencyInternal_self] at h
      simp only [Option.some.injEq, Prod.mk.injEq] at h
      rw [List.take_length]
      exact leaves_eq_of_root_eq hs hinj hAne hA hpA hpB h.1
    · cases proof with
      | nil =>
        rw [verifyConsistencyInternal_nil hs hm hlt] at h
        cases h
      | cons sibling proof =>
        by_cases hk : m ≤ largestPowerOfTwoLessThan B.length
        · rw [verifyConsistencyInternal_left hs hm hlt hk, Option.map_eq_some_iff] at h
          obtain ⟨⟨leftRoot, left⟩, hsub, heq⟩ := h
          simp only [Prod.mk.injEq] at heq
          obtain ⟨hroot, rfl⟩ := heq
          have hmem := mem_consistencyPairs_left hs hm hlt hk sibling hsub
          have hp := hpairs ((hmem _).mpr (Or.inl rfl))
          obtain ⟨rfl, -⟩ := children_of_hash_eq_root hinj hlen hpB hp hroot
          rw [ihl m _ hA (rfcSplit.length_left hlen) hm hk proof left
            (childPairs_left_subset hlen hpB) (fun p hp => hpairs ((hmem p).mpr (Or.inr hp))) hsub,
            take_left hk]
        · have hk' := not_le.mp hk
          rw [verifyConsistencyInternal_right hs hlt hk', Option.bind_eq_some_iff] at h
          obtain ⟨⟨⟨subM, subN⟩, left⟩, hsub, heq⟩ := h
          dsimp only at heq
          split_ifs at heq with hrootA
          simp only [Option.some.injEq, Prod.mk.injEq] at heq
          obtain ⟨hrootB, rfl⟩ := heq
          have hmem := mem_consistencyPairs_right hs hm hlt hk' sibling
            (MerkleTree.fromLeafHashes hs A).root hsub
          have hpM := hpairs ((hmem _).mpr (Or.inl rfl))
          have hpN := hpairs ((hmem _).mpr (Or.inr (Or.inl rfl)))
          apply eq_take_of_sibling hinj hA hmn hk' hpA hpB hpM hpN hrootA hrootB
          rintro rfl rfl hpR
          exact take_eq_of_verifySubproofFull hinj _ (rfcSplit.right_ne_nil hlen) _ _ _
            (length_right_of_lt hA hmn hk') (rfcSplit.length_right B) _ _ proof left hpR
            (childPairs_right_subset hlen hpB)
            (fun p hp => hpairs ((hmem p).mpr (Or.inr (Or.inr hp)))) hsub

/-- An accepted consistency proof shows that the older tree is a prefix of the newer one, unless
`hash_children` collides among the pairs of the two trees and of the verifier. -/
theorem consistencyProof_sound (hs : Hasher Digest) (A B : List Digest) (hA : A ≠ []) (hB : B ≠ [])
    (proof : List Digest)
    (hinj : ChildrenInjective hs ((MerkleTree.fromLeafHashes hs A).childPairs ++
      (MerkleTree.fromLeafHashes hs B).childPairs ++
      consistencyProofPairs hs A.length B.length (MerkleTree.fromLeafHashes hs A).root proof))
    (hverify : verifyConsistencyProof hs A.length B.length (MerkleTree.fromLeafHashes hs A).root
      (MerkleTree.fromLeafHashes hs B).root proof = true) :
    A.length ≤ B.length ∧ A = B.take A.length := by
  have hpos := List.length_pos_iff.mpr hA
  have hpA := fun p hp => List.mem_append_left
    (consistencyProofPairs hs A.length B.length (MerkleTree.fromLeafHashes hs A).root proof)
    (List.mem_append_left (MerkleTree.fromLeafHashes hs B).childPairs
      (hp : p ∈ (MerkleTree.fromLeafHashes hs A).childPairs))
  have hpB := fun p hp => List.mem_append_left
    (consistencyProofPairs hs A.length B.length (MerkleTree.fromLeafHashes hs A).root proof)
    (List.mem_append_right (MerkleTree.fromLeafHashes hs A).childPairs
      (hp : p ∈ (MerkleTree.fromLeafHashes hs B).childPairs))
  unfold verifyConsistencyProof at hverify
  split_ifs at hverify with hsize heq
  · simp only [Bool.and_eq_true, decide_eq_true_eq] at hverify
    refine ⟨heq.le, ?_⟩
    rw [heq, List.take_length]
    exact leaves_eq_of_root_eq hs hinj hA heq hpA hpB hverify.2
  · have hle : A.length ≤ B.length := by omega
    refine ⟨hle, ?_⟩
    split at hverify
    · rename_i reconstructedRoot stack hread
      simp only [Bool.and_eq_true, decide_eq_true_eq] at hverify
      rw [hverify.2] at hread
      apply take_eq_of_verifyConsistencyInternal hinj B hB A _ _ rfl rfl hpos hle _ _ hpA hpB _
        hread
      intro p hp
      apply List.mem_append_right
      rwa [consistencyProofPairs, dif_pos ⟨hpos, hle⟩]
    · cases hverify

end Soundness

/-- Two leaves of three, and the third as the proof. -/
theorem consistencyProof_sound_three :
    let leaf (b : UInt8) : Hash := ⟨List.replicate 32 b, List.length_replicate⟩
    [leaf 1, leaf 2] = [leaf 1, leaf 2, leaf 3].take 2 := by
  intro leaf
  let hs := sha256Hasher sha2
  let A := [leaf 1, leaf 2]
  let B := [leaf 1, leaf 2, leaf 3]
  have hB : ChildrenInjective hs (MerkleTree.fromLeafHashes hs B).childPairs :=
    childrenInjective_of_nodup hs (by decide +kernel)
  have hinj : ChildrenInjective hs ((MerkleTree.fromLeafHashes hs A).childPairs ++
      (MerkleTree.fromLeafHashes hs B).childPairs ++
      consistencyProofPairs hs A.length B.length (MerkleTree.fromLeafHashes hs A).root [leaf 3]) :=
    hB.mono (by decide +kernel)
  exact (consistencyProof_sound hs A B (by decide) (by decide) [leaf 3] hinj (by decide +kernel)).2

end Ulpf.Integrity
