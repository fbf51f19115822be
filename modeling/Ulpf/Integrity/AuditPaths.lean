import Mathlib.Data.Nat.Log
import Ulpf.Integrity.Inclusion

/-!
# The length of audit paths

The tree is not balanced, but a cut leaves at most half of the next power of two on either
side: the left part is that half itself, the right part is no larger. So the depth of a leaf
is at most the binary logarithm of the number of leaves, rounded up.
-/

namespace Ulpf.Integrity
open Ulpf.Library

lemma largestPowerOfTwoLessThan_le_two_pow {n c : ℕ} (h : n ≤ 2 ^ (c + 1)) :
    largestPowerOfTwoLessThan n ≤ 2 ^ c := by
  have hpos := Nat.two_pow_pos (c + 1)
  have hsize : (n - 1).size ≤ c + 1 := Nat.size_le.mpr (by omega)
  rw [largestPowerOfTwoLessThan_eq]
  exact Nat.pow_le_pow_right (by omega) (by omega)

lemma sub_largestPowerOfTwoLessThan_le {n : ℕ} (h : n ≤ 2 ^ usizeBits) :
    n - largestPowerOfTwoLessThan n ≤ largestPowerOfTwoLessThan n := by
  by_cases hn : 1 < n
  · have hsize : (n - 1).size ≤ 64 := Nat.size_le.mpr (by rw [usizeBits] at h; omega)
    have hpos : 0 < (n - 1).size := Nat.size_pos.mpr (by omega)
    have hlt : n - 1 < 2 ^ (n - 1).size := Nat.lt_size_self _
    have hdouble : 2 ^ (n - 1).size = 2 * 2 ^ ((n - 1).size - 1) := by
      rw [← pow_succ']
      congr 1
      omega
    rw [largestPowerOfTwoLessThan_eq, min_eq_right hsize]
    omega
  · have hcut := largestPowerOfTwoLessThan_pos n
    omega

/-- A leaf of a block that fits in `2 ^ c` leaves lies at depth `c` at most. -/
lemma length_auditSides_le {i n c : ℕ} (hn : n ≤ 2 ^ c) (hc : c ≤ usizeBits) :
    (auditSides i n).length ≤ c := by
  induction c generalizing i n with
  | zero =>
    rw [auditSides, dif_neg (by omega)]
    exact le_rfl
  | succ c ih =>
    rw [auditSides]
    split_ifs with h
    · have hleft := largestPowerOfTwoLessThan_le_two_pow hn
      have hright : n - largestPowerOfTwoLessThan n ≤ 2 ^ c :=
        (sub_largestPowerOfTwoLessThan_le (hn.trans (Nat.pow_le_pow_right (by omega) hc))).trans
          hleft
      dsimp only
      split_ifs
      · rw [List.length_append, List.length_singleton]
        exact Nat.succ_le_succ (ih hleft (by omega))
      · rw [List.length_append, List.length_singleton]
        exact Nat.succ_le_succ (ih hright (by omega))
    · exact Nat.zero_le _

variable {Digest : Type*} (hs : Hasher Digest)

lemma length_collectAuditPath {leaves : List Digest} (offset : ℕ) (hne : leaves ≠ []) (i : ℕ) :
    ((MerkleTree.buildSubtree hs leaves offset hne).collectAuditPath i).length =
      (auditSides i leaves.length).length := by
  rw [← sides_collectAuditPath hs leaves offset hne i, List.length_map]

/-- The audit path of every leaf has at most `⌈log₂ n⌉` elements. -/
theorem length_auditPath_le_clog (leaves : List Digest) (hsize : leaves.length < 2 ^ usizeBits)
    (i : ℕ) (hi : i < leaves.length) :
    ∃ proof, (MerkleTree.fromLeafHashes hs leaves).inclusionProof i = .ok proof ∧
      proof.auditPath.length ≤ Nat.clog 2 leaves.length := by
  refine ⟨_, inclusionProof_of_lt hs hi, ?_⟩
  rw [length_collectAuditPath]
  apply length_auditSides_le
  · exact Nat.le_pow_clog Nat.one_lt_two _
  · exact Nat.clog_le_of_le_pow hsize.le

/-- In the tree of five leaves, the last one is met after one step and the others after three. -/
theorem length_auditPath_le_clog_five :
    ∃ proof, (MerkleTree.fromLeafHashes (sha256Hasher sha2)
        ([[0x61], [0x62], [0x63], [0x64], [0x65]].map
          (sha256Hasher sha2).hashLeaf)).inclusionProof 4 = .ok proof ∧
      proof.auditPath.length ≤ Nat.clog 2 5 :=
  length_auditPath_le_clog (sha256Hasher sha2)
    ([[0x61], [0x62], [0x63], [0x64], [0x65]].map (sha256Hasher sha2).hashLeaf) (by decide) 4
    (by decide)

end Ulpf.Integrity
