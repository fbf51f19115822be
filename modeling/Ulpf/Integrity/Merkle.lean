import Mathlib.Algebra.Ring.Nat
import Mathlib.Data.Nat.Size
import Ulpf.Integrity.Hash
import Ulpf.Library.SplitTree

/-!
# The Merkle tree of `merkle.rs`

Tree construction, inclusion proofs, consistency proofs and the three verifiers, over any
`Hasher`. A `usize` is a natural number. Where the source would panic on a malformed size
the functions below take the bounds that exclude it.
-/

namespace Ulpf.Integrity
open Ulpf.Library

/-- `usize::BITS`. -/
def usizeBits : ℕ := 64

/-- `usize::leading_zeros`. -/
def leadingZeros (n : ℕ) : ℕ := usizeBits - n.size

/-- The largest power of two strictly smaller than `n`. The source asserts `n > 1`. -/
def largestPowerOfTwoLessThan (n : ℕ) : ℕ := 1 <<< (usizeBits - 1 - leadingZeros (n - 1))

lemma largestPowerOfTwoLessThan_eq (n : ℕ) :
    largestPowerOfTwoLessThan n = 2 ^ (min 64 (n - 1).size - 1) := by
  rw [largestPowerOfTwoLessThan, leadingZeros, usizeBits, Nat.one_shiftLeft]
  congr 1
  omega

lemma largestPowerOfTwoLessThan_pos (n : ℕ) : 0 < largestPowerOfTwoLessThan n := by
  rw [largestPowerOfTwoLessThan_eq]
  exact Nat.two_pow_pos _

lemma largestPowerOfTwoLessThan_lt {n : ℕ} (h : 1 < n) : largestPowerOfTwoLessThan n < n := by
  have hpos : 0 < (n - 1).size := Nat.size_pos.mpr (by omega)
  have hle : 2 ^ (min 64 (n - 1).size - 1) ≤ n - 1 := Nat.lt_size.mp (by omega)
  rw [largestPowerOfTwoLessThan_eq]
  omega

/-- A tree that reaches past the split point of a larger tree is split at the same place. -/
lemma largestPowerOfTwoLessThan_stable {m n : ℕ} (hm : largestPowerOfTwoLessThan n < m)
    (hmn : m ≤ n) : largestPowerOfTwoLessThan m = largestPowerOfTwoLessThan n := by
  rw [largestPowerOfTwoLessThan_eq] at hm
  rw [largestPowerOfTwoLessThan_eq, largestPowerOfTwoLessThan_eq]
  have hlow : min 64 (n - 1).size - 1 < (m - 1).size := Nat.lt_size.mpr (by omega)
  have hhigh : (m - 1).size ≤ (n - 1).size := Nat.size_le_size (by omega)
  congr 1
  omega

/-- The split of RFC 6962 as a rule of the library. -/
def rfcSplit : SplitRule where
  cut := largestPowerOfTwoLessThan
  cut_pos n _ := largestPowerOfTwoLessThan_pos n
  cut_lt _ h := largestPowerOfTwoLessThan_lt h

lemma rfcSplit_stable : rfcSplit.Stable := fun _ _ => largestPowerOfTwoLessThan_stable

/-- Sibling position relative to the target branch in an audit path. -/
inductive Side where
  | left
  | right
deriving DecidableEq, Repr

inductive MerkleError where
  | indexOutOfBounds (index size : ℕ)
  | emptyTree
  | invalidConsistencySize (prevSize size : ℕ)
deriving DecidableEq, Repr

variable {Digest : Type*}

/-! ### Building the tree -/

inductive TreeNode (Digest : Type*) where
  | leaf (hash : Digest) (index : ℕ)
  | internal (hash : Digest) (size : ℕ) (left right : TreeNode Digest)

def TreeNode.hash : TreeNode Digest → Digest
  | leaf hash _ => hash
  | internal hash _ _ _ => hash

@[simp] lemma TreeNode.hash_leaf (hash : Digest) (index : ℕ) : (leaf hash index).hash = hash := rfl

@[simp] lemma TreeNode.hash_internal (hash : Digest) (size : ℕ) (left right : TreeNode Digest) :
    (internal hash size left right).hash = hash := rfl

/-- The siblings on the way from leaf `targetIdx` up to this node, the lowest first. -/
def TreeNode.collectAuditPath : TreeNode Digest → ℕ → List (Digest × Side)
  | leaf _ _, _ => []
  | internal _ size left right, targetIdx =>
    let k := largestPowerOfTwoLessThan size
    if targetIdx < k then left.collectAuditPath targetIdx ++ [(right.hash, .right)]
    else right.collectAuditPath (targetIdx - k) ++ [(left.hash, .left)]

structure MerkleTree (Digest : Type*) where
  leafHashes : List Digest
  root : Digest
  rootNode : Option (TreeNode Digest)

namespace MerkleTree

variable (hs : Hasher Digest)

def empty : MerkleTree Digest := ⟨[], hs.emptyTreeHash, none⟩

def buildSubtree (leaves : List Digest) (offset : ℕ) (hne : leaves ≠ []) : TreeNode Digest :=
  let n := leaves.length
  if h : n = 1 then .leaf (leaves.head hne) offset
  else
    let k := largestPowerOfTwoLessThan n
    have hn : 1 < leaves.length := by have := List.length_pos_iff.mpr hne; omega
    have hleft : leaves.take k ≠ [] := rfcSplit.left_ne_nil hn
    have hright : leaves.drop k ≠ [] := rfcSplit.right_ne_nil hn
    let left := buildSubtree (leaves.take k) offset hleft
    let right := buildSubtree (leaves.drop k) (offset + k) hright
    .internal (hs.hashChildren left.hash right.hash) n left right
termination_by leaves.length
decreasing_by
  · exact rfcSplit.length_left_lt hn
  · exact rfcSplit.length_right_lt hn

def fromLeafHashes (leafHashes : List Digest) : MerkleTree Digest :=
  if hne : leafHashes = [] then empty hs
  else
    let rootNode := buildSubtree hs leafHashes 0 hne
    ⟨leafHashes, rootNode.hash, some rootNode⟩

def fromRawLogs (logs : List Bytes) : MerkleTree Digest :=
  fromLeafHashes hs (logs.map hs.hashLeaf)

end MerkleTree

/-! ### Inclusion proofs -/

/-- An RFC 6962 audit path for a leaf of a tree. -/
structure InclusionProof (Digest : Type*) where
  leafIndex : ℕ
  treeSize : ℕ
  auditPath : List (Digest × Side)
deriving DecidableEq

def MerkleTree.inclusionProof (t : MerkleTree Digest) (index : ℕ) :
    Except MerkleError (InclusionProof Digest) :=
  let size := t.leafHashes.length
  if size = 0 then .error .emptyTree
  else if size ≤ index then .error (.indexOutOfBounds index size)
  else
    let auditPath := match t.rootNode with
      | some node => node.collectAuditPath index
      | none => []
    .ok ⟨index, size, auditPath⟩

section Verify

variable [DecidableEq Digest] (hs : Hasher Digest)

/-- One step of the verifier along the audit path. -/
def foldSibling (currentHash : Digest) : Digest × Side → Digest
  | (siblingHash, .right) => hs.hashChildren currentHash siblingHash
  | (siblingHash, .left) => hs.hashChildren siblingHash currentHash

def verifyInclusionProofByHash (leafHash : Digest) (leafIndex treeSize : ℕ)
    (auditPath : List (Digest × Side)) (expectedRoot : Digest) : Bool :=
  if treeSize = 0 ∨ treeSize ≤ leafIndex then false
  else if treeSize = 1 then
    auditPath.isEmpty && decide (leafIndex = 0) && decide (leafHash = expectedRoot)
  else decide (auditPath.foldl (foldSibling hs) leafHash = expectedRoot)

def verifyInclusionProof (rawLog : Bytes) (leafIndex treeSize : ℕ)
    (auditPath : List (Digest × Side)) (expectedRoot : Digest) : Bool :=
  verifyInclusionProofByHash hs (hs.hashLeaf rawLog) leafIndex treeSize auditPath expectedRoot

def InclusionProof.verify (p : InclusionProof Digest) (rawLog : Bytes) (expectedRoot : Digest) :
    Bool :=
  verifyInclusionProof hs rawLog p.leafIndex p.treeSize p.auditPath expectedRoot

end Verify

/-! ### Consistency proofs -/

section Consistency

variable (hs : Hasher Digest)

/-- Recursive consistency proof generator (RFC 6962 Section 2.1.2). -/
def subproof (m : ℕ) (leaves : List Digest) (b : Bool) (hm : 0 < m) (hmn : m ≤ leaves.length) :
    List Digest :=
  let n := leaves.length
  if heq : m = n then
    if b then [] else [(MerkleTree.fromLeafHashes hs leaves).root]
  else
    let k := largestPowerOfTwoLessThan n
    have hn : 1 < leaves.length := by omega
    have hleft : (leaves.take k).length = k := rfcSplit.length_left hn
    have hright : (leaves.drop k).length = leaves.length - k := List.length_drop
    if hle : m ≤ k then
      subproof m (leaves.take k) b hm (by omega) ++
        [(MerkleTree.fromLeafHashes hs (leaves.drop k)).root]
    else
      subproof (m - k) (leaves.drop k) false (by omega) (by omega) ++
        [(MerkleTree.fromLeafHashes hs (leaves.take k)).root]
termination_by leaves.length
decreasing_by
  · exact rfcSplit.length_left_lt hn
  · exact rfcSplit.length_right_lt hn

def MerkleTree.consistencyProof (t : MerkleTree Digest) (prevSize : ℕ) :
    Except MerkleError (List Digest) :=
  let size := t.leafHashes.length
  if h : prevSize = 0 ∨ size < prevSize then .error (.invalidConsistencySize prevSize size)
  else if prevSize = size then .ok []
  else .ok (subproof hs prevSize t.leafHashes true (by omega) (by omega))

/-- The proof is a stack: its head is what `Vec::pop` takes. The result carries what is left. -/
def verifySubproofFull (m n : ℕ) (hm : 0 < m) (hmn : m ≤ n) (proof : List Digest) :
    Option ((Digest × Digest) × List Digest) :=
  if heq : m = n then
    match proof with
    | [] => none
    | h :: proof => some ((h, h), proof)
  else
    let k := largestPowerOfTwoLessThan n
    have hk : k < n := largestPowerOfTwoLessThan_lt (by omega)
    have hpos : 0 < k := largestPowerOfTwoLessThan_pos n
    match proof with
    | [] => none
    | sibling :: proof =>
      if hle : m ≤ k then do
        let ((subM, subK), proof) ← verifySubproofFull m k hm hle proof
        return ((subM, hs.hashChildren subK sibling), proof)
      else do
        let ((subM, subN), proof) ← verifySubproofFull (m - k) (n - k) (by omega) (by omega) proof
        return ((hs.hashChildren sibling subM, hs.hashChildren sibling subN), proof)
termination_by n

variable [DecidableEq Digest]

def verifyConsistencyInternal (m n : ℕ) (hm : 0 < m) (hmn : m ≤ n) (proof : List Digest)
    (prevRoot : Digest) : Option (Digest × List Digest) :=
  if heq : m = n then some (prevRoot, proof)
  else
    let k := largestPowerOfTwoLessThan n
    have hk : k < n := largestPowerOfTwoLessThan_lt (by omega)
    match proof with
    | [] => none
    | sibling :: proof =>
      if hle : m ≤ k then do
        let (leftRoot, proof) ← verifyConsistencyInternal m k hm hle proof prevRoot
        return (hs.hashChildren leftRoot sibling, proof)
      else do
        let ((subM, subN), proof) ←
          verifySubproofFull hs (m - k) (n - k) (by omega) (by omega) proof
        if hs.hashChildren sibling subM ≠ prevRoot then none
        else return (hs.hashChildren sibling subN, proof)
termination_by n

def verifyConsistencyProof (prevSize currSize : ℕ) (prevRoot currRoot : Digest)
    (proof : List Digest) : Bool :=
  if h : prevSize = 0 ∨ currSize < prevSize then false
  else if prevSize = currSize then proof.isEmpty && decide (prevRoot = currRoot)
  else
    match verifyConsistencyInternal hs prevSize currSize (by omega) (by omega) proof.reverse
        prevRoot with
    | some (reconstructedRoot, stack) => stack.isEmpty && decide (reconstructedRoot = currRoot)
    | none => false

/-! ### What the consistency verifier hashes -/

omit [DecidableEq Digest] in
/-- The pairs `hash_children` is called with by `verify_subproof_full`. -/
def subproofPairs (m n : ℕ) (hm : 0 < m) (hmn : m ≤ n) (proof : List Digest) :
    List (Digest × Digest) :=
  if heq : m = n then []
  else
    let k := largestPowerOfTwoLessThan n
    have hk : k < n := largestPowerOfTwoLessThan_lt (by omega)
    have hpos : 0 < k := largestPowerOfTwoLessThan_pos n
    match proof with
    | [] => []
    | sibling :: proof =>
      if hle : m ≤ k then
        ((verifySubproofFull hs m k hm hle proof).map fun r => (r.1.2, sibling)).toList ++
          subproofPairs m k hm hle proof
      else
        ((verifySubproofFull hs (m - k) (n - k) (by omega) (by omega) proof).toList.flatMap fun r =>
          [(sibling, r.1.1), (sibling, r.1.2)]) ++
          subproofPairs (m - k) (n - k) (by omega) (by omega) proof
termination_by n

/-- The pairs `hash_children` is called with by `verify_consistency_internal`. -/
def consistencyPairs (m n : ℕ) (hm : 0 < m) (hmn : m ≤ n) (proof : List Digest)
    (prevRoot : Digest) : List (Digest × Digest) :=
  if heq : m = n then []
  else
    let k := largestPowerOfTwoLessThan n
    have hk : k < n := largestPowerOfTwoLessThan_lt (by omega)
    match proof with
    | [] => []
    | sibling :: proof =>
      if hle : m ≤ k then
        ((verifyConsistencyInternal hs m k hm hle proof prevRoot).map fun r =>
          (r.1, sibling)).toList ++ consistencyPairs m k hm hle proof prevRoot
      else
        ((verifySubproofFull hs (m - k) (n - k) (by omega) (by omega) proof).toList.flatMap fun r =>
          [(sibling, r.1.1), (sibling, r.1.2)]) ++
          subproofPairs hs (m - k) (n - k) (by omega) (by omega) proof
termination_by n

def consistencyProofPairs (prevSize currSize : ℕ) (prevRoot : Digest) (proof : List Digest) :
    List (Digest × Digest) :=
  if h : 0 < prevSize ∧ prevSize ≤ currSize then
    consistencyPairs hs prevSize currSize h.1 h.2 proof.reverse prevRoot
  else []

end Consistency

end Ulpf.Integrity
