import Ulpf.Integrity.Consistency

/-!
# The consistency verifier on untrusted input

The verifier once more, on sizes of type `usize` and with everything that could stop it: the
assertion on the size, the subtractions, the shift and the recursion. It records the sizes it
is called with. On any input it returns the answer of `verifyConsistencyProof`.
-/

namespace Ulpf.Integrity

/-- What keeps a call from returning. -/
inductive Stop where
  | assertion
  | underflow
  | oversizedShift
  | recursion
deriving DecidableEq

/-- The sizes `(m, n)` of the recursive calls, in order. -/
abbrev Calls := List (UInt64 × UInt64)

abbrev Checked := StateT Calls (Except Stop)

def called (m n : UInt64) : Checked Unit := modify (· ++ [(m, n)])

/-- `a - b` where an underflow stops the program. -/
def checkedSub (a b : UInt64) : Checked UInt64 := if b ≤ a then pure (a - b) else throw .underflow

def checkedShiftLeft (a b : UInt64) : Checked UInt64 :=
  if b < 64 then pure (a <<< b) else throw .oversizedShift

namespace Checked

def largestPowerOfTwoLessThan (n : UInt64) : Checked UInt64 := do
  if 1 < n then
    let below ← checkedSub n 1
    let exponent ← checkedSub 63 (UInt64.ofNat (leadingZeros below.toNat))
    checkedShiftLeft 1 exponent
  else throw .assertion

section Verify

variable {Digest : Type} (hs : Hasher Digest)

/-- `verify_subproof_full` with at most `fuel` nested calls. -/
def verifySubproofFull : ℕ → UInt64 → UInt64 → List Digest →
    Checked (Option ((Digest × Digest) × List Digest))
  | 0, _, _, _ => throw .recursion
  | fuel + 1, m, n, proof => do
    called m n
    if m = n then
      match proof with
      | [] => return none
      | h :: proof => return some ((h, h), proof)
    else
      let k ← largestPowerOfTwoLessThan n
      match proof with
      | [] => return none
      | sibling :: proof =>
        if m ≤ k then
          let result ← verifySubproofFull fuel m k proof
          return result.map fun ((subM, subK), proof) =>
            ((subM, hs.hashChildren subK sibling), proof)
        else
          let result ← verifySubproofFull fuel (← checkedSub m k) (← checkedSub n k) proof
          return result.map fun ((subM, subN), proof) =>
            ((hs.hashChildren sibling subM, hs.hashChildren sibling subN), proof)

variable [DecidableEq Digest]

/-- `verify_consistency_internal` with at most `fuel` nested calls. -/
def verifyConsistencyInternal : ℕ → UInt64 → UInt64 → List Digest → Digest →
    Checked (Option (Digest × List Digest))
  | 0, _, _, _, _ => throw .recursion
  | fuel + 1, m, n, proof, prevRoot => do
    called m n
    if m = n then return some (prevRoot, proof)
    else
      let k ← largestPowerOfTwoLessThan n
      match proof with
      | [] => return none
      | sibling :: proof =>
        if m ≤ k then
          let result ← verifyConsistencyInternal fuel m k proof prevRoot
          return result.map fun (leftRoot, proof) => (hs.hashChildren leftRoot sibling, proof)
        else
          let result ←
            Checked.verifySubproofFull hs fuel (← checkedSub m k) (← checkedSub n k) proof
          return result.bind fun ((subM, subN), proof) =>
            if hs.hashChildren sibling subM ≠ prevRoot then none
            else some (hs.hashChildren sibling subN, proof)

def verifyConsistencyProof (prevSize currSize : UInt64) (prevRoot currRoot : Digest)
    (proof : List Digest) : Checked Bool :=
  if prevSize = 0 ∨ currSize < prevSize then return false
  else if prevSize = currSize then return proof.isEmpty && decide (prevRoot = currRoot)
  else do
    match ←
      verifyConsistencyInternal hs currSize.toNat prevSize currSize proof.reverse prevRoot with
    | some (reconstructedRoot, stack) =>
      return stack.isEmpty && decide (reconstructedRoot = currRoot)
    | none => return false

end Verify

/-! ### Returning -/

/-- The computation returns `a`, and all calls it makes keep `1 ≤ m ≤ n`. -/
def Returns {α : Type} (x : Checked α) (a : α) : Prop :=
  ∀ calls, ∃ later : Calls, x.run calls = .ok (a, calls ++ later) ∧ ∀ c ∈ later, 1 ≤ c.1 ∧ c.1 ≤ c.2

section Returns

variable {α β : Type}

lemma returns_pure (a : α) : Returns (pure a) a := by
  intro calls
  refine ⟨[], ?_, by simp⟩
  rw [List.append_nil]
  rfl

lemma Returns.bind {x : Checked α} {a : α} {f : α → Checked β} {b : β} (hx : Returns x a)
    (hf : Returns (f a) b) : Returns (x >>= f) b := by
  intro calls
  obtain ⟨first, hrun, hfirst⟩ := hx calls
  obtain ⟨second, hrun', hsecond⟩ := hf (calls ++ first)
  refine ⟨first ++ second, ?_, ?_⟩
  · rw [StateT.run_bind, hrun, ← List.append_assoc]
    exact hrun'
  · intro c hc
    exact (List.mem_append.mp hc).elim (hfirst c) (hsecond c)

lemma returns_called {m n : UInt64} (hm : 1 ≤ m) (hmn : m ≤ n) : Returns (called m n) () := by
  intro calls
  refine ⟨[(m, n)], rfl, ?_⟩
  rintro c hc
  rw [List.mem_singleton.mp hc]
  exact ⟨hm, hmn⟩

lemma returns_checkedSub {a b : UInt64} (h : b ≤ a) : Returns (checkedSub a b) (a - b) := by
  rw [checkedSub, if_pos h]
  exact returns_pure _

lemma returns_checkedSub_toNat {a b : UInt64} {A B : ℕ} (ha : a.toNat = A) (hb : b.toNat = B)
    (h : B ≤ A) : ∃ d, Returns (checkedSub a b) d ∧ d.toNat = A - B := by
  have hle : b ≤ a := by rwa [UInt64.le_iff_toNat_le, ha, hb]
  refine ⟨a - b, returns_checkedSub hle, ?_⟩
  rw [UInt64.toNat_sub_of_le _ _ hle, ha, hb]

lemma returns_checkedShiftLeft {a b : UInt64} (h : b < 64) :
    Returns (checkedShiftLeft a b) (a <<< b) := by
  rw [checkedShiftLeft, if_pos h]
  exact returns_pure _

end Returns

lemma returns_largestPowerOfTwoLessThan {n : UInt64} (h : 1 < n) :
    ∃ k, Returns (largestPowerOfTwoLessThan n) k ∧
      k.toNat = Integrity.largestPowerOfTwoLessThan n.toNat := by
  have hn : 1 < n.toNat := UInt64.lt_iff_toNat_lt.mp h
  have hlt := n.toNat_lt
  have hbelow : (n - 1).toNat = n.toNat - 1 := UInt64.toNat_sub_of_le _ _ (UInt64.le_of_lt h)
  have hpos : 0 < (n.toNat - 1).size := Nat.size_pos.mpr (by omega)
  have hsize : (n.toNat - 1).size ≤ 64 := Nat.size_le.mpr (by omega)
  have hzeros : (UInt64.ofNat (leadingZeros (n.toNat - 1))).toNat = 64 - (n.toNat - 1).size :=
    UInt64.toNat_ofNat_of_lt' (by rw [leadingZeros, usizeBits, UInt64.size]; omega)
  have hle : UInt64.ofNat (leadingZeros (n.toNat - 1)) ≤ 63 := by
    rw [UInt64.le_iff_toNat_le, hzeros]
    change 64 - (n.toNat - 1).size ≤ 63
    omega
  have hexp : (63 - UInt64.ofNat (leadingZeros (n.toNat - 1))).toNat = (n.toNat - 1).size - 1 := by
    rw [UInt64.toNat_sub_of_le _ _ hle, hzeros]
    change 63 - (64 - (n.toNat - 1).size) = _
    omega
  have hshift : 63 - UInt64.ofNat (leadingZeros (n.toNat - 1)) < 64 := by
    rw [UInt64.lt_iff_toNat_lt, hexp]
    change (n.toNat - 1).size - 1 < 64
    omega
  refine ⟨1 <<< (63 - UInt64.ofNat (leadingZeros (n.toNat - 1))), ?_, ?_⟩
  · rw [largestPowerOfTwoLessThan, if_pos h]
    apply (returns_checkedSub (UInt64.le_of_lt h)).bind
    rw [hbelow]
    exact (returns_checkedSub hle).bind (returns_checkedShiftLeft hshift)
  · have hpow : 2 ^ ((n.toNat - 1).size - 1) ≤ n.toNat - 1 := Nat.lt_size.mp (by omega)
    have hexp64 : ((n.toNat - 1).size - 1) % 64 = (n.toNat - 1).size - 1 :=
      Nat.mod_eq_of_lt (by omega)
    have hone : (1 : UInt64).toNat = 1 := rfl
    rw [UInt64.toNat_shiftLeft, hexp, hexp64, hone, Nat.one_shiftLeft,
      largestPowerOfTwoLessThan_eq, min_eq_right hsize]
    exact Nat.mod_eq_of_lt (by omega)

/-! ### The verifier returns -/

section Verify

variable {Digest : Type} (hs : Hasher Digest) {M N : ℕ}

lemma returns_entry {m n : UInt64} (hm : m.toNat = M) (hn : n.toNat = N) (hM : 0 < M)
    (hMN : M ≤ N) : Returns (called m n) () := by
  apply returns_called
  · rw [UInt64.le_iff_toNat_le, hm]
    exact hM
  · rwa [UInt64.le_iff_toNat_le, hm, hn]

lemma lt_of_sizes_ne {m n : UInt64} (hm : m.toNat = M) (hn : n.toNat = N) (hMN : M ≤ N)
    (h : m ≠ n) : M < N := by
  refine lt_of_le_of_ne hMN fun heq => h (UInt64.toNat_inj.mp ?_)
  rw [hm, hn, heq]

lemma exists_split {fuel : ℕ} {m n : UInt64} (hm : m.toNat = M) (hn : n.toNat = N) (hM : 0 < M)
    (hlt : M < N) (hfuel : N ≤ fuel + 1) :
    ∃ k, Returns (largestPowerOfTwoLessThan n) k ∧
      k.toNat = Integrity.largestPowerOfTwoLessThan N ∧
      Integrity.largestPowerOfTwoLessThan N ≤ fuel ∧
      (m ≤ k ↔ M ≤ Integrity.largestPowerOfTwoLessThan N) := by
  have h1 : 1 < n := by
    rw [UInt64.lt_iff_toNat_lt, hn]
    change 1 < N
    omega
  obtain ⟨k, hk, hcut⟩ := returns_largestPowerOfTwoLessThan h1
  have hbelow : Integrity.largestPowerOfTwoLessThan N < N :=
    largestPowerOfTwoLessThan_lt (by omega)
  rw [hn] at hcut
  refine ⟨k, hk, hcut, by omega, ?_⟩
  rw [UInt64.le_iff_toNat_le, hm, hcut]

lemma exists_upper {fuel : ℕ} {m n k : UInt64} (hm : m.toNat = M) (hn : n.toNat = N)
    (hcut : k.toNat = Integrity.largestPowerOfTwoLessThan N)
    (hright : Integrity.largestPowerOfTwoLessThan N < M) (hMN : M ≤ N) (hfuel : N ≤ fuel + 1) :
    ∃ m' n', Returns (checkedSub m k) m' ∧ Returns (checkedSub n k) n' ∧
      m'.toNat = M - Integrity.largestPowerOfTwoLessThan N ∧
      n'.toNat = N - Integrity.largestPowerOfTwoLessThan N ∧
      N - Integrity.largestPowerOfTwoLessThan N ≤ fuel := by
  have hpos := largestPowerOfTwoLessThan_pos N
  obtain ⟨m', hm', hsize⟩ := returns_checkedSub_toNat hm hcut hright.le
  obtain ⟨n', hn', hsize'⟩ := returns_checkedSub_toNat hn hcut (hright.le.trans hMN)
  exact ⟨m', n', hm', hn', hsize, hsize', by omega⟩

lemma returns_verifySubproofFull {fuel : ℕ} {m n : UInt64} (hm : m.toNat = M) (hn : n.toNat = N)
    (hM : 0 < M) (hMN : M ≤ N) (hfuel : N ≤ fuel) (proof : List Digest) :
    Returns (verifySubproofFull hs fuel m n proof)
      (Integrity.verifySubproofFull hs M N hM hMN proof) := by
  induction fuel generalizing m n M N proof with
  | zero => omega
  | succ fuel ih =>
    unfold verifySubproofFull
    apply (returns_entry hm hn hM hMN).bind
    by_cases heq : m = n
    · obtain rfl : M = N := by rw [← hm, ← hn, heq]
      rw [if_pos heq]
      cases proof with
      | nil =>
        rw [verifySubproofFull_nil]
        exact returns_pure _
      | cons h proof =>
        rw [verifySubproofFull_self]
        exact returns_pure _
    · have hlt := lt_of_sizes_ne hm hn hMN heq
      obtain ⟨k, hk, hcut, hkfuel, hside⟩ := exists_split hm hn hM hlt hfuel
      rw [if_neg heq]
      apply hk.bind
      cases proof with
      | nil =>
        rw [verifySubproofFull_nil]
        exact returns_pure _
      | cons sibling proof =>
        dsimp only
        by_cases hle : m ≤ k
        · rw [if_pos hle, verifySubproofFull_left hs hM hlt (hside.mp hle)]
          exact (ih hm hcut hM (hside.mp hle) hkfuel proof).bind (returns_pure _)
        · have hright := not_le.mp (hside.not.mp hle)
          obtain ⟨m', n', hm', hn', hsize, hsize', hrest⟩ :=
            exists_upper hm hn hcut hright hMN hfuel
          rw [if_neg hle, verifySubproofFull_right hs hlt hright]
          apply hm'.bind
          apply hn'.bind
          exact (ih hsize hsize' _ _ hrest proof).bind (returns_pure _)

variable [DecidableEq Digest]

lemma returns_verifyConsistencyInternal {fuel : ℕ} {m n : UInt64} (hm : m.toNat = M)
    (hn : n.toNat = N) (hM : 0 < M) (hMN : M ≤ N) (hfuel : N ≤ fuel) (proof : List Digest)
    (prevRoot : Digest) :
    Returns (verifyConsistencyInternal hs fuel m n proof prevRoot)
      (Integrity.verifyConsistencyInternal hs M N hM hMN proof prevRoot) := by
  induction fuel generalizing m n M N proof with
  | zero => omega
  | succ fuel ih =>
    rw [verifyConsistencyInternal]
    apply (returns_entry hm hn hM hMN).bind
    by_cases heq : m = n
    · obtain rfl : M = N := by rw [← hm, ← hn, heq]
      rw [if_pos heq, verifyConsistencyInternal_self]
      exact returns_pure _
    · have hlt := lt_of_sizes_ne hm hn hMN heq
      obtain ⟨k, hk, hcut, hkfuel, hside⟩ := exists_split hm hn hM hlt hfuel
      rw [if_neg heq]
      apply hk.bind
      cases proof with
      | nil =>
        rw [verifyConsistencyInternal_nil hs hM hlt]
        exact returns_pure _
      | cons sibling proof =>
        dsimp only
        by_cases hle : m ≤ k
        · rw [if_pos hle, verifyConsistencyInternal_left hs hM hlt (hside.mp hle)]
          exact (ih hm hcut hM (hside.mp hle) hkfuel proof).bind (returns_pure _)
        · have hright := not_le.mp (hside.not.mp hle)
          obtain ⟨m', n', hm', hn', hsize, hsize', hrest⟩ :=
            exists_upper hm hn hcut hright hMN hfuel
          rw [if_neg hle, verifyConsistencyInternal_right hs hlt hright]
          simp only [ne_eq, ite_not]
          apply hm'.bind
          apply hn'.bind
          refine (returns_verifySubproofFull hs hsize hsize' _ _ ?_ proof).bind (returns_pure _)
          exact hrest

/-- On any sizes, roots and proof the verifier returns, its answer is that of the recursion
without checks, and every recursive call keeps `1 ≤ m ≤ n`. -/
theorem verifyConsistencyProof_returns (prevSize currSize : UInt64) (prevRoot currRoot : Digest)
    (proof : List Digest) :
    Returns (verifyConsistencyProof hs prevSize currSize prevRoot currRoot proof)
      (Integrity.verifyConsistencyProof hs prevSize.toNat currSize.toNat prevRoot currRoot
        proof) := by
  have hzero : prevSize = 0 ↔ prevSize.toNat = 0 := UInt64.toNat_inj.symm
  have hrefused : prevSize = 0 ∨ currSize < prevSize ↔
      prevSize.toNat = 0 ∨ currSize.toNat < prevSize.toNat :=
    or_congr hzero UInt64.lt_iff_toNat_lt
  have hsame : prevSize = currSize ↔ prevSize.toNat = currSize.toNat := UInt64.toNat_inj.symm
  unfold verifyConsistencyProof Integrity.verifyConsistencyProof
  by_cases hsizes : prevSize = 0 ∨ currSize < prevSize
  · rw [if_pos hsizes, dif_pos (hrefused.mp hsizes)]
    exact returns_pure _
  · rw [if_neg hsizes, dif_neg (hrefused.not.mp hsizes)]
    by_cases heq : prevSize = currSize
    · rw [if_pos heq, if_pos (hsame.mp heq)]
      exact returns_pure _
    · rw [if_neg heq, if_neg (hsame.not.mp heq)]
      have hbounds := hrefused.not.mp hsizes
      have hpos : 0 < prevSize.toNat := by omega
      have hle : prevSize.toNat ≤ currSize.toNat := by omega
      apply (returns_verifyConsistencyInternal hs rfl rfl hpos hle le_rfl _ _).bind
      cases Integrity.verifyConsistencyInternal hs prevSize.toNat currSize.toNat hpos hle
        proof.reverse prevRoot <;> exact returns_pure _

end Verify

end Checked

end Ulpf.Integrity
