import Ulpf.Integrity.AuditPaths
import Ulpf.Integrity.VerifierTotality

/-!
# The split point of a size

`largest_power_of_two_less_than` on `usize`, with everything that could stop it, finds the one
power of two below the size that the rest of the size does not exceed. The sizes from there up to
the given one all have this split point.
-/

namespace Ulpf.Integrity

/-- A power of two below `n` that the rest of `n` does not exceed. -/
structure IsSplitPoint (n k : UInt64) : Prop where
  pow : ∃ e, k.toNat = 2 ^ e
  lt : k < n
  rest : n - k ≤ k

lemma le_of_two_pow_lt {n a b : ℕ} (ha : 2 ^ a < n) (hb : n ≤ 2 ^ b + 2 ^ b) : a ≤ b := by
  have hlt : 2 ^ a < 2 ^ (b + 1) := by
    rw [pow_succ]
    omega
  have hexp := (Nat.pow_lt_pow_iff_right (by decide : 1 < 2)).mp hlt
  omega

section Words

variable {m n k : UInt64}

lemma rest_iff (h : k < n) : n - k ≤ k ↔ n.toNat ≤ k.toNat + k.toNat := by
  rw [UInt64.le_iff_toNat_le, UInt64.toNat_sub_of_le _ _ (UInt64.le_of_lt h)]
  omega

lemma IsSplitPoint.exists_exponent (h : IsSplitPoint n k) :
    ∃ e, k.toNat = 2 ^ e ∧ 2 ^ e < n.toNat ∧ n.toNat ≤ 2 ^ e + 2 ^ e := by
  obtain ⟨e, he⟩ := h.pow
  refine ⟨e, he, ?_⟩
  rw [← he]
  exact ⟨UInt64.lt_iff_toNat_lt.mp h.lt, (rest_iff h.lt).mp h.rest⟩

lemma IsSplitPoint.eq {k' : UInt64} (h : IsSplitPoint n k) (h' : IsSplitPoint n k') : k = k' := by
  obtain ⟨a, ha, hlt, hrest⟩ := h.exists_exponent
  obtain ⟨b, hb, hlt', hrest'⟩ := h'.exists_exponent
  apply UInt64.toNat_inj.mp
  rw [ha, hb, le_antisymm (le_of_two_pow_lt hlt hrest') (le_of_two_pow_lt hlt' hrest)]

lemma isSplitPoint_of_toNat (hn : 1 < n)
    (hk : k.toNat = largestPowerOfTwoLessThan n.toNat) : IsSplitPoint n k := by
  have hsize : 1 < n.toNat := UInt64.lt_iff_toNat_lt.mp hn
  have hlt : k < n := by
    rw [UInt64.lt_iff_toNat_lt, hk]
    exact largestPowerOfTwoLessThan_lt hsize
  refine ⟨⟨_, hk.trans (largestPowerOfTwoLessThan_eq _)⟩, hlt, ?_⟩
  have hrest := sub_largestPowerOfTwoLessThan_le (n := n.toNat) n.toNat_lt.le
  rw [rest_iff hlt, hk]
  omega

lemma returns_of_between (hk : k.toNat = largestPowerOfTwoLessThan n.toNat) (hkm : k < m)
    (hmn : m ≤ n) : Checked.Returns (Checked.largestPowerOfTwoLessThan m) k := by
  have hpos := largestPowerOfTwoLessThan_pos n.toNat
  have hlow : largestPowerOfTwoLessThan n.toNat < m.toNat := by
    rw [← hk]
    exact UInt64.lt_iff_toNat_lt.mp hkm
  have hm : 1 < m := by
    rw [UInt64.lt_iff_toNat_lt]
    change 1 < m.toNat
    omega
  obtain ⟨k', hreturns, hk'⟩ := Checked.returns_largestPowerOfTwoLessThan hm
  have hsame : k' = k := by
    apply UInt64.toNat_inj.mp
    rw [hk', hk, largestPowerOfTwoLessThan_stable hlow (UInt64.le_iff_toNat_le.mp hmn)]
  rwa [hsame] at hreturns

end Words

/-- The function returns the split point of every size above one, and the same value for every
size between the two. -/
theorem largestPowerOfTwoLessThan_splits (n : UInt64) (hn : 1 < n) :
    ∃ k, Checked.Returns (Checked.largestPowerOfTwoLessThan n) k ∧ IsSplitPoint n k ∧
      (∀ k', IsSplitPoint n k' → k' = k) ∧
      ∀ m, k < m → m ≤ n → Checked.Returns (Checked.largestPowerOfTwoLessThan m) k := by
  obtain ⟨k, hreturns, hk⟩ := Checked.returns_largestPowerOfTwoLessThan hn
  have hsplit := isSplitPoint_of_toNat hn hk
  exact ⟨k, hreturns, hsplit, fun _ h => h.eq hsplit, fun _ => returns_of_between hk⟩

theorem largestPowerOfTwoLessThan_splits_max : (1 : UInt64) < 18446744073709551615 ∧
    ∃ k, Checked.Returns (Checked.largestPowerOfTwoLessThan 18446744073709551615) k ∧
      IsSplitPoint 18446744073709551615 k ∧
      (∀ k', IsSplitPoint 18446744073709551615 k' → k' = k) ∧
      ∀ m, k < m → m ≤ 18446744073709551615 →
        Checked.Returns (Checked.largestPowerOfTwoLessThan m) k :=
  ⟨by decide, largestPowerOfTwoLessThan_splits 18446744073709551615 (by decide)⟩

end Ulpf.Integrity
