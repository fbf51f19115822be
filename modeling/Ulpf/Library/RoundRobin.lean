import Mathlib.Data.Int.CardIntervalMod
import Mathlib.Data.List.Count

/-!
# Round robin

The entries of a list in turn, from some entry on and round after round. Stretches of turns
join (`roundRobin_add`), and within a stretch no entry has more than one turn more than another
(`count_turns`).
-/

namespace Ulpf.Library

/-- The indices that have their turn, of `n` indices. -/
def turns (n first count : ℕ) : List ℕ := (List.range count).map fun j => (first + j) % n

/-- The entries that have their turn. -/
def roundRobin {α : Type*} (l : List α) (first count : ℕ) : List α :=
  (turns l.length first count).filterMap (l[·]?)

variable {α β : Type*}

@[simp] lemma turns_zero (n first : ℕ) : turns n first 0 = [] := rfl

lemma length_turns (n first count : ℕ) : (turns n first count).length = count := by
  rw [turns, List.length_map, List.length_range]

lemma turns_add (n first count count' : ℕ) :
    turns n first (count + count') = turns n first count ++ turns n (first + count) count' := by
  simp [turns, List.range_add, Function.comp_def, Nat.add_assoc]

lemma lt_of_mem_turns {n first count i : ℕ} (hn : 0 < n) (h : i ∈ turns n first count) : i < n := by
  obtain ⟨j, -, rfl⟩ := List.mem_map.mp h
  exact Nat.mod_lt _ hn

/-- The turns of one index are as many as for every other one, up to one. -/
theorem count_turns {n i : ℕ} (hi : i < n) (first count : ℕ) :
    (turns n first count).count i = count / n ∨ (turns n first count).count i = count / n + 1 := by
  have hn : 0 < n := Nat.zero_lt_of_lt hi
  have hlt : first % n < n := Nat.mod_lt _ hn
  have hturn : ∀ j, (first + j) % n = i ↔ j ≡ i + (n - first % n) [MOD n] := by
    intro j
    have hcancel : first + (i + (n - first % n)) ≡ i [MOD n] := by
      have hsum : first + (i + (n - first % n)) = i + n * (first / n + 1) := by
        have hfirst := Nat.div_add_mod first n
        rw [Nat.mul_add, Nat.mul_one]
        omega
      rw [hsum, Nat.ModEq, Nat.add_mul_mod_self_left]
    constructor
    · intro h
      have hmod : first + j ≡ i [MOD n] := by rw [Nat.ModEq, h, Nat.mod_eq_of_lt hi]
      exact Nat.ModEq.add_left_cancel' first (hmod.trans hcancel.symm)
    · intro h
      have hmod : first + j ≡ i [MOD n] := (Nat.ModEq.add_left first h).trans hcancel
      rwa [Nat.ModEq, Nat.mod_eq_of_lt hi] at hmod
  have hcount : (turns n first count).count i = count.count (· ≡ i + (n - first % n) [MOD n]) := by
    rw [turns, List.count_eq_countP, List.countP_map, Nat.count]
    apply List.countP_congr
    intro j _
    simp [hturn j]
  rw [hcount, Nat.count_modEq_card count hn]
  split_ifs
  · exact Or.inr rfl
  · exact Or.inl (Nat.add_zero _)

lemma roundRobin_add (l : List α) (first count count' : ℕ) :
    roundRobin l first (count + count') =
      roundRobin l first count ++ roundRobin l (first + count) count' := by
  rw [roundRobin, turns_add, List.filterMap_append]
  rfl

lemma roundRobin_map (f : α → β) (l : List α) (first count : ℕ) :
    roundRobin (l.map f) first count = (roundRobin l first count).map f := by
  rw [roundRobin, roundRobin, List.length_map, List.map_filterMap]
  simp

lemma mem_of_mem_roundRobin {l : List α} {first count : ℕ} {a : α}
    (h : a ∈ roundRobin l first count) : a ∈ l := by
  obtain ⟨i, -, hi⟩ := List.mem_filterMap.mp h
  exact List.mem_of_getElem? hi

lemma length_roundRobin {l : List α} (hl : l ≠ []) (first count : ℕ) :
    (roundRobin l first count).length = count := by
  rw [roundRobin, List.length_filterMap_eq_countP, List.countP_eq_length.mpr, length_turns]
  intro i hi
  rw [List.getElem?_eq_getElem (lt_of_mem_turns (List.length_pos_iff.mpr hl) hi)]
  rfl

end Ulpf.Library
