import Mathlib.Algebra.BigOperators.Group.Finset.Piecewise
import Mathlib.Algebra.GroupWithZero.Nat
import Mathlib.Algebra.Order.BigOperators.Group.Finset
import Mathlib.Data.Finset.Lattice.Fold
import Mathlib.Data.List.AList
import Mathlib.Data.List.Count
import Mathlib.Order.Lattice.Nat

/-!
# Groupings

Items are grouped into clusters, and each has a label of its own. When one label is given to each
cluster, some items are labelled right; the `score` of the grouping is the most that can be
(`agreement_le_score`, `exists_agreement_eq_score`). It is all of them if no cluster mixes labels
(`score_eq_length_iff`), and merging clusters never raises it (`score_map_le`). A nested map of
counts computes it (`majoritySum_tally`).
-/

namespace Ulpf.Library.Grouping

variable {κ κ' τ : Type*} [DecidableEq κ] [DecidableEq κ'] [DecidableEq τ]

/-- The items with the label that is given to their cluster. -/
def agreement (l : List (κ × τ)) (f : κ → τ) : ℕ := l.countP fun p => decide (p.2 = f p.1)

/-- The items of the most frequent label, summed over the clusters. -/
def score (l : List (κ × τ)) : ℕ :=
  ∑ c ∈ (l.map Prod.fst).toFinset, (l.map Prod.snd).toFinset.sup fun t => l.count (c, t)

/-! ### The best labels -/

variable (l : List (κ × τ)) (f : κ → τ)

lemma agreement_eq_sum {S : Finset κ} (h : ∀ p ∈ l, p.1 ∈ S) :
    agreement l f = ∑ c ∈ S, l.count (c, f c) := by
  induction l with
  | nil => simp [agreement]
  | cons p l ih =>
    obtain ⟨hp, hl⟩ := List.forall_mem_cons.mp h
    have hone : (if p.2 = f p.1 then 1 else 0) = ∑ c ∈ S, if p = (c, f c) then 1 else 0 := by
      rw [Finset.sum_eq_single_of_mem p.1 hp]
      · simp [Prod.ext_iff]
      · intro c _ hne
        exact if_neg fun heq => hne (congrArg Prod.fst heq).symm
    have hrest := ih hl
    rw [agreement] at hrest ⊢
    simp only [List.countP_cons, List.count_cons, beq_iff_eq, decide_eq_true_eq]
    rw [hrest, hone, Finset.sum_add_distrib]

/-- However the clusters are labelled, the score is not exceeded. -/
theorem agreement_le_score : agreement l f ≤ score l := by
  rw [agreement_eq_sum l f (S := (l.map Prod.fst).toFinset), score]
  · apply Finset.sum_le_sum
    intro c _
    by_cases hlabel : f c ∈ (l.map Prod.snd).toFinset
    · exact Finset.le_sup (f := fun t => l.count (c, t)) hlabel
    · have hnone : (c, f c) ∉ l := by
        intro hmem
        exact hlabel (List.mem_toFinset.mpr (List.mem_map_of_mem hmem))
      rw [List.count_eq_zero_of_not_mem hnone]
      exact Nat.zero_le _
  · intro p hp
    exact List.mem_toFinset.mpr (List.mem_map_of_mem hp)

theorem exists_agreement_eq_score [Nonempty τ] : ∃ f, agreement l f = score l := by
  by_cases hl : l = []
  · obtain ⟨t⟩ := ‹Nonempty τ›
    subst hl
    exact ⟨fun _ => t, rfl⟩
  · have hlabels : (l.map Prod.snd).toFinset.Nonempty := by
      rw [List.toFinset_nonempty_iff, ne_eq, List.map_eq_nil_iff]
      exact hl
    have hbest : ∀ c, ∃ t, (l.map Prod.snd).toFinset.sup (fun t => l.count (c, t)) =
        l.count (c, t) := by
      intro c
      obtain ⟨t, -, ht⟩ := Finset.exists_mem_eq_sup _ hlabels fun t => l.count (c, t)
      exact ⟨t, ht⟩
    choose f hf using hbest
    refine ⟨f, ?_⟩
    rw [agreement_eq_sum l f (S := (l.map Prod.fst).toFinset), score]
    · exact Finset.sum_congr rfl fun c _ => (hf c).symm
    · intro p hp
      exact List.mem_toFinset.mpr (List.mem_map_of_mem hp)

theorem score_le_length : score l ≤ l.length := by
  rcases l with _ | ⟨p, l⟩
  · exact Nat.zero_le _
  · have : Nonempty τ := ⟨p.2⟩
    obtain ⟨f, hf⟩ := exists_agreement_eq_score (p :: l)
    rw [← hf]
    exact List.countP_le_length

/-- All items can be labelled right if and only if no cluster mixes labels. -/
theorem score_eq_length_iff :
    score l = l.length ↔ ∀ p ∈ l, ∀ q ∈ l, p.1 = q.1 → p.2 = q.2 := by
  constructor
  · intro h p hp q hq hcluster
    have : Nonempty τ := ⟨p.2⟩
    obtain ⟨f, hf⟩ := exists_agreement_eq_score l
    rw [h, agreement, List.countP_eq_length] at hf
    have hpf := of_decide_eq_true (hf p hp)
    have hqf := of_decide_eq_true (hf q hq)
    rw [hpf, hqf, hcluster]
  · intro h
    apply le_antisymm (score_le_length l)
    rcases l with _ | ⟨p, l⟩
    · exact Nat.zero_le _
    · -- Each cluster is given the label of its first item.
      let f : κ → τ := fun c => (((p :: l).find? fun q => decide (q.1 = c)).getD p).2
      have hall : agreement (p :: l) f = (p :: l).length := by
        rw [agreement, List.countP_eq_length]
        intro q hq
        rw [decide_eq_true_eq]
        have hsome : ((p :: l).find? fun r => decide (r.1 = q.1)).isSome := by
          rw [List.find?_isSome]
          exact ⟨q, hq, decide_eq_true rfl⟩
        obtain ⟨r, hr⟩ := Option.isSome_iff_exists.mp hsome
        have hcluster : r.1 = q.1 := by simpa using List.find?_some hr
        change q.2 = (((p :: l).find? fun r => decide (r.1 = q.1)).getD p).2
        rw [hr]
        exact h q hq r (List.mem_of_find?_eq_some hr) hcluster.symm
      rw [← hall]
      exact agreement_le_score _ f

/-- A coarser grouping does not score better. -/
theorem score_map_le (g : κ → κ') : score (l.map (Prod.map g id)) ≤ score l := by
  rcases l with _ | ⟨p, l⟩
  · exact Nat.zero_le _
  · have : Nonempty τ := ⟨p.2⟩
    obtain ⟨f, hf⟩ := exists_agreement_eq_score ((p :: l).map (Prod.map g id))
    have hsame : agreement ((p :: l).map (Prod.map g id)) f = agreement (p :: l) (f ∘ g) := by
      rw [agreement, agreement, List.countP_map]
      rfl
    rw [← hf, hsame]
    exact agreement_le_score _ _

/-! ### Counting in a nested map -/

/-- `HashMap<κ, HashMap<τ, usize>>` -/
abbrev Tally (κ τ : Type*) [DecidableEq κ] [DecidableEq τ] :=
  AList fun _ : κ => AList fun _ : τ => ℕ

namespace Tally

def inner (m : Tally κ τ) (c : κ) : AList fun _ : τ => ℕ := (m.lookup c).getD ∅

/-- `*map.entry(c).or_default().entry(t).or_insert(0) += 1` -/
def add (m : Tally κ τ) (p : κ × τ) : Tally κ τ :=
  m.insert p.1 ((m.inner p.1).insert p.2 (((m.inner p.1).lookup p.2).getD 0 + 1))

/-- `map.values().map(|counts| counts.values().max().copied().unwrap_or(0)).sum()` -/
def majoritySum (m : Tally κ τ) : ℕ :=
  (m.entries.map fun e => (e.2.entries.map Sigma.snd).max?.getD 0).sum

def votes (m : Tally κ τ) (c : κ) (t : τ) : ℕ := ((m.inner c).lookup t).getD 0

/-- The map holds the counts of the items, for their clusters and labels only. -/
structure Counts (m : Tally κ τ) (l : List (κ × τ)) : Prop where
  votes : ∀ c t, m.votes c t = l.count (c, t)
  clusters : ∀ c, c ∈ m ↔ c ∈ l.map Prod.fst
  labels : ∀ c t, t ∈ m.inner c → t ∈ l.map Prod.snd

variable {l} {m : Tally κ τ}

lemma inner_add (m : Tally κ τ) (p : κ × τ) (c : κ) :
    (m.add p).inner c =
      if c = p.1 then (m.inner p.1).insert p.2 (m.votes p.1 p.2 + 1) else m.inner c := by
  unfold add inner
  split_ifs with hc
  · subst hc
    rw [AList.lookup_insert]
    rfl
  · rw [AList.lookup_insert_ne hc]

lemma Counts.add (h : m.Counts l) (p : κ × τ) : (m.add p).Counts (l ++ [p]) where
  votes c t := by
    rw [List.count_append, List.count_singleton, ← h.votes c t, Tally.votes, inner_add]
    by_cases hc : c = p.1
    · subst hc
      rw [if_pos rfl]
      by_cases ht : t = p.2
      · subst ht
        simp [AList.lookup_insert]
      · have hne : p ≠ (p.1, t) := fun heq => ht (congrArg Prod.snd heq).symm
        rw [AList.lookup_insert_ne ht, if_neg (by simpa using hne)]
        rfl
    · have hne : p ≠ (c, t) := fun heq => hc (congrArg Prod.fst heq).symm
      rw [if_neg hc, if_neg (by simpa using hne)]
      rfl
  clusters c := by
    rw [Tally.add, AList.mem_insert, h.clusters, List.map_append, List.mem_append, or_comm,
      List.map_singleton, List.mem_singleton]
  labels c t ht := by
    rw [List.map_append, List.mem_append, List.map_singleton, List.mem_singleton]
    rw [inner_add] at ht
    split_ifs at ht with hc
    · rcases (AList.mem_insert _).mp ht with rfl | hold
      · exact Or.inr rfl
      · exact Or.inl (h.labels _ t hold)
    · exact Or.inl (h.labels c t ht)

lemma counts_tally (l : List (κ × τ)) : (l.foldl add (∅ : Tally κ τ)).Counts l := by
  induction l using List.reverseRecOn with
  | nil =>
    refine ⟨fun _ _ => rfl, fun c => ?_, fun c t h => ?_⟩
    · exact iff_of_false (AList.notMem_empty c) List.not_mem_nil
    · exact absurd h (AList.notMem_empty t)
  | append_singleton l p ih =>
    rw [List.foldl_concat]
    exact ih.add p

lemma max?_values {a : AList fun _ : τ => ℕ} {T : Finset τ} (h : ∀ t ∈ a, t ∈ T) :
    (a.entries.map Sigma.snd).max?.getD 0 = T.sup fun t => (a.lookup t).getD 0 := by
  have hvalue : ∀ e ∈ a.entries, (a.lookup e.1).getD 0 = e.2 := by
    intro e he
    rw [AList.mem_lookup_iff.mpr he, Option.getD_some]
  apply le_antisymm
  · cases hmax : (a.entries.map Sigma.snd).max? with
    | none => exact Nat.zero_le _
    | some n =>
      obtain ⟨e, he, rfl⟩ := List.mem_map.mp (List.max?_mem hmax)
      rw [Option.getD_some, ← hvalue e he]
      exact Finset.le_sup (f := fun t => (a.lookup t).getD 0)
        (h e.1 (AList.mem_keys.mpr (List.mem_map_of_mem he)))
  · apply Finset.sup_le
    intro t _
    cases hlookup : a.lookup t with
    | none => exact Nat.zero_le _
    | some n =>
      have hmem : n ∈ a.entries.map Sigma.snd :=
        List.mem_map_of_mem (AList.mem_lookup_iff.mp hlookup)
      cases hmax : (a.entries.map Sigma.snd).max? with
      | none =>
        rw [List.max?_eq_none_iff] at hmax
        rw [hmax] at hmem
        cases hmem
      | some k => exact (List.max?_le_iff hmax).mp le_rfl n hmem

lemma Counts.majoritySum (h : m.Counts l) : m.majoritySum = score l := by
  have hentry : ∀ e ∈ m.entries, (e.2.entries.map Sigma.snd).max?.getD 0 =
      (l.map Prod.snd).toFinset.sup fun t => l.count (e.1, t) := by
    intro e he
    have hinner : m.inner e.1 = e.2 := by
      rw [inner, AList.mem_lookup_iff.mpr he, Option.getD_some]
    have hlabels : ∀ t ∈ e.2, t ∈ (l.map Prod.snd).toFinset := by
      intro t ht
      rw [← hinner] at ht
      exact List.mem_toFinset.mpr (h.labels e.1 t ht)
    rw [max?_values hlabels]
    apply Finset.sup_congr rfl
    intro t _
    rw [← h.votes, Tally.votes, hinner]
  have hkeys : m.keys.toFinset = (l.map Prod.fst).toFinset := by
    ext c
    rw [List.mem_toFinset, List.mem_toFinset, ← AList.mem_keys, h.clusters]
  rw [Tally.majoritySum, score, ← hkeys, List.sum_toFinset _ (AList.keys_nodup m), AList.keys,
    List.keys, List.map_map]
  exact congrArg List.sum (List.map_congr_left hentry)

/-- The sum of the majorities of the nested map is the score. -/
theorem majoritySum_tally (l : List (κ × τ)) :
    (l.foldl add (∅ : Tally κ τ)).majoritySum = score l :=
  (counts_tally l).majoritySum

end Tally

end Ulpf.Library.Grouping
