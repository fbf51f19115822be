import Mathlib.Data.List.Permutation
import Ulpf.Ai.Laya
import Ulpf.Library.StableSort

/-!
# The order of the action priors

The action of a line is ranked like its vendor, but over a `HashMap`: the scores are collected and
their exponentials added in the order in which the map happens to be walked. The exponential is any
function into the doubles.
-/

namespace Ulpf.Ai
open Ulpf.Core Ulpf.Library
open Ulpf.Library.Binary64

namespace LayaDecisionEngine

/-- The entries of the map, in one of their orders. -/
def actionTokenPriors : List (String × List String) :=
  [("Allowed",
      ["allow", "accept", "pass", "permit", "built", "created", "open", "authorized"]),
    ("Blocked", ["block", "reject", "prevent", "denied", "filtered", "quarantine"]),
    ("Dropped", ["drop", "deny", "discard", "timeout", "blackhole"]),
    ("Alert", ["alert", "notice", "warn", "warning", "alarm", "violation", "tamper"])]

def actionScores (order : List (String × List String)) (input : String) : List (String × ℚ) :=
  order.map fun entry => (entry.1, matchWeight 3 (toAsciiLowercase input).toList entry.2)

section ClassifyAction

variable (exp : ℚ → ℚ)

/-- Disambiguate security action into OCSF disposition; `order` is that of the map. -/
def classifyAction (order : List (String × List String)) (input : String) : LayaChoice :=
  let rankings := rank exp (actionScores order input)
  let top := rankings.head?.getD ("Unknown", 0.5)
  ⟨top.1, top.2, rankings⟩

/-- Any two walks through the map give the same choice. -/
def OrderIndependent (input : String) : Prop :=
  ∀ order order' : List (String × List String), order.Perm actionTokenPriors →
    order'.Perm actionTokenPriors → classifyAction exp order input = classifyAction exp order' input

/-- The tokens of the entry that stand in the line. -/
def hits (input : String) (entry : String × List String) : ℕ :=
  entry.2.countP fun token => contains (toAsciiLowercase input).toList token

/-- The calibrated share of `n` hits, three points each, in a sum over all hits in their order. -/
def share (counts : List ℕ) (n : ℕ) : ℚ :=
  clamp minProbability maxProbability
    (divide (exp (3 * n)) (counts.foldl (fun acc (m : ℕ) => nearest (acc + exp (3 * m))) 0))

/-- The shares of the hits are the same in whichever order the sum takes them, and no two of them
are equal. -/
def Settled (counts : List ℕ) : Prop :=
  (∀ counts' ∈ counts.permutations', ∀ n ∈ counts, share exp counts' n = share exp counts n) ∧
    counts.Pairwise fun m n => share exp counts m ≠ share exp counts n

instance (counts : List ℕ) : Decidable (Settled exp counts) :=
  inferInstanceAs (Decidable (_ ∧ _))

end ClassifyAction

/-! ### Scores -/

lemma matchWeight_eq (weight : ℚ) (input : Text) (priors : List String) :
    matchWeight weight input priors = weight * priors.countP fun token => contains input token := by
  unfold matchWeight
  induction priors using List.reverseRecOn with
  | nil => simp
  | append_singleton priors token ih =>
    rw [List.foldl_append, ih, List.countP_append]
    by_cases h : contains input token = true
    · simp [h, mul_add]
    · simp [h]

lemma actionScores_eq (order : List (String × List String)) (input : String) :
    actionScores order input = order.map fun entry => (entry.1, 3 * (hits input entry : ℚ)) := by
  unfold actionScores
  apply List.map_congr_left
  intro entry _
  rw [matchWeight_eq]
  rfl

variable {exp : ℚ → ℚ} {input : String}

/-- The entry of the ranking that belongs to an entry of the map. -/
def rankedEntry (exp : ℚ → ℚ) (counts : List ℕ) (input : String) (entry : String × List String) :
    String × ℚ :=
  (entry.1, share exp counts (hits input entry))

lemma totalRaw_actionScores (order : List (String × List String)) (input : String) :
    totalRaw exp (actionScores order input) =
      (order.map (hits input)).foldl (fun acc (m : ℕ) => nearest (acc + exp (3 * m))) 0 := by
  rw [totalRaw, actionScores_eq, List.foldl_map, List.foldl_map]

lemma rankings_classifyAction (order : List (String × List String)) (input : String) :
    (classifyAction exp order input).rankings =
      sortByScore Prod.snd (order.map (rankedEntry exp (order.map (hits input)) input)) := by
  unfold classifyAction rank
  dsimp only
  rw [totalRaw_actionScores, actionScores_eq, List.map_map]
  rfl

lemma classifyAction_eq_iff {order order' : List (String × List String)} {input : String} :
    classifyAction exp order input = classifyAction exp order' input ↔
      (classifyAction exp order input).rankings = (classifyAction exp order' input).rankings := by
  constructor
  · exact congrArg LayaChoice.rankings
  · intro h
    unfold classifyAction at h ⊢
    simp only at h
    simp only [h]

lemma label_classifyAction (order : List (String × List String)) (input : String) :
    (classifyAction exp order input).label =
      ((classifyAction exp order input).rankings.head?.getD ("Unknown", 0.5)).1 := rfl

/-! ### Walks -/

lemma nodup_labels {order : List (String × List String)} (horder : order.Perm actionTokenPriors) :
    (order.map Prod.fst).Nodup := by
  rw [(horder.map Prod.fst).nodup_iff]
  decide

lemma nodup_rankedEntry (counts : List ℕ) (input : String) :
    (actionTokenPriors.map (rankedEntry exp counts input)).Nodup := by
  apply List.Nodup.of_map Prod.fst
  rw [List.map_map]
  exact nodup_labels (List.Perm.refl _)

lemma share_eq_of_rankings_eq {order order' : List (String × List String)}
    (horder : order.Perm actionTokenPriors) (horder' : order'.Perm actionTokenPriors)
    (h : (classifyAction exp order input).rankings = (classifyAction exp order' input).rankings)
    {entry : String × List String} (hentry : entry ∈ actionTokenPriors) :
    share exp (order.map (hits input)) (hits input entry) =
      share exp (order'.map (hits input)) (hits input entry) := by
  rw [rankings_classifyAction, rankings_classifyAction] at h
  have hmem : rankedEntry exp (order.map (hits input)) input entry ∈
      order'.map (rankedEntry exp (order'.map (hits input)) input) := by
    rw [← (perm_sortByScore Prod.snd _).mem_iff, ← h, (perm_sortByScore Prod.snd _).mem_iff]
    exact List.mem_map_of_mem (horder.mem_iff.mpr hentry)
  obtain ⟨other, hother, heq⟩ := List.mem_map.mp hmem
  have hlabel : other.1 = entry.1 := (Prod.ext_iff.mp heq).1
  have hsame : other = entry := List.inj_on_of_nodup_map (nodup_labels horder') hother
    (horder'.mem_iff.mpr hentry) hlabel
  rw [hsame] at heq
  exact (congrArg Prod.snd heq).symm

lemma rankings_of_shares {order : List (String × List String)} {counts : List ℕ}
    (h : ∀ entry ∈ order, share exp (order.map (hits input)) (hits input entry) =
      share exp counts (hits input entry)) :
    (classifyAction exp order input).rankings =
      sortByScore Prod.snd (order.map (rankedEntry exp counts input)) := by
  rw [rankings_classifyAction]
  congr 1
  apply List.map_congr_left
  intro entry hentry
  rw [rankedEntry, rankedEntry, h entry hentry]

lemma pairwise_share_iff : (actionTokenPriors.map (hits input)).Pairwise
      (fun m n => share exp (actionTokenPriors.map (hits input)) m ≠
        share exp (actionTokenPriors.map (hits input)) n) ↔
    actionTokenPriors.Pairwise fun a b =>
      (rankedEntry exp (actionTokenPriors.map (hits input)) input a).2 ≠
        (rankedEntry exp (actionTokenPriors.map (hits input)) input b).2 := List.pairwise_map

/-- The doubles next to the exponentials of up to five hits. -/
def roundedExp (q : ℚ) : ℚ :=
  nearest (([(0, 1), (3, 20.085536923187668), (6, 403.4287934927351), (9, 8103.083927575384),
    (12, 162754.79141900392), (15, 3269017.3724721107)].lookup q).getD 0)

-- Sums of four exponentials that do not depend on the order, and ones that do.
example : Settled roundedExp [0, 1, 2, 3] ∧ ¬Settled roundedExp [0, 3, 4, 5] := by decide +kernel

/-! ### The empty line -/

lemma hits_empty : ∀ entry ∈ actionTokenPriors, hits "" entry = 0 := by decide +kernel

lemma rankings_of_no_hits {order : List (String × List String)}
    (horder : order.Perm actionTokenPriors) :
    (classifyAction exp order "").rankings =
      order.map (rankedEntry exp (order.map (hits "")) "") := by
  rw [rankings_classifyAction]
  apply sortByScore_eq_self
  apply List.pairwise_map.mpr
  apply List.pairwise_of_forall_mem_list
  intro a ha b hb
  rw [rankedEntry, rankedEntry, hits_empty a (horder.mem_iff.mp ha),
    hits_empty b (horder.mem_iff.mp hb)]

end LayaDecisionEngine

end Ulpf.Ai
