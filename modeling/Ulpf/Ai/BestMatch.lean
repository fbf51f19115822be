import Ulpf.Ai.DrainRetention

/-!
# The best match is a maximum

The candidate loop moves its maximum under one condition and its choice under a second one.
With a positive threshold the two never part: the choice is the first candidate of maximal
similarity as soon as any candidate reaches the threshold. This holds of the similarity as the
program rounds it, and of the exact quotient.
-/

namespace Ulpf.Ai.Drain
open Ulpf.Library Ulpf.Library.Binary64 Ulpf.Core

/-- A similarity of template tokens and line tokens under a list of anchors. -/
abbrev Measure := List String → List String → List String → ℚ

/-- `compute_similarity` without rounding. -/
def exactSimilarity : Measure := fun tmplTokens inTokens anchorTokens =>
  if tmplTokens.length ≠ inTokens.length ∨ tmplTokens = [] then 0
  else if (tmplTokens.zip inTokens).any fun p => anchorsDiffer anchorTokens p.1 p.2 then 0
  else ((tmplTokens.zip inTokens).countP fun p => tokenMatches p.1 p.2 : ℕ) / tmplTokens.length

lemma exactSimilarity_nonneg (tmplTokens inTokens anchorTokens : List String) :
    0 ≤ exactSimilarity tmplTokens inTokens anchorTokens := by
  unfold exactSimilarity
  split_ifs
  · exact le_rfl
  · exact le_rfl
  · positivity

lemma computeSimilarity_nonneg (tmplTokens inTokens anchorTokens : List String) :
    0 ≤ computeSimilarity tmplTokens inTokens anchorTokens := by
  unfold computeSimilarity
  split_ifs
  · exact le_rfl
  · exact le_rfl
  · apply nearest_nonneg
    exact div_nonneg (nearest_nonneg (Nat.cast_nonneg _)) (nearest_nonneg (Nat.cast_nonneg _))

namespace DrainMiner

variable (measure : Measure)

/-- One turn of the candidate loop with any similarity. -/
def considerBy (m : DrainMiner) (tokens : List String) (acc : Option ℕ × ℚ) (cId : ℕ) :
    Option ℕ × ℚ :=
  match m.clusters.lookup cId with
  | none => acc
  | some cluster =>
    if cluster.size ≠ tokens.length then acc
    else
      let sim := measure cluster.templateTokens tokens m.config.uniqueAnchorTokens
      if acc.2 < sim then
        (if m.config.similarityThreshold.atMost sim then some cId else acc.1, sim)
      else acc

def findBestMatchBy (overflowChecks : Bool) (m : DrainMiner) (tokens : List String) :
    Option (Option ℕ × ℚ) :=
  (m.candidateLeaf overflowChecks tokens).map fun
    | none => (none, 0)
    | some leaf => leaf.value.foldl (m.considerBy measure tokens) (none, 0)

lemma findBestMatchBy_computeSimilarity (overflowChecks : Bool) (m : DrainMiner)
    (tokens : List String) :
    m.findBestMatchBy computeSimilarity overflowChecks tokens =
      m.findBestMatch overflowChecks tokens := rfl

/-- The clusters of the right size among the ids of a leaf, in its order, with their
similarities. -/
def scored (m : DrainMiner) (tokens : List String) (ids : List ℕ) : List (ℕ × ℚ) :=
  ids.filterMap fun cId => (m.clusters.lookup cId).bind fun cluster =>
    if cluster.size = tokens.length then
      some (cId, measure cluster.templateTokens tokens m.config.uniqueAnchorTokens)
    else none

variable {measure}

lemma foldl_considerBy (m : DrainMiner) (tokens : List String) (ids : List ℕ) :
    ids.foldl (m.considerBy measure tokens) (none, 0) =
      let found := best Prod.snd m.config.similarityThreshold.atMost (m.scored measure tokens ids)
      (found.1.map Prod.fst, found.2) := by
  induction ids using List.reverseRecOn with
  | nil => rfl
  | append_singleton ids cId ih =>
    have hscored : m.scored measure tokens (ids ++ [cId]) =
        m.scored measure tokens ids ++ m.scored measure tokens [cId] := List.filterMap_append
    rw [List.foldl_append, ih, hscored, List.foldl_cons, List.foldl_nil]
    unfold considerBy
    cases hlookup : m.clusters.lookup cId with
    | none => simp [scored, hlookup]
    | some cluster =>
      by_cases hsize : cluster.size = tokens.length
      · have hsingle : m.scored measure tokens [cId] =
            [(cId, measure cluster.templateTokens tokens m.config.uniqueAnchorTokens)] := by
          simp [scored, hlookup, hsize]
        rw [hsingle, best_concat, takeBetter]
        simp only [hsize, ne_eq, not_true_eq_false, if_false]
        split_ifs <;> rfl
      · simp [scored, hlookup, hsize]

end DrainMiner

/-! ### The maximum -/

/-- Greater than zero. -/
def Positive : Double → Prop
  | .nan => False
  | .infinite negative => negative = false
  | .finite value => 0 < value

/-- The choice is the first candidate of maximal similarity, present exactly when some
candidate reaches the threshold, and the similarity is that maximum, or zero without
candidates. -/
structure IsMaximum (threshold : Double) (candidates : List (ℕ × ℚ)) (found : Option ℕ × ℚ) :
    Prop where
  isSome_iff : found.1.isSome ↔ ∃ c ∈ candidates, threshold.atMost c.2 = true
  chosen : ∀ cId, found.1 = some cId → ∃ before after,
    candidates = before ++ (cId, found.2) :: after ∧ (∀ c ∈ before, c.2 < found.2) ∧
      ∀ c ∈ after, c.2 ≤ found.2
  le : ∀ c ∈ candidates, c.2 ≤ found.2
  attained : candidates ≠ [] → ∃ c ∈ candidates, c.2 = found.2
  none : candidates = [] → found.2 = 0

lemma pos_of_atMost {threshold : Double} (h : Positive threshold) {x : ℚ}
    (hx : threshold.atMost x = true) : 0 < x := by
  cases threshold with
  | nan => cases h
  | infinite negative =>
    cases h
    cases hx
  | finite value =>
    rw [Double.atMost, decide_eq_true_eq] at hx
    exact h.trans_le hx

lemma isMaximum_best {threshold : Double} (hpositive : Positive threshold)
    {candidates : List (ℕ × ℚ)} (hnonneg : ∀ c ∈ candidates, 0 ≤ c.2) :
    let found := best Prod.snd threshold.atMost candidates
    IsMaximum threshold candidates (found.1.map Prod.fst, found.2) := by
  intro found
  have hmono : ∀ x y, x ≤ y → threshold.atMost x = true → threshold.atMost y = true :=
    fun _ _ => threshold.atMost_mono
  have hle : ∀ c ∈ candidates, c.2 ≤ found.2 := fun c hc => le_best Prod.snd _ hc
  constructor
  · rw [Option.isSome_map, ← not_iff_not, Option.not_isSome_iff_eq_none, best_fst_eq_none_iff hmono]
    push Not
    refine forall₂_congr fun c hc => ?_
    constructor
    · intro hnone hgood
      rw [hnone (pos_of_atMost hpositive hgood)] at hgood
      cases hgood
    · exact fun hbad _ => Bool.eq_false_of_not_eq_true hbad
  · intro cId hcId
    obtain ⟨c, hc, rfl⟩ := Option.map_eq_some_iff.mp hcId
    have hmax := (best_fst_eq_some_iff hmono candidates c).mp hc
    have hsim : found.2 = c.2 := le_antisymm hmax.best_le (hle c hmax.mem)
    obtain ⟨-, -, before, after, hsplit, hbefore, hafter⟩ := hmax
    refine ⟨before, after, ?_, ?_, ?_⟩
    · rw [hsim]
      exact hsplit
    · rw [hsim]
      exact hbefore
    · rw [hsim]
      exact hafter
  · exact hle
  · intro hne
    rcases best_attained Prod.snd threshold.atMost candidates with hzero | hattained
    · obtain ⟨c, hc⟩ := List.exists_mem_of_ne_nil candidates hne
      refine ⟨c, hc, le_antisymm (hle c hc) ?_⟩
      change found.2 ≤ c.2
      rw [show found.2 = 0 from hzero]
      exact hnonneg c hc
    · exact hattained
  · rintro rfl
    rfl

lemma nonneg_of_mem_scored {measure : Measure} (hmeasure : ∀ ts us as, 0 ≤ measure ts us as)
    {m : DrainMiner} {tokens : List String} {ids : List ℕ} {c : ℕ × ℚ}
    (hc : c ∈ m.scored measure tokens ids) : 0 ≤ c.2 := by
  obtain ⟨cId, -, heq⟩ := List.mem_filterMap.mp hc
  obtain ⟨cluster, -, hcluster⟩ := Option.bind_eq_some_iff.mp heq
  split_ifs at hcluster with hsize
  cases hcluster
  exact hmeasure _ _ _

lemma findBestMatchBy_eq {measure : Measure} (overflowChecks : Bool) (m : DrainMiner)
    (tokens : List String) {ids : List ℕ} (h : m.candidates overflowChecks tokens = some ids) :
    m.findBestMatchBy measure overflowChecks tokens =
      some (ids.foldl (m.considerBy measure tokens) (none, 0)) := by
  obtain ⟨leaf, hleaf, rfl⟩ := Option.map_eq_some_iff.mp h
  rw [DrainMiner.findBestMatchBy, hleaf]
  cases leaf <;> rfl

lemma isMaximum_findBestMatchBy {measure : Measure} (hmeasure : ∀ ts us as, 0 ≤ measure ts us as)
    {overflowChecks : Bool} {m : DrainMiner} (hpositive : Positive m.config.similarityThreshold)
    {tokens : List String} {ids : List ℕ} (h : m.candidates overflowChecks tokens = some ids) :
    ∃ found, m.findBestMatchBy measure overflowChecks tokens = some found ∧
      IsMaximum m.config.similarityThreshold (m.scored measure tokens ids) found := by
  refine ⟨_, findBestMatchBy_eq overflowChecks m tokens h, ?_⟩
  rw [DrainMiner.foldl_considerBy]
  exact isMaximum_best hpositive fun c hc => nonneg_of_mem_scored hmeasure hc

/-! ### Reachable states -/

section Reachable

variable {mask : String → String} {overflowChecks : Bool} {config : DrainConfig}

lemma config_of_run {calls : List AddLogCall} {m : DrainMiner}
    (hrun : run (DrainMiner.step mask overflowChecks) (.new config) calls = some m) :
    m.config = config := by
  refine run_induction (motive := fun _ m => m.config = config) _ rfl ?_ hrun
  rintro done call u v - hu hstep
  obtain ⟨out, hadd, rfl⟩ := Option.map_eq_some_iff.mp hstep
  exact (config_addLog hadd).trans hu

/-- Where the depth underflows, no line has ever been inserted. -/
lemma root_of_run {calls : List AddLogCall} {m : DrainMiner}
    (hrun : run (DrainMiner.step mask overflowChecks) (.new config) calls = some m)
    (hdepth : maxPrefixDepth overflowChecks config = none) : m.root = Node.new := by
  have hboth : m.config = config ∧ m.root = Node.new := by
    refine run_induction (motive := fun _ m => m.config = config ∧ m.root = Node.new) _
      ⟨rfl, rfl⟩ ?_ hrun
    rintro done call u v - ⟨hconfig, hroot⟩ hstep
    obtain ⟨out, hadd, rfl⟩ := Option.map_eq_some_iff.mp hstep
    refine ⟨(config_addLog hadd).trans hconfig, ?_⟩
    cases addsLog_of_addLog hadd with
    | blank hblank => exact hroot
    | merged tokens cId maxSim found htokens hne hbest hfound => exact hroot
    | opened tokens maxSim root htokens hne hbest hinsert =>
      rw [DrainMiner.insertToTree, hconfig, hdepth] at hinsert
      cases hinsert
  exact hboth.2

lemma exists_candidates {calls : List AddLogCall} {m : DrainMiner}
    (hrun : run (DrainMiner.step mask overflowChecks) (.new config) calls = some m)
    (tokens : List String) : ∃ ids, m.candidates overflowChecks tokens = some ids := by
  rw [← Option.isSome_iff_exists, DrainMiner.candidates, Option.isSome_map,
    DrainMiner.candidateLeaf]
  cases hdepth : maxPrefixDepth overflowChecks config with
  | none =>
    rw [root_of_run hrun hdepth]
    rfl
  | some depth =>
    rw [config_of_run hrun, hdepth]
    split <;> rfl

end Reachable

/-- In every reachable state the search returns the first cluster of maximal similarity in the
leaf it reaches, exactly if one of them reaches the threshold, together with that maximum. With
exact similarities it does so in every state at all. -/
theorem findBestMatch_isMaximum (mask : String → String) (overflowChecks : Bool)
    (config : DrainConfig) (hpositive : Positive config.similarityThreshold)
    (calls : List AddLogCall) (m : DrainMiner)
    (hrun : run (DrainMiner.step mask overflowChecks) (.new config) calls = some m)
    (tokens : List String) :
    (∃ ids, m.candidates overflowChecks tokens = some ids ∧
      ∃ found, m.findBestMatch overflowChecks tokens = some found ∧
        IsMaximum config.similarityThreshold (m.scored computeSimilarity tokens ids) found) ∧
      ∀ n : DrainMiner, n.config = config → ∀ ids, n.candidates overflowChecks tokens = some ids →
        ∃ found, n.findBestMatchBy exactSimilarity overflowChecks tokens = some found ∧
          IsMaximum config.similarityThreshold (n.scored exactSimilarity tokens ids) found := by
  constructor
  · obtain ⟨ids, hids⟩ := exists_candidates hrun tokens
    have hconfig := config_of_run hrun
    refine ⟨ids, hids, ?_⟩
    rw [← DrainMiner.findBestMatchBy_computeSimilarity, ← hconfig]
    exact isMaximum_findBestMatchBy computeSimilarity_nonneg (hconfig ▸ hpositive) hids
  · rintro n rfl ids hids
    exact isMaximum_findBestMatchBy exactSimilarity_nonneg hpositive hids

/-- Two lines whose anchors separate them share a leaf, and a third one is compared with both. -/
theorem findBestMatch_isMaximum_pair :
    ∃ m, run (DrainMiner.step id false) (.new {})
        [⟨"rule hit ALLOW", 0, 0⟩, ⟨"rule hit DENY", 1, 0⟩] = some m ∧
      m.candidates false ["rule", "hit", "DENY"] = some [1, 2] ∧
      IsMaximum (.finite (1 / 2)) (m.scored computeSimilarity ["rule", "hit", "DENY"] [1, 2])
        (some 2, 1) := by
  have hpositive : Positive ({} : DrainConfig).similarityThreshold := by
    change (0 : ℚ) < 1 / 2
    norm_num
  have heval : ((run (DrainMiner.step id false) (.new {})
      [⟨"rule hit ALLOW", 0, 0⟩, ⟨"rule hit DENY", 1, 0⟩]).map fun m =>
        (m.candidates false ["rule", "hit", "DENY"],
          m.findBestMatch false ["rule", "hit", "DENY"])) =
      some (some [1, 2], some (some 2, 1)) := by
    decide +kernel
  obtain ⟨m, hrun, hm⟩ := Option.map_eq_some_iff.mp heval
  obtain ⟨hids, hfound⟩ := Prod.mk.inj hm
  obtain ⟨⟨ids, hids', found, hfound', hmaximum⟩, -⟩ := findBestMatch_isMaximum id false {}
    hpositive _ m hrun ["rule", "hit", "DENY"]
  cases hids.symm.trans hids'
  cases hfound.symm.trans hfound'
  exact ⟨m, hrun, hids, hmaximum⟩

end Ulpf.Ai.Drain
