import Mathlib.Data.List.AList
import Ulpf.Ai.Pipeline
import Ulpf.Library.Binary64
import Ulpf.Library.FirstMax
import Ulpf.Library.PrefixTree

/-!
# The Drain miner

`add_log` masks and tokenizes a line, looks for the most similar cluster in a prefix tree of
fixed depth, and merges the line into it or opens a new cluster. The masker (the `regex`
crate) is the parameter `mask`, clock readings are inputs of a call. The tree depth is used
as `depth - 2` on a `usize`: below two, `overflowChecks` decides between a stop and a wrap.
Counters are natural numbers, and so are the bounds of the surge check: a `rare_count_threshold`
above `2 ^ 64 / 3`, with which three times the threshold wraps or stops a checked build, is out of
the model.
-/

namespace Ulpf.Ai.Drain
open Ulpf.Library Ulpf.Library.Binary64 Ulpf.Core

structure DrainConfig where
  depth : ℕ := 4
  similarityThreshold : Double := .finite (1 / 2)
  maxChildren : ℕ := 100
  maxClusters : ℕ := 10000
  rareCountThreshold : ℕ := 5
  surgeMultiplier : Double := .finite 3
  windowSize : ℕ := 100
  uniqueAnchorTokens : List String :=
    ["ALLOW", "DENY", "DROP", "BLOCK", "PERMIT", "REJECT", "PASS"]

inductive AlertSeverity where
  | info
  | low
  | medium
  | high
  | critical
deriving DecidableEq

inductive AnomalyType where
  | newTemplate
  | rareClusterSurge
  | evasionAnomaly
deriving DecidableEq

structure AnomalyAlert where
  anomalyType : AnomalyType
  clusterId : ℕ
  template : String
  message : String
  timestamp : Int64
  count : ℕ
  severity : AlertSeverity
deriving DecidableEq

structure LogCluster where
  clusterId : ℕ
  templateTokens : List String
  template : String
  count : ℕ
  size : ℕ
  createdAt : Int64
  lastSeen : Int64
  recentTimestamps : List Int64

/-- The token of a masked parameter. -/
def wildcard : String := "<*>"

/-- `tokens.join(" ")` -/
def joinTokens (tokens : List String) : String := String.intercalate " " tokens

namespace LogCluster

def new (clusterId : ℕ) (tokens : List String) (nowMs : Int64) : LogCluster where
  clusterId := clusterId
  templateTokens := tokens
  template := joinTokens tokens
  count := 1
  size := tokens.length
  createdAt := nowMs
  lastSeen := nowMs
  recentTimestamps := [nowMs]

/-- A template token that meets another token becomes the wildcard. -/
def mergeToken (tmplToken inToken : String) : String :=
  if tmplToken ≠ inToken ∧ tmplToken ≠ wildcard then wildcard else tmplToken

def mergeTokens : List String → List String → List String
  | tmplToken :: tmplTokens, inToken :: inTokens =>
    mergeToken tmplToken inToken :: mergeTokens tmplTokens inTokens
  | tmplTokens, _ => tmplTokens

def update (c : LogCluster) (incomingTokens : List String) (nowMs : Int64) : LogCluster :=
  let recent := if 64 ≤ c.recentTimestamps.length then c.recentTimestamps.drop 1
    else c.recentTimestamps
  let templateTokens := mergeTokens c.templateTokens incomingTokens
  let changed := decide (templateTokens ≠ c.templateTokens)
  { c with
    count := c.count + 1
    lastSeen := nowMs
    recentTimestamps := recent ++ [nowMs]
    templateTokens
    template := if changed then joinTokens templateTokens else c.template }

/-- Hits per second in the recent observation window. -/
def recentRatePerSec (c : LogCluster) : ℚ :=
  if c.recentTimestamps.length < 2 then 0
  else
    let oldest := (c.recentTimestamps.head?.getD 0).toInt
    let newest := (c.recentTimestamps.getLast?.getD 0).toInt
    let elapsedMs := newest - oldest
    if elapsedMs ≤ 0 then nearest c.recentTimestamps.length
    else divide (nearest c.recentTimestamps.length) (divide (nearest elapsedMs) 1000)

end LogCluster

/-- What `add_log` returns; the pipeline reads the fields it extends. -/
structure ClusterResult extends Ai.ClusterResult where
  similarity : ℚ
  anomaly : Option AnomalyAlert
  miningLatencyMicros : UInt64

/-- Each node holds the ids of the clusters that end in it. -/
abbrev Node := PrefixTree String (List ℕ)

def Node.new : Node := .leaf []

structure DrainMiner where
  config : DrainConfig
  root : Node
  clusters : AList fun _ : ℕ => LogCluster
  nextClusterId : ℕ
  totalLogsProcessed : ℕ

/-! ### Tokens -/

/-- Splits by whitespace, or at the commas of a line without blanks. -/
def tokenize (input : String) : List String :=
  let text := input.toList
  if ' ' ∈ text then
    (((text.splitOnP isWhitespace).filter (· ≠ [])).map
      (trimMatches fun c => c == ',' || c == ';' || c == '"' || c == Char.ofNat 0x27)).filter
        (· ≠ []) |>.map String.ofList
  else if ',' ∈ text then
    ((text.splitOn ',').map trim).filter (· ≠ []) |>.map String.ofList
  else [input]

def hasDigitOrParam (token : String) : Bool := token == wildcard || token.toList.any Char.isDigit

/-- One of the two tokens is an anchor and the other is not the same one. -/
def anchorsDiffer (anchorTokens : List String) (t1 t2 : String) : Bool :=
  let t1Upper := toAsciiUppercase t1
  let t2Upper := toAsciiUppercase t2
  anchorTokens.any (fun a => a == t1Upper || a == t2Upper) && t1Upper != t2Upper

def tokenMatches (t1 t2 : String) : Bool := t1 == wildcard || t1 == t2

def computeSimilarity (tmplTokens inTokens anchorTokens : List String) : ℚ :=
  if tmplTokens.length ≠ inTokens.length ∨ tmplTokens = [] then 0
  else if (tmplTokens.zip inTokens).any fun p => anchorsDiffer anchorTokens p.1 p.2 then 0
  else
    divide (nearest ((tmplTokens.zip inTokens).countP fun p => tokenMatches p.1 p.2))
      (nearest tmplTokens.length)

/-! ### The prefix tree -/

/-- `depth - 2` on a `usize`. -/
def maxPrefixDepth (overflowChecks : Bool) (config : DrainConfig) : Option ℕ :=
  if 2 ≤ config.depth then some (config.depth - 2)
  else if overflowChecks then none
  else some (config.depth + 2 ^ 64 - 2)

/-- The walk of `find_best_match` along the prefix tokens. -/
def Node.search (node : Node) : List String → Option Node
  | [] => some node
  | token :: tokens =>
    let key := if hasDigitOrParam token then "*" else token
    match node.child key with
    | some child => Node.search child tokens
    | none =>
      match node.child "*" with
      | some wildcardChild => Node.search wildcardChild tokens
      | none => none

def insertKey (maxChildren : ℕ) (node : Node) (token : String) : String :=
  if hasDigitOrParam token ∨ maxChildren ≤ node.children.length then "*" else token

/-- The walk of `insert_to_tree` along the prefix tokens, which adds the missing nodes. -/
def Node.insert (maxChildren clusterId : ℕ) : List String → Node → Node
  | [], node => node.modifyValue (· ++ [clusterId])
  | token :: tokens, node =>
    node.alter (insertKey maxChildren node token) fun child =>
      Node.insert maxChildren clusterId tokens (child.getD Node.new)

namespace DrainMiner

def new (config : DrainConfig) : DrainMiner := ⟨config, Node.new, ∅, 1, 0⟩

/-- One turn of the candidate loop; `acc` is the best cluster and the maximal similarity. -/
def considerCandidate (m : DrainMiner) (tokens : List String) (acc : Option ℕ × ℚ) (cId : ℕ) :
    Option ℕ × ℚ :=
  match m.clusters.lookup cId with
  | none => acc
  | some cluster =>
    if cluster.size ≠ tokens.length then acc
    else
      let sim := computeSimilarity cluster.templateTokens tokens m.config.uniqueAnchorTokens
      if acc.2 < sim then
        (if m.config.similarityThreshold.atMost sim then some cId else acc.1, sim)
      else acc

/-- The leaf whose clusters are compared with the tokens. -/
def candidateLeaf (overflowChecks : Bool) (m : DrainMiner) (tokens : List String) :
    Option (Option Node) :=
  match m.root.child (toString tokens.length) with
  | none => some none
  | some lenNode =>
    (maxPrefixDepth overflowChecks m.config).map fun depth =>
      Node.search lenNode (tokens.take depth)

def findBestMatch (overflowChecks : Bool) (m : DrainMiner) (tokens : List String) :
    Option (Option ℕ × ℚ) :=
  (m.candidateLeaf overflowChecks tokens).map fun
    | none => (none, 0)
    | some leaf => leaf.value.foldl (m.considerCandidate tokens) (none, 0)

def insertToTree (overflowChecks : Bool) (m : DrainMiner) (clusterId : ℕ) (tokens : List String) :
    Option Node :=
  (maxPrefixDepth overflowChecks m.config).map fun depth =>
    m.root.alter (toString tokens.length) fun lenNode =>
      Node.insert m.config.maxChildren clusterId (tokens.take depth) (lenNode.getD Node.new)

/-- The alert of a rare cluster that surges; `cluster` is the updated one. The threshold is taken to
be small enough for its triple to be a `usize`. -/
def surgeAlert (m : DrainMiner) (clusterId prevCount : ℕ) (cluster : LogCluster)
    (nowMs : Int64) : Option AnomalyAlert :=
  let threshold := m.config.rareCountThreshold
  if threshold * 3 < m.totalLogsProcessed ∧ prevCount ≤ threshold ∧ threshold < cluster.count then
    let rate := cluster.recentRatePerSec
    if m.config.surgeMultiplier.atMost rate ∨ threshold + 2 ≤ cluster.count then
      some {
        anomalyType := .rareClusterSurge
        clusterId
        template := cluster.template
        message := "Rare cluster #" ++ toString clusterId ++ " suddenly surged to " ++
          toString cluster.count ++ " events (rate: " ++ toFixed 2 rate ++ " eps)"
        timestamp := nowMs
        count := cluster.count
        severity := .high }
    else none
  else none

def newTemplateAlert (cluster : LogCluster) (nowMs : Int64) : AnomalyAlert where
  anomalyType := .newTemplate
  clusterId := cluster.clusterId
  template := cluster.template
  message := "Unseen log structural template #" ++ toString cluster.clusterId ++
    " detected: \x27" ++ cluster.template ++ "\x27"
  timestamp := nowMs
  count := 1
  severity := .medium

end DrainMiner

/-- A call of `add_log` with its clock readings. -/
structure AddLogCall where
  raw : String
  nowMs : Int64
  elapsedMicros : UInt64

section AddLog

variable (mask : String → String) (overflowChecks : Bool)

def DrainMiner.addLog (m : DrainMiner) (call : AddLogCall) :
    Option (ClusterResult × DrainMiner) :=
  let m := { m with totalLogsProcessed := m.totalLogsProcessed + 1 }
  let tokens := tokenize (mask call.raw)
  if tokens = [] then some (⟨⟨0, "", false⟩, 1, none, call.elapsedMicros⟩, m)
  else
    match m.findBestMatch overflowChecks tokens with
    | none => none
    | some (some cId, maxSim) =>
      match m.clusters.lookup cId with
      | none => none
      | some found =>
        let cluster := found.update tokens call.nowMs
        some (⟨⟨cId, cluster.template, false⟩, maxSim,
            m.surgeAlert cId found.count cluster call.nowMs, call.elapsedMicros⟩,
          { m with clusters := m.clusters.insert cId cluster })
    | some (none, maxSim) =>
      let clusterId := m.nextClusterId
      let cluster := LogCluster.new clusterId tokens call.nowMs
      match m.insertToTree overflowChecks clusterId tokens with
      | none => none
      | some root =>
        some (⟨⟨clusterId, cluster.template, true⟩, maxSim,
            some (newTemplateAlert cluster call.nowMs), call.elapsedMicros⟩,
          { m with
            root
            clusters := m.clusters.insert clusterId cluster
            nextClusterId := clusterId + 1 })

end AddLog

/-! ### Merging -/

namespace LogCluster

lemma mergeToken_eq (tmplToken inToken : String) :
    mergeToken tmplToken inToken = if tmplToken = inToken then tmplToken else wildcard := by
  unfold mergeToken
  by_cases h : tmplToken = inToken
  · simp [h]
  · by_cases hw : tmplToken = wildcard
    · simp [hw]
    · simp [h, hw]

@[simp] lemma length_mergeTokens (tmplTokens inTokens : List String) :
    (mergeTokens tmplTokens inTokens).length = tmplTokens.length := by
  fun_induction mergeTokens tmplTokens inTokens with
  | case1 tmplToken tmplTokens inToken inTokens ih => rw [List.length_cons, List.length_cons, ih]
  | case2 => rfl

lemma getElem?_mergeTokens {tmplTokens inTokens : List String} {p : ℕ} {t u : String}
    (ht : tmplTokens[p]? = some t) (hu : inTokens[p]? = some u) :
    (mergeTokens tmplTokens inTokens)[p]? = some (mergeToken t u) := by
  induction tmplTokens generalizing inTokens p with
  | nil => cases ht
  | cons tmplToken tmplTokens ih =>
    cases inTokens with
    | nil => cases hu
    | cons inToken inTokens =>
      cases p with
      | zero =>
        cases ht
        cases hu
        rfl
      | succ p => exact ih ht hu

variable (c : LogCluster) (incomingTokens : List String) (nowMs : Int64)

@[simp] lemma clusterId_update : (c.update incomingTokens nowMs).clusterId = c.clusterId := rfl

@[simp] lemma count_update : (c.update incomingTokens nowMs).count = c.count + 1 := rfl

@[simp] lemma size_update : (c.update incomingTokens nowMs).size = c.size := rfl

@[simp] lemma templateTokens_update : (c.update incomingTokens nowMs).templateTokens =
    mergeTokens c.templateTokens incomingTokens := rfl

lemma template_update (h : c.template = joinTokens c.templateTokens) :
    (c.update incomingTokens nowMs).template =
      joinTokens (c.update incomingTokens nowMs).templateTokens := by
  unfold update
  by_cases hsame : mergeTokens c.templateTokens incomingTokens = c.templateTokens
  · simp [hsame, h]
  · simp [hsame]

end LogCluster

/-! ### Similarity -/

lemma anchorsDiffer_eq_true_iff {anchorTokens : List String} {t1 t2 : String} :
    anchorsDiffer anchorTokens t1 t2 = true ↔
      (toAsciiUppercase t1 ∈ anchorTokens ∨ toAsciiUppercase t2 ∈ anchorTokens) ∧
        toAsciiUppercase t1 ≠ toAsciiUppercase t2 := by
  simp only [anchorsDiffer, Bool.and_eq_true, List.any_eq_true, Bool.or_eq_true, beq_iff_eq,
    bne_iff_ne]
  apply and_congr_left'
  constructor
  · rintro ⟨a, ha, rfl | rfl⟩
    · exact Or.inl ha
    · exact Or.inr ha
  · rintro (h | h)
    · exact ⟨_, h, Or.inl rfl⟩
    · exact ⟨_, h, Or.inr rfl⟩

lemma any_zip_eq_false_iff {r : String → String → Bool} {ts us : List String} :
    (ts.zip us).any (fun p => r p.1 p.2) = false ↔
      ∀ (p : ℕ) t u, ts[p]? = some t → us[p]? = some u → r t u = false := by
  rw [List.any_eq_false]
  constructor
  · intro h p t u ht hu
    have hmem : (t, u) ∈ ts.zip us := by
      rw [List.mem_iff_getElem?]
      exact ⟨p, List.getElem?_zip_eq_some.mpr ⟨ht, hu⟩⟩
    simpa using h (t, u) hmem
  · rintro h ⟨t, u⟩ hmem
    obtain ⟨p, hp⟩ := List.mem_iff_getElem?.mp hmem
    obtain ⟨ht, hu⟩ := List.getElem?_zip_eq_some.mp hp
    simp [h p t u ht hu]

section Similarity

variable {tmplTokens inTokens anchorTokens : List String}

lemma computeSimilarity_pos (h : 0 < computeSimilarity tmplTokens inTokens anchorTokens) :
    tmplTokens.length = inTokens.length ∧
      ∀ (p : ℕ) t u, tmplTokens[p]? = some t → inTokens[p]? = some u →
        anchorsDiffer anchorTokens t u = false := by
  unfold computeSimilarity at h
  split_ifs at h with hlength hdiffer
  · exact absurd h (lt_irrefl 0)
  · exact absurd h (lt_irrefl 0)
  · push Not at hlength
    rw [Bool.not_eq_true] at hdiffer
    exact ⟨hlength.1, any_zip_eq_false_iff.mp hdiffer⟩

lemma computeSimilarity_eq_zero {p : ℕ} {t u : String} (ht : tmplTokens[p]? = some t)
    (hu : inTokens[p]? = some u) (hdiffer : anchorsDiffer anchorTokens t u = true) :
    computeSimilarity tmplTokens inTokens anchorTokens = 0 := by
  unfold computeSimilarity
  split_ifs with hlength hany
  · rfl
  · rfl
  · rw [Bool.not_eq_true] at hany
    rw [any_zip_eq_false_iff.mp hany p t u ht hu] at hdiffer
    cases hdiffer

lemma computeSimilarity_le_one : computeSimilarity tmplTokens inTokens anchorTokens ≤ 1 := by
  unfold computeSimilarity
  split_ifs with hlength hdiffer
  · exact zero_le_one
  · exact zero_le_one
  · push Not at hlength
    have hpos : 1 ≤ tmplTokens.length := List.length_pos_iff.mpr hlength.2
    have hcount : (tmplTokens.zip inTokens).countP (fun p => tokenMatches p.1 p.2) ≤
        tmplTokens.length :=
      List.countP_le_length.trans (List.length_zip.trans_le (Nat.min_le_left _ _))
    apply divide_le_one
    · exact nearest_nonneg (Nat.cast_nonneg _)
    · exact zero_lt_one.trans_le (one_le_nearest (by exact_mod_cast hpos))
    · exact nearest_natCast_mono hcount

lemma computeSimilarity_eq_one (hlength : tmplTokens.length = inTokens.length)
    (hne : tmplTokens ≠ [])
    (h : ∀ (p : ℕ) t u, tmplTokens[p]? = some t → inTokens[p]? = some u →
      anchorsDiffer anchorTokens t u = false ∧ tokenMatches t u = true) :
    computeSimilarity tmplTokens inTokens anchorTokens = 1 := by
  have hany : (tmplTokens.zip inTokens).any (fun p => anchorsDiffer anchorTokens p.1 p.2) = false :=
    any_zip_eq_false_iff.mpr fun p t u ht hu => (h p t u ht hu).1
  have hcount : (tmplTokens.zip inTokens).countP (fun p => tokenMatches p.1 p.2) =
      tmplTokens.length := by
    have hzip : (tmplTokens.zip inTokens).length = tmplTokens.length := by
      rw [List.length_zip, hlength, Nat.min_self]
    rw [← hzip, List.countP_eq_length]
    rintro ⟨t, u⟩ hmem
    obtain ⟨p, hp⟩ := List.mem_iff_getElem?.mp hmem
    obtain ⟨ht, hu⟩ := List.getElem?_zip_eq_some.mp hp
    exact (h p t u ht hu).2
  have hpos : 1 ≤ tmplTokens.length := List.length_pos_iff.mpr hne
  unfold computeSimilarity
  rw [if_neg (by simp [hlength, hne]), hany, if_neg (by simp), hcount]
  exact divide_self (zero_lt_one.trans_le (one_le_nearest (by exact_mod_cast hpos)))

end Similarity

/-! ### The best match -/

namespace DrainMiner

variable {overflowChecks : Bool} {m : DrainMiner} {tokens : List String}

/-- The similarity of a cluster that takes part in the comparison, zero for the others. -/
def candidateSimilarity (m : DrainMiner) (tokens : List String) (cId : ℕ) : ℚ :=
  match m.clusters.lookup cId with
  | none => 0
  | some cluster =>
    if cluster.size ≠ tokens.length then 0
    else computeSimilarity cluster.templateTokens tokens m.config.uniqueAnchorTokens

/-- The ids in the leaf, none if the walk ends early. -/
def candidates (overflowChecks : Bool) (m : DrainMiner) (tokens : List String) :
    Option (List ℕ) :=
  (m.candidateLeaf overflowChecks tokens).map fun leaf => (leaf.map PrefixTree.value).getD []

/-- The cluster that `find_best_match` would return. -/
abbrev IsBestMatch (m : DrainMiner) (tokens : List String) (ids : List ℕ) (cId : ℕ) : Prop :=
  IsFirstMax (m.candidateSimilarity tokens) m.config.similarityThreshold.atMost ids cId

lemma candidateSimilarity_le_one (m : DrainMiner) (tokens : List String) (cId : ℕ) :
    m.candidateSimilarity tokens cId ≤ 1 := by
  unfold candidateSimilarity
  split
  · exact zero_le_one
  · split_ifs
    · exact zero_le_one
    · exact computeSimilarity_le_one

lemma candidateSimilarity_of_lookup {cId : ℕ} {cluster : LogCluster}
    (h : m.clusters.lookup cId = some cluster) (hsize : cluster.size = tokens.length) :
    m.candidateSimilarity tokens cId =
      computeSimilarity cluster.templateTokens tokens m.config.uniqueAnchorTokens := by
  simp [candidateSimilarity, h, hsize]

lemma lookup_of_candidateSimilarity_pos {cId : ℕ} (h : 0 < m.candidateSimilarity tokens cId) :
    ∃ cluster, m.clusters.lookup cId = some cluster ∧ cluster.size = tokens.length ∧
      0 < computeSimilarity cluster.templateTokens tokens m.config.uniqueAnchorTokens := by
  unfold candidateSimilarity at h
  split at h
  · exact absurd h (lt_irrefl 0)
  · next cluster hlookup =>
    split_ifs at h with hsize
    · exact absurd h (lt_irrefl 0)
    · exact ⟨cluster, hlookup, not_not.mp hsize, h⟩

lemma considerCandidate_eq {acc : Option ℕ × ℚ} (hacc : 0 ≤ acc.2) (cId : ℕ) :
    m.considerCandidate tokens acc cId =
      takeBetter (m.candidateSimilarity tokens) m.config.similarityThreshold.atMost acc cId := by
  have hzero : ¬acc.2 < 0 := not_lt.mpr hacc
  unfold considerCandidate takeBetter candidateSimilarity
  cases m.clusters.lookup cId with
  | none => simp only [if_neg hzero]
  | some cluster =>
    by_cases hsize : cluster.size = tokens.length
    · simp [hsize]
    · simp only [ne_eq, hsize, not_false_eq_true, if_true, if_neg hzero]

lemma foldl_considerCandidate (ids : List ℕ) :
    ids.foldl (m.considerCandidate tokens) (none, 0) =
      best (m.candidateSimilarity tokens) m.config.similarityThreshold.atMost ids := by
  induction ids using List.reverseRecOn with
  | nil => rfl
  | append_singleton ids cId ih =>
    rw [List.foldl_append, ih, best_concat]
    exact considerCandidate_eq (best_nonneg _ _ ids) cId

lemma findBestMatch_eq (overflowChecks : Bool) (m : DrainMiner) (tokens : List String) :
    m.findBestMatch overflowChecks tokens = (m.candidates overflowChecks tokens).map
      (best (m.candidateSimilarity tokens) m.config.similarityThreshold.atMost) := by
  unfold findBestMatch candidates
  rw [Option.map_map]
  congr 1
  funext leaf
  cases leaf with
  | none => rfl
  | some leaf => exact foldl_considerCandidate leaf.value

lemma isBestMatch_of_findBestMatch {cId : ℕ} {maxSim : ℚ}
    (h : m.findBestMatch overflowChecks tokens = some (some cId, maxSim)) :
    ∃ ids, m.candidates overflowChecks tokens = some ids ∧ m.IsBestMatch tokens ids cId := by
  rw [findBestMatch_eq, Option.map_eq_some_iff] at h
  obtain ⟨ids, hids, hbest⟩ := h
  refine ⟨ids, hids, ?_⟩
  rw [IsBestMatch, ← best_fst_eq_some_iff fun _ _ => m.config.similarityThreshold.atMost_mono,
    hbest]

end DrainMiner

/-! ### What a call does -/

section Cases

variable (mask : String → String) (overflowChecks : Bool)

/-- The miner once the line is counted. -/
def DrainMiner.counted (m : DrainMiner) : DrainMiner :=
  { m with totalLogsProcessed := m.totalLogsProcessed + 1 }

/-- The three ways a call can end. -/
inductive AddsLog (m : DrainMiner) (call : AddLogCall) : ClusterResult × DrainMiner → Prop where
  | blank (hblank : tokenize (mask call.raw) = []) :
      AddsLog m call (⟨⟨0, "", false⟩, 1, none, call.elapsedMicros⟩, m.counted)
  | merged (tokens : List String) (cId : ℕ) (maxSim : ℚ) (found : LogCluster)
      (htokens : tokenize (mask call.raw) = tokens) (hne : tokens ≠ [])
      (hbest : m.findBestMatch overflowChecks tokens = some (some cId, maxSim))
      (hfound : m.clusters.lookup cId = some found) :
      AddsLog m call
        (⟨⟨cId, (found.update tokens call.nowMs).template, false⟩, maxSim,
            m.counted.surgeAlert cId found.count (found.update tokens call.nowMs) call.nowMs,
            call.elapsedMicros⟩,
          { m.counted with clusters := m.clusters.insert cId (found.update tokens call.nowMs) })
  | opened (tokens : List String) (maxSim : ℚ) (root : Node)
      (htokens : tokenize (mask call.raw) = tokens) (hne : tokens ≠ [])
      (hbest : m.findBestMatch overflowChecks tokens = some (none, maxSim))
      (hroot : m.insertToTree overflowChecks m.nextClusterId tokens = some root) :
      AddsLog m call
        (⟨⟨m.nextClusterId, joinTokens tokens, true⟩, maxSim,
            some (DrainMiner.newTemplateAlert (.new m.nextClusterId tokens call.nowMs) call.nowMs),
            call.elapsedMicros⟩,
          { m.counted with
            root
            clusters := m.clusters.insert m.nextClusterId (.new m.nextClusterId tokens call.nowMs)
            nextClusterId := m.nextClusterId + 1 })

variable {mask overflowChecks}

lemma findBestMatch_counted (m : DrainMiner) (tokens : List String) :
    m.counted.findBestMatch overflowChecks tokens = m.findBestMatch overflowChecks tokens := rfl

theorem addsLog_of_addLog {m : DrainMiner} {call : AddLogCall} {out : ClusterResult × DrainMiner}
    (h : m.addLog mask overflowChecks call = some out) :
    AddsLog mask overflowChecks m call out := by
  unfold DrainMiner.addLog at h
  dsimp only at h
  split_ifs at h with hblank
  · cases h
    exact .blank hblank
  · split at h
    · cases h
    · next cId maxSim hbest =>
      split at h
      · cases h
      · next found hfound =>
        cases h
        exact .merged _ cId maxSim found rfl hblank hbest hfound
    · next maxSim hbest =>
      split at h
      · cases h
      · next root hroot =>
        cases h
        exact .opened _ maxSim root rfl hblank hbest hroot

lemma maxPrefixDepth_of_le {config : DrainConfig} (h : 2 ≤ config.depth) :
    maxPrefixDepth overflowChecks config = some (config.depth - 2) := if_pos h

lemma addLog_isSome {m : DrainMiner} (hdepth : 2 ≤ m.config.depth) (call : AddLogCall) :
    (m.addLog mask overflowChecks call).isSome := by
  have hleaf : ∀ tokens, (m.counted.findBestMatch overflowChecks tokens).isSome := by
    intro tokens
    rw [findBestMatch_counted, DrainMiner.findBestMatch, Option.isSome_map,
      DrainMiner.candidateLeaf, maxPrefixDepth_of_le hdepth]
    split <;> rfl
  unfold DrainMiner.addLog
  dsimp only
  split_ifs with hblank
  · rfl
  · split
    · next hbest =>
      have hsome := hleaf (tokenize (mask call.raw))
      rw [DrainMiner.counted, hbest] at hsome
      cases hsome
    · next cId maxSim hbest =>
      obtain ⟨ids, -, hmax⟩ := DrainMiner.isBestMatch_of_findBestMatch hbest
      obtain ⟨cluster, hlookup, -⟩ := DrainMiner.lookup_of_candidateSimilarity_pos hmax.1
      rw [hlookup]
      rfl
    · rw [DrainMiner.insertToTree, maxPrefixDepth_of_le hdepth]
      rfl

end Cases

end Ulpf.Ai.Drain
