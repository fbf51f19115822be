import Ulpf.Ai.DrainRuns

/-!
# Repeated lines

Adding a line twice gives one cluster unless the search of the second call misses what the
first one did: the first call generalised an anchor, or it inserted under the wildcard child
of a full node while the search prefers the child of the token.
-/

namespace Ulpf.Ai.Drain
open Ulpf.Library Ulpf.Core

/-! ### Search after insertion -/

/-- On the way down a full node sends the insertion to its wildcard child, although it has a
child of the token, which a search prefers. -/
def Shadowed (maxChildren : ℕ) (node : Node) : List String → Prop
  | [] => False
  | token :: tokens =>
    (hasDigitOrParam token = false ∧ token ≠ "*" ∧ maxChildren ≤ node.children.length ∧
      (node.child token).isSome) ∨
    Shadowed maxChildren ((node.child (insertKey maxChildren node token)).getD Node.new) tokens

def searchKey (token : String) : String := if hasDigitOrParam token then "*" else token

lemma search_cons_of_child {node c : Node} {token : String} (tokens : List String)
    (hc : node.child (searchKey token) = some c) :
    Node.search node (token :: tokens) = Node.search c tokens := by
  unfold searchKey at hc
  rw [Node.search]
  simp only [hc]

lemma search_cons_of_wildcard {node c : Node} {token : String} (tokens : List String)
    (hnone : node.child (searchKey token) = none) (hc : node.child "*" = some c) :
    Node.search node (token :: tokens) = Node.search c tokens := by
  unfold searchKey at hnone
  rw [Node.search]
  simp only [hnone, hc]

lemma search_cons_of_insertKey {maxChildren : ℕ} {node node' c : Node} {token : String}
    (tokens : List String)
    (hshadow : ¬(hasDigitOrParam token = false ∧ token ≠ "*" ∧ maxChildren ≤ node.children.length ∧
      (node.child token).isSome))
    (hsame : ∀ k, k ≠ insertKey maxChildren node token → node'.child k = node.child k)
    (hc : node'.child (insertKey maxChildren node token) = some c) :
    Node.search node' (token :: tokens) = Node.search c tokens := by
  by_cases hkey : searchKey token = insertKey maxChildren node token
  · apply search_cons_of_child
    rwa [hkey]
  · cases hdigit : hasDigitOrParam token with
    | true => simp [searchKey, insertKey, hdigit] at hkey
    | false =>
      by_cases hfull : maxChildren ≤ node.children.length
      · have hinsert : insertKey maxChildren node token = "*" := by simp [insertKey, hfull]
        have hsearch : searchKey token = token := by simp [searchKey, hdigit]
        rw [hinsert, hsearch] at hkey
        apply search_cons_of_wildcard
        · rw [hsearch, hsame token (by rwa [hinsert]), ← Option.not_isSome_iff_eq_none]
          exact fun hsome => hshadow ⟨hdigit, hkey, hfull, hsome⟩
        · rwa [hinsert] at hc
      · simp [searchKey, insertKey, hdigit, hfull] at hkey

lemma not_shadowed_new (maxChildren : ℕ) (tokens : List String) :
    ¬Shadowed maxChildren Node.new tokens := by
  induction tokens with
  | nil => exact id
  | cons token tokens ih =>
    rintro (⟨-, -, -, hsome⟩ | hrest)
    · cases hsome
    · exact ih hrest

lemma search_new_value {tokens : List String} {leaf : Node}
    (h : Node.search Node.new tokens = some leaf) : leaf.value = [] := by
  cases tokens with
  | nil =>
    cases h
    rfl
  | cons token tokens =>
    rw [Node.search] at h
    cases h

/-- Without a shadow a search for the inserted tokens ends in the node that holds the new id,
behind the ids that it found before. -/
lemma search_insert (clusterId : ℕ) {maxChildren : ℕ} {tokens : List String} {node : Node}
    (h : ¬Shadowed maxChildren node tokens) :
    ∃ leaf, Node.search (Node.insert maxChildren clusterId tokens node) tokens = some leaf ∧
      (leaf.value = [clusterId] ∨
        ∃ old, Node.search node tokens = some old ∧ leaf.value = old.value ++ [clusterId]) := by
  induction tokens generalizing node with
  | nil =>
    refine ⟨_, rfl, Or.inr ⟨node, rfl, ?_⟩⟩
    cases node
    rfl
  | cons token tokens ih =>
    obtain ⟨hhere, hrest⟩ := not_or.mp h
    obtain ⟨leaf, hleaf, hvalue⟩ := ih hrest
    have hchild := PrefixTree.child_alter_self node (insertKey maxChildren node token)
      fun child => Node.insert maxChildren clusterId tokens (child.getD Node.new)
    refine ⟨leaf, ?_, ?_⟩
    · rw [Node.insert, search_cons_of_insertKey tokens hhere
        (fun k hk => PrefixTree.child_alter_of_ne node hk _) hchild]
      exact hleaf
    · rcases hvalue with hnew | ⟨old, hold, hvalue⟩
      · exact Or.inl hnew
      · cases hc : node.child (insertKey maxChildren node token) with
        | none =>
          rw [hc] at hold
          left
          rw [hvalue, search_new_value hold, List.nil_append]
        | some c =>
          rw [hc] at hold
          right
          exact ⟨old, (search_cons_of_insertKey tokens hhere (fun _ _ => rfl) hc).trans hold,
            hvalue⟩

/-- With a shadow it ends where it ended before. -/
lemma search_insert_of_shadowed {maxChildren clusterId : ℕ} {tokens : List String} {node : Node}
    (h : Shadowed maxChildren node tokens) :
    Node.search (Node.insert maxChildren clusterId tokens node) tokens =
      Node.search node tokens := by
  induction tokens generalizing node with
  | nil => exact h.elim
  | cons token tokens ih =>
    rw [Node.insert]
    by_cases hhere : hasDigitOrParam token = false ∧ token ≠ "*" ∧
      maxChildren ≤ node.children.length ∧ (node.child token).isSome
    · obtain ⟨hdigit, hstar, hfull, hsome⟩ := hhere
      have hinsert : insertKey maxChildren node token = "*" := by simp [insertKey, hfull]
      have hsearch : searchKey token = token := by simp [searchKey, hdigit]
      obtain ⟨c, hc⟩ := Option.isSome_iff_exists.mp hsome
      rw [← hsearch] at hc hstar
      rw [search_cons_of_child tokens hc]
      apply search_cons_of_child
      rwa [hinsert, PrefixTree.child_alter_of_ne node hstar]
    · have hrest := h.resolve_left hhere
      have hchild := PrefixTree.child_alter_self node (insertKey maxChildren node token)
        fun child => Node.insert maxChildren clusterId tokens (child.getD Node.new)
      rw [search_cons_of_insertKey tokens hhere
        (fun k hk => PrefixTree.child_alter_of_ne node hk _) hchild, ih hrest]
      cases hc : node.child (insertKey maxChildren node token) with
      | none =>
        rw [hc] at hrest
        exact absurd hrest (not_shadowed_new maxChildren tokens)
      | some c => exact (search_cons_of_insertKey tokens hhere (fun _ _ => rfl) hc).symm

/-! ### The ids in the tree -/

def IdsBelow (n : ℕ) (ids : List ℕ) : Prop := ∀ i ∈ ids, i < n

lemma holds_insert {P : ℕ → Prop} {maxChildren clusterId : ℕ} {node : Node} (tokens : List String)
    (h : PrefixTree.Holds (fun ids => ∀ i ∈ ids, P i) node) (hid : P clusterId) :
    PrefixTree.Holds (fun ids => ∀ i ∈ ids, P i)
      (Node.insert maxChildren clusterId tokens node) := by
  induction tokens generalizing node with
  | nil =>
    apply h.modifyValue
    intro i hi
    rcases List.mem_append.mp hi with hold | hnew
    · exact h.value i hold
    · rwa [List.mem_singleton.mp hnew]
  | cons token tokens ih =>
    apply h.alter
    apply ih
    cases hc : node.child (insertKey maxChildren node token) with
    | none => exact PrefixTree.holds_leaf fun i hi => by cases hi
    | some c => exact h.child hc

lemma holds_search {P : List ℕ → Prop} {tokens : List String} {node leaf : Node}
    (h : PrefixTree.Holds P node) (hleaf : Node.search node tokens = some leaf) :
    PrefixTree.Holds P leaf := by
  induction tokens generalizing node with
  | nil =>
    cases hleaf
    exact h
  | cons token tokens ih =>
    rw [Node.search] at hleaf
    split at hleaf
    · next c hc => exact ih (h.child hc) hleaf
    · split at hleaf
      · next c hc => exact ih (h.child hc) hleaf
      · cases hleaf

/-- The subtree of the lines with as many tokens. -/
def DrainMiner.lenNode (m : DrainMiner) (tokens : List String) : Node :=
  (m.root.child (toString tokens.length)).getD Node.new

lemma candidates_eq {overflowChecks : Bool} {m : DrainMiner} {depth : ℕ} (tokens : List String)
    (hdepth : maxPrefixDepth overflowChecks m.config = some depth) :
    m.candidates overflowChecks tokens = some
      (((Node.search (m.lenNode tokens) (tokens.take depth)).map PrefixTree.value).getD []) := by
  unfold DrainMiner.candidates DrainMiner.candidateLeaf DrainMiner.lenNode
  cases hlen : m.root.child (toString tokens.length) with
  | none =>
    rw [Option.getD_none]
    cases hleaf : Node.search Node.new (tokens.take depth) with
    | none => rfl
    | some leaf => simp [search_new_value hleaf]
  | some lenNode => simp [hdepth]

lemma holds_lenNode {P : List ℕ → Prop} {m : DrainMiner} (h : PrefixTree.Holds P m.root)
    (hnil : P []) (tokens : List String) : PrefixTree.Holds P (m.lenNode tokens) := by
  unfold DrainMiner.lenNode
  cases hlen : m.root.child (toString tokens.length) with
  | none => exact PrefixTree.holds_leaf hnil
  | some lenNode => exact h.child hlen

/-- All ids in the tree are taken. -/
def TreeIdsTaken (m : DrainMiner) : Prop := PrefixTree.Holds (IdsBelow m.nextClusterId) m.root

lemma TreeIdsTaken.candidates_lt {overflowChecks : Bool} {m : DrainMiner} (h : TreeIdsTaken m)
    {tokens : List String} {ids : List ℕ} (hids : m.candidates overflowChecks tokens = some ids) :
    IdsBelow m.nextClusterId ids := by
  have hnil : IdsBelow m.nextClusterId [] := fun i hi => by cases hi
  unfold DrainMiner.candidates DrainMiner.candidateLeaf at hids
  split at hids
  · cases hids
    exact hnil
  · next lenNode hlen =>
    simp only [Option.map_map, Option.map_eq_some_iff] at hids
    obtain ⟨depth, -, rfl⟩ := hids
    cases hleaf : Node.search lenNode (tokens.take depth) with
    | none => simpa [hleaf] using hnil
    | some leaf => simpa [hleaf] using (holds_search (h.child hlen) hleaf).value

variable {mask : String → String} {overflowChecks : Bool}

lemma insertToTree_eq_some {m : DrainMiner} {clusterId : ℕ} {tokens : List String} {root : Node}
    (h : m.insertToTree overflowChecks clusterId tokens = some root) :
    ∃ depth, maxPrefixDepth overflowChecks m.config = some depth ∧
      root = m.root.alter (toString tokens.length) fun lenNode =>
        Node.insert m.config.maxChildren clusterId (tokens.take depth) (lenNode.getD Node.new) := by
  obtain ⟨depth, hdepth, rfl⟩ := Option.map_eq_some_iff.mp h
  exact ⟨depth, hdepth, rfl⟩

lemma TreeIdsTaken.step {s t : Session} {call : AddLogCall} (h : TreeIdsTaken s.miner)
    (hstep : s.step mask overflowChecks call = some t) : TreeIdsTaken t.miner := by
  unfold Session.step at hstep
  obtain ⟨out, hadd, rfl⟩ := Option.map_eq_some_iff.mp hstep
  cases addsLog_of_addLog hadd with
  | blank hblank => exact h
  | merged tokens cId maxSim found htokens hne hbest hfound => exact h
  | opened tokens maxSim root htokens hne hbest hroot =>
    obtain ⟨depth, -, rfl⟩ := insertToTree_eq_some hroot
    have hmono : PrefixTree.Holds (IdsBelow (s.miner.nextClusterId + 1)) s.miner.root :=
      h.mono fun ids hids i hi => (hids i hi).trans (Nat.lt_succ_self _)
    apply hmono.alter
    apply holds_insert
    · exact holds_lenNode hmono (fun i hi => by cases hi) tokens
    · exact Nat.lt_succ_self _

lemma treeIdsTaken_of_run {config : DrainConfig} {calls : List AddLogCall} {s : Session}
    (hrun : run (Session.step mask overflowChecks) (.start config) calls = some s) :
    TreeIdsTaken s.miner := by
  refine run_induction (motive := fun _ s => TreeIdsTaken s.miner) _ ?_ ?_ hrun
  · exact PrefixTree.holds_leaf fun i hi => by cases hi
  · exact fun _ _ _ _ _ h hstep => h.step hstep

/-! ### The second call -/

lemma addLog_of_isBestMatch {m : DrainMiner} {call : AddLogCall} {tokens : List String}
    {ids : List ℕ} {cId : ℕ} {out : ClusterResult × DrainMiner}
    (htokens : tokenize (mask call.raw) = tokens) (hne : tokens ≠ [])
    (hids : m.candidates overflowChecks tokens = some ids) (hbest : m.IsBestMatch tokens ids cId)
    (hadd : m.addLog mask overflowChecks call = some out) :
    out.1.clusterId = cId ∧ out.1.isNew = false := by
  have hfirst : (m.findBestMatch overflowChecks tokens).map Prod.fst = some (some cId) := by
    rw [DrainMiner.findBestMatch_eq, hids, Option.map_some, Option.map_some, Option.some_inj]
    exact (best_fst_eq_some_iff (fun _ _ => m.config.similarityThreshold.atMost_mono) ids cId).mpr
      hbest
  cases addsLog_of_addLog hadd with
  | blank hblank => exact absurd (htokens.symm.trans hblank) hne
  | merged tokens' cId' maxSim found htokens' hne' hbest' hfound =>
    rw [← htokens, htokens', hbest'] at hfirst
    cases hfirst
    exact ⟨rfl, rfl⟩
  | opened tokens' maxSim root htokens' hne' hbest' hroot =>
    rw [← htokens, htokens', hbest'] at hfirst
    cases hfirst

lemma addLog_clusterId_ne {m : DrainMiner} {call : AddLogCall} {tokens : List String}
    {ids : List ℕ} {cId : ℕ} {out : ClusterResult × DrainMiner}
    (htokens : tokenize (mask call.raw) = tokens) (hne : tokens ≠ [])
    (hids : m.candidates overflowChecks tokens = some ids)
    (hnot : ¬m.IsBestMatch tokens ids cId) (hnext : cId ≠ m.nextClusterId)
    (hadd : m.addLog mask overflowChecks call = some out) : out.1.clusterId ≠ cId := by
  cases addsLog_of_addLog hadd with
  | blank hblank => exact absurd (htokens.symm.trans hblank) hne
  | merged tokens' cId' maxSim found htokens' hne' hbest' hfound =>
    rintro rfl
    obtain ⟨ids', hids', hmax⟩ := DrainMiner.isBestMatch_of_findBestMatch hbest'
    rw [← htokens', htokens] at hids' hmax
    cases hids.symm.trans hids'
    exact hnot hmax
  | opened tokens' maxSim root htokens' hne' hbest' hroot => exact fun heq => hnext heq.symm

lemma not_good_of_findBestMatch {m : DrainMiner} {tokens : List String} {ids : List ℕ} {maxSim : ℚ}
    (hbest : m.findBestMatch overflowChecks tokens = some (none, maxSim))
    (hids : m.candidates overflowChecks tokens = some ids) :
    ∀ a ∈ ids, 0 < m.candidateSimilarity tokens a →
      m.config.similarityThreshold.atMost (m.candidateSimilarity tokens a) = false := by
  rw [DrainMiner.findBestMatch_eq, hids, Option.map_some, Option.some_inj] at hbest
  rw [← best_fst_eq_none_iff fun _ _ => m.config.similarityThreshold.atMost_mono, hbest]

/-! ### After a merge -/

lemma computeSimilarity_mergeTokens_eq_one {tmplTokens tokens anchorTokens : List String}
    (hwildcard : wildcard ∉ anchorTokens)
    (hsim : 0 < computeSimilarity tmplTokens tokens anchorTokens) (hne : tokens ≠ [])
    (halike : SpelledAlike anchorTokens tmplTokens tokens) :
    computeSimilarity (LogCluster.mergeTokens tmplTokens tokens) tokens anchorTokens = 1 := by
  obtain ⟨hlength, hsame⟩ := computeSimilarity_pos hsim
  apply computeSimilarity_eq_one
  · rwa [LogCluster.length_mergeTokens]
  · rw [← List.length_pos_iff, LogCluster.length_mergeTokens, hlength]
    exact List.length_pos_iff.mpr hne
  · intro p t' u ht' hu
    have hp : p < tmplTokens.length := by
      rw [hlength]
      exact (List.getElem?_eq_some_iff.mp hu).1
    have ht := List.getElem?_eq_getElem hp
    rw [LogCluster.getElem?_mergeTokens ht hu, Option.some_inj, LogCluster.mergeToken_eq] at ht'
    have hdiffer := hsame p _ u ht hu
    rw [Bool.eq_false_iff, ne_eq, anchorsDiffer_eq_true_iff, not_and, not_not] at hdiffer ⊢
    split_ifs at ht' with htu
    · rw [← ht', htu]
      exact ⟨fun _ => rfl, by simp [tokenMatches]⟩
    · subst ht'
      refine ⟨?_, by simp [tokenMatches]⟩
      rintro (hwild | hanchor)
      · rw [toAsciiUppercase_wildcard] at hwild
        exact absurd hwild hwildcard
      · exact absurd hanchor (halike p _ u ht hu htu (hdiffer (Or.inr hanchor)))

lemma computeSimilarity_mergeTokens_eq_zero {tmplTokens tokens anchorTokens : List String}
    (hwildcard : wildcard ∉ anchorTokens) (h : ¬SpelledAlike anchorTokens tmplTokens tokens) :
    computeSimilarity (LogCluster.mergeTokens tmplTokens tokens) tokens anchorTokens = 0 := by
  unfold SpelledAlike at h
  push Not at h
  obtain ⟨p, t, u, ht, hu, hne, -, hanchor⟩ := h
  have hmerged := LogCluster.getElem?_mergeTokens ht hu
  rw [LogCluster.mergeToken_eq, if_neg hne] at hmerged
  apply computeSimilarity_eq_zero hmerged hu
  rw [anchorsDiffer_eq_true_iff, toAsciiUppercase_wildcard]
  refine ⟨Or.inr hanchor, ?_⟩
  intro heq
  rw [← heq] at hanchor
  exact hwildcard hanchor

lemma candidateSimilarity_insert_of_ne {m m' : DrainMiner} {cId a : ℕ} {cluster : LogCluster}
    (hconfig : m'.config = m.config) (hclusters : m'.clusters = m.clusters.insert cId cluster)
    (ha : a ≠ cId) (tokens : List String) :
    m'.candidateSimilarity tokens a = m.candidateSimilarity tokens a := by
  unfold DrainMiner.candidateSimilarity
  rw [hconfig, hclusters, AList.lookup_insert_ne ha]

lemma candidateSimilarity_insert_self {m m' : DrainMiner} {cId : ℕ} {cluster : LogCluster}
    (hconfig : m'.config = m.config) (hclusters : m'.clusters = m.clusters.insert cId cluster)
    {tokens : List String} (hsize : cluster.size = tokens.length) :
    m'.candidateSimilarity tokens cId =
      computeSimilarity cluster.templateTokens tokens m.config.uniqueAnchorTokens := by
  rw [DrainMiner.candidateSimilarity_of_lookup _ hsize, hconfig]
  rw [hclusters]
  exact AList.lookup_insert _

lemma isBestMatch_of_eq_one {m : DrainMiner} {tokens : List String} {ids before after : List ℕ}
    {cId : ℕ} (hgood : m.config.similarityThreshold.atMost 1 = true)
    (hone : m.candidateSimilarity tokens cId = 1) (hids : ids = before ++ cId :: after)
    (hbefore : ∀ a ∈ before, m.candidateSimilarity tokens a < 1) :
    m.IsBestMatch tokens ids cId := by
  refine ⟨by rw [hone]; exact zero_lt_one, by rwa [hone], before, after, hids, ?_, ?_⟩
  · rwa [hone]
  · intro a _
    rw [hone]
    exact m.candidateSimilarity_le_one tokens a

lemma isBestMatch_insert {m m' : DrainMiner} {tokens : List String} {ids : List ℕ} {cId : ℕ}
    {cluster : LogCluster} (hconfig : m'.config = m.config)
    (hclusters : m'.clusters = m.clusters.insert cId cluster)
    (hbest : m.IsBestMatch tokens ids cId) (hone : m'.candidateSimilarity tokens cId = 1) :
    m'.IsBestMatch tokens ids cId := by
  obtain ⟨-, hgood, before, after, hids, hbefore, -⟩ := hbest
  have hle := m.candidateSimilarity_le_one tokens cId
  refine isBestMatch_of_eq_one ?_ hone hids ?_
  · rw [hconfig]
    exact m.config.similarityThreshold.atMost_mono hle hgood
  · intro a ha
    have hlt := hbefore a ha
    have hne : a ≠ cId := by
      rintro rfl
      exact lt_irrefl _ hlt
    rw [candidateSimilarity_insert_of_ne hconfig hclusters hne]
    exact hlt.trans_le hle

/-! ### Stability -/

/-- A line with these tokens is merged into a template that has one of its anchors in another
letter case, or opens a cluster whose place in the tree is shadowed. -/
def Destabilizes (overflowChecks : Bool) (m : DrainMiner) (tokens : List String) : Prop :=
  (∃ cId maxSim found, m.findBestMatch overflowChecks tokens = some (some cId, maxSim) ∧
    m.clusters.lookup cId = some found ∧
    ¬SpelledAlike m.config.uniqueAnchorTokens found.templateTokens tokens) ∨
  (∃ maxSim depth, m.findBestMatch overflowChecks tokens = some (none, maxSim) ∧
    maxPrefixDepth overflowChecks m.config = some depth ∧
    Shadowed m.config.maxChildren (m.lenNode tokens) (tokens.take depth))

/-- The second call on a line gives the cluster of the first one and calls it known. -/
def Repeats (first second : ClusterResult) : Prop :=
  second.clusterId = first.clusterId ∧ second.isNew = false

/-- After a merge the second call repeats exactly if the anchors were spelled alike. -/
lemma repeats_merged_iff {m m' : DrainMiner} {call : AddLogCall} {tokens : List String} {cId : ℕ}
    {maxSim : ℚ} {found : LogCluster} {first : ClusterResult} {out : ClusterResult × DrainMiner}
    (hadd : m'.addLog mask overflowChecks call = some out)
    (hwildcard : wildcard ∉ m.config.uniqueAnchorTokens)
    (htokens : tokenize (mask call.raw) = tokens) (hne : tokens ≠ [])
    (hbest : m.findBestMatch overflowChecks tokens = some (some cId, maxSim))
    (hfound : m.clusters.lookup cId = some found) (hfirst : first.clusterId = cId)
    {nowMs : Int64} (hroot : m'.root = m.root) (hconfig : m'.config = m.config)
    (hclusters : m'.clusters = m.clusters.insert cId (found.update tokens nowMs))
    (hnext : cId ≠ m'.nextClusterId) :
    Repeats first out.1 ↔ SpelledAlike m.config.uniqueAnchorTokens found.templateTokens tokens := by
  obtain ⟨hsize, hsim⟩ := size_of_findBestMatch hbest hfound
  obtain ⟨ids, hids, hmax⟩ := DrainMiner.isBestMatch_of_findBestMatch hbest
  have hids' : m'.candidates overflowChecks tokens = some ids := by
    rw [← hids, DrainMiner.candidates, DrainMiner.candidates, DrainMiner.candidateLeaf,
      DrainMiner.candidateLeaf, hroot, hconfig]
  have hupdated : (found.update tokens nowMs).size = tokens.length := hsize
  have hself := candidateSimilarity_insert_self hconfig hclusters hupdated
  rw [LogCluster.templateTokens_update] at hself
  by_cases halike : SpelledAlike m.config.uniqueAnchorTokens found.templateTokens tokens
  · have hone := hself.trans (computeSimilarity_mergeTokens_eq_one hwildcard hsim hne halike)
    have hanswer := addLog_of_isBestMatch htokens hne hids'
      (isBestMatch_insert hconfig hclusters hmax hone) hadd
    exact iff_of_true ⟨hanswer.1.trans hfirst.symm, hanswer.2⟩ halike
  · have hzero := hself.trans (computeSimilarity_mergeTokens_eq_zero hwildcard halike)
    have hnot : ¬m'.IsBestMatch tokens ids cId := by
      intro hbest'
      have hpos := hbest'.1
      rw [hzero] at hpos
      exact lt_irrefl 0 hpos
    have hanswer := addLog_clusterId_ne htokens hne hids' hnot hnext hadd
    exact iff_of_false (fun h => hanswer (h.1.trans hfirst)) halike

lemma isBestMatch_opened {m m' : DrainMiner} {tokens : List String} {ids before : List ℕ}
    {maxSim : ℚ} {nowMs : Int64} (hne : tokens ≠ [])
    (hgood : m.config.similarityThreshold.atMost 1 = true) (hconfig : m'.config = m.config)
    (hclusters : m'.clusters =
      m.clusters.insert m.nextClusterId (.new m.nextClusterId tokens nowMs))
    (hbest : m.findBestMatch overflowChecks tokens = some (none, maxSim))
    (hids : m.candidates overflowChecks tokens = some ids) (hbelow : IdsBelow m.nextClusterId ids)
    (hbefore : before ⊆ ids) :
    m'.IsBestMatch tokens (before ++ [m.nextClusterId]) m.nextClusterId := by
  have hsize : (LogCluster.new m.nextClusterId tokens nowMs).size = tokens.length := rfl
  have hone : m'.candidateSimilarity tokens m.nextClusterId = 1 := by
    rw [candidateSimilarity_insert_self hconfig hclusters hsize]
    apply computeSimilarity_eq_one rfl hne
    intro p t u ht hu
    cases ht.symm.trans hu
    simp [anchorsDiffer, tokenMatches]
  refine isBestMatch_of_eq_one (by rwa [hconfig]) hone rfl ?_
  intro a ha
  have hne' : a ≠ m.nextClusterId := (hbelow a (hbefore ha)).ne
  rw [candidateSimilarity_insert_of_ne hconfig hclusters hne']
  apply lt_of_le_of_ne (m.candidateSimilarity_le_one tokens a)
  intro hfull
  have hpos : 0 < m.candidateSimilarity tokens a := by
    rw [hfull]
    exact zero_lt_one
  have hbad := not_good_of_findBestMatch hbest hids a (hbefore ha) hpos
  rw [hfull, hgood] at hbad
  cases hbad

/-- After a new cluster the second call repeats exactly if its place is not shadowed. -/
lemma repeats_opened_iff {m m' : DrainMiner} {call : AddLogCall} {tokens : List String} {depth : ℕ}
    {maxSim : ℚ} {first : ClusterResult} {out : ClusterResult × DrainMiner}
    (hadd : m'.addLog mask overflowChecks call = some out) (htree : TreeIdsTaken m)
    (hgood : m.config.similarityThreshold.atMost 1 = true)
    (hdepth : maxPrefixDepth overflowChecks m.config = some depth)
    (htokens : tokenize (mask call.raw) = tokens) (hne : tokens ≠ [])
    (hbest : m.findBestMatch overflowChecks tokens = some (none, maxSim))
    (hfirst : first.clusterId = m.nextClusterId) {nowMs : Int64}
    (hroot : m.insertToTree overflowChecks m.nextClusterId tokens = some m'.root)
    (hconfig : m'.config = m.config)
    (hclusters : m'.clusters =
      m.clusters.insert m.nextClusterId (.new m.nextClusterId tokens nowMs))
    (hnext : m'.nextClusterId = m.nextClusterId + 1) :
    Repeats first out.1 ↔
      ¬Shadowed m.config.maxChildren (m.lenNode tokens) (tokens.take depth) := by
  obtain ⟨depth', hdepth', hroot'⟩ := insertToTree_eq_some hroot
  cases hdepth.symm.trans hdepth'
  have hlenNode : m'.lenNode tokens = Node.insert m.config.maxChildren m.nextClusterId
      (tokens.take depth) (m.lenNode tokens) := by
    rw [DrainMiner.lenNode, hroot', PrefixTree.child_alter_self]
    rfl
  have hids := candidates_eq tokens hdepth
  have hids' := candidates_eq tokens (m := m') (by rw [hconfig]; exact hdepth)
  rw [hlenNode] at hids'
  have hbelow := htree.candidates_lt hids
  by_cases hshadow : Shadowed m.config.maxChildren (m.lenNode tokens) (tokens.take depth)
  · rw [search_insert_of_shadowed hshadow] at hids'
    have hnot : ∀ ids,
        ¬(IdsBelow m.nextClusterId ids ∧ m'.IsBestMatch tokens ids m.nextClusterId) :=
      fun ids h => lt_irrefl _ (h.1 _ h.2.mem)
    have hanswer := addLog_clusterId_ne htokens hne hids' (fun h => hnot _ ⟨hbelow, h⟩)
      (by omega) hadd
    exact iff_of_false (fun h => hanswer (h.1.trans hfirst)) (not_not.mpr hshadow)
  · obtain ⟨leaf, hleaf, hvalue⟩ := search_insert m.nextClusterId hshadow
    rw [hleaf, Option.map_some, Option.getD_some] at hids'
    -- The clusters before the new one are those that the first call found not similar enough.
    have hsplit : ∃ before, leaf.value = before ++ [m.nextClusterId] ∧
        before ⊆ ((Node.search (m.lenNode tokens) (tokens.take depth)).map
          PrefixTree.value).getD [] := by
      rcases hvalue with hnew | ⟨old, hold, hvalue⟩
      · exact ⟨[], hnew, List.nil_subset _⟩
      · refine ⟨old.value, hvalue, ?_⟩
        rw [hold]
        exact List.Subset.refl _
    obtain ⟨before, hvalue, hbefore⟩ := hsplit
    have hmax := isBestMatch_opened hne hgood hconfig hclusters hbest hids hbelow hbefore
    rw [← hvalue] at hmax
    have hanswer := addLog_of_isBestMatch htokens hne hids' hmax hadd
    exact iff_of_true ⟨hanswer.1.trans hfirst.symm, hanswer.2⟩ hshadow

lemma destabilizes_merged_iff {m : DrainMiner} {tokens : List String} {cId : ℕ} {maxSim : ℚ}
    {found : LogCluster} (hbest : m.findBestMatch overflowChecks tokens = some (some cId, maxSim))
    (hfound : m.clusters.lookup cId = some found) :
    Destabilizes overflowChecks m tokens ↔
      ¬SpelledAlike m.config.uniqueAnchorTokens found.templateTokens tokens := by
  constructor
  · rintro (⟨cId', maxSim', found', hbest', hfound', hnot⟩ | ⟨maxSim', -, hbest', -⟩)
    · cases hbest.symm.trans hbest'
      cases hfound.symm.trans hfound'
      exact hnot
    · cases hbest.symm.trans hbest'
  · exact fun hnot => Or.inl ⟨cId, maxSim, found, hbest, hfound, hnot⟩

lemma destabilizes_opened_iff {m : DrainMiner} {tokens : List String} {maxSim : ℚ} {depth : ℕ}
    (hbest : m.findBestMatch overflowChecks tokens = some (none, maxSim))
    (hdepth : maxPrefixDepth overflowChecks m.config = some depth) :
    Destabilizes overflowChecks m tokens ↔
      Shadowed m.config.maxChildren (m.lenNode tokens) (tokens.take depth) := by
  constructor
  · rintro (⟨cId', maxSim', found', hbest', -⟩ | ⟨maxSim', depth', -, hdepth', hshadow⟩)
    · cases hbest.symm.trans hbest'
    · cases hdepth.symm.trans hdepth'
      exact hshadow
  · exact fun hshadow => Or.inr ⟨maxSim, depth, hbest, hdepth, hshadow⟩

lemma repeats_iff {config : DrainConfig} {s : Session} (hsummary : Summary config s)
    (htree : TreeIdsTaken s.miner) (hdepth : 2 ≤ config.depth)
    (hwildcard : wildcard ∉ config.uniqueAnchorTokens)
    (hgood : config.similarityThreshold.atMost 1 = true) {first second : AddLogCall}
    (hraw : second.raw = first.raw) (hne : tokenize (mask first.raw) ≠ []) :
    (∃ out out', s.miner.addLog mask overflowChecks first = some out ∧
      out.2.addLog mask overflowChecks second = some out' ∧ Repeats out.1 out'.1) ↔
      ¬Destabilizes overflowChecks s.miner (tokenize (mask first.raw)) := by
  have hconfig := hsummary.config
  subst hconfig
  have hsome : (s.miner.addLog mask overflowChecks first).isSome := addLog_isSome hdepth first
  obtain ⟨out, hadd⟩ := Option.isSome_iff_exists.mp hsome
  have hsummary' : Summary s.miner.config
      ⟨out.2, s.assigned ++ [⟨out.1.clusterId, tokenize (mask first.raw)⟩]⟩ :=
    hsummary.step (by rw [Session.step, hadd]; rfl)
  have hsome' : (out.2.addLog mask overflowChecks second).isSome :=
    addLog_isSome (hsummary'.config.symm ▸ hdepth) second
  obtain ⟨out', hadd'⟩ := Option.isSome_iff_exists.mp hsome'
  have hcalls : (∃ out out', s.miner.addLog mask overflowChecks first = some out ∧
      out.2.addLog mask overflowChecks second = some out' ∧ Repeats out.1 out'.1) ↔
      Repeats out.1 out'.1 := by
    constructor
    · rintro ⟨out₁, out₂, h₁, h₂, hrepeats⟩
      cases hadd.symm.trans h₁
      cases hadd'.symm.trans h₂
      exact hrepeats
    · exact fun hrepeats => ⟨out, out', hadd, hadd', hrepeats⟩
  rw [hcalls]
  cases addsLog_of_addLog hadd with
  | blank hblank => exact absurd hblank hne
  | merged tokens cId maxSim found htokens hne' hbest hfound =>
    have hnext : cId ≠ s.miner.nextClusterId := (hsummary.bounds hfound).2.ne
    rw [htokens, destabilizes_merged_iff hbest hfound, not_not]
    exact repeats_merged_iff hadd' hwildcard (hraw ▸ htokens) hne' hbest hfound rfl rfl rfl rfl
      hnext
  | opened tokens maxSim root htokens hne' hbest hroot =>
    have hprefix : maxPrefixDepth overflowChecks s.miner.config = some (s.miner.config.depth - 2) :=
      maxPrefixDepth_of_le hdepth
    rw [htokens, destabilizes_opened_iff hbest hprefix]
    exact repeats_opened_iff hadd' htree hgood hprefix (hraw ▸ htokens) hne' hbest rfl hroot rfl rfl
      rfl

/-- With the default configuration, in every reachable state: a line that has tokens gets one
cluster from two calls in a row, known to the second, exactly if the first call neither
generalises an anchor nor inserts into a shadowed place. -/
theorem repetition_stable_iff (mask : String → String) (overflowChecks : Bool)
    (calls : List AddLogCall) (s : Session)
    (hrun : run (Session.step mask overflowChecks) (.start {}) calls = some s)
    (first second : AddLogCall) (hraw : second.raw = first.raw)
    (hne : tokenize (mask first.raw) ≠ []) :
    (∃ out out', s.miner.addLog mask overflowChecks first = some out ∧
      out.2.addLog mask overflowChecks second = some out' ∧ Repeats out.1 out'.1) ↔
      ¬Destabilizes overflowChecks s.miner (tokenize (mask first.raw)) :=
  repeats_iff (summary_of_run hrun) (treeIdsTaken_of_run hrun) (by decide) (by decide)
    (by decide +kernel) hraw hne

/-- Both calls are merged into the cluster of an earlier line. -/
theorem repetition_stable_iff_merged :
    ∃ s out out', run (Session.step id false) (.start {}) [⟨"rule hit ALLOW 7", 0, 0⟩] = some s ∧
      s.miner.addLog id false ⟨"rule hit ALLOW 8", 1, 0⟩ = some out ∧
      out.2.addLog id false ⟨"rule hit ALLOW 8", 2, 0⟩ = some out' ∧ Repeats out.1 out'.1 := by
  obtain ⟨s, cluster, hrun, hbest, hcluster, halike⟩ := exists_rule_run
  have hne : tokenize (id "rule hit ALLOW 8") ≠ [] := by decide +kernel
  have hstable : ¬Destabilizes false s.miner (tokenize (id "rule hit ALLOW 8")) := by
    rintro (⟨cId, maxSim, found, hbest', hfound, hdiffer⟩ | ⟨maxSim, depth, hbest', -, -⟩)
    · cases hbest.symm.trans hbest'
      cases hcluster.symm.trans hfound
      exact hdiffer halike
    · cases hbest.symm.trans hbest'
  obtain ⟨out, out', hadd, hadd', hrepeats⟩ := (repetition_stable_iff id false _ s hrun
    ⟨"rule hit ALLOW 8", 1, 0⟩ ⟨"rule hit ALLOW 8", 2, 0⟩ rfl hne).mpr hstable
  exact ⟨s, out, out', hrun, hadd, hadd', hrepeats⟩

/-- The second of two equal lines opens a cluster of its own, because the first one has
generalised the anchor. -/
theorem repeated_line_splits :
    ∃ s out out', run (Session.step id false) (.start {}) [⟨"rule hit allow", 0, 0⟩] = some s ∧
      s.miner.addLog id false ⟨"rule hit ALLOW", 1, 0⟩ = some out ∧
      out.2.addLog id false ⟨"rule hit ALLOW", 2, 0⟩ = some out' ∧
      out.1.clusterId = 1 ∧ out'.1.clusterId = 2 ∧ out'.1.isNew = true := by
  have heval : ((run (Session.step id false) (.start {}) [⟨"rule hit allow", 0, 0⟩]).bind fun s =>
      (s.miner.addLog id false ⟨"rule hit ALLOW", 1, 0⟩).bind fun out =>
        (out.2.addLog id false ⟨"rule hit ALLOW", 2, 0⟩).map fun out' =>
          (out.1.clusterId, out'.1.clusterId, out'.1.isNew)) = some (1, 2, true) := by
    decide +kernel
  obtain ⟨s, hrun, heval⟩ := Option.bind_eq_some_iff.mp heval
  obtain ⟨out, hadd, heval⟩ := Option.bind_eq_some_iff.mp heval
  obtain ⟨out', hadd', heval⟩ := Option.map_eq_some_iff.mp heval
  simp only [Prod.mk.injEq] at heval
  exact ⟨s, out, out', hrun, hadd, hadd', heval⟩

end Ulpf.Ai.Drain
