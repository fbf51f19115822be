import Ulpf.Ai.DrainRetention
import Ulpf.Library.PrefixPaths

/-!
# The shape of the prefix tree

The tree, the cluster map and the id counter are updated one after another. After every call
the ids are the numbers from one on, each of them stands at one place of the tree, under the
length of its template, and no node but the root has more than one child too many.
-/

namespace Ulpf.Ai.Drain
open Ulpf.Library Ulpf.Core

/-! ### Insertion -/

/-- The keys that an insertion follows below a node. -/
def insertPath (maxChildren : ℕ) : List String → Node → List String
  | [], _ => []
  | token :: tokens, node =>
    let key := insertKey maxChildren node token
    key :: insertPath maxChildren tokens ((node.child key).getD Node.new)

@[simp] lemma length_insertPath (maxChildren : ℕ) (tokens : List String) (node : Node) :
    (insertPath maxChildren tokens node).length = tokens.length := by
  induction tokens generalizing node with
  | nil => rfl
  | cons token tokens ih => rw [insertPath, List.length_cons, ih, List.length_cons]

lemma valueAt_insert (maxChildren clusterId : ℕ) (tokens : List String) (node : Node)
    (path : List String) :
    (Node.insert maxChildren clusterId tokens node).valueAt [] path =
      if path = insertPath maxChildren tokens node then node.valueAt [] path ++ [clusterId]
      else node.valueAt [] path := by
  induction tokens generalizing node path with
  | nil => exact PrefixTree.valueAt_modifyValue [] node (· ++ [clusterId]) path
  | cons token tokens ih =>
    rw [Node.insert, insertPath]
    cases path with
    | nil => rfl
    | cons k path =>
      rw [PrefixTree.valueAt_alter]
      by_cases hk : k = insertKey maxChildren node token
      · subst hk
        rw [if_pos rfl, ih, PrefixTree.valueAt_cons]
        simp only [List.cons.injEq, true_and]
        rfl
      · simp [hk]

/-- A node has at most `maxChildren` children, or a wildcard child and one more. -/
def Roomy (maxChildren : ℕ) (node : Node) : Prop :=
  node.keys.Nodup ∧ (node.keys.length ≤ maxChildren ∨
    (node.keys.length = maxChildren + 1 ∧ "*" ∈ node.keys))

lemma roomy_new (maxChildren : ℕ) : Roomy maxChildren Node.new :=
  ⟨List.nodup_nil, Or.inl (Nat.zero_le _)⟩

lemma Roomy.le {maxChildren : ℕ} {node : Node} (h : Roomy maxChildren node) :
    node.children.length ≤ maxChildren + 1 := by
  rw [← PrefixTree.length_keys]
  have hlength := h.2
  omega

/-- Only a token that finds room adds a key of its own; a full node gets the wildcard. -/
lemma roomy_alter {maxChildren : ℕ} {node : Node} (h : Roomy maxChildren node) (token : String)
    (f : Option Node → Node) :
    Roomy maxChildren (node.alter (insertKey maxChildren node token) f) := by
  refine ⟨PrefixTree.nodup_keys_alter h.1, ?_⟩
  rw [PrefixTree.keys_alter]
  by_cases hmem : insertKey maxChildren node token ∈ node.keys
  · rw [if_pos hmem]
    exact h.2
  · rw [if_neg hmem, List.length_append, List.length_singleton, List.mem_append,
      List.mem_singleton]
    by_cases hfull : maxChildren ≤ node.keys.length
    · have hkey : insertKey maxChildren node token = "*" := by
        rw [PrefixTree.length_keys] at hfull
        simp [insertKey, hfull]
      rw [hkey] at hmem ⊢
      rcases h.2 with hle | ⟨-, hwild⟩
      · exact Or.inr ⟨by omega, Or.inr rfl⟩
      · exact absurd hwild hmem
    · exact Or.inl (by omega)

lemma roomy_insert {maxChildren : ℕ} (clusterId : ℕ) (tokens : List String) {node : Node}
    (h : node.Everywhere (Roomy maxChildren)) :
    (Node.insert maxChildren clusterId tokens node).Everywhere (Roomy maxChildren) := by
  induction tokens generalizing node with
  | nil =>
    apply h.modifyValue
    unfold Roomy
    rw [PrefixTree.keys_modifyValue]
    exact h.here
  | cons token tokens ih =>
    apply h.alter (roomy_alter h.here token _)
    apply ih
    cases hchild : node.child (insertKey maxChildren node token) with
    | none => exact PrefixTree.everywhere_leaf (roomy_new maxChildren)
    | some c => exact h.child hchild

/-! ### The invariant -/

/-- The id stands once in the ids of the node at the end of the path, and in no other node. -/
def OccursOnlyAt (root : Node) (cId : ℕ) (path : List String) : Prop :=
  ∀ p, (root.valueAt [] p).count cId = if p = path then 1 else 0

/-- The place of a cluster: under the length of its template, as deep as the configuration and
its length allow. -/
def Located (config : DrainConfig) (root : Node) (cId : ℕ) (cluster : LogCluster) : Prop :=
  ∃ keys : List String, keys.length = min cluster.size (config.depth - 2) ∧
    OccursOnlyAt root cId (toString cluster.size :: keys)

structure TreeShape (config : DrainConfig) (m : DrainMiner) : Prop where
  configured : m.config = config
  ids : ∀ cId, cId ∈ m.clusters ↔ 1 ≤ cId ∧ cId < m.nextClusterId
  count : m.nextClusterId = m.clusterCount + 1
  size : ∀ cId cluster, m.clusters.lookup cId = some cluster →
    cluster.size = cluster.templateTokens.length
  located : ∀ cId cluster, m.clusters.lookup cId = some cluster →
    Located config m.root cId cluster
  retained : ∀ path, ∀ cId ∈ m.root.valueAt [] path, cId ∈ m.clusters
  rootKeys : m.root.keys.Nodup
  roomy : ∀ key c, m.root.child key = some c → c.Everywhere (Roomy config.maxChildren)

lemma treeShape_new (config : DrainConfig) : TreeShape config (.new config) where
  configured := rfl
  ids cId := by
    refine iff_of_false (AList.notMem_empty cId) ?_
    rintro ⟨hpos, hlt⟩
    exact absurd (hpos.trans_lt hlt) (lt_irrefl 1)
  count := rfl
  size cId cluster h := by cases h
  located cId cluster h := by cases h
  retained path cId h := by
    rw [DrainMiner.new, Node.new, PrefixTree.valueAt_leaf] at h
    cases h
  rootKeys := List.nodup_nil
  roomy key c h := by cases h

section Opened

variable {config : DrainConfig} {m : DrainMiner} {tokens : List String}

/-- The tree after the insertion of a new cluster. -/
def openedRoot (config : DrainConfig) (m : DrainMiner) (tokens : List String) : Node :=
  m.root.alter (toString tokens.length) fun lenNode =>
    Node.insert config.maxChildren m.nextClusterId (tokens.take (config.depth - 2))
      (lenNode.getD Node.new)

def openedPath (config : DrainConfig) (m : DrainMiner) (tokens : List String) : List String :=
  toString tokens.length :: insertPath config.maxChildren (tokens.take (config.depth - 2))
    ((m.root.child (toString tokens.length)).getD Node.new)

lemma valueAt_openedRoot (path : List String) :
    (openedRoot config m tokens).valueAt [] path =
      if path = openedPath config m tokens then m.root.valueAt [] path ++ [m.nextClusterId]
      else m.root.valueAt [] path := by
  unfold openedRoot openedPath
  cases path with
  | nil => rfl
  | cons k path =>
    rw [PrefixTree.valueAt_alter]
    by_cases hk : k = toString tokens.length
    · subst hk
      rw [if_pos rfl, valueAt_insert, PrefixTree.valueAt_cons]
      simp only [List.cons.injEq, true_and]
      rfl
    · rw [if_neg hk, if_neg fun heq => hk (List.cons.inj heq).1]

lemma occursOnlyAt_new (h : TreeShape config m) :
    OccursOnlyAt (openedRoot config m tokens) m.nextClusterId (openedPath config m tokens) := by
  intro path
  have hfresh : m.nextClusterId ∉ m.root.valueAt [] path := by
    intro hmem
    have hlt := ((h.ids _).mp (h.retained path _ hmem)).2
    exact lt_irrefl _ hlt
  rw [valueAt_openedRoot]
  split_ifs
  · rw [List.count_append, List.count_eq_zero_of_not_mem hfresh, List.count_singleton_self]
  · exact List.count_eq_zero_of_not_mem hfresh

lemma OccursOnlyAt.opened {cId : ℕ} {path : List String} (h : OccursOnlyAt m.root cId path)
    (hne : cId ≠ m.nextClusterId) : OccursOnlyAt (openedRoot config m tokens) cId path := by
  intro p
  rw [← h p, valueAt_openedRoot]
  split_ifs
  · rw [List.count_append, List.count_singleton, beq_false_of_ne hne.symm]
    rfl
  · rfl

lemma roomy_openedRoot (h : TreeShape config m) {key : String} {c : Node}
    (hc : (openedRoot config m tokens).child key = some c) :
    c.Everywhere (Roomy config.maxChildren) := by
  unfold openedRoot at hc
  by_cases hkey : key = toString tokens.length
  · subst hkey
    rw [PrefixTree.child_alter_self] at hc
    cases hc
    apply roomy_insert
    cases hchild : m.root.child (toString tokens.length) with
    | none => exact PrefixTree.everywhere_leaf (roomy_new _)
    | some c => exact h.roomy _ c hchild
  · rw [PrefixTree.child_alter_of_ne _ hkey] at hc
    exact h.roomy key c hc

end Opened

section Call

variable {mask : String → String} {overflowChecks : Bool} {config : DrainConfig}
  {m : DrainMiner}

lemma TreeShape.merged {cId : ℕ} {found : LogCluster} (h : TreeShape config m)
    (hfound : m.clusters.lookup cId = some found) (incoming : List String) (nowMs : Int64) :
    TreeShape config { m.counted with
      clusters := m.clusters.insert cId (found.update incoming nowMs) } := by
  have hmem : cId ∈ m.clusters := AList.lookup_isSome.mp (Option.isSome_of_eq_some hfound)
  have hkeys : ∀ k, k ∈ m.clusters.insert cId (found.update incoming nowMs) ↔ k ∈ m.clusters := by
    intro k
    rw [AList.mem_insert]
    exact ⟨fun hk => hk.elim (fun heq => heq ▸ hmem) id, Or.inr⟩
  have hclusters : ∀ {P : ℕ → LogCluster → Prop},
      (∀ k c, m.clusters.lookup k = some c → P k c) → P cId (found.update incoming nowMs) →
        ∀ k c, (m.clusters.insert cId (found.update incoming nowMs)).lookup k = some c → P k c := by
    intro P hold hnew k c hlookup
    by_cases hk : k = cId
    · subst hk
      rw [AList.lookup_insert] at hlookup
      cases hlookup
      exact hnew
    · rw [AList.lookup_insert_ne hk] at hlookup
      exact hold k c hlookup
  constructor
  · exact h.configured
  · exact fun k => (hkeys k).trans (h.ids k)
  · have hperm := List.perm_cons_erase (AList.mem_keys.mp hmem)
    have hlength : (m.clusters.insert cId (found.update incoming nowMs)).keys.length =
        m.clusters.keys.length := by
      rw [AList.keys_insert]
      exact hperm.length_eq.symm
    exact h.count.trans (congrArg (· + 1) hlength.symm)
  · refine hclusters (P := fun _ c => c.size = c.templateTokens.length) h.size ?_
    rw [LogCluster.size_update, LogCluster.templateTokens_update, LogCluster.length_mergeTokens]
    exact h.size cId found hfound
  · exact hclusters (P := Located config m.root) h.located (h.located cId found hfound)
  · exact fun path k hk => (hkeys k).mpr (h.retained path k hk)
  · exact h.rootKeys
  · exact h.roomy

lemma TreeShape.opened (h : TreeShape config m) (tokens : List String) (nowMs : Int64) :
    TreeShape config { m.counted with
      root := openedRoot config m tokens
      clusters := m.clusters.insert m.nextClusterId (.new m.nextClusterId tokens nowMs)
      nextClusterId := m.nextClusterId + 1 } := by
  have hnew : m.nextClusterId ∉ m.clusters := fun hmem =>
    absurd ((h.ids _).mp hmem).2 (lt_irrefl _)
  have hpos : 1 ≤ m.nextClusterId := by
    have hcount := h.count
    omega
  constructor
  · exact h.configured
  · intro k
    simp only [AList.mem_insert, h.ids k]
    omega
  · have hlength : (m.clusters.insert m.nextClusterId
        (.new m.nextClusterId tokens nowMs)).keys.length = m.clusters.keys.length + 1 := by
      rw [AList.keys_insert, List.erase_of_not_mem (fun hmem => hnew (AList.mem_keys.mpr hmem))]
      rfl
    exact (congrArg (· + 1) h.count).trans (congrArg (· + 1) hlength.symm)
  · intro k c hlookup
    by_cases hk : k = m.nextClusterId
    · subst hk
      rw [AList.lookup_insert] at hlookup
      cases hlookup
      rfl
    · rw [AList.lookup_insert_ne hk] at hlookup
      exact h.size k c hlookup
  · intro k c hlookup
    by_cases hk : k = m.nextClusterId
    · subst hk
      rw [AList.lookup_insert] at hlookup
      cases hlookup
      refine ⟨_, ?_, occursOnlyAt_new h⟩
      rw [length_insertPath, List.length_take, Nat.min_comm]
      rfl
    · rw [AList.lookup_insert_ne hk] at hlookup
      obtain ⟨keys, hkeys, hplace⟩ := h.located k c hlookup
      exact ⟨keys, hkeys, hplace.opened hk⟩
  · intro path k hk
    rw [AList.mem_insert]
    change k ∈ (openedRoot config m tokens).valueAt [] path at hk
    rw [valueAt_openedRoot] at hk
    split_ifs at hk
    · rcases List.mem_append.mp hk with hold | hlast
      · exact Or.inr (h.retained path k hold)
      · exact Or.inl (List.mem_singleton.mp hlast)
    · exact Or.inr (h.retained path k hk)
  · exact PrefixTree.nodup_keys_alter h.rootKeys
  · exact fun key c hc => roomy_openedRoot h hc

lemma TreeShape.step (hdepth : 2 ≤ config.depth) {call : AddLogCall} {n : DrainMiner}
    (h : TreeShape config m) (hstep : m.step mask overflowChecks call = some n) :
    TreeShape config n := by
  obtain ⟨out, hadd, rfl⟩ := Option.map_eq_some_iff.mp hstep
  cases addsLog_of_addLog hadd with
  | blank hblank =>
    exact ⟨h.configured, h.ids, h.count, h.size, h.located, h.retained, h.rootKeys, h.roomy⟩
  | merged tokens cId maxSim found htokens hne hbest hfound =>
    exact h.merged hfound tokens call.nowMs
  | opened tokens maxSim root htokens hne hbest hroot =>
    rw [DrainMiner.insertToTree, h.configured, maxPrefixDepth_of_le hdepth] at hroot
    cases hroot
    exact h.opened tokens call.nowMs

end Call

/-- After any sequence of calls the ids are the numbers from one to the number of clusters, each
stands in one node and there once, under the length of its template and at the depth that its
length and the configuration allow, and no node below the root has more than `max_children + 1`
children. -/
theorem prefix_tree_shape (mask : String → String) (overflowChecks : Bool) (config : DrainConfig)
    (hdepth : 2 ≤ config.depth) (calls : List AddLogCall) :
    ∃ m, run (DrainMiner.step mask overflowChecks) (.new config) calls = some m ∧
      (∀ cId, cId ∈ m.clusters ↔ 1 ≤ cId ∧ cId ≤ m.clusterCount) ∧
      (∀ path, ∀ cId ∈ m.root.valueAt [] path, cId ∈ m.clusters) ∧
      (∀ cId cluster, m.clusters.lookup cId = some cluster →
        cluster.size = cluster.templateTokens.length ∧
        ∃ keys : List String, keys.length = min cluster.size (config.depth - 2) ∧
          ∀ path, (m.root.valueAt [] path).count cId =
            if path = toString cluster.size :: keys then 1 else 0) ∧
      ∀ path node, m.root.find path = some node → node.keys.Nodup ∧
        (path ≠ [] → node.children.length ≤ config.maxChildren + 1) := by
  obtain ⟨m, hrun⟩ :
      ∃ m, run (DrainMiner.step mask overflowChecks) (.new config) calls = some m := by
    apply exists_run_of_invariant (I := TreeShape config)
    · intro m call h
      rw [DrainMiner.step, Option.isSome_map]
      apply addLog_isSome
      rwa [h.configured]
    · exact fun m call n h hstep => h.step hdepth hstep
    · exact treeShape_new config
  have hshape : TreeShape config m :=
    run_induction (motive := fun _ m => TreeShape config m) _ (treeShape_new config)
      (fun _ _ _ _ _ h hstep => h.step hdepth hstep) hrun
  refine ⟨m, hrun, ?_, hshape.retained, ?_, ?_⟩
  · intro cId
    rw [hshape.ids, hshape.count, Nat.lt_succ_iff]
  · exact fun cId cluster hlookup =>
      ⟨hshape.size cId cluster hlookup, hshape.located cId cluster hlookup⟩
  · intro path node hnode
    cases path with
    | nil =>
      cases hnode
      exact ⟨hshape.rootKeys, fun hne => absurd rfl hne⟩
    | cons key path =>
      obtain ⟨c, hc, hfind⟩ := Option.bind_eq_some_iff.mp hnode
      have hroomy := hshape.roomy key c hc path node hfind
      exact ⟨hroomy.1, fun _ => hroomy.le⟩

/-- A configuration that allows one child below each node. -/
theorem prefix_tree_shape_narrow :
    ∃ m, run (DrainMiner.step id false) (.new { depth := 3, maxChildren := 1 })
        [⟨"login alice", 0, 0⟩, ⟨"logout alice", 1, 0⟩] = some m ∧
      ∀ cId, cId ∈ m.clusters ↔ 1 ≤ cId ∧ cId ≤ m.clusterCount := by
  obtain ⟨m, hrun, hids, -⟩ := prefix_tree_shape id false { depth := 3, maxChildren := 1 }
    (by decide) [⟨"login alice", 0, 0⟩, ⟨"logout alice", 1, 0⟩]
  exact ⟨m, hrun, hids⟩

end Ulpf.Ai.Drain
