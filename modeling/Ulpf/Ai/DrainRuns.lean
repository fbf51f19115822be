import Ulpf.Ai.Drain
import Ulpf.Library.Execution

/-!
# Runs of the Drain miner

A session is the miner with the history of its answers. Along every run the template of a
cluster is the exact summary of the token lists assigned to it, and lines with different
anchors at one position are never assigned to one cluster. An anchor is generalised exactly
when a line with another spelling of it is merged.
-/

namespace Ulpf.Ai.Drain
open Ulpf.Library Ulpf.Core

/-- A line of the history: the cluster id of the answer and the tokens of the line. -/
structure Assignment where
  clusterId : ℕ
  tokens : List String

structure Session where
  miner : DrainMiner
  assigned : List Assignment

namespace Session

def start (config : DrainConfig) : Session := ⟨DrainMiner.new config, []⟩

def step (mask : String → String) (overflowChecks : Bool) (s : Session) (call : AddLogCall) :
    Option Session :=
  (s.miner.addLog mask overflowChecks call).map fun out =>
    ⟨out.2, s.assigned ++ [⟨out.1.clusterId, tokenize (mask call.raw)⟩]⟩

/-- The token lists of the lines assigned to a cluster, in order. -/
def members (s : Session) (cId : ℕ) : List (List String) :=
  (s.assigned.filter fun a => a.clusterId = cId).map Assignment.tokens

lemma mem_members {s : Session} {cId : ℕ} {ts : List String} :
    ts ∈ s.members cId ↔ ⟨cId, ts⟩ ∈ s.assigned := by
  unfold members
  simp only [List.mem_map, List.mem_filter, decide_eq_true_eq]
  constructor
  · rintro ⟨a, ⟨ha, rfl⟩, rfl⟩
    exact ha
  · intro h
    exact ⟨_, ⟨h, rfl⟩, rfl⟩

lemma members_concat_self {s t : Session} {cId : ℕ} {tokens : List String}
    (h : t.assigned = s.assigned ++ [⟨cId, tokens⟩]) :
    t.members cId = s.members cId ++ [tokens] := by
  simp [members, h]

lemma members_concat_of_ne {s t : Session} {a : Assignment} {cId : ℕ}
    (h : t.assigned = s.assigned ++ [a]) (hne : a.clusterId ≠ cId) :
    t.members cId = s.members cId := by
  simp [members, h, hne]

end Session

/-! ### Summaries -/

/-- The template token is common to all token lists, or it is the wildcard and two of them
differ. -/
def SummarizesAt (members : List (List String)) (p : ℕ) (t : String) : Prop :=
  (∀ ts ∈ members, ts[p]? = some t) ∨
    (t = wildcard ∧ ∃ ts ∈ members, ∃ us ∈ members, ts[p]? ≠ us[p]?)

/-- The cluster is the summary of the token lists assigned to it. -/
structure Summarizes (cluster : LogCluster) (members : List (List String)) : Prop where
  size : cluster.size = cluster.templateTokens.length
  lengths : ∀ ts ∈ members, ts.length = cluster.size
  token : ∀ (p : ℕ) t, cluster.templateTokens[p]? = some t → SummarizesAt members p t
  template : cluster.template = joinTokens cluster.templateTokens
  count : cluster.count = members.length
  nonempty : members ≠ []

lemma SummarizesAt.merge {members : List (List String)} {p : ℕ} {t u : String}
    {tokens : List String} (h : SummarizesAt members p t) (hne : members ≠ [])
    (hu : tokens[p]? = some u) :
    SummarizesAt (members ++ [tokens]) p (LogCluster.mergeToken t u) := by
  rw [LogCluster.mergeToken_eq]
  rcases h with hall | ⟨rfl, ts, hts, us, hus, hdiffer⟩
  · by_cases htu : t = u
    · left
      rw [if_pos htu]
      intro ts hts
      rcases List.mem_append.mp hts with hold | hnew
      · exact hall ts hold
      · rw [List.mem_singleton.mp hnew, hu, htu]
    · right
      rw [if_neg htu]
      obtain ⟨ts, hts⟩ := List.exists_mem_of_ne_nil members hne
      refine ⟨rfl, ts, List.mem_append_left _ hts, tokens, by simp, ?_⟩
      rw [hall ts hts, hu]
      intro heq
      exact htu (Option.some.inj heq)
  · right
    rw [ite_self]
    exact ⟨rfl, ts, List.mem_append_left _ hts, us, List.mem_append_left _ hus, hdiffer⟩

lemma Summarizes.update {cluster : LogCluster} {members : List (List String)}
    (h : Summarizes cluster members) {tokens : List String} (hsize : cluster.size = tokens.length)
    (nowMs : Int64) : Summarizes (cluster.update tokens nowMs) (members ++ [tokens]) where
  size := by simp [h.size]
  lengths ts hts := by
    rcases List.mem_append.mp hts with hold | hnew
    · exact h.lengths ts hold
    · rw [List.mem_singleton.mp hnew]
      exact hsize.symm
  token p t ht := by
    have hp : p < cluster.templateTokens.length := by
      have hlength := (List.getElem?_eq_some_iff.mp ht).1
      rwa [LogCluster.templateTokens_update, LogCluster.length_mergeTokens] at hlength
    have hp' : p < tokens.length := by rwa [← hsize, h.size]
    rw [LogCluster.templateTokens_update, LogCluster.getElem?_mergeTokens
      (List.getElem?_eq_getElem hp) (List.getElem?_eq_getElem hp'), Option.some_inj] at ht
    rw [← ht]
    exact (h.token p _ (List.getElem?_eq_getElem hp)).merge h.nonempty
      (List.getElem?_eq_getElem hp')
  template := cluster.template_update tokens nowMs h.template
  count := by simp [h.count]
  nonempty := by simp

lemma summarizes_new (cId : ℕ) (tokens : List String) (nowMs : Int64) :
    Summarizes (.new cId tokens nowMs) [tokens] where
  size := rfl
  lengths ts hts := by
    rw [List.mem_singleton.mp hts]
    rfl
  token p t ht := by
    left
    intro ts hts
    rw [List.mem_singleton.mp hts]
    exact ht
  template := rfl
  count := rfl
  nonempty := by simp

/-! ### The invariant -/

/-- What holds of every session: ids run from one up to the next one, every line without
tokens is answered with id zero and every other one with a cluster that summarizes it. -/
structure Summary (config : DrainConfig) (s : Session) : Prop where
  config : s.miner.config = config
  nextPos : 1 ≤ s.miner.nextClusterId
  ids : ∀ cId ∈ s.miner.clusters, 1 ≤ cId ∧ cId < s.miner.nextClusterId
  summarizes : ∀ cId cluster, s.miner.clusters.lookup cId = some cluster →
    Summarizes cluster (s.members cId)
  assigned : ∀ a ∈ s.assigned, (a.tokens = [] ∧ a.clusterId = 0) ∨
    (a.tokens ≠ [] ∧ a.clusterId ∈ s.miner.clusters)
  total : s.miner.totalLogsProcessed = s.assigned.length

lemma summary_start (config : DrainConfig) : Summary config (.start config) where
  config := rfl
  nextPos := le_rfl
  ids cId h := absurd h (AList.notMem_empty cId)
  summarizes cId cluster h := by cases h
  assigned a ha := by cases ha
  total := rfl

lemma Summary.bounds {config : DrainConfig} {s : Session} (h : Summary config s) {cId : ℕ}
    {cluster : LogCluster} (hlookup : s.miner.clusters.lookup cId = some cluster) :
    1 ≤ cId ∧ cId < s.miner.nextClusterId :=
  h.ids cId (AList.lookup_isSome.mp (by rw [hlookup]; rfl))

lemma Summary.blank {config : DrainConfig} {s : Session} (h : Summary config s) :
    Summary config ⟨s.miner.counted, s.assigned ++ [⟨0, []⟩]⟩ where
  config := h.config
  nextPos := h.nextPos
  ids := h.ids
  summarizes cId cluster hlookup := by
    have hpos := (h.bounds hlookup).1
    rw [Session.members_concat_of_ne (s := s) rfl (Nat.ne_of_lt hpos)]
    exact h.summarizes cId cluster hlookup
  assigned a ha := by
    rcases List.mem_append.mp ha with hold | hnew
    · exact h.assigned a hold
    · rw [List.mem_singleton.mp hnew]
      exact Or.inl ⟨rfl, rfl⟩
  total := by
    rw [List.length_append, ← h.total]
    rfl

lemma Summary.assign {config : DrainConfig} {s : Session} (h : Summary config s)
    {miner : DrainMiner} {cId : ℕ} {tokens : List String} {cluster : LogCluster}
    (hconfig : miner.config = s.miner.config)
    (hnext : s.miner.nextClusterId ≤ miner.nextClusterId)
    (hid : 1 ≤ cId ∧ cId < miner.nextClusterId)
    (hclusters : miner.clusters = s.miner.clusters.insert cId cluster)
    (htotal : miner.totalLogsProcessed = s.miner.totalLogsProcessed + 1) (hne : tokens ≠ [])
    (hsummarizes : Summarizes cluster (s.members cId ++ [tokens])) :
    Summary config ⟨miner, s.assigned ++ [⟨cId, tokens⟩]⟩ where
  config := hconfig.trans h.config
  nextPos := h.nextPos.trans hnext
  ids k hk := by
    simp only [hclusters, AList.mem_insert] at hk
    rcases hk with rfl | hold
    · exact hid
    · exact ⟨(h.ids k hold).1, (h.ids k hold).2.trans_le hnext⟩
  summarizes k c hlookup := by
    simp only [hclusters] at hlookup
    by_cases hk : k = cId
    · subst hk
      rw [AList.lookup_insert] at hlookup
      cases hlookup
      have hmembers : Session.members ⟨miner, s.assigned ++ [⟨k, tokens⟩]⟩ k =
        s.members k ++ [tokens] := Session.members_concat_self rfl
      rwa [hmembers]
    · rw [AList.lookup_insert_ne hk] at hlookup
      rw [Session.members_concat_of_ne (s := s) rfl (Ne.symm hk)]
      exact h.summarizes k c hlookup
  assigned a ha := by
    simp only [hclusters, AList.mem_insert]
    rcases List.mem_append.mp ha with hold | hnew
    · exact (h.assigned a hold).imp_right fun hold => ⟨hold.1, Or.inr hold.2⟩
    · rw [List.mem_singleton.mp hnew]
      exact Or.inr ⟨hne, Or.inl rfl⟩
  total := by
    rw [htotal, h.total, List.length_append]
    rfl

lemma Summary.members_next {config : DrainConfig} {s : Session} (h : Summary config s) :
    s.members s.miner.nextClusterId = [] := by
  rw [List.eq_nil_iff_forall_not_mem]
  intro ts hts
  rcases h.assigned _ (Session.mem_members.mp hts) with ⟨-, hzero⟩ | ⟨-, hmem⟩
  · have hpos := h.nextPos
    have hzero : s.miner.nextClusterId = 0 := hzero
    omega
  · exact absurd (h.ids _ hmem).2 (lt_irrefl _)

lemma size_of_findBestMatch {overflowChecks : Bool} {m : DrainMiner} {tokens : List String}
    {cId : ℕ} {maxSim : ℚ} {found : LogCluster}
    (hbest : m.findBestMatch overflowChecks tokens = some (some cId, maxSim))
    (hfound : m.clusters.lookup cId = some found) :
    found.size = tokens.length ∧
      0 < computeSimilarity found.templateTokens tokens m.config.uniqueAnchorTokens := by
  obtain ⟨ids, -, hmax⟩ := DrainMiner.isBestMatch_of_findBestMatch hbest
  obtain ⟨cluster, hlookup, hsize, hpos⟩ := DrainMiner.lookup_of_candidateSimilarity_pos hmax.1
  cases hfound.symm.trans hlookup
  exact ⟨hsize, hpos⟩

variable {mask : String → String} {overflowChecks : Bool}

lemma Summary.step {config : DrainConfig} {s t : Session} {call : AddLogCall}
    (h : Summary config s) (hstep : s.step mask overflowChecks call = some t) :
    Summary config t := by
  unfold Session.step at hstep
  obtain ⟨out, hadd, rfl⟩ := Option.map_eq_some_iff.mp hstep
  cases addsLog_of_addLog hadd with
  | blank hblank =>
    rw [hblank]
    exact h.blank
  | merged tokens cId maxSim found htokens hne hbest hfound =>
    rw [htokens]
    obtain ⟨hsize, -⟩ := size_of_findBestMatch hbest hfound
    exact h.assign rfl le_rfl (h.bounds hfound) rfl rfl hne
      ((h.summarizes cId found hfound).update hsize call.nowMs)
  | opened tokens maxSim root htokens hne hbest hroot =>
    rw [htokens]
    refine h.assign rfl (Nat.le_succ _) ⟨h.nextPos, Nat.lt_succ_self _⟩ rfl rfl hne ?_
    rw [h.members_next]
    exact summarizes_new _ tokens call.nowMs

lemma step_isSome {config : DrainConfig} {s : Session} (h : Summary config s)
    (hdepth : 2 ≤ config.depth) (call : AddLogCall) :
    (s.step mask overflowChecks call).isSome := by
  rw [Session.step, Option.isSome_map]
  apply addLog_isSome
  rwa [h.config]

variable (mask overflowChecks) in
lemma exists_run {config : DrainConfig} (hdepth : 2 ≤ config.depth) (calls : List AddLogCall) :
    ∃ s, run (Session.step mask overflowChecks) (.start config) calls = some s := by
  apply exists_run_of_invariant (I := Summary config)
  · exact fun s call h => step_isSome h hdepth call
  · exact fun s call t h hstep => h.step hstep
  · exact summary_start config

lemma summary_of_run {config : DrainConfig} {calls : List AddLogCall} {s : Session}
    (hrun : run (Session.step mask overflowChecks) (.start config) calls = some s) :
    Summary config s :=
  run_induction (motive := fun _ s => Summary config s) _ (summary_start config)
    (fun _ _ _ _ _ h hstep => h.step hstep) hrun

lemma tokens_of_run {config : DrainConfig} {calls : List AddLogCall} {s : Session}
    (hrun : run (Session.step mask overflowChecks) (.start config) calls = some s) :
    s.assigned.map Assignment.tokens = calls.map fun call => tokenize (mask call.raw) := by
  refine run_induction (motive := fun calls s =>
    s.assigned.map Assignment.tokens = calls.map fun call => tokenize (mask call.raw)) _ rfl ?_ hrun
  rintro done call u v - ih hstep
  unfold Session.step at hstep
  obtain ⟨out, -, rfl⟩ := Option.map_eq_some_iff.mp hstep
  simp [ih]

/-! ### Templates summarize -/

lemma length_filter_cons {α : Type} (f : α → ℕ) {k : ℕ} {keys : List ℕ} (hk : k ∉ keys)
    (l : List α) :
    (l.filter fun a => f a ∈ k :: keys).length =
      (l.filter fun a => f a = k).length + (l.filter fun a => f a ∈ keys).length := by
  induction l with
  | nil => rfl
  | cons a l ih =>
    by_cases hak : f a = k
    · have ha : f a ∉ keys := by rwa [hak]
      simp [hak, hk] at ih ⊢
      omega
    · by_cases ha : f a ∈ keys
      · simp [hak, ha] at ih ⊢
        omega
      · simp [hak, ha] at ih ⊢
        omega

lemma sum_length_filter {α : Type} (f : α → ℕ) {keys : List ℕ} (hnodup : keys.Nodup) (l : List α) :
    (keys.map fun k => (l.filter fun a => f a = k).length).sum =
      (l.filter fun a => f a ∈ keys).length := by
  induction keys with
  | nil => simp
  | cons k keys ih =>
    obtain ⟨hk, hkeys⟩ := List.nodup_cons.mp hnodup
    rw [List.map_cons, List.sum_cons, ih hkeys, length_filter_cons f hk]

/-- The sum of the counts of all clusters. -/
def DrainMiner.totalCount (m : DrainMiner) : ℕ := (m.clusters.entries.map fun e => e.2.count).sum

lemma Summary.total_eq {config : DrainConfig} {s : Session} (h : Summary config s) :
    s.miner.totalLogsProcessed =
      s.miner.totalCount + (s.assigned.filter fun a => a.tokens = []).length := by
  have hcounts : s.miner.totalCount =
      (s.miner.clusters.keys.map fun k => (s.members k).length).sum := by
    unfold DrainMiner.totalCount AList.keys List.keys
    rw [List.map_map]
    congr 1
    apply List.map_congr_left
    rintro ⟨cId, cluster⟩ hentry
    exact (h.summarizes cId cluster (AList.mem_lookup_iff.mpr hentry)).count
  have hmembers : ∀ k, (s.members k).length =
      (s.assigned.filter fun a => a.clusterId = k).length := by
    intro k
    rw [Session.members, List.length_map]
  have hblank : (s.assigned.filter fun a => a.clusterId ∈ s.miner.clusters.keys) =
      s.assigned.filter fun a => !decide (a.tokens = []) := by
    apply List.filter_congr
    intro a ha
    rcases h.assigned a ha with ⟨htokens, hzero⟩ | ⟨htokens, hmem⟩
    · have hnot : a.clusterId ∉ s.miner.clusters.keys := by
        intro hmem
        have hpos := (h.ids _ (AList.mem_keys.mpr hmem)).1
        omega
      simp [htokens, hnot]
    · simp [htokens, AList.mem_keys.mp hmem]
  simp only [hmembers] at hcounts
  rw [hcounts, sum_length_filter _ s.miner.clusters.keys_nodup, hblank, h.total, add_comm]
  exact List.length_eq_length_filter_add _

/-- Whatever lines a miner takes, each cluster's template is the summary of the token lists
assigned to it, its count is their number, and the counts and the lines without tokens add up
to all lines. -/
theorem templates_summarize (mask : String → String) (overflowChecks : Bool)
    (config : DrainConfig) (hdepth : 2 ≤ config.depth) (calls : List AddLogCall) :
    ∃ s, run (Session.step mask overflowChecks) (.start config) calls = some s ∧
      (s.assigned.map Assignment.tokens = calls.map fun call => tokenize (mask call.raw)) ∧
      (∀ cId cluster, s.miner.clusters.lookup cId = some cluster →
        Summarizes cluster (s.members cId)) ∧
      s.miner.totalLogsProcessed =
        s.miner.totalCount + (s.assigned.filter fun a => a.tokens = []).length := by
  obtain ⟨s, hrun⟩ := exists_run mask overflowChecks hdepth calls
  have h := summary_of_run hrun
  exact ⟨s, hrun, tokens_of_run hrun, h.summarizes, h.total_eq⟩

/-- The second line is merged into the cluster of the first. -/
theorem templates_summarize_pair :
    ∃ s, run (Session.step id false) (.start {})
        [⟨"rule hit ALLOW 7", 0, 0⟩, ⟨"rule hit ALLOW 8", 1, 0⟩] = some s ∧
      ∃ cluster, s.miner.clusters.lookup 1 = some cluster ∧
        cluster.templateTokens = ["rule", "hit", "ALLOW", wildcard] ∧
        Summarizes cluster [["rule", "hit", "ALLOW", "7"], ["rule", "hit", "ALLOW", "8"]] := by
  have heval : ((run (Session.step id false) (.start {})
      [⟨"rule hit ALLOW 7", 0, 0⟩, ⟨"rule hit ALLOW 8", 1, 0⟩]).map fun s =>
        ((s.miner.clusters.lookup 1).map LogCluster.templateTokens, s.members 1)) =
      some (some ["rule", "hit", "ALLOW", wildcard],
        [["rule", "hit", "ALLOW", "7"], ["rule", "hit", "ALLOW", "8"]]) := by
    decide +kernel
  obtain ⟨s, hrun, -, hsummarizes, -⟩ := templates_summarize id false {} (by decide)
    [⟨"rule hit ALLOW 7", 0, 0⟩, ⟨"rule hit ALLOW 8", 1, 0⟩]
  rw [hrun, Option.map_some, Option.some.injEq, Prod.mk.injEq] at heval
  obtain ⟨hlookup, hmembers⟩ := heval
  obtain ⟨cluster, hcluster, htemplate⟩ := Option.map_eq_some_iff.mp hlookup
  exact ⟨s, hrun, cluster, hcluster, htemplate, hmembers ▸ hsummarizes 1 cluster hcluster⟩

/-! ### Anchors separate -/

lemma toAsciiUppercase_wildcard : toAsciiUppercase wildcard = wildcard := by decide

/-- Where a merged line has an anchor, all earlier members have it in some spelling, and so
does the template. -/
lemma anchor_joins {cluster : LogCluster} {members : List (List String)}
    {anchorTokens tokens : List String} (h : Summarizes cluster members)
    (hwildcard : wildcard ∉ anchorTokens)
    (hsim : 0 < computeSimilarity cluster.templateTokens tokens anchorTokens) {p : ℕ} {u : String}
    (hu : tokens[p]? = some u) (hanchor : toAsciiUppercase u ∈ anchorTokens) :
    ∃ t, cluster.templateTokens[p]? = some t ∧ toAsciiUppercase t = toAsciiUppercase u ∧
      ∀ ts ∈ members, ts[p]? = some t := by
  obtain ⟨hlength, hsame⟩ := computeSimilarity_pos hsim
  have hp : p < cluster.templateTokens.length := by
    rw [hlength]
    exact (List.getElem?_eq_some_iff.mp hu).1
  have ht := List.getElem?_eq_getElem hp
  have hdiffer := hsame p _ u ht hu
  rw [Bool.eq_false_iff, ne_eq, anchorsDiffer_eq_true_iff, not_and, not_not] at hdiffer
  have hupper := hdiffer (Or.inr hanchor)
  refine ⟨_, ht, hupper, ?_⟩
  rcases h.token p _ ht with hall | ⟨hwild, -⟩
  · exact hall
  · rw [hwild, toAsciiUppercase_wildcard] at hupper
    rw [← hupper] at hanchor
    exact absurd hanchor hwildcard

/-- Lines of one cluster have no two anchors at one position. -/
def Separated (anchorTokens : List String) (s : Session) : Prop :=
  ∀ a ∈ s.assigned, ∀ b ∈ s.assigned, a.clusterId = b.clusterId →
    ∀ (p : ℕ) t u, a.tokens[p]? = some t → b.tokens[p]? = some u →
      toAsciiUppercase t ∈ anchorTokens → toAsciiUppercase u ∈ anchorTokens →
        toAsciiUppercase t = toAsciiUppercase u

lemma Separated.concat {anchorTokens : List String} {s : Session} {miner : DrainMiner}
    {cId : ℕ} {tokens : List String} (h : Separated anchorTokens s)
    (hshared : ∀ ts ∈ s.members cId, ∀ (p : ℕ) t u, ts[p]? = some t → tokens[p]? = some u →
      toAsciiUppercase t ∈ anchorTokens → toAsciiUppercase u ∈ anchorTokens →
        toAsciiUppercase t = toAsciiUppercase u) :
    Separated anchorTokens ⟨miner, s.assigned ++ [⟨cId, tokens⟩]⟩ := by
  have hmember : ∀ a ∈ s.assigned, a.clusterId = cId → a.tokens ∈ s.members cId := by
    rintro a ha rfl
    exact Session.mem_members.mpr ha
  intro a ha b hb hid p t u ht hu hta hua
  rcases List.mem_append.mp ha with ha | ha <;> rcases List.mem_append.mp hb with hb | hb
  · exact h a ha b hb hid p t u ht hu hta hua
  · rw [List.mem_singleton] at hb
    subst hb
    exact hshared a.tokens (hmember a ha hid) p t u ht hu hta hua
  · rw [List.mem_singleton] at ha
    subst ha
    exact (hshared b.tokens (hmember b hb hid.symm) p u t hu ht hua hta).symm
  · rw [List.mem_singleton] at ha hb
    subst ha
    subst hb
    cases ht.symm.trans hu
    rfl

lemma Separated.step {config : DrainConfig} {s t : Session} {call : AddLogCall}
    (hsummary : Summary config s) (hwildcard : wildcard ∉ config.uniqueAnchorTokens)
    (h : Separated config.uniqueAnchorTokens s)
    (hstep : s.step mask overflowChecks call = some t) :
    Separated config.uniqueAnchorTokens t := by
  unfold Session.step at hstep
  obtain ⟨out, hadd, rfl⟩ := Option.map_eq_some_iff.mp hstep
  cases addsLog_of_addLog hadd with
  | blank hblank =>
    rw [hblank]
    exact h.concat fun ts _ p t u _ hu => by cases hu
  | merged tokens cId maxSim found htokens hne hbest hfound =>
    rw [htokens]
    apply h.concat
    intro ts hts p t u ht hu _ hanchor
    obtain ⟨-, hsim⟩ := size_of_findBestMatch hbest hfound
    rw [hsummary.config] at hsim
    obtain ⟨t', -, hupper, hall⟩ := anchor_joins (hsummary.summarizes cId found hfound) hwildcard
      hsim hu hanchor
    cases ht.symm.trans (hall ts hts)
    exact hupper
  | opened tokens maxSim root htokens hne hbest hroot =>
    rw [htokens]
    apply h.concat
    intro ts hts
    rw [hsummary.members_next] at hts
    cases hts

/-- Two lines with different anchors at one position are never assigned to one cluster. -/
theorem anchors_separate (mask : String → String) (overflowChecks : Bool) (config : DrainConfig)
    (hdepth : 2 ≤ config.depth) (hwildcard : wildcard ∉ config.uniqueAnchorTokens)
    (calls : List AddLogCall) :
    ∃ s, run (Session.step mask overflowChecks) (.start config) calls = some s ∧
      (s.assigned.map Assignment.tokens = calls.map fun call => tokenize (mask call.raw)) ∧
      ∀ a ∈ s.assigned, ∀ b ∈ s.assigned, ∀ (p : ℕ) t u,
        a.tokens[p]? = some t → b.tokens[p]? = some u →
        toAsciiUppercase t ∈ config.uniqueAnchorTokens →
        toAsciiUppercase u ∈ config.uniqueAnchorTokens →
        toAsciiUppercase t ≠ toAsciiUppercase u → a.clusterId ≠ b.clusterId := by
  obtain ⟨s, hrun⟩ := exists_run mask overflowChecks hdepth calls
  refine ⟨s, hrun, tokens_of_run hrun, ?_⟩
  have h : Summary config s ∧ Separated config.uniqueAnchorTokens s := by
    refine run_induction (motive := fun _ s => Summary config s ∧
      Separated config.uniqueAnchorTokens s) _ ⟨summary_start config, ?_⟩ ?_ hrun
    · intro a ha
      cases ha
    · rintro done call u v - ⟨hsummary, h⟩ hstep
      exact ⟨hsummary.step hstep, h.step hsummary hwildcard hstep⟩
  intro a ha b hb p t u ht hu hta hua hne hid
  exact hne (h.2 a ha b hb hid p t u ht hu hta hua)

theorem anchors_separate_pair :
    ∃ s, run (Session.step id false) (.start {}) [⟨"rule ALLOW", 0, 0⟩, ⟨"rule deny", 1, 0⟩] =
        some s ∧
      ∀ a ∈ s.assigned, ∀ b ∈ s.assigned, a.tokens = ["rule", "ALLOW"] →
        b.tokens = ["rule", "deny"] → a.clusterId ≠ b.clusterId := by
  obtain ⟨s, hrun, -, h⟩ := anchors_separate id false {} (by decide) (by decide)
    [⟨"rule ALLOW", 0, 0⟩, ⟨"rule deny", 1, 0⟩]
  refine ⟨s, hrun, ?_⟩
  intro a ha b hb hallow hdeny
  exact h a ha b hb 1 "ALLOW" "deny" (by rw [hallow]; rfl) (by rw [hdeny]; rfl) (by decide)
    (by decide) (by decide)

/-! ### Anchors are kept -/

/-- Where a member has an anchor, the template and all other members have the same anchor. -/
def KeepsAnchors (anchorTokens : List String) (cluster : LogCluster)
    (members : List (List String)) : Prop :=
  ∀ ts ∈ members, ∀ (p : ℕ) t, ts[p]? = some t → toAsciiUppercase t ∈ anchorTokens →
    (∃ tmpl, cluster.templateTokens[p]? = some tmpl ∧
      toAsciiUppercase tmpl = toAsciiUppercase t) ∧
    ∀ us ∈ members, ∃ u, us[p]? = some u ∧ toAsciiUppercase u = toAsciiUppercase t

def AnchorsKept (s : Session) : Prop :=
  ∀ cId cluster, s.miner.clusters.lookup cId = some cluster →
    KeepsAnchors s.miner.config.uniqueAnchorTokens cluster (s.members cId)

/-- No token of the line is an anchor that the template has in another letter case. -/
def SpelledAlike (anchorTokens tmplTokens tokens : List String) : Prop :=
  ∀ (p : ℕ) tmpl t, tmplTokens[p]? = some tmpl → tokens[p]? = some t → tmpl ≠ t →
    toAsciiUppercase tmpl = toAsciiUppercase t → toAsciiUppercase t ∉ anchorTokens

/-- The line spells its anchors like the template of the cluster it is merged into, if any. -/
def SpellsAnchors (mask : String → String) (overflowChecks : Bool) (s : Session)
    (call : AddLogCall) : Prop :=
  ∀ cId maxSim found,
    s.miner.findBestMatch overflowChecks (tokenize (mask call.raw)) = some (some cId, maxSim) →
    s.miner.clusters.lookup cId = some found →
    SpelledAlike s.miner.config.uniqueAnchorTokens found.templateTokens (tokenize (mask call.raw))

lemma keepsAnchors_update_iff {cluster : LogCluster} {members : List (List String)}
    {anchorTokens tokens : List String} (h : Summarizes cluster members)
    (hwildcard : wildcard ∉ anchorTokens) (hkept : KeepsAnchors anchorTokens cluster members)
    (hsim : 0 < computeSimilarity cluster.templateTokens tokens anchorTokens) (nowMs : Int64) :
    KeepsAnchors anchorTokens (cluster.update tokens nowMs) (members ++ [tokens]) ↔
      SpelledAlike anchorTokens cluster.templateTokens tokens := by
  obtain ⟨hlength, hsame⟩ := computeSimilarity_pos hsim
  constructor
  · intro hafter p tmpl t htmpl ht hne hupper hanchor
    obtain ⟨⟨tmpl', htmpl', hupper'⟩, -⟩ := hafter tokens (by simp) p t ht hanchor
    rw [LogCluster.templateTokens_update, LogCluster.getElem?_mergeTokens htmpl ht,
      LogCluster.mergeToken_eq, if_neg hne] at htmpl'
    cases htmpl'
    rw [← hupper', toAsciiUppercase_wildcard] at hanchor
    exact hwildcard hanchor
  · intro halike ts hts p t ht hanchor
    -- An anchor of an earlier member is in the template, so the new line has it too.
    have hnew : ∃ u, tokens[p]? = some u ∧ toAsciiUppercase u = toAsciiUppercase t := by
      rcases List.mem_append.mp hts with hold | hlast
      · obtain ⟨⟨tmpl, htmpl, hupper⟩, -⟩ := hkept ts hold p t ht hanchor
        have hp : p < tokens.length := by
          rw [← hlength]
          exact (List.getElem?_eq_some_iff.mp htmpl).1
        have hu := List.getElem?_eq_getElem hp
        refine ⟨_, hu, ?_⟩
        have hdiffer := hsame p tmpl _ htmpl hu
        rw [Bool.eq_false_iff, ne_eq, anchorsDiffer_eq_true_iff, not_and, not_not] at hdiffer
        exact (hdiffer (Or.inl (hupper ▸ hanchor))).symm.trans hupper
      · rw [List.mem_singleton] at hlast
        subst hlast
        exact ⟨t, ht, rfl⟩
    obtain ⟨u, hu, hut⟩ := hnew
    have huanchor : toAsciiUppercase u ∈ anchorTokens := hut ▸ hanchor
    obtain ⟨tmpl, htmpl, hupper, hall⟩ := anchor_joins h hwildcard hsim hu huanchor
    obtain rfl : tmpl = u := by
      by_contra hne
      exact halike p tmpl u htmpl hu hne hupper huanchor
    constructor
    · refine ⟨tmpl, ?_, hut⟩
      rw [LogCluster.templateTokens_update, LogCluster.getElem?_mergeTokens htmpl hu,
        LogCluster.mergeToken_eq, if_pos rfl]
    · intro us hus
      rcases List.mem_append.mp hus with hold | hlast
      · exact ⟨tmpl, hall us hold, hut⟩
      · rw [List.mem_singleton.mp hlast]
        exact ⟨tmpl, hu, hut⟩

lemma keepsAnchors_new (anchorTokens : List String) (cId : ℕ) (tokens : List String)
    (nowMs : Int64) : KeepsAnchors anchorTokens (.new cId tokens nowMs) [tokens] := by
  intro ts hts p t ht _
  rw [List.mem_singleton] at hts
  subst hts
  refine ⟨⟨t, ht, rfl⟩, ?_⟩
  intro us hus
  rw [List.mem_singleton.mp hus]
  exact ⟨t, ht, rfl⟩

lemma anchorsKept_assign_iff {s : Session} (h : AnchorsKept s) {miner : DrainMiner} {cId : ℕ}
    {tokens : List String} {cluster : LogCluster} (hconfig : miner.config = s.miner.config)
    (hclusters : miner.clusters = s.miner.clusters.insert cId cluster) :
    AnchorsKept ⟨miner, s.assigned ++ [⟨cId, tokens⟩]⟩ ↔
      KeepsAnchors s.miner.config.uniqueAnchorTokens cluster (s.members cId ++ [tokens]) := by
  have hmembers : Session.members ⟨miner, s.assigned ++ [⟨cId, tokens⟩]⟩ cId =
    s.members cId ++ [tokens] := Session.members_concat_self rfl
  rw [← hmembers, ← hconfig]
  constructor
  · intro hafter
    apply hafter cId cluster
    simp only [hclusters]
    exact AList.lookup_insert _
  · intro hkept k c hlookup
    simp only [hclusters] at hlookup
    by_cases hk : k = cId
    · subst hk
      rw [AList.lookup_insert] at hlookup
      cases hlookup
      exact hkept
    · rw [AList.lookup_insert_ne hk] at hlookup
      rw [Session.members_concat_of_ne (s := s) rfl (Ne.symm hk), hconfig]
      exact h k c hlookup

lemma anchorsKept_step_iff {config : DrainConfig} {s t : Session} {call : AddLogCall}
    (hsummary : Summary config s) (hwildcard : wildcard ∉ config.uniqueAnchorTokens)
    (h : AnchorsKept s) (hstep : s.step mask overflowChecks call = some t) :
    AnchorsKept t ↔ SpellsAnchors mask overflowChecks s call := by
  rw [← hsummary.config] at hwildcard
  unfold Session.step at hstep
  obtain ⟨out, hadd, rfl⟩ := Option.map_eq_some_iff.mp hstep
  unfold SpellsAnchors
  cases addsLog_of_addLog hadd with
  | blank hblank =>
    rw [hblank]
    refine iff_of_true ?_ ?_
    · intro cId cluster hlookup
      have hpos := (hsummary.bounds hlookup).1
      rw [Session.members_concat_of_ne (s := s) rfl (Nat.ne_of_lt hpos)]
      exact h cId cluster hlookup
    · intro cId maxSim found _ _ p tmpl u _ hu
      cases hu
  | merged tokens cId maxSim found htokens hne hbest hfound =>
    rw [htokens]
    obtain ⟨-, hsim⟩ := size_of_findBestMatch hbest hfound
    have hiff := keepsAnchors_update_iff (hsummary.summarizes cId found hfound) hwildcard
      (h cId found hfound) hsim call.nowMs
    apply ((anchorsKept_assign_iff h (by rfl) (by rfl)).trans hiff).trans
    constructor
    · intro halike cId' maxSim' found' hbest' hfound'
      cases hbest.symm.trans hbest'
      cases hfound.symm.trans hfound'
      exact halike
    · exact fun hspells => hspells cId maxSim found hbest hfound
  | opened tokens maxSim root htokens hne hbest hroot =>
    rw [htokens]
    refine iff_of_true ?_ ?_
    · apply (anchorsKept_assign_iff h (by rfl) (by rfl)).mpr
      rw [hsummary.members_next]
      exact keepsAnchors_new _ _ tokens call.nowMs
    · intro cId maxSim' found hbest'
      cases hbest.symm.trans hbest'

/-- In all states of a run the anchors are kept, exactly if every line of it spells its
anchors like the template that it is merged into. -/
theorem anchors_kept_iff (mask : String → String) (overflowChecks : Bool) (config : DrainConfig)
    (hdepth : 2 ≤ config.depth) (hwildcard : wildcard ∉ config.uniqueAnchorTokens)
    (calls : List AddLogCall) :
    (∀ done s, done <+: calls →
        run (Session.step mask overflowChecks) (.start config) done = some s → AnchorsKept s) ↔
      Along (Session.step mask overflowChecks) (SpellsAnchors mask overflowChecks)
        (.start config) calls := by
  obtain ⟨s, hrun⟩ := exists_run mask overflowChecks hdepth calls
  apply forall_reached_iff_along (I := Summary config) _ _ _ (summary_start config) _ hrun
  · exact fun s call t h hstep => h.step hstep
  · exact fun s call t hsummary h hstep => anchorsKept_step_iff hsummary hwildcard h hstep
  · intro cId cluster hlookup
    cases hlookup

lemma exists_rule_run : ∃ s cluster,
    run (Session.step id false) (.start {}) [⟨"rule hit ALLOW 7", 0, 0⟩] = some s ∧
      s.miner.findBestMatch false (tokenize "rule hit ALLOW 8") = some (some 1, 3 / 4) ∧
      s.miner.clusters.lookup 1 = some cluster ∧
      SpelledAlike s.miner.config.uniqueAnchorTokens cluster.templateTokens
        (tokenize "rule hit ALLOW 8") := by
  have heval : ((run (Session.step id false) (.start {}) [⟨"rule hit ALLOW 7", 0, 0⟩]).map fun s =>
      (s.miner.findBestMatch false (tokenize "rule hit ALLOW 8"),
        (s.miner.clusters.lookup 1).map LogCluster.templateTokens)) =
      some (some (some 1, 3 / 4), some ["rule", "hit", "ALLOW", "7"]) := by
    decide +kernel
  obtain ⟨s, hrun, hs⟩ := Option.map_eq_some_iff.mp heval
  obtain ⟨hbest, hlookup⟩ := Prod.mk.inj hs
  obtain ⟨cluster, hcluster, htemplate⟩ := Option.map_eq_some_iff.mp hlookup
  have htokens : tokenize "rule hit ALLOW 8" = ["rule", "hit", "ALLOW", "8"] := by decide +kernel
  refine ⟨s, cluster, hrun, hbest, hcluster, ?_⟩
  rw [htemplate, htokens]
  rintro p tmpl t htmpl ht hne hupper
  rcases p with _ | _ | _ | _ | p
  · exact absurd (Option.some.inj (htmpl.symm.trans ht)) hne
  · exact absurd (Option.some.inj (htmpl.symm.trans ht)) hne
  · exact absurd (Option.some.inj (htmpl.symm.trans ht)) hne
  · cases htmpl
    cases ht
    exact absurd hupper (by decide)
  · cases htmpl

theorem anchors_kept_iff_pair :
    ∃ s, run (Session.step id false) (.start {})
        [⟨"rule hit ALLOW 7", 0, 0⟩, ⟨"rule hit ALLOW 8", 1, 0⟩] = some s ∧
      AnchorsKept s := by
  have hspells : Along (Session.step id false) (SpellsAnchors id false) (.start {})
      [⟨"rule hit ALLOW 7", 0, 0⟩, ⟨"rule hit ALLOW 8", 1, 0⟩] := by
    refine ⟨?_, fun t ht => ⟨?_, fun _ _ => trivial⟩⟩
    · intro cId maxSim found hbest
      have hnone : (Session.start {}).miner.findBestMatch false (tokenize "rule hit ALLOW 7") =
        some (none, 0) := rfl
      cases hnone.symm.trans hbest
    · obtain ⟨s, cluster, hrun, hbest, hcluster, halike⟩ := exists_rule_run
      obtain ⟨u, hu, heq⟩ := Option.bind_eq_some_iff.mp hrun
      cases heq
      cases ht.symm.trans hu
      intro cId maxSim found hbest' hfound
      cases hbest.symm.trans hbest'
      cases hcluster.symm.trans hfound
      exact halike
  have hdepth : 2 ≤ ({} : DrainConfig).depth := by decide
  have hkept := (anchors_kept_iff id false {} hdepth (by decide) _).mpr hspells
  obtain ⟨s, hrun⟩ := exists_run id false hdepth
    [⟨"rule hit ALLOW 7", 0, 0⟩, ⟨"rule hit ALLOW 8", 1, 0⟩]
  exact ⟨s, hrun, hkept _ s List.prefix_rfl hrun⟩

/-- A lower-case anchor and an upper-case one share a cluster, and its template has the
wildcard in their place. -/
theorem anchor_generalised :
    ∃ s, run (Session.step id false) (.start {})
        [⟨"rule hit allow", 0, 0⟩, ⟨"rule hit ALLOW", 1, 0⟩] = some s ∧
      ∃ cluster, s.miner.clusters.lookup 1 = some cluster ∧
        s.members 1 = [["rule", "hit", "allow"], ["rule", "hit", "ALLOW"]] ∧
        cluster.templateTokens = ["rule", "hit", wildcard] ∧ ¬AnchorsKept s := by
  have heval : (run (Session.step id false) (.start {})
      [⟨"rule hit allow", 0, 0⟩, ⟨"rule hit ALLOW", 1, 0⟩]).map (fun s =>
        ((s.miner.clusters.lookup 1).map LogCluster.templateTokens, s.members 1,
          s.miner.config.uniqueAnchorTokens)) =
      some (some ["rule", "hit", wildcard], [["rule", "hit", "allow"], ["rule", "hit", "ALLOW"]],
        ["ALLOW", "DENY", "DROP", "BLOCK", "PERMIT", "REJECT", "PASS"]) := by
    decide +kernel
  obtain ⟨s, hrun, hs⟩ := Option.map_eq_some_iff.mp heval
  simp only [Prod.mk.injEq] at hs
  obtain ⟨hlookup, hmembers, hanchors⟩ := hs
  obtain ⟨cluster, hcluster, htemplate⟩ := Option.map_eq_some_iff.mp hlookup
  refine ⟨s, hrun, cluster, hcluster, hmembers, htemplate, ?_⟩
  intro hkept
  obtain ⟨⟨tmpl, htmpl, hupper⟩, -⟩ := hkept 1 cluster hcluster ["rule", "hit", "ALLOW"]
    (by rw [hmembers]; simp) 2 "ALLOW" rfl (by rw [hanchors]; decide)
  rw [htemplate] at htmpl
  cases htmpl
  exact absurd hupper (by decide)

end Ulpf.Ai.Drain
