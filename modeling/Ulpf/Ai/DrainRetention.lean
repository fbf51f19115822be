import Ulpf.Ai.DrainStability

/-!
# The clusters that the miner retains

A call opens at most one cluster, under an id that was never taken, and drops none. The tree
refers to retained clusters only; nothing keeps their number within `max_clusters`.
-/

namespace Ulpf.Ai.Drain
open Ulpf.Library Ulpf.Core

namespace DrainMiner

/-- The number that `cluster_count` returns. -/
def clusterCount (m : DrainMiner) : ℕ := m.clusters.keys.length

/-- The next id is above all that are taken. -/
def IdsFresh (m : DrainMiner) : Prop := ∀ cId ∈ m.clusters, cId < m.nextClusterId

/-- Every id in the tree is that of a retained cluster. -/
def TreeRetained (m : DrainMiner) : Prop :=
  PrefixTree.Holds (fun ids => ∀ i ∈ ids, i ∈ m.clusters) m.root

lemma idsFresh_new (config : DrainConfig) : (new config).IdsFresh :=
  fun cId h => absurd h (AList.notMem_empty cId)

lemma treeRetained_new (config : DrainConfig) : (new config).TreeRetained :=
  PrefixTree.holds_leaf fun i hi => by cases hi

end DrainMiner

section Call

variable {mask : String → String} {overflowChecks : Bool} {m : DrainMiner} {call : AddLogCall}
  {out : ClusterResult × DrainMiner}

lemma config_addLog (hadd : m.addLog mask overflowChecks call = some out) :
    out.2.config = m.config := by
  cases addsLog_of_addLog hadd <;> rfl

lemma DrainMiner.IdsFresh.addLog (h : m.IdsFresh)
    (hadd : m.addLog mask overflowChecks call = some out) : out.2.IdsFresh := by
  intro cId hmem
  cases addsLog_of_addLog hadd with
  | blank hblank => exact h cId hmem
  | merged tokens k maxSim found htokens hne hbest hfound =>
    rcases (AList.mem_insert _).mp hmem with rfl | hold
    · exact h cId (AList.lookup_isSome.mp (Option.isSome_of_eq_some hfound))
    · exact h cId hold
  | opened tokens maxSim root htokens hne hbest hroot =>
    rcases (AList.mem_insert _).mp hmem with rfl | hold
    · exact Nat.lt_succ_self _
    · exact (h cId hold).trans (Nat.lt_succ_self _)

lemma keys_addLog (h : m.IdsFresh) (hadd : m.addLog mask overflowChecks call = some out) :
    out.2.clusters.keys.Perm
      (if out.1.isNew then out.1.clusterId :: m.clusters.keys else m.clusters.keys) := by
  cases addsLog_of_addLog hadd with
  | blank hblank => exact List.Perm.refl _
  | merged tokens cId maxSim found htokens hne hbest hfound =>
    have hmem : cId ∈ m.clusters.keys :=
      AList.mem_keys.mp (AList.lookup_isSome.mp (Option.isSome_of_eq_some hfound))
    simp only [AList.keys_insert]
    exact (List.perm_cons_erase hmem).symm
  | opened tokens maxSim root htokens hne hbest hroot =>
    have hnew : m.nextClusterId ∉ m.clusters.keys := fun hmem =>
      absurd (h _ (AList.mem_keys.mpr hmem)) (lt_irrefl _)
    simp only [AList.keys_insert, List.erase_of_not_mem hnew]
    exact List.Perm.refl _

lemma clusterCount_addLog (h : m.IdsFresh) (hadd : m.addLog mask overflowChecks call = some out) :
    out.2.clusterCount = m.clusterCount + out.1.isNew.toNat := by
  have hlength := (keys_addLog h hadd).length_eq
  unfold DrainMiner.clusterCount
  cases hnew : out.1.isNew with
  | false => simpa [hnew] using hlength
  | true => simpa [hnew] using hlength

lemma DrainMiner.TreeRetained.addLog (h : m.TreeRetained)
    (hadd : m.addLog mask overflowChecks call = some out) : out.2.TreeRetained := by
  cases addsLog_of_addLog hadd with
  | blank hblank => exact h
  | merged tokens cId maxSim found htokens hne hbest hfound =>
    exact h.mono fun ids hids i hi => (AList.mem_insert _).mpr (Or.inr (hids i hi))
  | opened tokens maxSim root htokens hne hbest hroot =>
    obtain ⟨depth, -, rfl⟩ := insertToTree_eq_some hroot
    have hmono : PrefixTree.Holds (fun ids => ∀ i ∈ ids,
        i ∈ m.clusters.insert m.nextClusterId (.new m.nextClusterId tokens call.nowMs)) m.root :=
      h.mono fun ids hids i hi => (AList.mem_insert _).mpr (Or.inr (hids i hi))
    apply hmono.alter
    apply holds_insert
    · exact holds_lenNode hmono (fun i hi => by cases hi) tokens
    · exact (AList.mem_insert _).mpr (Or.inl rfl)

end Call

/-! ### The limit -/

/-- No more clusters than configured, and a tree that refers to them alone. -/
def MemoryBounded (m : DrainMiner) : Prop :=
  m.clusterCount ≤ m.config.maxClusters ∧ m.TreeRetained

variable (mask : String → String) (overflowChecks : Bool)

def DrainMiner.step (m : DrainMiner) (call : AddLogCall) : Option DrainMiner :=
  (m.addLog mask overflowChecks call).map Prod.snd

/-- With the limit reached, the line has no tokens or matches a cluster. -/
def StaysInLimit (m : DrainMiner) (call : AddLogCall) : Prop :=
  m.config.maxClusters ≤ m.clusterCount → tokenize (mask call.raw) = [] ∨
    ∀ maxSim, m.findBestMatch overflowChecks (tokenize (mask call.raw)) ≠ some (none, maxSim)

variable {mask overflowChecks}

lemma isNew_addLog_iff {m : DrainMiner} {call : AddLogCall} {out : ClusterResult × DrainMiner}
    (hadd : m.addLog mask overflowChecks call = some out) :
    out.1.isNew = false ↔ tokenize (mask call.raw) = [] ∨ ∀ maxSim,
      m.findBestMatch overflowChecks (tokenize (mask call.raw)) ≠ some (none, maxSim) := by
  cases addsLog_of_addLog hadd with
  | blank hblank => exact iff_of_true rfl (Or.inl hblank)
  | merged tokens cId maxSim found htokens hne hbest hfound =>
    refine iff_of_true rfl (Or.inr ?_)
    intro maxSim' hnone
    rw [htokens] at hnone
    cases hbest.symm.trans hnone
  | opened tokens maxSim root htokens hne hbest hroot =>
    refine iff_of_false (by simp) ?_
    rintro (hblank | hsome)
    · exact hne (htokens.symm.trans hblank)
    · exact hsome maxSim (by rw [htokens, hbest])

lemma memoryBounded_step_iff {m n : DrainMiner} {call : AddLogCall} (hfresh : m.IdsFresh)
    (h : MemoryBounded m) (hstep : m.step mask overflowChecks call = some n) :
    MemoryBounded n ↔ StaysInLimit mask overflowChecks m call := by
  obtain ⟨out, hadd, rfl⟩ := Option.map_eq_some_iff.mp hstep
  have htree := h.2.addLog hadd
  rw [MemoryBounded, and_iff_left htree, clusterCount_addLog hfresh hadd, config_addLog hadd,
    StaysInLimit, ← isNew_addLog_iff hadd]
  have hcount := h.1
  cases out.1.isNew with
  | false => simp [hcount]
  | true =>
    simp only [Bool.toNat_true, Bool.true_eq_false, imp_false]
    omega

/-- In all states of a run the miner stays within its limit, exactly if no line opens a cluster
once the limit is reached. -/
theorem memory_bounded_iff (mask : String → String) (overflowChecks : Bool) (config : DrainConfig)
    (hdepth : 2 ≤ config.depth) (calls : List AddLogCall) :
    (∀ done m, done <+: calls →
        run (DrainMiner.step mask overflowChecks) (.new config) done = some m →
          MemoryBounded m) ↔
      Along (DrainMiner.step mask overflowChecks) (StaysInLimit mask overflowChecks)
        (.new config) calls := by
  obtain ⟨m, hrun⟩ :
      ∃ m, run (DrainMiner.step mask overflowChecks) (.new config) calls = some m := by
    apply exists_run_of_invariant (I := fun m => m.config = config)
    · intro m call hconfig
      rw [DrainMiner.step, Option.isSome_map]
      apply addLog_isSome
      rwa [hconfig]
    · intro m call n hconfig hstep
      obtain ⟨out, hadd, rfl⟩ := Option.map_eq_some_iff.mp hstep
      exact (config_addLog hadd).trans hconfig
    · rfl
  apply forall_reached_iff_along (I := DrainMiner.IdsFresh) _ _ _ (DrainMiner.idsFresh_new config)
    _ hrun
  · intro m call n hfresh hstep
    obtain ⟨out, hadd, rfl⟩ := Option.map_eq_some_iff.mp hstep
    exact hfresh.addLog hadd
  · exact fun m call n hfresh h hstep => memoryBounded_step_iff hfresh h hstep
  · exact ⟨Nat.zero_le _, DrainMiner.treeRetained_new config⟩

/-- With room for one cluster, the second line is merged into it. -/
theorem memory_bounded_iff_full :
    ∃ m, run (DrainMiner.step id false) (.new { maxClusters := 1 })
        [⟨"rule hit ALLOW 7", 0, 0⟩, ⟨"rule hit ALLOW 8", 1, 0⟩] = some m ∧
      m.clusterCount = 1 ∧ MemoryBounded m := by
  have hfirst : ((DrainMiner.new { maxClusters := 1 }).step id false
      ⟨"rule hit ALLOW 7", 0, 0⟩).map (fun m =>
        m.findBestMatch false (tokenize "rule hit ALLOW 8")) = some (some (some 1, 3 / 4)) := by
    decide +kernel
  have hstays : Along (DrainMiner.step id false) (StaysInLimit id false)
      (.new { maxClusters := 1 }) [⟨"rule hit ALLOW 7", 0, 0⟩, ⟨"rule hit ALLOW 8", 1, 0⟩] := by
    refine ⟨fun hfull => absurd hfull (by decide), fun m hm => ⟨fun _ => Or.inr ?_, ?_⟩⟩
    · intro maxSim hnone
      rw [hm, Option.map_some, Option.some.injEq] at hfirst
      cases hfirst.symm.trans hnone
    · exact fun _ _ => trivial
  have hcount : (run (DrainMiner.step id false) (.new { maxClusters := 1 })
      [⟨"rule hit ALLOW 7", 0, 0⟩, ⟨"rule hit ALLOW 8", 1, 0⟩]).map DrainMiner.clusterCount =
        some 1 := by
    decide +kernel
  obtain ⟨m, hrun, hm⟩ := Option.map_eq_some_iff.mp hcount
  exact ⟨m, hrun, hm,
    (memory_bounded_iff id false _ (by decide) _).mpr hstays _ m List.prefix_rfl hrun⟩

/-- With room for one cluster, the second line opens a second one. -/
theorem limit_exceeded :
    ∃ m, run (DrainMiner.step id false) (.new { maxClusters := 1 })
        [⟨"login", 0, 0⟩, ⟨"user logout", 1, 0⟩] = some m ∧
      m.config.maxClusters = 1 ∧ m.clusterCount = 2 ∧ ¬MemoryBounded m := by
  have heval : (run (DrainMiner.step id false) (.new { maxClusters := 1 })
      [⟨"login", 0, 0⟩, ⟨"user logout", 1, 0⟩]).map (fun m =>
        (m.config.maxClusters, m.clusterCount)) = some (1, 2) := by
    decide +kernel
  obtain ⟨m, hrun, hm⟩ := Option.map_eq_some_iff.mp heval
  obtain ⟨hmax, hcount⟩ := Prod.mk.inj hm
  refine ⟨m, hrun, hmax, hcount, ?_⟩
  rintro ⟨hbound, -⟩
  rw [hmax, hcount] at hbound
  exact absurd hbound (by decide)

end Ulpf.Ai.Drain
