import Ulpf.Ai.DrainRetention

/-!
# Surges of rare clusters

A watch is the miner with the history of its answers. The check for a surge asks for a count
that passes the threshold in this call, so it can report a cluster on one of its logs only, the
one after the threshold, and does so by the rate.
-/

namespace Ulpf.Ai.Drain
open Ulpf.Library Ulpf.Library.Binary64 Ulpf.Core

/-- An answer of the miner with the clock reading of its call. -/
structure Answer where
  result : ClusterResult
  nowMs : Int64

structure Watch where
  miner : DrainMiner
  answers : List Answer

namespace Watch

def start (config : DrainConfig) : Watch := ⟨DrainMiner.new config, []⟩

def step (mask : String → String) (overflowChecks : Bool) (w : Watch) (call : AddLogCall) :
    Option Watch :=
  (w.miner.addLog mask overflowChecks call).map fun out =>
    ⟨out.2, w.answers ++ [⟨out.1, call.nowMs⟩]⟩

end Watch

/-- When a cluster received its logs. -/
def hitTimes (cId : ℕ) (answers : List Answer) : List Int64 :=
  (answers.filter fun a => a.result.clusterId = cId).map Answer.nowMs

/-- The answer carries the alert that the cluster surges. -/
def Answer.Reports (a : Answer) (cId : ℕ) : Prop :=
  ∃ alert, a.result.anomaly = some alert ∧ alert.anomalyType = .rareClusterSurge ∧
    alert.clusterId = cId

/-- One answer reports the cluster, on a log of it with at most `threshold + 2` up to there. -/
def ReportedOnce (threshold cId : ℕ) (answers : List Answer) : Prop :=
  ∃ earlier a later, answers = earlier ++ a :: later ∧ a.Reports cId ∧
    (hitTimes cId (earlier ++ [a])).length ≤ threshold + 2 ∧
      ∀ b ∈ earlier ++ later, ¬b.Reports cId

/-! ### Rates -/

/-- The most recent timestamps that a cluster keeps. -/
def window (times : List Int64) : List Int64 := times.drop (times.length - 64)

/-- The logs per second of the time they span, or their number where they span none. -/
def ratePerSec (hits : ℕ) (elapsedMs : ℤ) : ℚ :=
  if elapsedMs ≤ 0 then nearest hits else divide (nearest hits) (divide (nearest elapsedMs) 1000)

def windowRate (times : List Int64) : ℚ :=
  ratePerSec (window times).length
    (((window times).getLast?.getD 0).toInt - ((window times).head?.getD 0).toInt)

lemma window_concat (times : List Int64) (nowMs : Int64) :
    window (times ++ [nowMs]) =
      (if 64 ≤ (window times).length then (window times).drop 1 else window times) ++ [nowMs] := by
  unfold window
  rw [List.length_append, List.length_singleton, List.length_drop]
  split_ifs with h
  · rw [List.drop_drop, List.drop_append_of_le_length (by omega)]
    congr 2
    omega
  · rw [List.drop_append_of_le_length (by omega)]
    congr 2
    omega

lemma recentRatePerSec_eq {c : LogCluster} {times : List Int64}
    (hwindow : c.recentTimestamps = window times) (h : 2 ≤ times.length) :
    c.recentRatePerSec = windowRate times := by
  have hlength : ¬(window times).length < 2 := by
    rw [window, List.length_drop]
    omega
  rw [LogCluster.recentRatePerSec, hwindow, if_neg hlength]
  rfl

section HitTimes

variable {cId : ℕ} {a : Answer} {answers : List Answer}

lemma hitTimes_append (answers answers' : List Answer) :
    hitTimes cId (answers ++ answers') = hitTimes cId answers ++ hitTimes cId answers' := by
  rw [hitTimes, List.filter_append, List.map_append]
  rfl

lemma hitTimes_self (h : a.result.clusterId = cId) : hitTimes cId [a] = [a.nowMs] := by
  simp [hitTimes, h]

lemma hitTimes_of_ne (h : a.result.clusterId ≠ cId) : hitTimes cId [a] = [] := by
  simp [hitTimes, h]

lemma hitTimes_eq_nil (h : ∀ a ∈ answers, a.result.clusterId ≠ cId) :
    hitTimes cId answers = [] := by
  rw [hitTimes, List.map_eq_nil_iff, List.filter_eq_nil_iff]
  intro a ha
  simpa using h a ha

end HitTimes

/-! ### The history explained -/

/-- An answer reports a surge on the log after the threshold, with a rate that is high enough. -/
def Explained (config : DrainConfig) (earlier : List Answer) (a : Answer) : Prop :=
  ∀ cId, a.Reports cId ↔ a.result.clusterId = cId ∧ cId ≠ 0 ∧
    config.rareCountThreshold * 3 < earlier.length + 1 ∧
    (hitTimes cId earlier).length = config.rareCountThreshold ∧ 1 ≤ config.rareCountThreshold ∧
    config.surgeMultiplier.atMost (windowRate (hitTimes cId earlier ++ [a.nowMs])) = true

structure Watched (config : DrainConfig) (w : Watch) : Prop where
  configured : w.miner.config = config
  total : w.miner.totalLogsProcessed = w.answers.length
  fresh : w.miner.IdsFresh
  nextPos : w.miner.nextClusterId ≠ 0
  positive : ∀ cId ∈ w.miner.clusters, cId ≠ 0
  known : ∀ a ∈ w.answers, a.result.clusterId = 0 ∨ a.result.clusterId ∈ w.miner.clusters
  count : ∀ cId c, w.miner.clusters.lookup cId = some c →
    1 ≤ c.count ∧ c.count = (hitTimes cId w.answers).length
  recent : ∀ cId c, w.miner.clusters.lookup cId = some c →
    c.recentTimestamps = window (hitTimes cId w.answers)
  explained : ∀ earlier a later, w.answers = earlier ++ a :: later → Explained config earlier a

lemma watched_start (config : DrainConfig) : Watched config (.start config) where
  configured := rfl
  total := rfl
  fresh := DrainMiner.idsFresh_new config
  nextPos := one_ne_zero
  positive cId h := absurd h (AList.notMem_empty cId)
  known a ha := absurd ha List.not_mem_nil
  count cId c h := by cases h
  recent cId c h := by cases h
  explained earlier a later h := by
    cases earlier <;> cases h

lemma explained_concat {config : DrainConfig} {answers : List Answer} {a : Answer}
    (h : ∀ earlier b later, answers = earlier ++ b :: later → Explained config earlier b)
    (hlast : Explained config answers a) :
    ∀ earlier b later, answers ++ [a] = earlier ++ b :: later → Explained config earlier b := by
  intro earlier b later hsplit
  rcases List.eq_nil_or_concat' later with rfl | ⟨later, c, rfl⟩
  · obtain ⟨rfl, hb⟩ := List.append_inj' hsplit rfl
    cases hb
    exact hlast
  · rw [← List.cons_append, ← List.append_assoc] at hsplit
    obtain ⟨hinit, -⟩ := List.append_inj' hsplit rfl
    exact h earlier b later hinit

lemma not_reports_none {a : Answer} (h : a.result.anomaly = none) (cId : ℕ) : ¬a.Reports cId := by
  rintro ⟨alert, halert, -⟩
  cases h.symm.trans halert

/-- The alert of a merge: the count has passed the threshold in this call, so the second test
of the count cannot succeed. -/
lemma surgeAlert_isSome_iff {m : DrainMiner} {cId prevCount : ℕ} {c : LogCluster} {nowMs : Int64}
    (hcount : c.count = prevCount + 1) :
    (m.surgeAlert cId prevCount c nowMs).isSome ↔
      m.config.rareCountThreshold * 3 < m.totalLogsProcessed ∧
        prevCount = m.config.rareCountThreshold ∧
        m.config.surgeMultiplier.atMost c.recentRatePerSec = true := by
  rw [DrainMiner.surgeAlert]
  dsimp only
  split_ifs with hpassed hrate
  · have hrate' : m.config.surgeMultiplier.atMost c.recentRatePerSec = true := by
      rcases hrate with hrate | htwo
      · exact hrate
      · omega
    simp only [Option.isSome_some, hrate', and_true, true_iff]
    omega
  · simp only [Option.isSome_none, Bool.false_eq_true, false_iff]
    rintro ⟨-, -, hrate'⟩
    exact hrate (Or.inl hrate')
  · simp only [Option.isSome_none, Bool.false_eq_true, false_iff]
    rintro ⟨htotal, hprev, -⟩
    exact hpassed ⟨htotal, hprev.le, by omega⟩

lemma of_surgeAlert {m : DrainMiner} {cId prevCount : ℕ} {c : LogCluster} {nowMs : Int64}
    {alert : AnomalyAlert} (h : m.surgeAlert cId prevCount c nowMs = some alert) :
    alert.anomalyType = .rareClusterSurge ∧ alert.clusterId = cId := by
  rw [DrainMiner.surgeAlert] at h
  dsimp only at h
  split_ifs at h
  cases h
  exact ⟨rfl, rfl⟩

section Step

variable {mask : String → String} {overflowChecks : Bool} {config : DrainConfig} {w : Watch}

lemma Watched.explained_merged (h : Watched config w) {call : AddLogCall} {cId : ℕ}
    {found : LogCluster} {tokens : List String} {a : Answer} (hid : a.result.clusterId = cId)
    (hnow : a.nowMs = call.nowMs) (hfound : w.miner.clusters.lookup cId = some found)
    (hanomaly : a.result.anomaly = w.miner.counted.surgeAlert cId found.count
      (found.update tokens call.nowMs) call.nowMs) :
    Explained config w.answers a := by
  intro k
  have hmem : cId ∈ w.miner.clusters := AList.lookup_isSome.mp (Option.isSome_of_eq_some hfound)
  obtain ⟨hpos, hcount⟩ := h.count cId found hfound
  have hwindow : (found.update tokens call.nowMs).recentTimestamps =
      window (hitTimes cId w.answers ++ [call.nowMs]) := by
    rw [window_concat, ← h.recent cId found hfound]
    rfl
  have hrate : (found.update tokens call.nowMs).recentRatePerSec =
      windowRate (hitTimes cId w.answers ++ [call.nowMs]) := by
    apply recentRatePerSec_eq hwindow
    rw [List.length_append, List.length_singleton, ← hcount]
    omega
  have hsurge := @surgeAlert_isSome_iff w.miner.counted cId _ _ call.nowMs
    (LogCluster.count_update found tokens call.nowMs)
  have htotal : w.miner.counted.totalLogsProcessed = w.answers.length + 1 := by rw [← h.total]; rfl
  have hconfig : w.miner.counted.config = config := h.configured
  rw [htotal, hconfig, hrate] at hsurge
  constructor
  · rintro ⟨alert, halert, -, hk⟩
    rw [hanomaly] at halert
    obtain ⟨-, halertId⟩ := of_surgeAlert halert
    obtain rfl : cId = k := halertId.symm.trans hk
    obtain ⟨hthree, hprev, hhigh⟩ := hsurge.mp (Option.isSome_of_eq_some halert)
    refine ⟨hid, h.positive cId hmem, hthree, hcount.symm.trans hprev, hprev ▸ hpos, ?_⟩
    rwa [hnow]
  · rintro ⟨hk, -, hthree, hhits, -, hhigh⟩
    obtain rfl : cId = k := hid.symm.trans hk
    rw [hnow] at hhigh
    obtain ⟨alert, halert⟩ := Option.isSome_iff_exists.mp
      (hsurge.mpr ⟨hthree, hcount.trans hhits, hhigh⟩)
    exact ⟨alert, hanomaly.trans halert, of_surgeAlert halert⟩

lemma Watched.hitTimes_next (h : Watched config w) :
    hitTimes w.miner.nextClusterId w.answers = [] := by
  apply hitTimes_eq_nil
  intro a ha hid
  rcases h.known a ha with hzero | hmem
  · exact h.nextPos (hid.symm.trans hzero)
  · rw [hid] at hmem
    exact absurd (h.fresh _ hmem) (lt_irrefl _)

lemma hitTimes_other {answers : List Answer} {a : Answer} {cId : ℕ}
    (hne : cId ≠ a.result.clusterId) : hitTimes cId (answers ++ [a]) = hitTimes cId answers := by
  rw [hitTimes_append, hitTimes_of_ne (Ne.symm hne), List.append_nil]

lemma Watched.blank (h : Watched config w) {a : Answer} (hid : a.result.clusterId = 0)
    (hnone : a.result.anomaly = none) : Watched config ⟨w.miner.counted, w.answers ++ [a]⟩ where
  configured := h.configured
  total := by
    rw [List.length_append, ← h.total]
    rfl
  fresh := h.fresh
  nextPos := h.nextPos
  positive := h.positive
  known b hb := by
    rcases List.mem_append.mp hb with hold | hnew
    · exact h.known b hold
    · rw [List.mem_singleton.mp hnew]
      exact Or.inl hid
  count cId c hlookup := by
    have hpos := h.positive cId (AList.lookup_isSome.mp (Option.isSome_of_eq_some hlookup))
    rw [hitTimes_other (by rwa [hid])]
    exact h.count cId c hlookup
  recent cId c hlookup := by
    have hpos := h.positive cId (AList.lookup_isSome.mp (Option.isSome_of_eq_some hlookup))
    rw [hitTimes_other (by rwa [hid])]
    exact h.recent cId c hlookup
  explained := by
    apply explained_concat h.explained
    intro cId
    constructor
    · intro hreports
      exact absurd hreports (not_reports_none hnone cId)
    · rintro ⟨hcId, hne, -⟩
      exact absurd (hcId.symm.trans hid) hne

lemma Watched.assign (h : Watched config w) {miner : DrainMiner} {a : Answer} {cId : ℕ}
    {cluster : LogCluster} (hid : a.result.clusterId = cId) (hpos : cId ≠ 0)
    (hconfig : miner.config = config) (hfresh : miner.IdsFresh) (hnext : miner.nextClusterId ≠ 0)
    (hclusters : miner.clusters = w.miner.clusters.insert cId cluster)
    (htotal : miner.totalLogsProcessed = w.miner.totalLogsProcessed + 1)
    (hcount : cluster.count = (hitTimes cId w.answers).length + 1)
    (hrecent : cluster.recentTimestamps = window (hitTimes cId w.answers ++ [a.nowMs]))
    (hexplained : Explained config w.answers a) : Watched config ⟨miner, w.answers ++ [a]⟩ where
  configured := hconfig
  total := by
    rw [htotal, h.total, List.length_append]
    rfl
  fresh := hfresh
  nextPos := hnext
  positive k hk := by
    simp only [hclusters, AList.mem_insert] at hk
    rcases hk with rfl | hold
    · exact hpos
    · exact h.positive k hold
  known b hb := by
    simp only [hclusters, AList.mem_insert]
    rcases List.mem_append.mp hb with hold | hnew
    · exact (h.known b hold).imp_right Or.inr
    · rw [List.mem_singleton.mp hnew]
      exact Or.inr (Or.inl hid)
  count k c hlookup := by
    simp only [hclusters] at hlookup
    by_cases hk : k = cId
    · subst hk
      rw [AList.lookup_insert] at hlookup
      cases hlookup
      rw [hitTimes_append, hitTimes_self hid, List.length_append, hcount]
      exact ⟨Nat.le_add_left _ _, rfl⟩
    · rw [AList.lookup_insert_ne hk] at hlookup
      rw [hitTimes_other (by rwa [hid])]
      exact h.count k c hlookup
  recent k c hlookup := by
    simp only [hclusters] at hlookup
    by_cases hk : k = cId
    · subst hk
      rw [AList.lookup_insert] at hlookup
      cases hlookup
      rw [hitTimes_append, hitTimes_self hid, hrecent]
    · rw [AList.lookup_insert_ne hk] at hlookup
      rw [hitTimes_other (by rwa [hid])]
      exact h.recent k c hlookup
  explained := explained_concat h.explained hexplained

lemma Watched.step (h : Watched config w) {t : Watch} {call : AddLogCall}
    (hstep : w.step mask overflowChecks call = some t) : Watched config t := by
  obtain ⟨out, hadd, rfl⟩ := Option.map_eq_some_iff.mp hstep
  have hfresh := h.fresh.addLog hadd
  have hconfig := (config_addLog hadd).trans h.configured
  cases addsLog_of_addLog hadd with
  | blank hblank => exact h.blank rfl rfl
  | merged tokens cId maxSim found htokens hne hbest hfound =>
    have hmem : cId ∈ w.miner.clusters := AList.lookup_isSome.mp (Option.isSome_of_eq_some hfound)
    apply h.assign rfl (h.positive cId hmem) hconfig hfresh h.nextPos rfl rfl
    · rw [LogCluster.count_update, (h.count cId found hfound).2]
    · rw [window_concat, ← h.recent cId found hfound]
      rfl
    · exact h.explained_merged rfl rfl hfound rfl
  | opened tokens maxSim root htokens hne hbest hroot =>
    have hnone := h.hitTimes_next
    apply h.assign rfl h.nextPos hconfig hfresh (Nat.succ_ne_zero _) rfl rfl
    · rw [hnone]
      rfl
    · rw [hnone]
      rfl
    · intro cId
      constructor
      · rintro ⟨alert, halert, htype, -⟩
        cases halert
        cases htype
      · rintro ⟨rfl, -, -, hhits, hpos, -⟩
        rw [hnone] at hhits
        exact absurd hpos (by rw [← hhits]; decide)

lemma watched_of_run {calls : List AddLogCall} {w : Watch}
    (hrun : run (Watch.step mask overflowChecks) (.start config) calls = some w) :
    Watched config w :=
  run_induction (motive := fun _ w => Watched config w) _ (watched_start config)
    (fun _ _ _ _ _ h hstep => h.step hstep) hrun

end Step

/-! ### One report for each cluster -/

/-- The first `threshold + 1` logs of the cluster came at a rate that the multiplier asks for. -/
def SurgesByRate (config : DrainConfig) (times : List Int64) : Prop :=
  1 ≤ config.rareCountThreshold ∧
    config.surgeMultiplier.atMost (windowRate (times.take (config.rareCountThreshold + 1))) = true

/-- A cluster that receives its log after the threshold with the baseline established is
reported once, exactly if it surges by its rate; the further log plays no part. -/
theorem surge_reported_once_iff (mask : String → String) (overflowChecks : Bool)
    (config : DrainConfig) (calls : List AddLogCall) (w : Watch)
    (hrun : run (Watch.step mask overflowChecks) (.start config) calls = some w) (cId : ℕ)
    (hcluster : cId ∈ w.miner.clusters) (earlier later : List Answer) (a : Answer)
    (hanswers : w.answers = earlier ++ a :: later) (hid : a.result.clusterId = cId)
    (hhits : (hitTimes cId earlier).length = config.rareCountThreshold)
    (hbaseline : config.rareCountThreshold * 3 < earlier.length + 1) :
    ReportedOnce config.rareCountThreshold cId w.answers ↔
      SurgesByRate config (hitTimes cId w.answers) := by
  have hwatched := watched_of_run hrun
  have htake : ∀ before b after, w.answers = before ++ b :: after → b.result.clusterId = cId →
      (hitTimes cId before).length = config.rareCountThreshold →
      (hitTimes cId w.answers).take (config.rareCountThreshold + 1) =
        hitTimes cId before ++ [b.nowMs] := by
    intro before b after hsplit hb hlength
    rw [hsplit, ← List.singleton_append, hitTimes_append, hitTimes_append, hitTimes_self hb,
      ← List.append_assoc]
    apply List.take_left'
    rw [List.length_append, hlength]
    rfl
  constructor
  · rintro ⟨before, b, after, hsplit, hreports, -, -⟩
    obtain ⟨hb, -, -, hlength, hpos, hrate⟩ :=
      (hwatched.explained before b after hsplit cId).mp hreports
    refine ⟨hpos, ?_⟩
    rwa [htake before b after hsplit hb hlength]
  · rintro ⟨hpos, hrate⟩
    rw [htake earlier a later hanswers hid hhits] at hrate
    have hreports : a.Reports cId := (hwatched.explained earlier a later hanswers cId).mpr
      ⟨hid, hwatched.positive cId hcluster, hbaseline, hhits, hpos, hrate⟩
    refine ⟨earlier, a, later, hanswers, hreports, ?_, ?_⟩
    · rw [hitTimes_append, hitTimes_self hid, List.length_append, hhits]
      exact Nat.le_succ _
    · intro b hb hagain
      rcases List.mem_append.mp hb with hold | hnew
      · obtain ⟨s, t, rfl⟩ := List.append_of_mem hold
        have hsplit : w.answers = s ++ b :: (t ++ a :: later) := by simp [hanswers]
        obtain ⟨hbId, -, -, hlength, -⟩ := (hwatched.explained s b _ hsplit cId).mp hagain
        rw [← List.singleton_append, hitTimes_append, hitTimes_append, hitTimes_self hbId,
          List.length_append, List.length_append, List.length_singleton, hlength] at hhits
        omega
      · obtain ⟨s, t, rfl⟩ := List.append_of_mem hnew
        have hsplit : w.answers = (earlier ++ a :: s) ++ b :: t := by simp [hanswers]
        obtain ⟨-, -, -, hlength, -⟩ := (hwatched.explained _ b t hsplit cId).mp hagain
        rw [← List.singleton_append, hitTimes_append, hitTimes_append, hitTimes_self hid,
          List.length_append, List.length_append, List.length_singleton, hhits] at hlength
        omega

/-- Four logs of one template, then three of another with a gap between them. -/
def surgeCalls (gapMs : Int64) : List AddLogCall :=
  List.replicate 4 ⟨"link up", 0, 0⟩ ++
    [⟨"login", 0, 0⟩, ⟨"login", gapMs, 0⟩, ⟨"login", gapMs + gapMs, 0⟩]

theorem surge_reported_once_iff_burst :
    ∃ w, run (Watch.step id false) (.start { rareCountThreshold := 1 }) (surgeCalls 10) = some w ∧
      ReportedOnce 1 2 w.answers := by
  have heval : (run (Watch.step id false) (.start { rareCountThreshold := 1 })
      (surgeCalls 10)).any (fun w => 2 ∈ w.miner.clusters ∧ hitTimes 2 w.answers = [0, 10, 20] ∧
        (w.answers.drop 5).map (fun a => a.result.clusterId) = [2, 2] ∧
        (hitTimes 2 (w.answers.take 5)).length = 1 ∧ (w.answers.take 5).length = 5) = true := by
    decide +kernel
  obtain ⟨w, hrun, hw⟩ := (Option.any_eq_true _ _).mp heval
  obtain ⟨hcluster, htimes, hdrop, hhits, hlength⟩ := of_decide_eq_true hw
  obtain ⟨a, later, hrest, hid, -⟩ := List.map_eq_cons_iff.mp hdrop
  have hanswers : w.answers = w.answers.take 5 ++ a :: later := by
    rw [← hrest, List.take_append_drop]
  have hsurges : SurgesByRate { rareCountThreshold := 1 } (hitTimes 2 w.answers) := by
    rw [htimes]
    exact ⟨le_rfl, by decide +kernel⟩
  exact ⟨w, hrun, (surge_reported_once_iff id false { rareCountThreshold := 1 } (surgeCalls 10) w
    hrun 2 hcluster _ later a hanswers hid hhits (by rw [hlength]; decide)).mpr hsurges⟩

/-- Three logs in twenty seconds, the second of them past the threshold: no report. -/
theorem slow_cluster_unreported :
    ((surgeCalls 10000).map AddLogCall.nowMs).Pairwise (· ≤ ·) ∧
      ∃ w earlier a later,
        run (Watch.step id false) (.start { rareCountThreshold := 1 }) (surgeCalls 10000) = some w ∧
          2 ∈ w.miner.clusters ∧ w.answers = earlier ++ a :: later ∧ a.result.clusterId = 2 ∧
          (hitTimes 2 earlier).length = 1 ∧ 1 * 3 < earlier.length ∧ hitTimes 2 later ≠ [] ∧
          ¬ReportedOnce 1 2 w.answers := by
  refine ⟨by decide, ?_⟩
  have heval : (run (Watch.step id false) (.start { rareCountThreshold := 1 })
      (surgeCalls 10000)).any (fun w => 2 ∈ w.miner.clusters ∧
        (w.answers.drop 5).map (fun a => a.result.clusterId) = [2, 2] ∧
        (hitTimes 2 (w.answers.take 5)).length = 1 ∧ (w.answers.take 5).length = 5 ∧
        hitTimes 2 (w.answers.drop 6) ≠ [] ∧
        ∀ a ∈ w.answers, a.result.anomaly.map AnomalyAlert.anomalyType ≠ some .rareClusterSurge) =
          true := by
    decide +kernel
  obtain ⟨w, hrun, hw⟩ := (Option.any_eq_true _ _).mp heval
  obtain ⟨hcluster, hdrop, hhits, hlength, hnext, hnone⟩ := of_decide_eq_true hw
  obtain ⟨a, later, hrest, hid, -⟩ := List.map_eq_cons_iff.mp hdrop
  have hanswers : w.answers = w.answers.take 5 ++ a :: later := by
    rw [← hrest, List.take_append_drop]
  have hlater : w.answers.drop 6 = later := by
    rw [← List.drop_drop (i := 1), hrest]
    rfl
  refine ⟨w, w.answers.take 5, a, later, hrun, hcluster, hanswers, hid, hhits,
    by rw [hlength]; decide, by rwa [← hlater], ?_⟩
  rintro ⟨before, b, after, hsplit, ⟨alert, halert, htype, -⟩, -, -⟩
  have hb := hnone b (by simp [hsplit])
  rw [halert] at hb
  exact hb (congrArg some htype)

end Ulpf.Ai.Drain
