import Ulpf.Core.UniversalParser

/-!
# The tiered pipeline

`process` looks a line up in the signature cache, clusters it on a miss, promotes lines of
known clusters and hands the first line of a new cluster to the triage worker. The miner is
any state machine that answers each line; the outcome of `try_send` is an input of the call.
-/

namespace Ulpf.Ai
open Ulpf.Library Ulpf.Core

structure ClusterResult where
  clusterId : ℕ
  template : String
  isNew : Bool

structure AsyncTriageTask where
  clusterId : ℕ
  template : String
  sampleLog : String
  timestampMs : Int64

structure TieredPipeline (Miner : Type*) where
  cache : SignatureLruCache
  drain : Miner
  dispatched : List AsyncTriageTask
  totalEvents : ℕ
  tier2DrainHits : ℕ
  tier3LayaDispatches : ℕ

/-- A call of `process`: the line, the wall clock, and whether the ring buffer takes a task. -/
structure ProcessCall where
  raw : String
  nowMs : Int64
  ringBufferFree : Bool

variable {Miner Activity : Type*} (x : Extractors Activity)
  (addLog : Miner → String → ClusterResult × Miner)

namespace TieredPipeline

def new (drain : Miner) : TieredPipeline Miner := ⟨SignatureLruCache.new, drain, [], 0, 0, 0⟩

def parseWithFormat (raw : String) (format : VendorFormat) : Activity :=
  match Core.parseWithFormat x raw format with
  | .ok activity => activity
  | .error _ => parseLossless x raw

def process (p : TieredPipeline Miner) (call : ProcessCall) :
    Option (Activity × TieredPipeline Miner) :=
  let raw := call.raw
  let p := { p with totalEvents := p.totalEvents + 1 }
  match computeSignatureHash raw with
  | none => none
  | some sigHash =>
    match p.cache.get sigHash with
    | (some format, cache) => some (parseWithFormat x raw format, { p with cache })
    | (none, cache) =>
      let (cluster, drain) := addLog p.drain raw
      let p := { p with cache, drain }
      if !cluster.isNew then
        let p := { p with tier2DrainHits := p.tier2DrainHits + 1 }
        -- Classify once and promote to Tier-1 LRU cache so subsequent events hit Tier 1
        let format := classify raw
        let p := if format ≠ .unknown then { p with cache := p.cache.insert sigHash format } else p
        some (parseWithFormat x raw format, p)
      else
        -- Unseen cluster template: non-blocking dispatch of its first exemplar
        let task := ⟨cluster.clusterId, cluster.template, raw, call.nowMs⟩
        let p := { p with
          dispatched := if call.ringBufferFree then p.dispatched ++ [task] else p.dispatched
          tier3LayaDispatches := p.tier3LayaDispatches + 1 }
        some (parseLossless x raw, p)

def step (p : TieredPipeline Miner) (call : ProcessCall) : Option (TieredPipeline Miner) :=
  (p.process x addLog call).map Prod.snd

/-- On every run of `process` over lines of the set, from an empty cache, hits agree. -/
def ProcessAgrees (drain : Miner) (lines : Set String) : Prop :=
  ∀ calls : List ProcessCall, (∀ call ∈ calls, call.raw ∈ lines) →
    Along (step x addLog) (fun p call => HitAgrees p.cache call.raw) (new drain) calls

lemma parseWithFormat_classify (raw : String) :
    parseWithFormat x raw (classify raw) = parseLossless x raw := by
  unfold parseWithFormat parseLossless parse
  cases Core.parseWithFormat x raw (classify raw) <;> rfl

/-- The three tiers a call can end in. -/
inductive Processes (p : TieredPipeline Miner) (call : ProcessCall) :
    Activity × TieredPipeline Miner → Prop where
  | cached (sigHash : UInt64) (format : VendorFormat)
      (hsig : computeSignatureHash call.raw = some sigHash)
      (hhit : (p.cache.get sigHash).1 = some format) :
      Processes p call (parseWithFormat x call.raw format,
        { p with
          totalEvents := p.totalEvents + 1
          cache := (p.cache.get sigHash).2 })
  | clustered (sigHash : UInt64) (hsig : computeSignatureHash call.raw = some sigHash)
      (hmiss : (p.cache.get sigHash).1 = none) (hseen : (addLog p.drain call.raw).1.isNew = false) :
      Processes p call (parseWithFormat x call.raw (classify call.raw),
        { p with
          totalEvents := p.totalEvents + 1
          cache := (p.cache.get sigHash).2.promote sigHash (classify call.raw)
          drain := (addLog p.drain call.raw).2
          tier2DrainHits := p.tier2DrainHits + 1 })
  | dispatched (sigHash : UInt64) (task : AsyncTriageTask)
      (hsig : computeSignatureHash call.raw = some sigHash)
      (hmiss : (p.cache.get sigHash).1 = none) (hnew : (addLog p.drain call.raw).1.isNew = true)
      (htask : task = ⟨(addLog p.drain call.raw).1.clusterId, (addLog p.drain call.raw).1.template,
        call.raw, call.nowMs⟩) :
      Processes p call (parseLossless x call.raw,
        { p with
          totalEvents := p.totalEvents + 1
          cache := (p.cache.get sigHash).2
          drain := (addLog p.drain call.raw).2
          dispatched := if call.ringBufferFree then p.dispatched ++ [task] else p.dispatched
          tier3LayaDispatches := p.tier3LayaDispatches + 1 })

variable {x addLog}

theorem processes_of_process {p : TieredPipeline Miner} {call : ProcessCall}
    {out : Activity × TieredPipeline Miner} (h : p.process x addLog call = some out) :
    Processes x addLog p call out := by
  unfold process at h
  cases hsig : computeSignatureHash call.raw with
  | none => simp [hsig] at h
  | some sigHash =>
    rcases hget : p.cache.get sigHash with ⟨found, counted⟩
    have hfound : (p.cache.get sigHash).1 = found := by rw [hget]
    have hcounted : (p.cache.get sigHash).2 = counted := by rw [hget]
    cases found with
    | some format =>
      simp only [hsig, hget, Option.some.injEq] at h
      rw [← h, ← hcounted]
      exact .cached sigHash format hsig hfound
    | none =>
      simp only [hsig, hget] at h
      cases hnew : (addLog p.drain call.raw).1.isNew with
      | false =>
        rw [hnew, if_pos Bool.not_false, Option.some.injEq] at h
        have hclustered := Processes.clustered (x := x) sigHash hsig hfound hnew
        rw [hcounted] at hclustered
        rw [← h]
        unfold SignatureLruCache.promote at hclustered
        split_ifs at hclustered ⊢ <;> exact hclustered
      | true =>
        rw [hnew, if_neg (by decide), Option.some.injEq] at h
        rw [← h, ← hcounted]
        exact .dispatched sigHash _ hsig hfound hnew rfl

/-- Where hits agree, every tier returns what the slow path returns. -/
theorem process_eq_parseLossless {p p' : TieredPipeline Miner} {call : ProcessCall}
    {activity : Activity} (hagrees : HitAgrees p.cache call.raw)
    (h : p.process x addLog call = some (activity, p')) :
    activity = parseLossless x call.raw := by
  cases processes_of_process h with
  | cached sigHash format hsig hhit =>
    rw [hagrees sigHash format hsig hhit, parseWithFormat_classify]
  | clustered sigHash hsig hmiss hseen => exact parseWithFormat_classify x call.raw
  | dispatched sigHash task hsig hmiss hnew htask => rfl

/-- Every tier parses with the format the cache or else the classifier routes the line to. -/
lemma process_routed {p p' : TieredPipeline Miner} {call : ProcessCall} {activity : Activity}
    (h : p.process x addLog call = some (activity, p')) :
    activity = parseWithFormat x call.raw (routedFormat p.cache call.raw) := by
  cases processes_of_process h with
  | cached sigHash format hsig hhit =>
    rw [routedFormat_of_some hsig, ← p.cache.get_fst, hhit, Option.getD_some]
  | clustered sigHash hsig hmiss hseen =>
    rw [routedFormat_of_some hsig, ← p.cache.get_fst, hmiss, Option.getD_none]
  | dispatched sigHash task hsig hmiss hnew htask =>
    rw [routedFormat_of_some hsig, ← p.cache.get_fst, hmiss, Option.getD_none,
      parseWithFormat_classify]

lemma ensures_process {P : String → Activity → Prop} (hP : x.Ensures P)
    {p p' : TieredPipeline Miner} {call : ProcessCall} {activity : Activity}
    (h : p.process x addLog call = some (activity, p')) : P call.raw activity := by
  rw [process_routed h]
  unfold parseWithFormat
  cases hparse : Core.parseWithFormat x call.raw (routedFormat p.cache call.raw) with
  | ok activity => exact hP.parseWithFormat hparse
  | error err => exact hP.parseLossless

lemma step_entersOwn :
    EntersOwn (step x addLog) (fun p => p.cache.peek) (fun call => computeSignatureHash call.raw)
      (fun call => classify call.raw) := by
  intro p call p' hstep k v hv
  unfold step at hstep
  obtain ⟨out, hout, rfl⟩ := Option.map_eq_some_iff.mp hstep
  cases processes_of_process hout with
  | cached sigHash format hsig hhit =>
    left
    exact (SignatureLruCache.peek_get _ _ _).symm.trans hv
  | clustered sigHash hsig hmiss hseen =>
    rcases SignatureLruCache.peek_promote hv with ⟨rfl, rfl⟩ | hold
    · exact Or.inr ⟨hsig, rfl⟩
    · left
      rwa [SignatureLruCache.peek_get] at hold
  | dispatched sigHash task hsig hmiss hnew htask =>
    left
    exact (SignatureLruCache.peek_get _ _ _).symm.trans hv

variable (x addLog)

lemma isSome_process_iff (p : TieredPipeline Miner) (call : ProcessCall) :
    (p.process x addLog call).isSome ↔ (computeSignatureHash call.raw).isSome := by
  cases hsig : computeSignatureHash call.raw with
  | none => simp [process, hsig]
  | some sigHash =>
    simp only [Option.isSome_some, iff_true]
    unfold process
    rcases hget : p.cache.get sigHash with ⟨- | format, counted⟩
    · simp only [hsig, hget]
      split_ifs <;> rfl
    · simp only [hsig, hget, Option.isSome_some]

lemma processAgrees_of_determine (drain : Miner) {lines : Set String}
    (h : SignaturesDetermineFormat lines) : ProcessAgrees x addLog drain lines := by
  intro calls hcalls
  have hagrees : ∀ (p : TieredPipeline Miner) (call : ProcessCall), HitAgrees p.cache call.raw ↔
      HitsValue (fun p : TieredPipeline Miner => p.cache.peek)
        (fun call => computeSignatureHash call.raw) (fun call => classify call.raw) p call :=
    fun p call => hitAgrees_iff p.cache call.raw
  have hlines : ∀ call ∈ calls, call ∈ {call : ProcessCall | call.raw ∈ lines} := hcalls
  rw [along_congr _ hagrees]
  refine along_hitsValue step_entersOwn ?_ ?_ hlines
  · intro call hcall call' hcall' k hk hk'
    exact h call.raw hcall call'.raw hcall' k hk hk'
  · intro k v hv
    have hnone : (new drain).cache.peek k = none := SignatureLruCache.peek_new k
    cases hnone.symm.trans hv

end TieredPipeline

/-- The fast path agrees with the classifier on every run over a set of lines, through
`parse_cached` and through `process` with any miner, exactly when lines of the set that share
a signature are classified alike. -/
theorem cached_format_agrees_iff (x : Extractors Activity)
    (addLog : Miner → String → ClusterResult × Miner) (drain : Miner) (lines : Set String) :
    ParseCachedAgrees x lines ∧ TieredPipeline.ProcessAgrees x addLog drain lines ↔
      SignaturesDetermineFormat lines := by
  constructor
  · rintro ⟨hcached, -⟩
    exact (parseCachedAgrees_iff x lines).mp hcached
  · intro h
    exact ⟨(parseCachedAgrees_iff x lines).mpr h,
      TieredPipeline.processAgrees_of_determine x addLog drain h⟩

/-- A JSON line of Suricata and one of PAN-OS share a signature, so after the first the second
is parsed as Suricata. -/
theorem cached_format_disagrees :
    let x : Extractors VendorFormat := ⟨fun _ => .ok .ciscoAsa, fun _ => .ok .fortinet,
      fun _ => .ok .paloAlto, fun _ => .ok .suricata, fun _ => .ok .pfSense,
      fun _ => .ok .kaggleFirewall, fun _ format => format, fun _ _ => .unknown⟩
    let eve := "\x7b\"timestamp\":\"2026-09-21T14:00:00\",\"event_type\":\"flow\"\x7d"
    let panos := "\x7b\"device\":\"PAN-OS\",\"action\":\"drop\"\x7d"
    ∃ cache cache', parseCachedStep x SignatureLruCache.new eve = some cache ∧
      parseCached x cache panos = some (.ok .suricata, cache') ∧ classify panos = .paloAlto := by
  intro x eve panos
  have heve : computeSignatureHash eve = some 14181061337969778077 := by decide +kernel
  have hpanos : computeSignatureHash panos = some 14181061337969778077 := by decide +kernel
  have hformat : classify eve = .suricata := by decide +kernel
  have hformat' : classify panos = .paloAlto := by decide +kernel
  obtain ⟨cache, hstep, hpeek⟩ := parseCachedStep_new x heve (by rw [hformat]; decide)
  rw [hformat] at hpeek
  exact ⟨cache, _, hstep, parseCached_of_hit x hpanos hpeek, hformat'⟩

end Ulpf.Ai
