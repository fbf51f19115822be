import Ulpf.Ai.DrainRetention
import Ulpf.Core.LruInvariant
import Ulpf.Library.BoundedChannel
import Ulpf.Library.Interleaving

/-!
# Interleaved calls of `process`

Calls of `process` share the counters, the cache, the miner and the ring buffer of the triage
worker, and each takes one atomic step at a time. A call whose signature hash panics ends there,
before it has reached the cache.
-/

namespace Ulpf.Ai.Interleaving
open Ulpf.Library Ulpf.Core Ulpf.Ai.Drain

/-! ### The steps of a call -/

inductive Tier where
  | lru
  | drain
  | laya
deriving DecidableEq

/-- How far a call has come. -/
inductive Phase (Activity : Type*) where
  /-- `total_events` is incremented. -/
  | counted
  /-- The cache does not know the signature. -/
  | missed (sigHash : UInt64)
  /-- The miner has answered. -/
  | clustered (sigHash : UInt64) (cluster : ClusterResult)
  /-- The line of a known cluster is counted. -/
  | known (sigHash : UInt64)
  /-- The task of a new cluster is offered to the ring buffer. -/
  | offered
  | returned (tier : Tier) (activity : Activity)
  | panicked

structure Call (Activity : Type*) where
  raw : String
  phase : Phase Activity

/-- The shared part of the pipeline and the tasks that found no room in the ring buffer. -/
structure Shared where
  pipeline : TieredPipeline DrainMiner
  channel : BoundedChannel AsyncTriageTask
  refused : List AsyncTriageTask

/-- The clock readings that a step may use. -/
structure Clock where
  nowMs : Int64
  elapsedMicros : UInt64

inductive WorkerStep where
  | listen
  | receive

section Machine

variable {Activity : Type*} (x : Extractors Activity) (mask : String → String)
  (overflowChecks : Bool)

def enter (s : Shared) (raw : String) : Option (Shared × Call Activity) :=
  some ({ s with pipeline.totalEvents := s.pipeline.totalEvents + 1 }, ⟨raw, .counted⟩)

def advance (s : Shared) (call : Call Activity) (clock : Clock) :
    Option (Shared × Call Activity) :=
  let raw := call.raw
  match call.phase with
  | .counted =>
    match computeSignatureHash raw with
    | none => some (s, ⟨raw, .panicked⟩)
    | some sigHash =>
      match s.pipeline.cache.get sigHash with
      | (some format, cache) => some ({ s with pipeline.cache := cache },
          ⟨raw, .returned .lru (TieredPipeline.parseWithFormat x raw format)⟩)
      | (none, cache) => some ({ s with pipeline.cache := cache }, ⟨raw, .missed sigHash⟩)
  | .missed sigHash =>
    (s.pipeline.drain.addLog mask overflowChecks ⟨raw, clock.nowMs, clock.elapsedMicros⟩).map
      fun out => ({ s with pipeline.drain := out.2 },
        ⟨raw, .clustered sigHash out.1.toClusterResult⟩)
  | .clustered sigHash cluster =>
    if !cluster.isNew then
      some ({ s with pipeline.tier2DrainHits := s.pipeline.tier2DrainHits + 1 },
        ⟨raw, .known sigHash⟩)
    else
      let task := ⟨cluster.clusterId, cluster.template, raw, clock.nowMs⟩
      match s.channel.trySend task with
      | some channel =>
        some ({ s with pipeline.dispatched := s.pipeline.dispatched ++ [task], channel },
          ⟨raw, .offered⟩)
      | none => some ({ s with refused := s.refused ++ [task] }, ⟨raw, .offered⟩)
  | .known sigHash =>
    let format := classify raw
    some ({ s with pipeline.cache := s.pipeline.cache.promote sigHash format },
      ⟨raw, .returned .drain (TieredPipeline.parseWithFormat x raw format)⟩)
  | .offered =>
    some ({ s with pipeline.tier3LayaDispatches := s.pipeline.tier3LayaDispatches + 1 },
      ⟨raw, .returned .laya (parseLossless x raw)⟩)
  | .returned _ _ | .panicked => none

/-- The triage worker calls `recv` and takes a task from it. -/
def signal (s : Shared) : WorkerStep → Option Shared
  | .listen => some { s with channel := s.channel.listen }
  | .receive => s.channel.receive.map fun channel => { s with channel }

def machine : Machine Shared (Call Activity) String Clock WorkerStep :=
  ⟨enter, advance x mask overflowChecks, signal⟩

def start (capacity : ℕ) : Shared where
  pipeline := .new (.new {})
  channel := .empty capacity
  refused := []

/-- The tier that has answered the call. -/
def Call.tier (call : Call Activity) : Option Tier :=
  match call.phase with
  | .returned tier _ => some tier
  | _ => none

/-- All calls have returned. -/
def Quiet (s : Interleaved Shared (Call Activity)) : Prop := ∀ call ∈ s.calls, call.tier.isSome

def Call.hasEnded (call : Call Activity) : Bool :=
  match call.phase with
  | .returned _ _ | .panicked => true
  | _ => false

/-- No call is in progress: each has returned or panicked. -/
def Idle (s : Interleaved Shared (Call Activity)) : Prop := ∀ call ∈ s.calls, call.hasEnded = true

/-- The tiers that have answered the calls. -/
def tiers (s : Interleaved Shared (Call Activity)) : List (Option Tier) := s.calls.map Call.tier

/-- The steps a call can take. -/
inductive Advances (s : Shared) (raw : String) (clock : Clock) :
    Phase Activity → Shared × Call Activity → Prop where
  | panic (hsig : computeSignatureHash raw = none) :
      Advances s raw clock .counted (s, ⟨raw, .panicked⟩)
  | hit (sigHash : UInt64) (format : VendorFormat) (hsig : computeSignatureHash raw = some sigHash)
      (hget : (s.pipeline.cache.get sigHash).1 = some format) :
      Advances s raw clock .counted
        ({ s with pipeline.cache := (s.pipeline.cache.get sigHash).2 },
          ⟨raw, .returned .lru (TieredPipeline.parseWithFormat x raw format)⟩)
  | miss (sigHash : UInt64) (hsig : computeSignatureHash raw = some sigHash)
      (hget : (s.pipeline.cache.get sigHash).1 = none) :
      Advances s raw clock .counted
        ({ s with pipeline.cache := (s.pipeline.cache.get sigHash).2 }, ⟨raw, .missed sigHash⟩)
  | cluster (sigHash : UInt64) (out : Drain.ClusterResult × DrainMiner)
      (hadd : s.pipeline.drain.addLog mask overflowChecks
        ⟨raw, clock.nowMs, clock.elapsedMicros⟩ = some out) :
      Advances s raw clock (.missed sigHash)
        ({ s with pipeline.drain := out.2 }, ⟨raw, .clustered sigHash out.1.toClusterResult⟩)
  | know (sigHash : UInt64) (cluster : ClusterResult) (hseen : cluster.isNew = false) :
      Advances s raw clock (.clustered sigHash cluster)
        ({ s with pipeline.tier2DrainHits := s.pipeline.tier2DrainHits + 1 },
          ⟨raw, .known sigHash⟩)
  | accept (sigHash : UInt64) (cluster : ClusterResult) (channel : BoundedChannel AsyncTriageTask)
      (task : AsyncTriageTask) (hnew : cluster.isNew = true)
      (htask : task = ⟨cluster.clusterId, cluster.template, raw, clock.nowMs⟩)
      (hsend : s.channel.trySend task = some channel) :
      Advances s raw clock (.clustered sigHash cluster)
        ({ s with pipeline.dispatched := s.pipeline.dispatched ++ [task], channel },
          ⟨raw, .offered⟩)
  | refuse (sigHash : UInt64) (cluster : ClusterResult) (task : AsyncTriageTask)
      (hnew : cluster.isNew = true)
      (htask : task = ⟨cluster.clusterId, cluster.template, raw, clock.nowMs⟩)
      (hsend : s.channel.trySend task = none) :
      Advances s raw clock (.clustered sigHash cluster)
        ({ s with refused := s.refused ++ [task] }, ⟨raw, .offered⟩)
  | promote (sigHash : UInt64) :
      Advances s raw clock (.known sigHash)
        ({ s with pipeline.cache := s.pipeline.cache.promote sigHash (classify raw) },
          ⟨raw, .returned .drain (TieredPipeline.parseWithFormat x raw (classify raw))⟩)
  | dispatch :
      Advances s raw clock .offered
        ({ s with pipeline.tier3LayaDispatches := s.pipeline.tier3LayaDispatches + 1 },
          ⟨raw, .returned .laya (parseLossless x raw)⟩)

variable {x mask overflowChecks}

theorem advances_of_advance {s : Shared} {call : Call Activity} {clock : Clock}
    {out : Shared × Call Activity} (h : advance x mask overflowChecks s call clock = some out) :
    Advances x mask overflowChecks s call.raw clock call.phase out := by
  unfold advance at h
  dsimp only at h
  cases hphase : call.phase with
  | counted =>
    rw [hphase] at h
    cases hsig : computeSignatureHash call.raw with
    | none =>
      rw [hsig] at h
      cases h
      exact .panic hsig
    | some sigHash =>
      rcases hget : s.pipeline.cache.get sigHash with ⟨found, cache⟩
      have hfound : (s.pipeline.cache.get sigHash).1 = found := by rw [hget]
      have hcache : (s.pipeline.cache.get sigHash).2 = cache := by rw [hget]
      simp only [hsig, hget] at h
      cases found with
      | some format =>
        cases h
        rw [← hcache]
        exact .hit sigHash format hsig hfound
      | none =>
        cases h
        rw [← hcache]
        exact .miss sigHash hsig hfound
  | missed sigHash =>
    rw [hphase] at h
    obtain ⟨out, hadd, rfl⟩ := Option.map_eq_some_iff.mp h
    exact .cluster sigHash out hadd
  | clustered sigHash cluster =>
    rw [hphase] at h
    cases hnew : cluster.isNew with
    | false =>
      simp only [hnew, Bool.not_false, if_true, Option.some.injEq] at h
      rw [← h]
      exact .know sigHash cluster hnew
    | true =>
      simp only [hnew, Bool.not_true, Bool.false_eq_true, if_false] at h
      split at h
      · next channel hsend =>
        cases h
        exact .accept sigHash cluster channel _ hnew rfl hsend
      · next hsend =>
        cases h
        exact .refuse sigHash cluster _ hnew rfl hsend
  | known sigHash =>
    rw [hphase] at h
    cases h
    exact .promote sigHash
  | offered =>
    rw [hphase] at h
    cases h
    exact .dispatch
  | returned tier activity =>
    rw [hphase] at h
    cases h
  | panicked =>
    rw [hphase] at h
    cases h

lemma advance_of_advances {s : Shared} {raw : String} {clock : Clock} {phase : Phase Activity}
    {out : Shared × Call Activity} (h : Advances x mask overflowChecks s raw clock phase out) :
    advance x mask overflowChecks s ⟨raw, phase⟩ clock = some out := by
  cases h with
  | panic hsig => simp [advance, hsig]
  | hit sigHash format hsig hget =>
    rcases hcache : s.pipeline.cache.get sigHash with ⟨found, cache⟩
    rw [hcache] at hget
    cases hget
    simp [advance, hsig, hcache]
  | miss sigHash hsig hget =>
    rcases hcache : s.pipeline.cache.get sigHash with ⟨found, cache⟩
    rw [hcache] at hget
    cases hget
    simp [advance, hsig, hcache]
  | cluster sigHash out hadd => simp [advance, hadd]
  | know sigHash cluster hseen => simp [advance, hseen]
  | accept sigHash cluster channel task hnew htask hsend =>
    subst htask
    simp [advance, hnew, hsend]
  | refuse sigHash cluster task hnew htask hsend =>
    subst htask
    simp [advance, hnew, hsend]
  | promote sigHash => rfl
  | dispatch => rfl

lemma alone_cons {s : Shared} {raw : String} {clock : Clock} {phase : Phase Activity}
    {q r : Shared × Call Activity} {clocks : List Clock}
    (h : Advances x mask overflowChecks s raw clock phase q)
    (hrest : run (machine x mask overflowChecks).alone q clocks = some r) :
    run (machine x mask overflowChecks).alone (s, ⟨raw, phase⟩) (clock :: clocks) = some r := by
  have hstep : (machine x mask overflowChecks).alone (s, ⟨raw, phase⟩) clock = some q :=
    advance_of_advances h
  rw [run_cons, hstep]
  exact hrest

/-- A call that nothing interrupts does what `process` does. -/
theorem process_alone {addLog : DrainMiner → String → ClusterResult × DrainMiner} {s : Shared}
    {call : ProcessCall} {micros : UInt64} {out : Drain.ClusterResult × DrainMiner}
    {activity : Activity} {p : TieredPipeline DrainMiner}
    (hadd : s.pipeline.drain.addLog mask overflowChecks ⟨call.raw, call.nowMs, micros⟩ = some out)
    (haddLog : addLog s.pipeline.drain call.raw = (out.1.toClusterResult, out.2))
    (hroom : call.ringBufferFree = s.channel.hasRoom)
    (h : s.pipeline.process x addLog call = some (activity, p)) (calls : List (Call Activity)) :
    ∃ turns t tier, run (machine x mask overflowChecks).step ⟨s, calls⟩ turns = some t ∧
      t.shared.pipeline = p ∧ t.calls = calls ++ [⟨call.raw, .returned tier activity⟩] := by
  let entered : Shared := { s with pipeline.totalEvents := s.pipeline.totalEvents + 1 }
  let clock : Clock := ⟨call.nowMs, micros⟩
  obtain ⟨clocks, t, tier, hrun, hp⟩ : ∃ clocks t tier,
      run (machine x mask overflowChecks).alone (entered, ⟨call.raw, .counted⟩) clocks =
        some (t, ⟨call.raw, .returned tier activity⟩) ∧ t.pipeline = p := by
    cases TieredPipeline.processes_of_process h with
    | cached sigHash format hsig hhit =>
      exact ⟨[clock], { s with pipeline := _ }, .lru,
        alone_cons (.hit sigHash format hsig hhit) rfl, rfl⟩
    | clustered sigHash hsig hmiss hseen =>
      simp only [haddLog] at hseen ⊢
      refine ⟨[clock, clock, clock, clock], { s with pipeline := _ }, .drain, ?_, rfl⟩
      refine alone_cons (.miss sigHash hsig hmiss) ?_
      refine alone_cons (.cluster sigHash out hadd) ?_
      refine alone_cons (.know sigHash _ hseen) ?_
      exact alone_cons (.promote sigHash) rfl
    | dispatched sigHash task hsig hmiss hnew htask =>
      simp only [haddLog, hroom, ← BoundedChannel.isSome_trySend s.channel task] at hnew htask ⊢
      cases hsend : s.channel.trySend task with
      | none =>
        refine ⟨[clock, clock, clock, clock],
          { s with pipeline := _, refused := s.refused ++ [task] }, .laya, ?_, rfl⟩
        refine alone_cons (.miss sigHash hsig hmiss) ?_
        refine alone_cons (.cluster sigHash out hadd) ?_
        refine alone_cons (.refuse sigHash _ task hnew htask hsend) ?_
        exact alone_cons .dispatch rfl
      | some channel =>
        refine ⟨[clock, clock, clock, clock], { s with pipeline := _, channel }, .laya, ?_, rfl⟩
        refine alone_cons (.miss sigHash hsig hmiss) ?_
        refine alone_cons (.cluster sigHash out hadd) ?_
        refine alone_cons (.accept sigHash _ channel task hnew htask hsend) ?_
        exact alone_cons .dispatch rfl
  exact ⟨.enter call.raw :: clocks.map (.advance calls.length), _, tier,
    Machine.run_alone calls hrun, hp, rfl⟩

/-! ### What the calls carry -/

namespace Call

variable {Activity : Type*} (call : Call Activity)

/-- The line is counted, and not yet looked up in the cache. -/
def awaitsLookup : Bool :=
  match call.phase with
  | .counted | .panicked => true
  | _ => false

/-- The line has missed the cache and is not yet counted for another tier. -/
def awaitsTier : Bool :=
  match call.phase with
  | .missed _ => true
  | .clustered _ cluster => !cluster.isNew
  | _ => false

/-- The task of the cluster is still to be offered. -/
def awaitsOffer (clusterId : ℕ) (call : Call Activity) : Bool :=
  match call.phase with
  | .clustered _ cluster => cluster.isNew && cluster.clusterId == clusterId
  | _ => false

def awaitsDispatch : Bool :=
  match call.phase with
  | .clustered _ cluster => cluster.isNew
  | .offered => true
  | _ => false

/-- The line is counted for the tier. -/
def servedBy (tier : Tier) (call : Call Activity) : Bool :=
  match call.phase with
  | .known _ => .drain == tier
  | .returned t _ => t == tier
  | _ => false

end Call

/-- The counter of a tier. -/
def Shared.tierCount (s : Shared) : Tier → ℕ
  | .lru => s.pipeline.cache.hits
  | .drain => s.pipeline.tier2DrainHits
  | .laya => s.pipeline.tier3LayaDispatches

/-- The tasks that were offered, taken or not. -/
def Shared.offered (s : Shared) : List AsyncTriageTask := s.channel.passed ++ s.refused

lemma signal_spec {s t : Shared} {workerStep : WorkerStep} (h : signal s workerStep = some t) :
    t.pipeline = s.pipeline ∧ t.channel.passed = s.channel.passed ∧ t.refused = s.refused := by
  cases workerStep with
  | listen =>
    cases h
    exact ⟨rfl, rfl, rfl⟩
  | receive =>
    obtain ⟨channel, hreceive, rfl⟩ := Option.map_eq_some_iff.mp h
    exact ⟨rfl, BoundedChannel.passed_receive hreceive, rfl⟩

/-- The miner never takes an id twice, and the channel has passed what was dispatched. -/
structure Ok (s : Shared) : Prop where
  fresh : s.pipeline.drain.IdsFresh
  passed : s.channel.passed = s.pipeline.dispatched

lemma ok_start (capacity : ℕ) : Ok (start capacity) := ⟨DrainMiner.idsFresh_new {}, rfl⟩

lemma Ok.changes {s t : Shared} (h : Ok s) (hchange : (machine x mask overflowChecks).Changes s t) :
    Ok t := by
  cases hchange with
  | @enter raw call henter =>
    cases henter
    exact ⟨h.fresh, h.passed⟩
  | @advance call call' clock hadvance =>
    obtain ⟨raw, phase⟩ := call
    cases advances_of_advance hadvance with
    | cluster sigHash out hadd => exact ⟨h.fresh.addLog hadd, h.passed⟩
    | accept sigHash cluster channel task hnew htask hsend =>
      exact ⟨h.fresh, by rw [BoundedChannel.passed_trySend hsend, h.passed]⟩
    | _ => exact ⟨h.fresh, h.passed⟩
  | signal hsignal =>
    obtain ⟨hpipeline, hpassed, -⟩ := signal_spec hsignal
    exact ⟨by rw [hpipeline]; exact h.fresh, by rw [hpassed, hpipeline, h.passed]⟩

lemma flow_lookup : (machine x mask overflowChecks).Flow Ok (fun s => s.pipeline.totalEvents)
    (fun s => s.pipeline.cache.hits + s.pipeline.cache.misses) Call.awaitsLookup where
  enter := by
    intro s t raw call _ henter
    cases henter
    simp only [Call.awaitsLookup, Bool.toNat_true]
    omega
  advance := by
    rintro s t ⟨raw, phase⟩ call' clock - hadvance
    cases advances_of_advance hadvance with
    | panic hsig => rfl
    | hit sigHash format hsig hget =>
      simp [Call.awaitsLookup, SignatureLruCache.hits_get, SignatureLruCache.misses_get, hget]
      omega
    | miss sigHash hsig hget =>
      simp [Call.awaitsLookup, SignatureLruCache.hits_get, SignatureLruCache.misses_get, hget]
      omega
    | _ => simp [Call.awaitsLookup]
  signal := by
    intro s t workerStep _ hsignal
    rw [(signal_spec hsignal).1]

lemma flow_miss : (machine x mask overflowChecks).Flow Ok (fun s => s.pipeline.cache.misses)
    (fun s => s.pipeline.tier2DrainHits + s.pipeline.drain.clusterCount) Call.awaitsTier where
  enter := by
    intro s t raw call _ henter
    cases henter
    simp [Call.awaitsTier]
  advance := by
    rintro s t ⟨raw, phase⟩ call' clock hok hadvance
    cases advances_of_advance hadvance with
    | panic hsig => rfl
    | hit sigHash format hsig hget =>
      simp [Call.awaitsTier, SignatureLruCache.misses_get, hget]
    | miss sigHash hsig hget =>
      simp [Call.awaitsTier, SignatureLruCache.misses_get, hget]
      omega
    | cluster sigHash out hadd =>
      have hcount := clusterCount_addLog hok.fresh hadd
      cases hnew : out.1.isNew with
      | false =>
        simp [Call.awaitsTier, hcount, hnew]
      | true =>
        simp [Call.awaitsTier, hcount, hnew]
        omega
    | know sigHash cluster hseen =>
      simp [Call.awaitsTier, hseen]
      omega
    | accept sigHash cluster channel task hnew htask hsend => simp [Call.awaitsTier, hnew]
    | refuse sigHash cluster task hnew htask hsend => simp [Call.awaitsTier, hnew]
    | promote sigHash => simp [Call.awaitsTier]
    | dispatch => simp [Call.awaitsTier]
  signal := by
    intro s t workerStep _ hsignal
    rw [(signal_spec hsignal).1]

lemma flow_dispatch : (machine x mask overflowChecks).Flow Ok
    (fun s => s.pipeline.drain.clusterCount) (fun s => s.pipeline.tier3LayaDispatches)
    Call.awaitsDispatch where
  enter := by
    intro s t raw call _ henter
    cases henter
    simp [Call.awaitsDispatch]
  advance := by
    rintro s t ⟨raw, phase⟩ call' clock hok hadvance
    cases advances_of_advance hadvance with
    | cluster sigHash out hadd =>
      have hcount := clusterCount_addLog hok.fresh hadd
      cases hnew : out.1.isNew with
      | false => simp [Call.awaitsDispatch, hcount, hnew]
      | true =>
        simp [Call.awaitsDispatch, hcount, hnew]
        omega
    | know sigHash cluster hseen => simp [Call.awaitsDispatch, hseen]
    | accept sigHash cluster channel task hnew htask hsend => simp [Call.awaitsDispatch, hnew]
    | refuse sigHash cluster task hnew htask hsend => simp [Call.awaitsDispatch, hnew]
    | dispatch =>
      simp [Call.awaitsDispatch]
      omega
    | _ => simp [Call.awaitsDispatch]
  signal := by
    intro s t workerStep _ hsignal
    rw [(signal_spec hsignal).1]

lemma flow_tier (tier : Tier) : (machine x mask overflowChecks).Flow Ok
    (fun s => s.tierCount tier) (fun _ => 0) (Call.servedBy tier) where
  enter := by
    intro s t raw call _ henter
    cases henter
    cases tier <;> rfl
  advance := by
    rintro s t ⟨raw, phase⟩ call' clock hok hadvance
    cases advances_of_advance hadvance with
    | hit sigHash format hsig hget =>
      cases tier <;> simp [Call.servedBy, Shared.tierCount, SignatureLruCache.hits_get, hget]
    | miss sigHash hsig hget =>
      cases tier <;> simp [Call.servedBy, Shared.tierCount, SignatureLruCache.hits_get, hget]
    | _ => cases tier <;> simp [Call.servedBy, Shared.tierCount]
  signal := by
    intro s t workerStep _ hsignal
    unfold Shared.tierCount
    rw [(signal_spec hsignal).1]

lemma flow_calls : (machine x mask overflowChecks).Flow Ok (fun s => s.pipeline.totalEvents)
    (fun _ => 0) (fun _ => true) where
  enter := by
    intro s t raw call _ henter
    cases henter
    rfl
  advance := by
    rintro s t ⟨raw, phase⟩ call' clock hok hadvance
    cases advances_of_advance hadvance <;> rfl
  signal := by
    intro s t workerStep _ hsignal
    rw [(signal_spec hsignal).1]

/-- Each id the miner has taken is that of one offered task or of one call that will offer it. -/
lemma flow_offer (clusterId : ℕ) : (machine x mask overflowChecks).Flow Ok
    (fun s => s.pipeline.drain.clusters.keys.count clusterId)
    (fun s => (s.offered.map AsyncTriageTask.clusterId).count clusterId)
    (Call.awaitsOffer clusterId) where
  enter := by
    intro s t raw call _ henter
    cases henter
    rfl
  advance := by
    rintro s t ⟨raw, phase⟩ call' clock hok hadvance
    cases advances_of_advance hadvance with
    | cluster sigHash out hadd =>
      have hkeys := (keys_addLog hok.fresh hadd).count_eq clusterId
      cases hnew : out.1.isNew with
      | false =>
        rw [hnew, if_neg Bool.false_ne_true] at hkeys
        simp [Call.awaitsOffer, hnew, hkeys, Shared.offered]
      | true =>
        rw [hnew, if_pos rfl, List.count_cons] at hkeys
        simp only [Call.awaitsOffer, hnew, hkeys, Shared.offered]
        cases hid : out.1.clusterId == clusterId
        · simp
        · simp
          omega
    | know sigHash cluster hseen => simp [Call.awaitsOffer, hseen, Shared.offered]
    | accept sigHash cluster channel task hnew htask hsend =>
      simp only [Call.awaitsOffer, hnew, Shared.offered, BoundedChannel.passed_trySend hsend, htask,
        List.map_append, List.map_cons, List.map_nil, List.count_append, List.count_singleton]
      cases hid : cluster.clusterId == clusterId <;> simp
      omega
    | refuse sigHash cluster task hnew htask hsend =>
      simp only [Call.awaitsOffer, hnew, Shared.offered, htask, List.map_append, List.map_cons,
        List.map_nil, List.count_append, List.count_singleton]
      cases hid : cluster.clusterId == clusterId <;> simp
      omega
    | _ => simp [Call.awaitsOffer, Shared.offered]
  signal := by
    intro s t workerStep _ hsignal
    obtain ⟨hpipeline, hpassed, hrefused⟩ := signal_spec hsignal
    unfold Shared.offered
    rw [hpipeline, hpassed, hrefused]

/-! ### Once no call is in progress -/

variable {capacity : ℕ} {turns : List (Turn String Clock WorkerStep)}
  {s : Interleaved Shared (Call Activity)}

lemma quiet_of_tiers (h : ∀ tier ∈ tiers s, tier.isSome) : Quiet s :=
  fun _ hcall => h _ (List.mem_map_of_mem hcall)

lemma Quiet.returned (hquiet : Quiet s) {call : Call Activity} (hcall : call ∈ s.calls) :
    ∃ tier activity, call.phase = .returned tier activity := by
  have hsome := hquiet call hcall
  unfold Call.tier at hsome
  cases hphase : call.phase with
  | returned tier activity => exact ⟨tier, activity, rfl⟩
  | _ => simp [hphase] at hsome

lemma flow_of_carries {inflow outflow : Shared → ℕ} {carries : Call Activity → Bool}
    (h : (machine x mask overflowChecks).Flow Ok inflow outflow carries)
    (hzero : inflow (start capacity) = outflow (start capacity))
    (hrun : run (machine x mask overflowChecks).step ⟨start capacity, []⟩ turns = some s)
    (hcarries : ∀ call ∈ s.calls, carries call = false) : inflow s.shared = outflow s.shared := by
  have hcarried : s.calls.countP carries = 0 := by
    rw [List.countP_eq_zero]
    intro call hcall
    rw [hcarries call hcall]
    exact Bool.false_ne_true
  rw [Machine.flow_of_run h (ok_start capacity) Ok.changes hzero hrun, hcarried, add_zero]

lemma quiet_flow {inflow outflow : Shared → ℕ} {carries : Call Activity → Bool}
    (h : (machine x mask overflowChecks).Flow Ok inflow outflow carries)
    (hzero : inflow (start capacity) = outflow (start capacity))
    (hreturned : ∀ raw tier activity, carries ⟨raw, .returned tier activity⟩ = false)
    (hrun : run (machine x mask overflowChecks).step ⟨start capacity, []⟩ turns = some s)
    (hquiet : Quiet s) : inflow s.shared = outflow s.shared := by
  refine flow_of_carries h hzero hrun ?_
  rintro ⟨raw, phase⟩ hcall
  obtain ⟨tier, activity, rfl⟩ := hquiet.returned hcall
  exact hreturned raw tier activity

lemma Idle.awaitsOffer (hidle : Idle s) (clusterId : ℕ) {call : Call Activity}
    (hcall : call ∈ s.calls) : call.awaitsOffer clusterId = false := by
  have hended := hidle call hcall
  obtain ⟨raw, phase⟩ := call
  cases phase with
  | clustered sigHash cluster => cases hended
  | _ => rfl

lemma Idle.awaitsDispatch (hidle : Idle s) {call : Call Activity} (hcall : call ∈ s.calls) :
    call.awaitsDispatch = false := by
  have hended := hidle call hcall
  obtain ⟨raw, phase⟩ := call
  cases phase with
  | clustered sigHash cluster => cases hended
  | offered => cases hended
  | _ => rfl

lemma tierCount_of_run (tier : Tier)
    (hrun : run (machine x mask overflowChecks).step ⟨start capacity, []⟩ turns = some s)
    (hquiet : Quiet s) : s.shared.tierCount tier = (tiers s).count (some tier) := by
  have hflow := Machine.flow_of_run (flow_tier tier) (ok_start capacity) Ok.changes
    (by cases tier <;> rfl) hrun
  rw [hflow, zero_add, tiers, List.count, List.countP_map]
  apply List.countP_congr
  rintro ⟨raw, phase⟩ hcall
  obtain ⟨t, activity, rfl⟩ := hquiet.returned hcall
  simp [Call.servedBy, Call.tier]

/-- Once all calls have returned, every event is a hit or a miss of the cache, every miss is
counted by the second tier or has opened a cluster, and each tier has answered its share. -/
theorem tiers_account (x : Extractors Activity) (mask : String → String) (overflowChecks : Bool)
    (capacity : ℕ) (turns : List (Turn String Clock WorkerStep))
    (s : Interleaved Shared (Call Activity))
    (hrun : run (machine x mask overflowChecks).step ⟨start capacity, []⟩ turns = some s)
    (hquiet : Quiet s) :
    let p := s.shared.pipeline
    p.totalEvents = p.cache.hits + p.cache.misses ∧
      p.cache.misses = p.tier2DrainHits + p.drain.clusterCount ∧
      p.totalEvents = s.calls.length ∧
      p.cache.hits = (tiers s).count (some .lru) ∧
      p.tier2DrainHits = (tiers s).count (some .drain) ∧
      p.drain.clusterCount = (tiers s).count (some .laya) := by
  have hcalls := Machine.flow_of_run flow_calls (ok_start capacity) Ok.changes rfl hrun
  rw [zero_add, List.countP_true] at hcalls
  have hclusters := quiet_flow flow_dispatch rfl (fun _ _ _ => rfl) hrun hquiet
  exact ⟨quiet_flow flow_lookup rfl (fun _ _ _ => rfl) hrun hquiet,
    quiet_flow flow_miss rfl (fun _ _ _ => rfl) hrun hquiet, hcalls,
    tierCount_of_run .lru hrun hquiet, tierCount_of_run .drain hrun hquiet,
    hclusters.trans (tierCount_of_run .laya hrun hquiet)⟩

/-- Two calls on one line that miss the cache at the same time: the one that comes first to the
miner opens the cluster. -/
theorem tiers_account_overlapping :
    let x : Extractors Unit := ⟨fun _ => .ok (), fun _ => .ok (), fun _ => .ok (),
      fun _ => .ok (), fun _ => .ok (), fun _ => .ok (), fun _ _ => (), fun _ _ => ()⟩
    let enter : Turn String Clock WorkerStep := .enter "login ok"
    let advance (i : ℕ) : Turn String Clock WorkerStep := .advance i ⟨0, 0⟩
    ∃ s, run (machine x id false).step ⟨start 1, []⟩
        [enter, enter, advance 0, advance 1, advance 1, advance 0, advance 0, advance 1, advance 0,
          advance 1] = some s ∧
      tiers s = [some .drain, some .laya] ∧
      s.shared.pipeline.totalEvents =
        s.shared.pipeline.cache.hits + s.shared.pipeline.cache.misses := by
  intro x enter advance
  have heval : (run (machine x id false).step ⟨start 1, []⟩
      [enter, enter, advance 0, advance 1, advance 1, advance 0, advance 0, advance 1, advance 0,
        advance 1]).map tiers = some [some .drain, some .laya] := by
    decide +kernel
  obtain ⟨s, hrun, htiers⟩ := Option.map_eq_some_iff.mp heval
  have hquiet : Quiet s := quiet_of_tiers (by rw [htiers]; decide)
  exact ⟨s, hrun, htiers, (tiers_account x id false 1 _ s hrun hquiet).1⟩

/-! ### Tasks of the third tier -/

/-- If the step offers the task of a new cluster, the ring buffer has room for it. -/
def FindsRoom (s : Interleaved Shared (Call Activity)) : Turn String Clock WorkerStep → Prop
  | .advance i _ => ∀ raw sigHash cluster, s.calls[i]? = some ⟨raw, .clustered sigHash cluster⟩ →
      cluster.isNew = true → s.shared.channel.hasRoom = true
  | _ => True

lemma refused_step {t : Interleaved Shared (Call Activity)} {turn : Turn String Clock WorkerStep}
    (hrefused : s.shared.refused = []) (hroom : FindsRoom s turn)
    (hstep : (machine x mask overflowChecks).step s turn = some t) : t.shared.refused = [] := by
  cases turn with
  | enter raw =>
    cases hstep
    exact hrefused
  | advance i clock =>
    obtain ⟨⟨raw, phase⟩, hcall, hstep⟩ := Option.bind_eq_some_iff.mp hstep
    obtain ⟨out, hadvance, rfl⟩ := Option.map_eq_some_iff.mp hstep
    cases advances_of_advance hadvance with
    | refuse sigHash cluster task hnew htask hsend =>
      have hsome := BoundedChannel.isSome_trySend s.shared.channel task
      rw [hsend, hroom raw sigHash cluster hcall hnew] at hsome
      cases hsome
    | _ => exact hrefused
  | signal workerStep =>
    obtain ⟨shared, hsignal, rfl⟩ := Option.map_eq_some_iff.mp hstep
    exact (signal_spec hsignal).2.2.trans hrefused

/-- Once no call is in progress, each cluster has one task, received, waiting or refused for want
of room. Without a refusal the counter of the third tier is that of the tasks, and none is refused
while every offer finds room. -/
theorem tasks_account (x : Extractors Activity) (mask : String → String) (overflowChecks : Bool)
    (capacity : ℕ) (turns : List (Turn String Clock WorkerStep))
    (s : Interleaved Shared (Call Activity))
    (hrun : run (machine x mask overflowChecks).step ⟨start capacity, []⟩ turns = some s)
    (hidle : Idle s) :
    let p := s.shared.pipeline
    let channel := s.shared.channel
    (((channel.received ++ channel.waiting) ++ s.shared.refused).map
        AsyncTriageTask.clusterId).Perm p.drain.clusters.keys ∧
      (s.shared.refused = [] →
        ((channel.received ++ channel.waiting).map AsyncTriageTask.clusterId).Perm
            p.drain.clusters.keys ∧
          p.tier3LayaDispatches = channel.received.length + channel.waiting.length) ∧
      (Along (machine x mask overflowChecks).step FindsRoom ⟨start capacity, []⟩ turns →
        s.shared.refused = []) := by
  have hids : (s.shared.offered.map AsyncTriageTask.clusterId).Perm
      s.shared.pipeline.drain.clusters.keys := by
    rw [List.perm_iff_count]
    intro clusterId
    exact (flow_of_carries (flow_offer clusterId) rfl hrun
      fun _ hcall => hidle.awaitsOffer clusterId hcall).symm
  refine ⟨hids, ?_, ?_⟩
  · intro hrefused
    rw [Shared.offered, hrefused, List.append_nil] at hids
    refine ⟨hids, ?_⟩
    rw [← flow_of_carries flow_dispatch rfl hrun fun _ hcall => hidle.awaitsDispatch hcall,
      DrainMiner.clusterCount, ← hids.length_eq, List.length_map, BoundedChannel.passed,
      List.length_append]
  · intro hroom
    exact invariant_of_along _ (fun _ _ _ hrefused hroom hstep => refused_step hrefused hroom hstep)
      rfl hroom hrun

/-- The worker receives the task of the only cluster, and the call on a line with a character across
byte 96 has panicked. -/
theorem tasks_account_received :
    let x : Extractors Unit := ⟨fun _ => .ok (), fun _ => .ok (), fun _ => .ok (),
      fun _ => .ok (), fun _ => .ok (), fun _ => .ok (), fun _ _ => (), fun _ _ => ()⟩
    let advance : Turn String Clock WorkerStep := .advance 0 ⟨0, 0⟩
    ∃ s, run (machine x id false).step ⟨start 1, []⟩
        [.enter "login ok", advance, advance, advance, advance, .signal .listen,
          .signal .receive, .enter (String.ofList (List.replicate 95 'a' ++ ['é'])),
          .advance 1 ⟨0, 0⟩] = some s ∧
      s.calls.map Call.tier = [some .laya, none] ∧ s.shared.channel.received.length = 1 ∧
      ((s.shared.channel.received ++ s.shared.channel.waiting).map AsyncTriageTask.clusterId).Perm
        s.shared.pipeline.drain.clusters.keys := by
  intro x advance
  have heval : (run (machine x id false).step ⟨start 1, []⟩
      [.enter "login ok", advance, advance, advance, advance, .signal .listen,
        .signal .receive, .enter (String.ofList (List.replicate 95 'a' ++ ['é'])),
        .advance 1 ⟨0, 0⟩]).map (fun s =>
          (tiers s, s.calls.map Call.hasEnded, s.shared.channel.received.length,
            s.shared.refused.length)) =
      some ([some .laya, none], [true, true], 1, 0) := by
    decide +kernel
  obtain ⟨s, hrun, hs⟩ := Option.map_eq_some_iff.mp heval
  simp only [Prod.mk.injEq] at hs
  obtain ⟨htiers, hended, hreceived, hrefused⟩ := hs
  have hidle : Idle s := by
    intro call hcall
    have hmem : call.hasEnded ∈ s.calls.map Call.hasEnded := List.mem_map_of_mem hcall
    rw [hended] at hmem
    simpa using hmem
  have htasks := (tasks_account x id false 1 _ s hrun hidle).2.1
  exact ⟨s, hrun, htiers, hreceived, (htasks (List.eq_nil_of_length_eq_zero hrefused)).1⟩

/-- Two lines open clusters before the worker calls `recv`, and the ring buffer has room for one
task: both are counted as dispatched, and the second cluster has no task. -/
theorem full_ring_buffer_loses_exemplar :
    let x : Extractors Unit := ⟨fun _ => .ok (), fun _ => .ok (), fun _ => .ok (),
      fun _ => .ok (), fun _ => .ok (), fun _ => .ok (), fun _ _ => (), fun _ _ => ()⟩
    let advance (i : ℕ) : Turn String Clock WorkerStep := .advance i ⟨0, 0⟩
    ∃ s, run (machine x id false).step ⟨start 1, []⟩
        [.enter "login ok", advance 0, advance 0, advance 0, advance 0,
          .enter "logout", advance 1, advance 1, advance 1, advance 1] = some s ∧
      Quiet s ∧ s.shared.pipeline.tier3LayaDispatches = 2 ∧
      s.shared.channel.received.length + s.shared.channel.waiting.length = 1 ∧
      s.shared.pipeline.drain.clusters.keys = [2, 1] ∧
      (s.shared.channel.received ++ s.shared.channel.waiting).map AsyncTriageTask.clusterId =
        [1] := by
  intro x advance
  have heval : (run (machine x id false).step ⟨start 1, []⟩
      [.enter "login ok", advance 0, advance 0, advance 0, advance 0,
        .enter "logout", advance 1, advance 1, advance 1, advance 1]).map (fun s =>
          (tiers s, s.shared.pipeline.tier3LayaDispatches,
            s.shared.channel.received.length + s.shared.channel.waiting.length,
            s.shared.pipeline.drain.clusters.keys,
            (s.shared.channel.received ++ s.shared.channel.waiting).map
              AsyncTriageTask.clusterId)) =
      some ([some .laya, some .laya], 2, 1, [2, 1], [1]) := by
    decide +kernel
  obtain ⟨s, hrun, hs⟩ := Option.map_eq_some_iff.mp heval
  simp only [Prod.mk.injEq] at hs
  obtain ⟨htiers, hdispatches, htasks, hkeys, hids⟩ := hs
  exact ⟨s, hrun, quiet_of_tiers (by rw [htiers]; decide), hdispatches, htasks, hkeys, hids⟩

end Machine

end Ulpf.Ai.Interleaving
