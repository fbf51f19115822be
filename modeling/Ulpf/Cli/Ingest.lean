import Ulpf.Ai.Drain
import Ulpf.Core.NetworkEvents
import Ulpf.Integrity.BatcherRuns

/-!
# The ingest engine

The processing loop of `run_ingest`: each line is parsed, clustered and pushed into the batch
accumulator. The loop waits for nothing but the next line; the senders outlive it, so the
channel is never closed.
-/

namespace Ulpf.Cli
open Ulpf.Library Ulpf.Core Ulpf.Ai.Drain Ulpf.Integrity

structure IngestArgs where
  parquetDir : String := "data/parquet"
  ledger : String := "data/ledger.jsonl"
  batchSize : ℕ := 1000
  batchTimeout : UInt64 := 2000

def IngestArgs.batcherConfig (args : IngestArgs) : BatcherConfig where
  maxBatchSize := args.batchSize
  maxBatchDurationMs := args.batchTimeout
  storageDir := args.parquetDir
  ledgerPath := args.ledger
  compression := .snappy

/-- The state of the loop with the counters of the statistics reporter. -/
structure IngestEngine where
  batcher : Batcher
  miner : DrainMiner
  parsedOk : ℕ
  fallbackUnparsed : ℕ
  missingIps : ℕ
  totalBlocks : ℕ
  totalAnomalies : ℕ

/-- A line with what its processing reads from outside. The monotonic clock shows `startedAt`
and `checkedAt` in the push, and `finishedAt` once the loop waits again. -/
structure LineArrival where
  rawLog : String
  readings : Readings
  miningNowMs : Int64
  elapsedMicros : UInt64
  startedAt : ℕ
  checkedAt : ℕ
  finishedAt : ℕ
  flushEnv : FlushEnv

section Engine

variable (rt : Runtime) (mask : String → String) (toJson : NetworkActivity → Option String)
  (overflowChecks : Bool)

def IngestEngine.start (args : IngestArgs) (disk : Disk) :
    Option (Except LedgerLoadError IngestEngine) :=
  (BatchAccumulator.new overflowChecks args.batcherConfig disk).map
    (Except.map fun acc => ⟨⟨acc, disk⟩, DrainMiner.new {}, 0, 0, 0, 0, 0⟩)

def IngestEngine.countEvent (engine : IngestEngine) (event : NetworkActivity) : IngestEngine :=
  let unknown := event.metadata.product.vendorName == "Unknown"
  let missing := event.srcEndpoint.ip.isNone || event.dstEndpoint.ip.isNone
  { engine with
    parsedOk := if unknown then engine.parsedOk else engine.parsedOk + 1
    fallbackUnparsed := if unknown then engine.fallbackUnparsed + 1 else engine.fallbackUnparsed
    missingIps := if missing then engine.missingIps + 1 else engine.missingIps }

def incomingLog (rawLog : String) (event : NetworkActivity) : IncomingLog where
  vendor := event.metadata.product.vendorName
  rawLog := rawLog
  timestamp := some event.time
  eventId := some event.metadata.eventId
  ocsfJson := some ((toJson event).getD "\x7b\x7d")

/-- The body of the loop; a failed push ends it with the error. -/
def IngestEngine.receive (engine : IngestEngine) (a : LineArrival) :
    Option (Except FlushError IngestEngine) :=
  match parseLossless (universalParser rt a.readings) a.rawLog with
  | none => none
  | some event =>
    let engine := engine.countEvent event
    -- Run through Drain3 structural clustering for anomaly detection
    match engine.miner.addLog mask overflowChecks ⟨a.rawLog, a.miningNowMs, a.elapsedMicros⟩ with
    | none => none
    | some (clusterRes, miner) =>
      let engine := { engine with
        miner
        totalAnomalies :=
          if clusterRes.anomaly.isSome then engine.totalAnomalies + 1 else engine.totalAnomalies }
      match push rt.sha256 overflowChecks engine.batcher (incomingLog toJson a.rawLog event)
          a.startedAt a.checkedAt a.flushEnv with
      | none => none
      | some (.error err, _) => some (.error err)
      | some (.ok none, batcher) => some (.ok { engine with batcher })
      | some (.ok (some _), batcher) =>
        some (.ok { engine with batcher, totalBlocks := engine.totalBlocks + 1 })

/-! ### Runs of the loop -/

/-- The loop waiting for input at an instant of the monotonic clock. -/
structure IngestLoop where
  engine : IngestEngine
  now : ℕ

abbrev IngestLoop.acc (s : IngestLoop) : BatchAccumulator := s.engine.batcher.acc

/-- A line arrives and is processed, or time passes while the loop waits. -/
inductive LoopEvent where
  | line (a : LineArrival)
  | wait (now : ℕ)

def LoopEvent.Faultless : LoopEvent → Prop
  | line a => a.flushEnv.Faultless
  | wait _ => True

/-- Clock readings never decrease; a panic or an error ends the loop. -/
def IngestLoop.step (s : IngestLoop) : LoopEvent → Option IngestLoop
  | .line a =>
    if s.now ≤ a.startedAt ∧ a.startedAt ≤ a.checkedAt ∧ a.checkedAt ≤ a.finishedAt then
      match s.engine.receive rt mask toJson overflowChecks a with
      | some (.ok engine) => some ⟨engine, a.finishedAt⟩
      | _ => none
    else none
  | .wait now => if s.now ≤ now then some { s with now } else none

end Engine

/-- The logs that wait in the buffer have waited for less than the duration trigger. -/
def Prompt (s : IngestLoop) : Prop :=
  s.acc.buffer ≠ [] → ∃ d, s.acc.pendingDuration s.now = some d ∧ d < s.acc.maxBatchDuration

/-- When the oldest log was pushed of a buffer that takes another one at `startedAt`. -/
def oldestPush (acc : BatchAccumulator) (startedAt : ℕ) : ℕ :=
  if acc.buffer = [] then startedAt else acc.firstItemTime.getD startedAt

/-- A push reaches the count trigger, or the duration trigger when it is checked. -/
def Triggers (acc : BatchAccumulator) (startedAt checkedAt : ℕ) : Prop :=
  acc.config.maxBatchSize ≤ acc.buffer.length + 1 ∨
    acc.maxBatchDuration ≤ checkedAt - oldestPush acc startedAt

/-- Time passes over a buffered log only up to its deadline, be it in a silence or while a line
is processed that reaches no trigger. -/
def EndsInTime (s : IngestLoop) : LoopEvent → Prop
  | .line a => Triggers s.acc a.startedAt a.checkedAt ∨
      a.finishedAt - oldestPush s.acc a.startedAt < s.acc.maxBatchDuration
  | .wait now => s.acc.buffer = [] ∨ now - oldestPush s.acc now < s.acc.maxBatchDuration

/-- On every run of the loop from its start, with all I/O succeeding, no log outlives the
duration trigger. -/
def NoLogOutlivesTrigger (rt : Runtime) (mask : String → String)
    (toJson : NetworkActivity → Option String) (overflowChecks : Bool) (args : IngestArgs) :
    Prop :=
  ∀ disk engine events s, IngestEngine.start overflowChecks args disk = some (.ok engine) →
    (∀ e ∈ events, e.Faultless) →
    run (IngestLoop.step rt mask toJson overflowChecks) ⟨engine, 0⟩ events = some s → Prompt s

variable {rt : Runtime} {mask : String → String} {toJson : NetworkActivity → Option String}
  {overflowChecks : Bool}

/-! ### One step -/

lemma step_wait (s : IngestLoop) (now : ℕ) :
    s.step rt mask toJson overflowChecks (.wait now) =
      if s.now ≤ now then some { s with now } else none := rfl

lemma step_line (s : IngestLoop) (a : LineArrival) :
    s.step rt mask toJson overflowChecks (.line a) =
      if s.now ≤ a.startedAt ∧ a.startedAt ≤ a.checkedAt ∧ a.checkedAt ≤ a.finishedAt then
        match s.engine.receive rt mask toJson overflowChecks a with
        | some (.ok engine) => some ⟨engine, a.finishedAt⟩
        | _ => none
      else none := rfl

lemma push_of_receive {engine engine' : IngestEngine} {a : LineArrival}
    (h : engine.receive rt mask toJson overflowChecks a = some (.ok engine')) :
    ∃ log result, push rt.sha256 overflowChecks engine.batcher log a.startedAt a.checkedAt
      a.flushEnv = some (.ok result, engine'.batcher) := by
  unfold IngestEngine.receive at h
  split at h
  · cases h
  · rename_i event hevent
    dsimp only at h
    split at h
    · cases h
    · rename_i clusterRes miner hmined
      refine ⟨incomingLog toJson a.rawLog event, ?_⟩
      split at h
      · cases h
      · cases h
      · rename_i batcher hpush
        cases h
        exact ⟨none, hpush⟩
      · rename_i result batcher hpush
        cases h
        exact ⟨some result, hpush⟩

/-- The timer runs exactly while logs are buffered. -/
def Timed (acc : BatchAccumulator) : Prop := acc.firstItemTime = none ↔ acc.buffer = []

lemma acc_ingest {b : Batcher} (h : Timed b.acc) (log : IncomingLog) (startedAt : ℕ) :
    (ingest b log startedAt).acc = { b.acc with
      buffer := b.acc.buffer ++ [log]
      firstItemTime := some (oldestPush b.acc startedAt) } := by
  obtain ⟨⟨config, buffer, firstItemTime, blockId, inMemoryLedger⟩, disk⟩ := b
  cases buffer with
  | nil => rfl
  | cons oldest rest =>
    cases firstItemTime with
    | none => cases h.mp rfl
    | some t => rfl

lemma shouldFlush_ingest_iff {b : Batcher} (h : Timed b.acc) (log : IncomingLog)
    (startedAt checkedAt : ℕ) :
    (ingest b log startedAt).acc.shouldFlush checkedAt ↔ Triggers b.acc startedAt checkedAt := by
  have hdue : (ingest b log startedAt).acc.durationMet checkedAt ↔
      b.acc.maxBatchDuration ≤ checkedAt - oldestPush b.acc startedAt := by
    rw [acc_ingest h]
    exact decide_eq_true_iff
  unfold BatchAccumulator.shouldFlush Triggers
  rw [Bool.if_false_left, Bool.and_eq_true, Bool.or_eq_true, hdue, acc_ingest h]
  simp

/-- A push that reaches a trigger empties the buffer, any other one leaves the log in it. -/
lemma push_ends {b b' : Batcher} (h : Timed b.acc) {log : IncomingLog} {startedAt checkedAt : ℕ}
    {env : FlushEnv} {result : Option BlockFlushResult}
    (hpush : push rt.sha256 overflowChecks b log startedAt checkedAt env =
      some (.ok result, b')) :
    b'.acc.config = b.acc.config ∧
      (Triggers b.acc startedAt checkedAt ∧ b'.acc.buffer = [] ∧ b'.acc.firstItemTime = none ∨
        ¬Triggers b.acc startedAt checkedAt ∧ b' = ingest b log startedAt) := by
  have hconfig : (ingest b log startedAt).acc.config = b.acc.config := by rw [acc_ingest h]
  have htriggers := shouldFlush_ingest_iff h log startedAt checkedAt
  unfold push at hpush
  dsimp only at hpush
  split_ifs at hpush with hflush
  · cases flushes_of_flush hpush with
    | idle hempty =>
      rw [acc_ingest h] at hempty
      simp at hempty
    | anchored nextId hne hid hok => exact ⟨hconfig, Or.inl ⟨htriggers.mp hflush, rfl, rfl⟩⟩
  · cases hpush
    exact ⟨hconfig, Or.inr ⟨fun hmet => hflush (htriggers.mpr hmet), rfl⟩⟩

/-- What a step of the loop can do to the accumulator. -/
inductive LoopStep (s : IngestLoop) : LoopEvent → IngestLoop → Prop where
  | waited (now : ℕ) : LoopStep s (.wait now) { s with now }
  | flushed (a : LineArrival) (engine : IngestEngine)
      (hconfig : engine.batcher.acc.config = s.acc.config)
      (htriggers : Triggers s.acc a.startedAt a.checkedAt)
      (hbuffer : engine.batcher.acc.buffer = [])
      (htime : engine.batcher.acc.firstItemTime = none) :
      LoopStep s (.line a) ⟨engine, a.finishedAt⟩
  | buffered (a : LineArrival) (engine : IngestEngine) (log : IncomingLog)
      (hquiet : ¬Triggers s.acc a.startedAt a.checkedAt)
      (hacc : engine.batcher.acc = { s.acc with
        buffer := s.acc.buffer ++ [log]
        firstItemTime := some (oldestPush s.acc a.startedAt) }) :
      LoopStep s (.line a) ⟨engine, a.finishedAt⟩

theorem loopStep_of_step {s t : IngestLoop} {e : LoopEvent} (h : Timed s.acc)
    (hstep : s.step rt mask toJson overflowChecks e = some t) : LoopStep s e t := by
  cases e with
  | wait now =>
    rw [step_wait] at hstep
    split_ifs at hstep
    cases hstep
    exact .waited now
  | line a =>
    rw [step_line] at hstep
    split_ifs at hstep
    split at hstep
    · rename_i engine hreceive
      cases hstep
      obtain ⟨log, result, hpush⟩ := push_of_receive hreceive
      obtain ⟨hconfig, hend⟩ := push_ends h hpush
      rcases hend with ⟨htriggers, hbuffer, htime⟩ | ⟨hquiet, hbatcher⟩
      · exact .flushed a engine hconfig htriggers hbuffer htime
      · refine .buffered a engine log hquiet ?_
        rw [hbatcher]
        exact acc_ingest h log a.startedAt
    · cases hstep

namespace LoopStep

variable {s t : IngestLoop} {e : LoopEvent}

lemma config (hstep : LoopStep s e t) : t.acc.config = s.acc.config := by
  cases hstep with
  | waited now => rfl
  | flushed a engine hconfig htriggers hbuffer htime => exact hconfig
  | buffered a engine log hquiet hacc =>
    change engine.batcher.acc.config = _
    rw [hacc]

lemma timed (h : Timed s.acc) (hstep : LoopStep s e t) : Timed t.acc := by
  cases hstep with
  | waited now => exact h
  | flushed a engine hconfig htriggers hbuffer htime => exact iff_of_true htime hbuffer
  | buffered a engine log hquiet hacc =>
    change Timed engine.batcher.acc
    rw [hacc]
    simp [Timed]

lemma buffer_eq_nil (hstep : LoopStep s e t)
    (hsmall : s.acc.config.maxBatchSize ≤ 1 ∨ s.acc.maxBatchDuration = 0)
    (hbuffer : s.acc.buffer = []) : t.acc.buffer = [] := by
  cases hstep with
  | waited now => exact hbuffer
  | flushed a engine hconfig htriggers hbuffer htime => exact hbuffer
  | buffered a engine log hquiet hacc =>
    exfalso
    apply hquiet
    rcases hsmall with hsize | htimeout
    · exact Or.inl (by omega)
    · exact Or.inr (by omega)

end LoopStep

/-! ### Deadlines -/

lemma prompt_of_buffer_eq_nil {s : IngestLoop} (h : s.acc.buffer = []) : Prompt s :=
  fun hne => absurd h hne

lemma prompt_iff_of_firstItemTime {s : IngestLoop} (hne : s.acc.buffer ≠ []) {oldest : ℕ}
    (holdest : s.acc.firstItemTime = some oldest) :
    Prompt s ↔ s.now - oldest < s.acc.maxBatchDuration := by
  unfold Prompt BatchAccumulator.pendingDuration
  rw [holdest]
  simp [hne]

lemma prompt_iff_endsInTime {s t : IngestLoop} {e : LoopEvent} (h : Timed s.acc)
    (hstep : LoopStep s e t) : Prompt t ↔ EndsInTime s e := by
  cases hstep with
  | waited now =>
    change _ ↔ s.acc.buffer = [] ∨ now - oldestPush s.acc now < s.acc.maxBatchDuration
    by_cases hbuffer : s.acc.buffer = []
    · exact iff_of_true (prompt_of_buffer_eq_nil hbuffer) (Or.inl hbuffer)
    · obtain ⟨oldest, holdest⟩ := Option.ne_none_iff_exists'.mp fun hnone => hbuffer (h.mp hnone)
      rw [prompt_iff_of_firstItemTime (s := { s with now }) hbuffer holdest, oldestPush,
        if_neg hbuffer, holdest, or_iff_right hbuffer, Option.getD_some]
  | flushed a engine hconfig htriggers hbuffer htime =>
    exact iff_of_true (prompt_of_buffer_eq_nil hbuffer) (Or.inl htriggers)
  | buffered a engine log hquiet hacc =>
    have hne : engine.batcher.acc.buffer ≠ [] := by
      rw [hacc]
      simp
    have holdest : engine.batcher.acc.firstItemTime = some (oldestPush s.acc a.startedAt) := by
      rw [hacc]
    have hmax : engine.batcher.acc.maxBatchDuration = s.acc.maxBatchDuration := by
      rw [hacc]
      rfl
    change _ ↔ Triggers s.acc a.startedAt a.checkedAt ∨
      a.finishedAt - oldestPush s.acc a.startedAt < s.acc.maxBatchDuration
    rw [prompt_iff_of_firstItemTime (s := ⟨engine, a.finishedAt⟩) hne holdest, or_iff_right hquiet,
      ← hmax]

lemma start_eq_some {args : IngestArgs} {disk : Disk} {engine : IngestEngine}
    (h : IngestEngine.start overflowChecks args disk = some (.ok engine)) :
    engine.batcher.acc.config = args.batcherConfig ∧ engine.batcher.acc.buffer = [] ∧
      engine.batcher.acc.firstItemTime = none := by
  obtain ⟨loaded, hnew, hloaded⟩ := Option.map_eq_some_iff.mp h
  cases loaded with
  | error err => cases hloaded
  | ok acc =>
    cases hloaded
    exact new_eq_some hnew

lemma noLogOutlivesTrigger_of_small {args : IngestArgs}
    (h : args.batchSize ≤ 1 ∨ args.batchTimeout = 0) :
    NoLogOutlivesTrigger rt mask toJson overflowChecks args := by
  intro disk engine events s hstart hok hrun
  obtain ⟨hconfig, hbuffer, htime⟩ := start_eq_some hstart
  have hidle : Timed s.acc ∧ s.acc.config = args.batcherConfig ∧ s.acc.buffer = [] := by
    refine run_induction (motive := fun _ s => Timed s.acc ∧ s.acc.config = args.batcherConfig ∧
      s.acc.buffer = []) _ ⟨iff_of_true htime hbuffer, hconfig, hbuffer⟩ ?_ hrun
    rintro done e u v - ⟨htimed, hconfig, hbuffer⟩ hstep
    have hloop := loopStep_of_step htimed hstep
    refine ⟨hloop.timed htimed, hloop.config.trans hconfig, hloop.buffer_eq_nil ?_ hbuffer⟩
    rcases h with hsize | htimeout
    · left
      rw [hconfig]
      exact hsize
    · right
      unfold BatchAccumulator.maxBatchDuration
      rw [hconfig, IngestArgs.batcherConfig, htimeout]
      exact Nat.zero_mul _
  exact prompt_of_buffer_eq_nil hidle.2.2

/-! ### A lone line -/

/-- A line of no known format that comes first, at the start of the clock. -/
def loneLine : LineArrival where
  rawLog := "link down"
  readings := ⟨"", 0, 0⟩
  miningNowMs := 0
  elapsedMicros := 0
  startedAt := 0
  checkedAt := 0
  finishedAt := 0
  flushEnv := ⟨0, fun _ => "", none, none⟩

lemma exists_event_loneLine (rt : Runtime) : ∃ event,
    parseLossless (universalParser rt loneLine.readings) loneLine.rawLog = some event := by
  have hunknown : classify loneLine.rawLog = .unknown := by decide +kernel
  rw [← Option.isSome_iff_exists, isSome_parseLossless_iff, hunknown]
  exact not_panics_unknown

variable (rt mask toJson overflowChecks) in
lemma receive_of_not_triggers {engine : IngestEngine} (hdepth : 2 ≤ engine.miner.config.depth)
    (htimed : Timed engine.batcher.acc) {a : LineArrival} {event : NetworkActivity}
    (hevent : parseLossless (universalParser rt a.readings) a.rawLog = some event)
    (hquiet : ¬Triggers engine.batcher.acc a.startedAt a.checkedAt) :
    ∃ engine', engine.receive rt mask toJson overflowChecks a = some (.ok engine') ∧
      engine'.batcher = ingest engine.batcher (incomingLog toJson a.rawLog event) a.startedAt := by
  have hsome : (engine.miner.addLog mask overflowChecks
      ⟨a.rawLog, a.miningNowMs, a.elapsedMicros⟩).isSome := addLog_isSome hdepth _
  obtain ⟨⟨clusterRes, miner⟩, hmined⟩ := Option.isSome_iff_exists.mp hsome
  have hpush : push rt.sha256 overflowChecks engine.batcher (incomingLog toJson a.rawLog event)
      a.startedAt a.checkedAt a.flushEnv =
        some (.ok none, ingest engine.batcher (incomingLog toJson a.rawLog event) a.startedAt) := by
    unfold push
    dsimp only
    rw [if_neg (mt (shouldFlush_ingest_iff htimed _ _ _).mp hquiet)]
  unfold IngestEngine.receive
  simp only [hevent, IngestEngine.countEvent, hmined, hpush]
  exact ⟨_, rfl, rfl⟩

variable (rt mask toJson overflowChecks) in
lemma receive_of_triggers {engine : IngestEngine} (hdepth : 2 ≤ engine.miner.config.depth)
    (htimed : Timed engine.batcher.acc) {a : LineArrival} {event : NetworkActivity}
    (hevent : parseLossless (universalParser rt a.readings) a.rawLog = some event)
    (htriggers : Triggers engine.batcher.acc a.startedAt a.checkedAt) {nextId : UInt64}
    (hid : nextBlockId overflowChecks engine.batcher.acc.currentBlockId = some nextId)
    (hok : a.flushEnv.Faultless) :
    ∃ engine', engine.receive rt mask toJson overflowChecks a = some (.ok engine') ∧
      engine'.totalBlocks = engine.totalBlocks + 1 := by
  have hsome : (engine.miner.addLog mask overflowChecks
      ⟨a.rawLog, a.miningNowMs, a.elapsedMicros⟩).isSome := addLog_isSome hdepth _
  obtain ⟨⟨clusterRes, miner⟩, hmined⟩ := Option.isSome_iff_exists.mp hsome
  obtain ⟨result, batcher, hpush⟩ : ∃ result batcher, push rt.sha256 overflowChecks engine.batcher
      (incomingLog toJson a.rawLog event) a.startedAt a.checkedAt a.flushEnv =
        some (.ok (some result), batcher) := by
    let b := ingest engine.batcher (incomingLog toJson a.rawLog event) a.startedAt
    have hacc : b.acc = _ := acc_ingest htimed _ _
    have hflush : push rt.sha256 overflowChecks engine.batcher
        (incomingLog toJson a.rawLog event) a.startedAt a.checkedAt a.flushEnv =
          flush rt.sha256 overflowChecks b a.flushEnv := by
      unfold push
      dsimp only
      rw [if_pos ((shouldFlush_ingest_iff htimed _ _ _).mpr htriggers)]
    rw [hflush]
    cases hout : flush rt.sha256 overflowChecks b a.flushEnv with
    | none =>
      obtain ⟨-, hnone⟩ := flush_eq_none_iff.mp hout
      rw [hacc] at hnone
      cases hid.symm.trans hnone
    | some out =>
      cases flushes_of_flush hout with
      | idle hempty =>
        rw [hacc] at hempty
        simp at hempty
      | unwritten nextId' fault hne hid' hfault => cases hok.1.symm.trans hfault
      | unanchored nextId' fault hne hid' hstored hfault => cases hok.2.symm.trans hfault
      | anchored nextId' hne hid' hok' => exact ⟨_, _, rfl⟩
  unfold IngestEngine.receive
  simp only [hevent, IngestEngine.countEvent, hmined, hpush]
  exact ⟨_, rfl, rfl⟩

/-- A line that reaches no trigger waits in the buffer through any length of silence. -/
lemma exists_stalled (rt : Runtime) (mask : String → String)
    (toJson : NetworkActivity → Option String) (overflowChecks : Bool) {args : IngestArgs}
    (hsize : 2 ≤ args.batchSize) (htimeout : args.batchTimeout ≠ 0) (now : ℕ) :
    ∃ engine s, IngestEngine.start overflowChecks args ⟨[], none⟩ = some (.ok engine) ∧
      run (IngestLoop.step rt mask toJson overflowChecks) ⟨engine, 0⟩ [.line loneLine, .wait now] =
        some s ∧
      s.acc.config = args.batcherConfig ∧ s.acc.buffer.map IncomingLog.rawLog = ["link down"] ∧
      s.acc.pendingDuration s.now = some now := by
  let acc : BatchAccumulator := ⟨args.batcherConfig, [], none, 0, []⟩
  let engine : IngestEngine := ⟨⟨acc, [], none⟩, DrainMiner.new {}, 0, 0, 0, 0, 0⟩
  obtain ⟨event, hevent⟩ := exists_event_loneLine rt
  have hdepth : 2 ≤ engine.miner.config.depth := by
    change 2 ≤ 4
    omega
  have htimed : Timed engine.batcher.acc := iff_of_true rfl rfl
  have hquiet : ¬Triggers engine.batcher.acc 0 0 := by
    have hpositive : 0 < args.batchTimeout.toNat := UInt64.pos_iff_ne_zero.mpr htimeout
    rintro (hcount | hduration)
    · change args.batchSize ≤ 0 + 1 at hcount
      omega
    · change args.batchTimeout.toNat * 1000000 ≤ 0 - 0 at hduration
      omega
  obtain ⟨engine', hreceive, hbatcher⟩ :=
    receive_of_not_triggers rt mask toJson overflowChecks hdepth htimed hevent hquiet
  refine ⟨engine, ⟨engine', now⟩, rfl, ?_, ?_, ?_, ?_⟩
  · have hwait : IngestLoop.step rt mask toJson overflowChecks ⟨engine', 0⟩ (.wait now) =
        some ⟨engine', now⟩ := by
      rw [step_wait, if_pos (Nat.zero_le now)]
    have hline : IngestLoop.step rt mask toJson overflowChecks ⟨engine, 0⟩ (.line loneLine) =
        some ⟨engine', 0⟩ := by
      rw [step_line, if_pos ⟨le_rfl, le_rfl, le_rfl⟩, hreceive]
      rfl
    rw [run_cons, hline, Option.bind_some, run_cons, hwait]
    rfl
  · change engine'.batcher.acc.config = _
    rw [hbatcher]
    rfl
  · change engine'.batcher.acc.buffer.map _ = _
    rw [hbatcher]
    rfl
  · change engine'.batcher.acc.pendingDuration now = _
    rw [hbatcher]
    rfl

lemma not_noLogOutlivesTrigger {args : IngestArgs} (hsize : 2 ≤ args.batchSize)
    (htimeout : args.batchTimeout ≠ 0) :
    ¬NoLogOutlivesTrigger rt mask toJson overflowChecks args := by
  intro h
  obtain ⟨engine, s, hstart, hrun, hconfig, hlogs, hpending⟩ := exists_stalled rt mask toJson
    overflowChecks hsize htimeout (args.batchTimeout.toNat * 1000000)
  have hne : s.acc.buffer ≠ [] := by
    intro hempty
    rw [hempty] at hlogs
    cases hlogs
  have hok : ∀ e ∈ [LoopEvent.line loneLine, .wait (args.batchTimeout.toNat * 1000000)],
      e.Faultless := by
    simp [LoopEvent.Faultless, FlushEnv.Faultless, loneLine]
  obtain ⟨d, hd, hlt⟩ := h ⟨[], none⟩ engine _ s hstart hok hrun hne
  rw [hpending, Option.some.injEq] at hd
  unfold BatchAccumulator.maxBatchDuration at hlt
  rw [hconfig, ← hd] at hlt
  exact lt_irrefl _ hlt

/-! ### The duration trigger -/

/-- In all states of a run no log outlives the duration trigger, exactly if every step ends in
time; and in all runs, exactly if every line is flushed at once. -/
theorem no_log_outlives_trigger_iff (rt : Runtime) (mask : String → String)
    (toJson : NetworkActivity → Option String) (overflowChecks : Bool) (args : IngestArgs) :
    (∀ disk engine events t, IngestEngine.start overflowChecks args disk = some (.ok engine) →
      run (IngestLoop.step rt mask toJson overflowChecks) ⟨engine, 0⟩ events = some t →
      ((∀ done s, done <+: events →
          run (IngestLoop.step rt mask toJson overflowChecks) ⟨engine, 0⟩ done = some s →
          Prompt s) ↔
        Along (IngestLoop.step rt mask toJson overflowChecks) EndsInTime ⟨engine, 0⟩ events)) ∧
    (NoLogOutlivesTrigger rt mask toJson overflowChecks args ↔
      args.batchSize ≤ 1 ∨ args.batchTimeout = 0) := by
  constructor
  · intro disk engine events t hstart hrun
    obtain ⟨-, hbuffer, htime⟩ := start_eq_some hstart
    have htimed : Timed engine.batcher.acc := iff_of_true htime hbuffer
    apply forall_reached_iff_along (I := fun s => Timed s.acc) _ _ _ htimed
      (prompt_of_buffer_eq_nil hbuffer) hrun
    · exact fun s e t h hstep => (loopStep_of_step h hstep).timed h
    · exact fun s e t h _ hstep => prompt_iff_endsInTime h (loopStep_of_step h hstep)
  · refine ⟨fun h => ?_, noLogOutlivesTrigger_of_small⟩
    by_contra hlarge
    rw [not_or] at hlarge
    obtain ⟨hsize, htimeout⟩ := hlarge
    exact not_noLogOutlivesTrigger (by omega) htimeout h

/-- With the default arguments a lone line is still in the buffer after an hour of silence. -/
theorem lone_line_stalled :
    let args : IngestArgs := {}
    args.batchSize = 1000 ∧ args.batchTimeout = 2000 ∧
      ∀ (rt : Runtime) (mask : String → String) (toJson : NetworkActivity → Option String)
        (overflowChecks : Bool),
        (∃ engine s, IngestEngine.start overflowChecks args ⟨[], none⟩ = some (.ok engine) ∧
          run (IngestLoop.step rt mask toJson overflowChecks) ⟨engine, 0⟩
            [.line loneLine, .wait (3600 * 1000000000)] = some s ∧
          s.acc.buffer.map IncomingLog.rawLog = ["link down"]) ∧
        ¬NoLogOutlivesTrigger rt mask toJson overflowChecks args := by
  intro args
  refine ⟨rfl, rfl, fun rt mask toJson overflowChecks => ?_⟩
  have hsize : 2 ≤ args.batchSize := by decide
  have htimeout : args.batchTimeout ≠ 0 := by decide
  obtain ⟨engine, s, hstart, hrun, -, hlogs, -⟩ :=
    exists_stalled rt mask toJson overflowChecks hsize htimeout (3600 * 1000000000)
  exact ⟨⟨engine, s, hstart, hrun, hlogs⟩, not_noLogOutlivesTrigger hsize htimeout⟩

end Ulpf.Cli
