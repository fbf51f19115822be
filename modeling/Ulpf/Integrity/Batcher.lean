import Mathlib.Data.List.Basic
import Ulpf.Integrity.MerkleRoot
import Ulpf.Integrity.Storage
import Ulpf.Library.Execution

/-!
# The batch accumulator

`BatchAccumulator` with the block files and the ledger it writes. Clock readings, UUIDs and
I/O faults are inputs of a call. The block id is a `u64`: with `overflowChecks` (the profile
of `cargo test`) its increment stops the program at the last id, without them (the profile
of `cargo build --release`) it wraps to zero.
-/

namespace Ulpf.Integrity
open Ulpf.Library

/-! ### Configuration, logs and ledger -/

/-- Default batch threshold: 1,000 records -/
def defaultMaxBatchSize : ℕ := 1000

/-- Default timeout threshold: 2,000 milliseconds -/
def defaultMaxBatchDurationMs : UInt64 := 2000

structure BatcherConfig where
  maxBatchSize : ℕ := defaultMaxBatchSize
  maxBatchDurationMs : UInt64 := defaultMaxBatchDurationMs
  storageDir : String := "data/parquet"
  ledgerPath : String := "data/ledger.jsonl"
  compression : ParquetCompression := .snappy

structure IncomingLog where
  vendor : String
  rawLog : String
  timestamp : Option Int64 := none
  eventId : Option String := none
  ocsfJson : Option String := none
deriving DecidableEq

structure LedgerEntry where
  blockId : UInt64
  timestamp : Int64
  leafCount : ℕ
  merkleRoot : String
  parquetFile : String
deriving DecidableEq

/-- A line of `ledger.jsonl` as `load_ledger_entries` sees it. -/
inductive LedgerLine where
  | blank
  | entry (e : LedgerEntry)
  | malformed (trimmed : String)
  | unreadable
deriving DecidableEq

/-- What the accumulator finds and leaves on disk; `ledger` is `none` while there is no file. -/
structure Disk where
  files : List BlockWrite
  ledger : Option (List LedgerLine)
deriving DecidableEq

inductive LedgerLoadError where
  | reading (line : ℕ)
  | parsing (line : ℕ) (trimmed : String)
deriving DecidableEq

/-- Loads all entries from an existing `ledger.jsonl` file, the first line being `idx`. -/
def loadLedgerEntries : List LedgerLine → ℕ → Except LedgerLoadError (List LedgerEntry)
  | [], _ => .ok []
  | .blank :: lines, idx => loadLedgerEntries lines (idx + 1)
  | .entry e :: lines, idx => (loadLedgerEntries lines (idx + 1)).map (e :: ·)
  | .malformed trimmed :: _, idx => .error (.parsing idx trimmed)
  | .unreadable :: _, idx => .error (.reading idx)

/-- The fallible calls of `append_ledger_entry`. -/
inductive LedgerFault where
  | createParentDirectory
  | openFile
  | serialize
  | append
  | sync
deriving DecidableEq

/-- An append is taken to be all or nothing: one that fails leaves the ledger as it was. What a
fault within `writeln!` can leave, a part of the line or the line without its line feed, is out of
the model. -/
def appendLedgerEntry (ledger : Option (List LedgerLine)) (entry : LedgerEntry)
    (fault : Option LedgerFault) : Except LedgerFault Unit × Option (List LedgerLine) :=
  match fault with
  | none => (.ok (), some (ledger.getD [] ++ [.entry entry]))
  | some f => (.error f, ledger)

/-! ### The accumulator -/

structure BlockFlushResult where
  blockId : UInt64
  merkleRoot : Hash
  leafCount : ℕ
  parquetPath : ParquetPath
  tree : MerkleTree Hash

/-- Dual-trigger batch accumulator. Instants are nanoseconds of the monotonic clock. -/
structure BatchAccumulator where
  config : BatcherConfig
  buffer : List IncomingLog
  firstItemTime : Option ℕ
  currentBlockId : UInt64
  inMemoryLedger : List LedgerEntry

/-- The accumulator and the disk it works on. -/
structure Batcher where
  acc : BatchAccumulator
  disk : Disk

inductive FlushError where
  | writingParquetBlock (path : ParquetPath) (fault : StorageFault)
  | appendingLedgerEntry (fault : LedgerFault)
deriving DecidableEq

abbrev FlushOutcome := Except FlushError (Option BlockFlushResult) × Batcher

/-- What a flush reads from its surroundings: the wall clock, the UUID drawn for each row and
the faults of its two I/O steps. -/
structure FlushEnv where
  nowMs : Int64
  uuid : ℕ → String
  storageFault : Option StorageFault
  ledgerFault : Option LedgerFault

def FlushEnv.Faultless (env : FlushEnv) : Prop := env.storageFault = none ∧ env.ledgerFault = none

instance (env : FlushEnv) : Decidable env.Faultless :=
  inferInstanceAs (Decidable (_ ∧ _))

/-- `block_id + 1` on a `u64`. -/
def nextBlockId (overflowChecks : Bool) (blockId : UInt64) : Option UInt64 :=
  if overflowChecks && blockId + 1 == 0 then none else some (blockId + 1)

/-- `format!("block_{:05}.parquet", block_id)` -/
def blockFileName (blockId : UInt64) : String :=
  "block_" ++ String.ofList ((Nat.toDigits 10 blockId.toNat).leftpad 5 '0') ++ ".parquet"

lemma blockFileName_injective : Function.Injective blockFileName := by
  intro a b h
  have hdigits : (Nat.toDigits 10 a.toNat).leftpad 5 '0' =
      (Nat.toDigits 10 b.toNat).leftpad 5 '0' := by
    simpa only [blockFileName, String.append_left_inj, String.append_right_inj,
      String.ofList_inj] using h
  have hvalue := congrArg (Nat.ofDigitChars 10 · 0) hdigits
  simp only [List.leftpad, Nat.ofDigitChars_append, Nat.ofDigitChars_replicate_zero, Nat.mul_zero,
    Nat.ofDigitChars_ten_toDigits] at hvalue
  exact UInt64.toNat_inj.mp hvalue

namespace BatchAccumulator

def new (overflowChecks : Bool) (config : BatcherConfig) (disk : Disk) :
    Option (Except LedgerLoadError BatchAccumulator) :=
  let loaded := match disk.ledger with
    | some lines => loadLedgerEntries lines 0
    | none => .ok []
  match loaded with
  | .error e => some (.error e)
  | .ok inMemoryLedger =>
    let nextId := match inMemoryLedger.getLast? with
      | some entry => nextBlockId overflowChecks entry.blockId
      | none => some 0
    nextId.map fun blockId => .ok ⟨config, [], none, blockId, inMemoryLedger⟩

/-- The duration since the oldest item in the buffer was ingested; `Instant::elapsed`
saturates at zero. -/
def pendingDuration (acc : BatchAccumulator) (now : ℕ) : Option ℕ :=
  acc.firstItemTime.map fun t => now - t

def maxBatchDuration (acc : BatchAccumulator) : ℕ := acc.config.maxBatchDurationMs.toNat * 1000000

def durationMet (acc : BatchAccumulator) (now : ℕ) : Bool :=
  match acc.pendingDuration now with
  | some d => decide (acc.maxBatchDuration ≤ d)
  | none => false

def shouldFlush (acc : BatchAccumulator) (now : ℕ) : Bool :=
  if acc.buffer.isEmpty then false
  else decide (acc.config.maxBatchSize ≤ acc.buffer.length) || acc.durationMet now

end BatchAccumulator

section Flush

variable (sha256 : Bytes → Hash) (overflowChecks : Bool)

/-- `hex::encode(Sha256::digest(raw_log.as_bytes()))` -/
def rawDigest (rawLog : String) : String := (sha256 (asBytes rawLog)).toHex

def blockTree (records : List StoredLogRecord) : MerkleTree Hash :=
  MerkleTree.fromRawLogs (sha256Hasher sha256) (logBytes records)

def storedRecord (env : FlushEnv) (blockId : UInt64) (i : ℕ) (item : IncomingLog) :
    StoredLogRecord where
  eventId := item.eventId.getD (env.uuid i)
  blockId := blockId
  leafIndex := UInt32.ofNat i
  timestamp := item.timestamp.getD env.nowMs
  vendor := item.vendor
  rawLog := item.rawLog
  rawHash := rawDigest sha256 item.rawLog
  ocsfJson := item.ocsfJson.getD "{}"

/-- Forces a flush of all currently accumulated logs into a Parquet block and ledger entry. -/
def flush (b : Batcher) (env : FlushEnv) : Option FlushOutcome :=
  if b.acc.buffer.isEmpty then some (.ok none, b)
  else
    let logs := b.acc.buffer
    let blockId := b.acc.currentBlockId
    match nextBlockId overflowChecks blockId with
    | none => none
    | some nextId =>
      let acc := { b.acc with buffer := [], firstItemTime := none, currentBlockId := nextId }
      let records := logs.mapIdx (storedRecord sha256 env blockId)
      let tree := blockTree sha256 records
      let parquetFile := blockFileName blockId
      let path := ⟨acc.config.storageDir, parquetFile⟩
      match writeRecordsToParquet b.disk.files path records acc.config.compression
          env.storageFault with
      | (.error fault, files) =>
        some (.error (.writingParquetBlock path fault), ⟨acc, { b.disk with files }⟩)
      | (.ok _, files) =>
        let entry := ⟨blockId, env.nowMs, logs.length, tree.root.toHex, parquetFile⟩
        match appendLedgerEntry b.disk.ledger entry env.ledgerFault with
        | (.error fault, ledger) =>
          some (.error (.appendingLedgerEntry fault), ⟨acc, files, ledger⟩)
        | (.ok _, ledger) =>
          some (.ok (some ⟨blockId, tree.root, logs.length, path, tree⟩),
            ⟨{ acc with inMemoryLedger := acc.inMemoryLedger ++ [entry] }, files, ledger⟩)

/-- The first half of `push`: the log enters the buffer, and starts the timer of an empty one. -/
def ingest (b : Batcher) (log : IncomingLog) (startedAt : ℕ) : Batcher :=
  let acc := if b.acc.buffer.isEmpty then { b.acc with firstItemTime := some startedAt } else b.acc
  { b with acc := { acc with buffer := acc.buffer ++ [log] } }

/-- Ingests an incoming log entry; the clock is read at `startedAt` when the buffer was empty
and at `checkedAt` for the trigger. -/
def push (b : Batcher) (log : IncomingLog) (startedAt checkedAt : ℕ) (env : FlushEnv) :
    Option FlushOutcome :=
  let b := ingest b log startedAt
  if b.acc.shouldFlush checkedAt then flush sha256 overflowChecks b env else some (.ok none, b)

def checkTimeout (b : Batcher) (checkedAt : ℕ) (env : FlushEnv) : Option FlushOutcome :=
  if b.acc.buffer.isEmpty then some (.ok none, b)
  else if b.acc.durationMet checkedAt then flush sha256 overflowChecks b env
  else some (.ok none, b)

end Flush

/-! ### Calls -/

/-- A call of the accumulator with everything it reads from outside. -/
inductive BatchOp where
  | push (log : IncomingLog) (startedAt checkedAt : ℕ) (env : FlushEnv)
  | checkTimeout (checkedAt : ℕ) (env : FlushEnv)
  | flush (env : FlushEnv)

namespace BatchOp

def env : BatchOp → FlushEnv
  | push _ _ _ env | checkTimeout _ env | flush env => env

def pushed : BatchOp → List IncomingLog
  | push log _ _ _ => [log]
  | checkTimeout _ _ | flush _ => []

/-- The state in which the triggers are judged. -/
def accept (b : Batcher) : BatchOp → Batcher
  | push log startedAt _ _ => ingest b log startedAt
  | checkTimeout _ _ | flush _ => b

/-- The call moves the buffer out. -/
def reachesFlush (b : Batcher) : BatchOp → Bool
  | push log startedAt checkedAt _ => (ingest b log startedAt).acc.shouldFlush checkedAt
  | checkTimeout checkedAt _ => !b.acc.buffer.isEmpty && b.acc.durationMet checkedAt
  | flush _ => !b.acc.buffer.isEmpty

variable (sha256 : Bytes → Hash) (overflowChecks : Bool)

def call (b : Batcher) : BatchOp → Option FlushOutcome
  | push log startedAt checkedAt env =>
    Integrity.push sha256 overflowChecks b log startedAt checkedAt env
  | checkTimeout checkedAt env => Integrity.checkTimeout sha256 overflowChecks b checkedAt env
  | flush env => Integrity.flush sha256 overflowChecks b env

def step (b : Batcher) (op : BatchOp) : Option Batcher :=
  (op.call sha256 overflowChecks b).map Prod.snd

end BatchOp

/-! ### What a flush does -/

section Cases

variable (sha256 : Bytes → Hash) (overflowChecks : Bool)

def flushedBlock (acc : BatchAccumulator) (env : FlushEnv) : BlockWrite where
  path := ⟨acc.config.storageDir, blockFileName acc.currentBlockId⟩
  records := acc.buffer.mapIdx (storedRecord sha256 env acc.currentBlockId)
  compression := acc.config.compression
  closed := true

/-- The ledger entry a flush of `acc` appends. -/
def flushedEntry (acc : BatchAccumulator) (env : FlushEnv) : LedgerEntry where
  blockId := acc.currentBlockId
  timestamp := env.nowMs
  leafCount := acc.buffer.length
  merkleRoot := (blockTree sha256 (flushedBlock sha256 acc env).records).root.toHex
  parquetFile := blockFileName acc.currentBlockId

def flushedResult (acc : BatchAccumulator) (env : FlushEnv) : BlockFlushResult where
  blockId := acc.currentBlockId
  merkleRoot := (blockTree sha256 (flushedBlock sha256 acc env).records).root
  leafCount := acc.buffer.length
  parquetPath := (flushedBlock sha256 acc env).path
  tree := blockTree sha256 (flushedBlock sha256 acc env).records

/-- The accumulator once its buffer is moved out. -/
def BatchAccumulator.drained (acc : BatchAccumulator) (nextId : UInt64) : BatchAccumulator :=
  { acc with buffer := [], firstItemTime := none, currentBlockId := nextId }

/-- The files after a write of the block that stopped at `fault`. -/
def abandonedFiles (files : List BlockWrite) (block : BlockWrite) (fault : StorageFault) :
    List BlockWrite :=
  if fault.truncates then files ++ [{ block with closed := false }] else files

/-- The accumulator and the disk after a flush without faults. -/
def anchoredState (b : Batcher) (env : FlushEnv) (nextId : UInt64) : Batcher where
  acc := { b.acc.drained nextId with
    inMemoryLedger := b.acc.inMemoryLedger ++ [flushedEntry sha256 b.acc env] }
  disk := ⟨b.disk.files ++ [flushedBlock sha256 b.acc env],
    some (b.disk.ledger.getD [] ++ [.entry (flushedEntry sha256 b.acc env)])⟩

/-- The four ways a flush can end. -/
inductive Flushes (b : Batcher) (env : FlushEnv) : FlushOutcome → Prop where
  | idle (hempty : b.acc.buffer = []) : Flushes b env (.ok none, b)
  | unwritten (nextId : UInt64) (fault : StorageFault) (hne : b.acc.buffer ≠ [])
      (hid : nextBlockId overflowChecks b.acc.currentBlockId = some nextId)
      (hfault : env.storageFault = some fault) :
      Flushes b env
        (.error (.writingParquetBlock (flushedBlock sha256 b.acc env).path fault),
          ⟨b.acc.drained nextId,
            abandonedFiles b.disk.files (flushedBlock sha256 b.acc env) fault, b.disk.ledger⟩)
  | unanchored (nextId : UInt64) (fault : LedgerFault) (hne : b.acc.buffer ≠ [])
      (hid : nextBlockId overflowChecks b.acc.currentBlockId = some nextId)
      (hstored : env.storageFault = none) (hfault : env.ledgerFault = some fault) :
      Flushes b env
        (.error (.appendingLedgerEntry fault),
          ⟨b.acc.drained nextId, b.disk.files ++ [flushedBlock sha256 b.acc env], b.disk.ledger⟩)
  | anchored (nextId : UInt64) (hne : b.acc.buffer ≠ [])
      (hid : nextBlockId overflowChecks b.acc.currentBlockId = some nextId)
      (hok : env.Faultless) :
      Flushes b env (.ok (some (flushedResult sha256 b.acc env)), anchoredState sha256 b env nextId)

variable {sha256 overflowChecks}

lemma getElem?_flushedBlock (acc : BatchAccumulator) (env : FlushEnv) (i : ℕ) :
    (flushedBlock sha256 acc env).records[i]? =
      acc.buffer[i]?.map (storedRecord sha256 env acc.currentBlockId i) :=
  List.getElem?_mapIdx

lemma rawLogs_flushedBlock (acc : BatchAccumulator) (env : FlushEnv) :
    rawLogs (flushedBlock sha256 acc env).records = acc.buffer.map IncomingLog.rawLog := by
  apply List.ext_getElem?
  intro i
  rw [rawLogs, List.getElem?_map, List.getElem?_map, getElem?_flushedBlock, Option.map_map]
  rfl

lemma flush_of_isEmpty {b : Batcher} {env : FlushEnv} (h : b.acc.buffer.isEmpty) :
    flush sha256 overflowChecks b env = some (.ok none, b) := by
  unfold flush
  rw [if_pos h]

theorem flushes_of_flush {b : Batcher} {env : FlushEnv} {out : FlushOutcome}
    (h : flush sha256 overflowChecks b env = some out) :
    Flushes sha256 overflowChecks b env out := by
  unfold flush at h
  split_ifs at h with hempty
  · cases h
    exact .idle (List.isEmpty_iff.mp hempty)
  · have hne : b.acc.buffer ≠ [] := fun h => hempty (List.isEmpty_iff.mpr h)
    cases hid : nextBlockId overflowChecks b.acc.currentBlockId with
    | none => simp [hid] at h
    | some nextId =>
      cases hstored : env.storageFault with
      | some fault =>
        simp only [hid, hstored, writeRecordsToParquet, Option.some.injEq] at h
        rw [← h]
        exact .unwritten nextId fault hne hid hstored
      | none =>
        cases hledger : env.ledgerFault with
        | some fault =>
          simp only [hid, hstored, hledger, writeRecordsToParquet, appendLedgerEntry,
            Option.some.injEq] at h
          rw [← h]
          exact .unanchored nextId fault hne hid hstored hledger
        | none =>
          simp only [hid, hstored, hledger, writeRecordsToParquet, appendLedgerEntry,
            Option.some.injEq] at h
          rw [← h]
          exact .anchored nextId hne hid ⟨hstored, hledger⟩

lemma flush_eq_none_iff {b : Batcher} {env : FlushEnv} :
    flush sha256 overflowChecks b env = none ↔
      b.acc.buffer ≠ [] ∧ nextBlockId overflowChecks b.acc.currentBlockId = none := by
  by_cases hempty : b.acc.buffer.isEmpty
  · simp [flush_of_isEmpty hempty, List.isEmpty_iff.mp hempty]
  · unfold flush
    rw [if_neg hempty]
    have hne : b.acc.buffer ≠ [] := fun h => hempty (List.isEmpty_iff.mpr h)
    cases hid : nextBlockId overflowChecks b.acc.currentBlockId with
    | none => simp only [hid, hne, ne_eq, not_false_iff, and_self]
    | some nextId =>
      simp only [hid, reduceCtorEq, and_false, iff_false]
      cases env.storageFault <;> cases env.ledgerFault <;>
        simp only [writeRecordsToParquet, appendLedgerEntry, reduceCtorEq, not_false_iff]

/-- Every call is a flush of the state it accepts its logs in, or leaves that state. -/
theorem BatchOp.call_eq (b : Batcher) (op : BatchOp) :
    op.call sha256 overflowChecks b =
      if op.reachesFlush b then Integrity.flush sha256 overflowChecks (op.accept b) op.env
      else some (.ok none, op.accept b) := by
  cases op with
  | push log startedAt checkedAt env => rfl
  | checkTimeout checkedAt env =>
    unfold call reachesFlush accept Integrity.checkTimeout
    cases b.acc.buffer.isEmpty <;> rfl
  | flush env =>
    unfold call reachesFlush accept
    cases h : b.acc.buffer.isEmpty with
    | false => rfl
    | true => exact flush_of_isEmpty h

lemma BatchOp.buffer_accept (b : Batcher) (op : BatchOp) :
    (op.accept b).acc.buffer = b.acc.buffer ++ op.pushed := by
  cases op with
  | push log startedAt checkedAt env =>
    unfold accept ingest
    split_ifs <;> rfl
  | checkTimeout checkedAt env => exact (List.append_nil _).symm
  | flush env => exact (List.append_nil _).symm

lemma BatchOp.accept_frame (b : Batcher) (op : BatchOp) :
    (op.accept b).disk = b.disk ∧ (op.accept b).acc.config = b.acc.config ∧
      (op.accept b).acc.currentBlockId = b.acc.currentBlockId ∧
      (op.accept b).acc.inMemoryLedger = b.acc.inMemoryLedger := by
  cases op with
  | push log startedAt checkedAt env =>
    unfold accept ingest
    split_ifs <;> exact ⟨rfl, rfl, rfl, rfl⟩
  | checkTimeout checkedAt env => exact ⟨rfl, rfl, rfl, rfl⟩
  | flush env => exact ⟨rfl, rfl, rfl, rfl⟩

end Cases

end Ulpf.Integrity
