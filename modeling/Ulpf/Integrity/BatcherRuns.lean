import Mathlib.Tactic.Ring
import Ulpf.Integrity.Batcher

/-!
# Runs of the batch accumulator

A flush moves the buffer out and advances the block id before its two I/O steps, so a call
is atomic exactly when it does not meet a fault there. Without faults the blocks written and
the buffer together hold the pushed logs, in order, and every block is anchored by its ledger
entry.
-/

namespace Ulpf.Integrity
open Ulpf.Library

variable (sha256 : Bytes → Hash) (overflowChecks : Bool)

/-! ### Failed flushes -/

/-- If the call fails, the logs accepted before it are still buffered in order, and the block
id and the ledger are unchanged. -/
def FailureAtomic (b : Batcher) (op : BatchOp) : Prop :=
  b.acc.buffer ≠ [] → ∀ e b', op.call sha256 overflowChecks b = some (.error e, b') →
    b.acc.buffer.Sublist b'.acc.buffer ∧ b'.acc.currentBlockId = b.acc.currentBlockId ∧
      b'.acc.inMemoryLedger = b.acc.inMemoryLedger

/-- The call reaches a flush of a non-empty buffer and one of its I/O steps is at fault. -/
def FlushFaults (b : Batcher) (op : BatchOp) : Prop :=
  b.acc.buffer ≠ [] ∧ op.reachesFlush b = true ∧
    (nextBlockId overflowChecks b.acc.currentBlockId).isSome ∧ ¬op.env.Faultless

variable {sha256 overflowChecks}

lemma call_error {b b' : Batcher} {op : BatchOp} {e : FlushError}
    (h : op.call sha256 overflowChecks b = some (.error e, b')) :
    op.reachesFlush b = true ∧ (nextBlockId overflowChecks b.acc.currentBlockId).isSome ∧
      ¬op.env.Faultless ∧ b'.acc.buffer = [] := by
  obtain ⟨-, -, hid, -⟩ := op.accept_frame b
  rw [BatchOp.call_eq] at h
  split_ifs at h with hreach
  · rw [← hid]
    cases flushes_of_flush h with
    | unwritten nextId fault hne hnext hfault =>
      refine ⟨hreach, by rw [hnext]; rfl, ?_, rfl⟩
      rintro ⟨hstored, -⟩
      cases hstored.symm.trans hfault
    | unanchored nextId fault hne hnext hstored hfault =>
      refine ⟨hreach, by rw [hnext]; rfl, ?_, rfl⟩
      rintro ⟨-, hledger⟩
      cases hledger.symm.trans hfault
  · cases h

lemma call_of_flushFaults (sha256 : Bytes → Hash) {b : Batcher} {op : BatchOp}
    (h : FlushFaults overflowChecks b op) :
    ∃ e b', op.call sha256 overflowChecks b = some (.error e, b') := by
  obtain ⟨hne, hreach, hid, hfault⟩ := h
  obtain ⟨-, -, hframe, -⟩ := op.accept_frame b
  rw [BatchOp.call_eq, if_pos hreach]
  cases hflush : flush sha256 overflowChecks (op.accept b) op.env with
  | none =>
    obtain ⟨-, hnone⟩ := flush_eq_none_iff.mp hflush
    rw [hframe] at hnone
    rw [hnone] at hid
    cases hid
  | some out =>
    cases flushes_of_flush hflush with
    | idle hempty =>
      rw [op.buffer_accept b] at hempty
      exact absurd (List.append_eq_nil_iff.mp hempty).1 hne
    | unwritten nextId fault => exact ⟨_, _, rfl⟩
    | unanchored nextId fault => exact ⟨_, _, rfl⟩
    | anchored nextId hne' hid' hok => exact absurd hok hfault

lemma failureAtomic_iff (b : Batcher) (op : BatchOp) :
    FailureAtomic sha256 overflowChecks b op ↔ ¬FlushFaults overflowChecks b op := by
  constructor
  · intro hatomic hfaults
    obtain ⟨e, b', hcall⟩ := call_of_flushFaults sha256 hfaults
    obtain ⟨hkept, -⟩ := hatomic hfaults.1 e b' hcall
    rw [(call_error hcall).2.2.2] at hkept
    exact hfaults.1 (List.sublist_nil.mp hkept)
  · intro hok hne e b' hcall
    obtain ⟨hreach, hid, hfault, -⟩ := call_error hcall
    exact (hok ⟨hne, hreach, hid, hfault⟩).elim

/-- The calls of a run are all atomic exactly when none of them flushes into a fault; an append that
fails leaves nothing of its line. -/
theorem failed_flush_atomic_iff (sha256 : Bytes → Hash) (overflowChecks : Bool) (b : Batcher)
    (ops : List BatchOp) :
    Along (BatchOp.step sha256 overflowChecks) (FailureAtomic sha256 overflowChecks) b ops ↔
      Along (BatchOp.step sha256 overflowChecks) (fun b op => ¬FlushFaults overflowChecks b op)
        b ops :=
  along_congr _ failureAtomic_iff b ops

/-- A log accepted into a fresh accumulator is gone after a flush that cannot create the
block file, and the block id has moved on. -/
theorem failed_flush_loses_log :
    let log : IncomingLog := { vendor := "pfsense", rawLog := "a" }
    let env : FlushEnv := ⟨0, fun _ => "", none, none⟩
    ∃ acc b b' e, BatchAccumulator.new false {} ⟨[], none⟩ = some (.ok acc) ∧
      run (BatchOp.step sha2 false) ⟨acc, [], none⟩ [.push log 0 0 env] = some b ∧
      b.acc.buffer = [log] ∧
      (BatchOp.flush { env with storageFault := some .createFile }).call sha2 false b =
        some (.error e, b') ∧
      b'.acc.buffer = [] ∧ b'.acc.currentBlockId ≠ b.acc.currentBlockId := by
  refine ⟨_, _, _, _, rfl, rfl, rfl, rfl, rfl, ?_⟩
  decide

/-! ### Runs without faults -/

def pushedLogs (ops : List BatchOp) : List String :=
  (ops.flatMap BatchOp.pushed).map IncomingLog.rawLog

def bufferedLogs (b : Batcher) : List String := b.acc.buffer.map IncomingLog.rawLog

/-- The lines of `ledger.jsonl`. -/
def Disk.ledgerLines (disk : Disk) : List LedgerLine := disk.ledger.getD []

/-- Block `blockId` is complete on disk, its rows are numbered by position, and the ledger
entry carries its row count and the Merkle root of its raw logs. -/
structure Anchored (sha256 : Bytes → Hash) (storageDir : String) (blockId : UInt64)
    (block : BlockWrite) (entry : LedgerEntry) : Prop where
  closed : block.closed = true
  path : block.path = ⟨storageDir, entry.parquetFile⟩
  parquetFile : entry.parquetFile = blockFileName blockId
  entryId : entry.blockId = blockId
  rowId : ∀ r ∈ block.records, r.blockId = blockId
  leafIndex : ∀ i r, block.records[i]? = some r → r.leafIndex.toNat = i % 2 ^ 32
  leafCount : entry.leafCount = block.records.length
  merkleRoot : entry.merkleRoot =
    (MerkleTree.fromRawLogs (sha256Hasher sha256) (logBytes block.records)).root.toHex

lemma anchored_flushed (acc : BatchAccumulator) (env : FlushEnv) :
    Anchored sha256 acc.config.storageDir acc.currentBlockId (flushedBlock sha256 acc env)
      (flushedEntry sha256 acc env) where
  closed := rfl
  path := rfl
  parquetFile := rfl
  entryId := rfl
  rowId r hr := by
    obtain ⟨i, hi⟩ := List.mem_iff_getElem?.mp hr
    rw [getElem?_flushedBlock, Option.map_eq_some_iff] at hi
    obtain ⟨item, -, rfl⟩ := hi
    rfl
  leafIndex i r hr := by
    rw [getElem?_flushedBlock, Option.map_eq_some_iff] at hr
    obtain ⟨item, -, rfl⟩ := hr
    exact UInt32.toNat_ofNat'
  leafCount := List.length_mapIdx.symm
  merkleRoot := rfl

def blockLogs (blocks : List (BlockWrite × LedgerEntry)) : List String :=
  blocks.flatMap fun p => rawLogs p.1.records

/-- The state after `ops`: what was on disk, the new blocks, and the rest in the buffer. -/
structure Accounted (sha256 : Bytes → Hash) (overflowChecks : Bool) (start : Batcher)
    (blocks : List (BlockWrite × LedgerEntry)) (ops : List BatchOp) (b : Batcher) : Prop where
  config : b.acc.config = start.acc.config
  files : b.disk.files = start.disk.files ++ blocks.map Prod.fst
  ledger : b.disk.ledgerLines = start.disk.ledgerLines ++ blocks.map fun p => .entry p.2
  inMemoryLedger : b.acc.inMemoryLedger = start.acc.inMemoryLedger ++ blocks.map Prod.snd
  anchored : ∀ j p, blocks[j]? = some p →
    Anchored sha256 start.acc.config.storageDir (start.acc.currentBlockId + UInt64.ofNat j) p.1 p.2
  logs : blockLogs blocks ++ bufferedLogs b = bufferedLogs start ++ pushedLogs ops
  nextId : b.acc.currentBlockId = start.acc.currentBlockId + UInt64.ofNat blocks.length
  noWrap : overflowChecks = true → start.acc.currentBlockId.toNat + blocks.length < 2 ^ 64

lemma accounted_start (start : Batcher) :
    Accounted sha256 overflowChecks start [] [] start where
  config := rfl
  files := (List.append_nil _).symm
  ledger := (List.append_nil _).symm
  inMemoryLedger := (List.append_nil _).symm
  anchored j p h := by simp at h
  logs := (List.append_nil _).symm
  nextId := (UInt64.add_zero _).symm
  noWrap _ := UInt64.toNat_lt _

lemma pushedLogs_concat (ops : List BatchOp) (op : BatchOp) :
    pushedLogs (ops ++ [op]) = pushedLogs ops ++ op.pushed.map IncomingLog.rawLog := by
  simp [pushedLogs]

lemma bufferedLogs_accept (b : Batcher) (op : BatchOp) :
    bufferedLogs (op.accept b) = bufferedLogs b ++ op.pushed.map IncomingLog.rawLog := by
  rw [bufferedLogs, op.buffer_accept b, List.map_append]
  rfl

lemma Accounted.accept {start b : Batcher} {blocks : List (BlockWrite × LedgerEntry)}
    {ops : List BatchOp} (h : Accounted sha256 overflowChecks start blocks ops b) (op : BatchOp) :
    Accounted sha256 overflowChecks start blocks (ops ++ [op]) (op.accept b) := by
  obtain ⟨hdisk, hconfig, hid, hledger⟩ := op.accept_frame b
  exact {
    config := hconfig.trans h.config
    files := hdisk ▸ h.files
    ledger := hdisk ▸ h.ledger
    inMemoryLedger := hledger.trans h.inMemoryLedger
    anchored := h.anchored
    logs := by
      rw [bufferedLogs_accept, pushedLogs_concat, ← List.append_assoc, h.logs, List.append_assoc]
    nextId := hid.trans h.nextId
    noWrap := h.noWrap }

lemma nextBlockId_eq_some {id nextId : UInt64} (h : nextBlockId overflowChecks id = some nextId) :
    nextId = id + 1 ∧ (overflowChecks = true → id.toNat + 1 < 2 ^ 64) := by
  unfold nextBlockId at h
  split_ifs at h with hwrap
  cases h
  refine ⟨rfl, ?_⟩
  rintro rfl
  simp only [Bool.true_and, beq_iff_eq, ← UInt64.toNat_inj, UInt64.toNat_add] at hwrap
  have hlt := id.toNat_lt
  simp only [UInt64.reduceToNat] at hwrap
  omega

lemma Accounted.anchor {start b : Batcher} {blocks : List (BlockWrite × LedgerEntry)}
    {ops : List BatchOp} (h : Accounted sha256 overflowChecks start blocks ops b) (env : FlushEnv)
    {nextId : UInt64} (hid : nextBlockId overflowChecks b.acc.currentBlockId = some nextId) :
    Accounted sha256 overflowChecks start
      (blocks ++ [(flushedBlock sha256 b.acc env, flushedEntry sha256 b.acc env)]) ops
      (anchoredState sha256 b env nextId) := by
  obtain ⟨hnext, hlt⟩ := nextBlockId_eq_some hid
  exact {
    config := h.config
    files := by
      rw [List.map_append, ← List.append_assoc, ← h.files]
      rfl
    ledger := by
      rw [List.map_append, ← List.append_assoc, ← h.ledger]
      rfl
    inMemoryLedger := by
      rw [List.map_append, ← List.append_assoc, ← h.inMemoryLedger]
      rfl
    anchored := by
      intro j p hp
      by_cases hj : j < blocks.length
      · rw [List.getElem?_append_left hj] at hp
        exact h.anchored j p hp
      · rw [List.getElem?_append_right (by omega), List.getElem?_singleton] at hp
        split_ifs at hp with hlast
        cases hp
        have hj' : j = blocks.length := by omega
        rw [hj', ← h.nextId, ← h.config]
        exact anchored_flushed b.acc env
    logs := by
      have hempty : bufferedLogs (anchoredState sha256 b env nextId) = [] := rfl
      rw [← h.logs, hempty, List.append_nil, blockLogs, List.flatMap_append, List.flatMap_singleton,
        rawLogs_flushedBlock]
      rfl
    nextId := by
      rw [List.length_append, List.length_singleton, UInt64.ofNat_add, ← UInt64.add_assoc,
        ← h.nextId]
      exact hnext
    noWrap := by
      intro hchecks
      have hb := hlt hchecks
      rw [h.nextId, UInt64.toNat_add, UInt64.toNat_ofNat'] at hb
      have := h.noWrap hchecks
      rw [List.length_append, List.length_singleton]
      omega }

lemma Accounted.step {start b b' : Batcher} {blocks : List (BlockWrite × LedgerEntry)}
    {ops : List BatchOp} {op : BatchOp} (h : Accounted sha256 overflowChecks start blocks ops b)
    (hok : op.env.Faultless) (hstep : BatchOp.step sha256 overflowChecks b op = some b') :
    ∃ blocks', Accounted sha256 overflowChecks start blocks' (ops ++ [op]) b' := by
  unfold BatchOp.step at hstep
  obtain ⟨out, hcall, rfl⟩ := Option.map_eq_some_iff.mp hstep
  rw [BatchOp.call_eq] at hcall
  split_ifs at hcall with hreach
  · cases flushes_of_flush hcall with
    | idle hempty => exact ⟨blocks, h.accept op⟩
    | unwritten nextId fault hne hid hfault => cases hok.1.symm.trans hfault
    | unanchored nextId fault hne hid hstored hfault => cases hok.2.symm.trans hfault
    | anchored nextId hne hid hok' => exact ⟨_, (h.accept op).anchor op.env hid⟩
  · cases hcall
    exact ⟨blocks, h.accept op⟩

/-- Every run without faults accounts for all pushed logs. -/
theorem accounted_of_run {start b : Batcher} {ops : List BatchOp}
    (hok : ∀ op ∈ ops, op.env.Faultless)
    (hrun : run (BatchOp.step sha256 overflowChecks) start ops = some b) :
    ∃ blocks, Accounted sha256 overflowChecks start blocks ops b := by
  refine run_induction (motive := fun ops b => ∃ blocks, Accounted sha256 overflowChecks start
    blocks ops b) _ ⟨[], accounted_start start⟩ ?_ hrun
  rintro done op u v hop ⟨blocks, h⟩ hstep
  exact h.step (hok op hop) hstep

/-! ### Block-id order -/

/-- `sorted` lists `blocks` in the order of their block ids. -/
def InBlockIdOrder (sorted blocks : List (BlockWrite × LedgerEntry)) : Prop :=
  sorted.Perm blocks ∧ sorted.Pairwise fun p q => p.2.blockId ≤ q.2.blockId

lemma Accounted.toNat_blockId {start b : Batcher} {blocks : List (BlockWrite × LedgerEntry)}
    {ops : List BatchOp} (h : Accounted sha256 overflowChecks start blocks ops b)
    (hwrap : start.acc.currentBlockId.toNat + blocks.length ≤ 2 ^ 64) {j : ℕ}
    {p : BlockWrite × LedgerEntry} (hp : blocks[j]? = some p) :
    p.2.blockId.toNat = start.acc.currentBlockId.toNat + j := by
  obtain ⟨hj, -⟩ := List.getElem?_eq_some_iff.mp hp
  rw [(h.anchored j p hp).entryId, UInt64.toNat_add, UInt64.toNat_ofNat']
  omega

lemma Accounted.blockId_lt {start b : Batcher} {blocks : List (BlockWrite × LedgerEntry)}
    {ops : List BatchOp} (h : Accounted sha256 overflowChecks start blocks ops b)
    (hwrap : start.acc.currentBlockId.toNat + blocks.length ≤ 2 ^ 64) :
    blocks.Pairwise fun p q => p.2.blockId < q.2.blockId := by
  rw [List.pairwise_iff_getElem]
  intro i j hi hj hij
  rw [UInt64.lt_iff_toNat_lt, h.toNat_blockId hwrap (List.getElem?_eq_getElem hi),
    h.toNat_blockId hwrap (List.getElem?_eq_getElem hj)]
  omega

lemma eq_of_inBlockIdOrder {sorted blocks : List (BlockWrite × LedgerEntry)}
    (hlt : blocks.Pairwise fun p q => p.2.blockId < q.2.blockId)
    (h : InBlockIdOrder sorted blocks) : sorted = blocks := by
  have hle : blocks.Pairwise fun p q => p.2.blockId ≤ q.2.blockId := hlt.imp UInt64.le_of_lt
  refine List.Perm.eq_of_pairwise ?_ h.2 hle h.1
  intro p q hp hq hpq hqp
  have hnodup : (blocks.map fun p => p.2.blockId).Nodup :=
    List.pairwise_map.mpr (hlt.imp UInt64.ne_of_lt)
  exact List.inj_on_of_nodup_map hnodup (h.1.subset hp) hq (UInt64.le_antisymm hpq hqp)

lemma Accounted.anchored_of_mem {start b : Batcher} {blocks : List (BlockWrite × LedgerEntry)}
    {ops : List BatchOp} (h : Accounted sha256 overflowChecks start blocks ops b)
    {p : BlockWrite × LedgerEntry} (hp : p ∈ blocks) :
    Anchored sha256 start.acc.config.storageDir p.2.blockId p.1 p.2 := by
  obtain ⟨j, hj⟩ := List.mem_iff_getElem?.mp hp
  have hanchored := h.anchored j p hj
  rwa [← hanchored.entryId] at hanchored

lemma Accounted.fileAt_block {start b : Batcher} {blocks : List (BlockWrite × LedgerEntry)}
    {ops : List BatchOp} (h : Accounted sha256 overflowChecks start blocks ops b)
    (hlt : blocks.Pairwise fun p q => p.2.blockId < q.2.blockId) {p : BlockWrite × LedgerEntry}
    (hp : p ∈ blocks) : fileAt b.disk.files p.1.path = some p.1 := by
  obtain ⟨earlier, later, hsplit⟩ := List.append_of_mem hp
  have hfiles : b.disk.files =
      (start.disk.files ++ earlier.map Prod.fst) ++ p.1 :: later.map Prod.fst := by
    rw [h.files, hsplit, List.map_append, List.map_cons, List.append_assoc]
  apply fileAt_of_last hfiles
  intro w hw
  obtain ⟨q, hq, rfl⟩ := List.mem_map.mp hw
  have hq' : q ∈ blocks := by simp [hsplit, hq]
  rw [hsplit] at hlt
  have hid := (List.pairwise_cons.mp (List.pairwise_append.mp hlt).2.1).1 q hq
  have hp' := h.anchored_of_mem hp
  have hq'' := h.anchored_of_mem hq'
  rw [hp'.path, hq''.path, hp'.parquetFile, hq''.parquetFile]
  intro heq
  have hname := blockFileName_injective (ParquetPath.mk.inj heq).2
  exact UInt64.ne_of_lt hid hname.symm

/-! ### Whole runs -/

lemma new_eq_some {config : BatcherConfig} {disk : Disk} {acc : BatchAccumulator}
    (h : BatchAccumulator.new overflowChecks config disk = some (.ok acc)) :
    acc.config = config ∧ acc.buffer = [] ∧ acc.firstItemTime = none := by
  unfold BatchAccumulator.new at h
  dsimp only at h
  split at h
  · cases h
  · obtain ⟨blockId, -, hacc⟩ := Option.map_eq_some_iff.mp h
    cases hacc
    exact ⟨rfl, rfl, rfl⟩

lemma step_isSome (b : Batcher) (op : BatchOp) : (BatchOp.step sha256 false b op).isSome := by
  unfold BatchOp.step
  rw [Option.isSome_map, Option.isSome_iff_ne_none, BatchOp.call_eq]
  split_ifs
  · intro hnone
    obtain ⟨-, hid⟩ := flush_eq_none_iff.mp hnone
    cases hid
  · exact Option.some_ne_none _

/-- No log is lost, duplicated or reordered by batching: the blocks written and the buffer
hold the pushed logs, each block anchored under the next id. Until the ids wrap, that is the
order of the block ids, and every block is the content of its file. -/
theorem batching_preserves_logs (sha256 : Bytes → Hash) (overflowChecks : Bool)
    (config : BatcherConfig) (disk : Disk) (acc : BatchAccumulator)
    (hnew : BatchAccumulator.new overflowChecks config disk = some (.ok acc))
    (ops : List BatchOp) (hok : ∀ op ∈ ops, op.env.Faultless) :
    (overflowChecks = false →
      ∃ b, run (BatchOp.step sha256 overflowChecks) ⟨acc, disk⟩ ops = some b) ∧
    ∀ b, run (BatchOp.step sha256 overflowChecks) ⟨acc, disk⟩ ops = some b →
      ∃ blocks : List (BlockWrite × LedgerEntry),
        b.disk.files = disk.files ++ blocks.map Prod.fst ∧
        b.disk.ledgerLines = disk.ledgerLines ++ blocks.map (fun p => .entry p.2) ∧
        b.acc.inMemoryLedger = acc.inMemoryLedger ++ blocks.map Prod.snd ∧
        (∀ j p, blocks[j]? = some p →
          Anchored sha256 config.storageDir (acc.currentBlockId + UInt64.ofNat j) p.1 p.2) ∧
        blockLogs blocks ++ bufferedLogs b = pushedLogs ops ∧
        (overflowChecks = true ∨ acc.currentBlockId.toNat + blocks.length ≤ 2 ^ 64 →
          (∀ j p, blocks[j]? = some p →
            p.2.blockId.toNat = acc.currentBlockId.toNat + j) ∧
          (∀ sorted, InBlockIdOrder sorted blocks →
            blockLogs sorted ++ bufferedLogs b = pushedLogs ops) ∧
          ∀ p ∈ blocks, fileAt b.disk.files p.1.path = some p.1) := by
  obtain ⟨hconfig, hbuffer, -⟩ := new_eq_some hnew
  constructor
  · rintro rfl
    exact run_isSome _ step_isSome _ ops
  · intro b hrun
    obtain ⟨blocks, h⟩ := accounted_of_run hok hrun
    have hstart : bufferedLogs ⟨acc, disk⟩ = [] := by rw [bufferedLogs, hbuffer, List.map_nil]
    have hlogs : blockLogs blocks ++ bufferedLogs b = pushedLogs ops := by
      rw [h.logs, hstart, List.nil_append]
    refine ⟨blocks, h.files, h.ledger, h.inMemoryLedger, hconfig ▸ h.anchored, hlogs, ?_⟩
    intro hchecks
    have hwrap : acc.currentBlockId.toNat + blocks.length ≤ 2 ^ 64 := by
      rcases hchecks with hchecks | hwrap
      · exact (h.noWrap hchecks).le
      · exact hwrap
    have hlt := h.blockId_lt hwrap
    refine ⟨fun j p hp => h.toNat_blockId hwrap hp, ?_, fun p hp => h.fileAt_block hlt hp⟩
    intro sorted hsorted
    rwa [eq_of_inBlockIdOrder hlt hsorted]

theorem batching_preserves_logs_pair :
    let env : FlushEnv := ⟨0, fun _ => "", none, none⟩
    let ops : List BatchOp := [.push ⟨"pfsense", "a", none, none, none⟩ 0 0 env, .flush env,
      .push ⟨"pfsense", "b", none, none, none⟩ 0 0 env]
    ∃ acc b blocks, run (BatchOp.step sha2 false) ⟨acc, [], none⟩ ops = some b ∧
      blockLogs blocks ++ bufferedLogs b = ["a", "b"] := by
  intro env ops
  have hok : ∀ op ∈ ops, op.env.Faultless := by decide
  obtain ⟨hruns, h⟩ := batching_preserves_logs sha2 false {} ⟨[], none⟩ _ rfl ops hok
  obtain ⟨b, hb⟩ := hruns rfl
  obtain ⟨blocks, -, -, -, -, hlogs, -⟩ := h b hb
  exact ⟨_, b, blocks, hb, hlogs⟩

/-- After a ledger that ends one id before the last, a release build writes the second block
under id zero, and the blocks in block-id order swap the two logs. -/
theorem wrapped_block_ids_reorder_logs :
    let env : FlushEnv := ⟨0, fun _ => "", none, none⟩
    let disk : Disk := ⟨[], some [.entry
      ⟨18446744073709551614, 0, 1, "", "block_18446744073709551614.parquet"⟩]⟩
    let ops : List BatchOp := [.push ⟨"pfsense", "a", none, none, none⟩ 0 0 env,
      .push ⟨"pfsense", "b", none, none, none⟩ 0 0 env]
    ∃ acc b sorted, BatchAccumulator.new false { maxBatchSize := 1 } disk = some (.ok acc) ∧
      run (BatchOp.step sha2 false) ⟨acc, disk⟩ ops = some b ∧
      InBlockIdOrder sorted (b.disk.files.zip (b.acc.inMemoryLedger.drop 1)) ∧
      blockLogs sorted ++ bufferedLogs b ≠ pushedLogs ops := by
  intro env disk ops
  refine ⟨_, _, [_, _], rfl, rfl, ⟨List.Perm.swap _ _ [], ?_⟩, ?_⟩
  · rw [List.pairwise_pair]
    decide +kernel
  · intro h
    have hswap : ["b", "a"] = ["a", "b"] := h
    exact absurd hswap (by decide)

end Ulpf.Integrity
