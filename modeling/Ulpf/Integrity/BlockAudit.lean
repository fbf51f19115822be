import Ulpf.Core.Text
import Ulpf.Integrity.Restart
import Ulpf.Integrity.Tamper

/-!
# Audits of block files

`verify_block_with_ledger` takes the ledger entry from the block id of the first row it reads,
not from the name of the file. Over the ledger of any session the verdict is therefore about
the block anchored under that id.
-/

namespace Ulpf.Integrity
open Ulpf.Library

inductive AuditError where
  | readingParquet
  | openingLedger
  | loadingLedger (e : LedgerLoadError)
  | noLedgerEntry (blockId : UInt64)
deriving DecidableEq

/-- The block id in the stem of a name like `block_00001.parquet`. -/
def blockIdOfStem (stem : Core.Text) : UInt64 :=
  match Core.stripPrefix stem "block_" with
  | some digits => UInt64.ofNat ((Core.parseUnsigned 64 digits).getD 0)
  | none => 0

/-- The target block id: from the records or the file name. -/
def targetBlockId (fileName : String) (records : List StoredLogRecord) : UInt64 :=
  match records.head? with
  | some first => first.blockId
  | none => blockIdOfStem (Core.fileStem fileName.toList)

/-- The audit of a file by its name; `file` is what the Parquet reader makes of it, `none` for
a ledger stands for a path that does not open. -/
def verifyBlockWithLedger (sha256 : Bytes → Hash) (fileName : String)
    (file : Option (List StoredLogRecord)) (ledger : Option (List LedgerLine)) :
    Except AuditError TamperReport :=
  match file with
  | none => .error .readingParquet
  | some records =>
    match ledger with
    | none => .error .openingLedger
    | some lines =>
      match loadLedgerEntries lines 0 with
      | .error e => .error (.loadingLedger e)
      | .ok ledgerEntries =>
        let blockId := targetBlockId fileName records
        match ledgerEntries.find? fun e => e.blockId == blockId with
        | none => .error (.noLedgerEntry blockId)
        | some entry => .ok (verifyRecords sha256 records entry)

def ReportsValid (sha256 : Bytes → Hash) (fileName : String) (records : List StoredLogRecord)
    (ledger : Option (List LedgerLine)) : Prop :=
  ∃ report, verifyBlockWithLedger sha256 fileName (some records) ledger = .ok report ∧
    report.isValid = true

/-- The rows have the raw evidence of the block anchored first under the id in the first row. -/
def HoldsAnchoredBlock (blocks : List (BlockWrite × LedgerEntry)) (records : List StoredLogRecord) :
    Prop :=
  ∃ first p, records.head? = some first ∧
    blocks.find? (fun p => p.2.blockId == first.blockId) = some p ∧
    records.map rawEvidence = p.1.records.map rawEvidence

/-- What an audit of `block_N.parquet` would bind its verdict to. -/
def IsBlockOfName (blocks : List (BlockWrite × LedgerEntry)) (N : UInt64)
    (records : List StoredLogRecord) : Prop :=
  (∃ p ∈ blocks, p.2.parquetFile = blockFileName N ∧ rawLogs records = rawLogs p.1.records) ∧
    ∀ r ∈ records, r.blockId = N

/-- What the audit of `records` and the flushes of `blocks` feed to SHA-256. -/
def anchoredInputs (sha256 : Bytes → Hash) (blocks : List (BlockWrite × LedgerEntry))
    (records : List StoredLogRecord) : List Bytes :=
  treeInputs sha256 (logBytes records) ++
    blocks.flatMap fun p => treeInputs sha256 (logBytes p.1.records)

variable {sha256 : Bytes → Hash} {overflowChecks : Bool}

lemma isValid_verifyRecords_block {dir : String} {blocks : List (BlockWrite × LedgerEntry)}
    {p : BlockWrite × LedgerEntry} {records : List StoredLogRecord}
    (hp : p ∈ blocks) (hflushed : Flushed sha256 dir p)
    (hcf : CollisionFree sha256 (anchoredInputs sha256 blocks records)) :
    (verifyRecords sha256 records p.2).isValid = true ↔
      records.map rawEvidence = p.1.records.map rawEvidence := by
  obtain ⟨acc, env, hne, -, rfl⟩ := hflushed
  apply verifyRecords_flushed_iff hne
  apply hcf.mono
  intro input hinput
  rw [anchoredInputs, List.mem_append, List.mem_flatMap]
  rcases List.mem_append.mp hinput with hrecords | hblock
  · exact Or.inl hrecords
  · exact Or.inr ⟨_, hp, hblock⟩

lemma Flushed.records_ne_nil {dir : String} {p : BlockWrite × LedgerEntry}
    (h : Flushed sha256 dir p) : p.1.records ≠ [] := by
  obtain ⟨acc, env, hne, -, rfl⟩ := h
  intro hempty
  apply hne
  rwa [← List.length_eq_zero_iff, flushedBlock, List.length_mapIdx,
    List.length_eq_zero_iff] at hempty

lemma verifyBlockWithLedger_chronicle {dir : String} {blocks : List (BlockWrite × LedgerEntry)}
    {b : Batcher} (h : Chronicle sha256 dir blocks b) {lines : List LedgerLine}
    (hledger : b.disk.ledger = some lines) (fileName : String) (records : List StoredLogRecord) :
    verifyBlockWithLedger sha256 fileName (some records) b.disk.ledger =
      match blocks.find? fun p => p.2.blockId == targetBlockId fileName records with
      | none => .error (.noLedgerEntry (targetBlockId fileName records))
      | some p => .ok (verifyRecords sha256 records p.2) := by
  have hlines : lines = (blocks.map Prod.snd).map LedgerLine.entry := by
    have hchronicle := h.ledger
    rw [Disk.ledgerLines, hledger, Option.getD_some] at hchronicle
    rw [hchronicle, List.map_map]
    rfl
  rw [hledger, verifyBlockWithLedger]
  simp only [hlines, loadLedgerEntries_entries, List.find?_map, Function.comp_def]
  cases blocks.find? fun p => p.2.blockId == targetBlockId fileName records <;> rfl

lemma Chronicle.anchoredInputs_subset {dir : String} {blocks : List (BlockWrite × LedgerEntry)}
    {b : Batcher} (h : Chronicle sha256 dir blocks b) {records : List StoredLogRecord}
    {inputs : List Bytes} (hrecords : treeInputs sha256 (logBytes records) ⊆ inputs)
    (hfiles : ∀ w ∈ b.disk.files, treeInputs sha256 (logBytes w.records) ⊆ inputs) :
    anchoredInputs sha256 blocks records ⊆ inputs := by
  intro input hinput
  rw [anchoredInputs, List.mem_append, List.mem_flatMap] at hinput
  rcases hinput with hinput | ⟨p, hp, hinput⟩
  · exact hrecords hinput
  · exact hfiles p.1 (h.written p hp) hinput

/-- An audit reports a file as valid exactly when it holds the block of its first row's id. -/
lemma reportsValid_iff {dir : String} {blocks : List (BlockWrite × LedgerEntry)} {b : Batcher}
    (h : Chronicle sha256 dir blocks b) (fileName : String) {records : List StoredLogRecord}
    (hcf : CollisionFree sha256 (anchoredInputs sha256 blocks records)) :
    ReportsValid sha256 fileName records b.disk.ledger ↔ HoldsAnchoredBlock blocks records := by
  unfold ReportsValid HoldsAnchoredBlock
  cases hledger : b.disk.ledger with
  | none =>
    have hblocks : blocks = [] := by
      have hchronicle := h.ledger
      rwa [Disk.ledgerLines, hledger, Option.getD_none, eq_comm, List.map_eq_nil_iff]
        at hchronicle
    simp [verifyBlockWithLedger, hblocks]
  | some lines =>
    have hverdict : ∀ {p}, p ∈ blocks → ((verifyRecords sha256 records p.2).isValid = true ↔
        records.map rawEvidence = p.1.records.map rawEvidence) :=
      fun hp => isValid_verifyRecords_block hp (h.flushed _ hp) hcf
    rw [← hledger, verifyBlockWithLedger_chronicle h hledger]
    constructor
    · rintro ⟨report, hreport, hvalid⟩
      split at hreport
      · cases hreport
      · next p hfind =>
        cases hreport
        have hp := List.mem_of_find?_eq_some hfind
        have hsame := (hverdict hp).mp hvalid
        cases hrecords : records.head? with
        | none =>
          -- A flushed block has rows, so the count discrepancy is reported.
          rw [List.head?_eq_none_iff.mp hrecords, List.map_nil, eq_comm,
            List.map_eq_nil_iff] at hsame
          exact absurd hsame (h.flushed p hp).records_ne_nil
        | some first =>
          rw [targetBlockId, hrecords] at hfind
          exact ⟨first, p, rfl, hfind, hsame⟩
    · rintro ⟨first, p, hfirst, hfind, hsame⟩
      have htarget : targetBlockId fileName records = first.blockId := by
        rw [targetBlockId, hfirst]
      rw [htarget, hfind]
      exact ⟨_, rfl, (hverdict (List.mem_of_find?_eq_some hfind)).mpr hsame⟩

/-- On the ledger of any session without torn appends, for a file of any name and any content: a
valid verdict is about the block of that name exactly if the rows carry its id, or there is no such
verdict. -/
theorem audit_bound_to_name_iff (sha256 : Bytes → Hash) (overflowChecks : Bool)
    (config : BatcherConfig) (disk : Disk) (hfresh : disk.ledgerLines = [])
    (acc : BatchAccumulator)
    (hnew : BatchAccumulator.new overflowChecks config disk = some (.ok acc))
    (ops : List SessionOp) (b : Batcher)
    (hrun : run (SessionOp.step sha256 overflowChecks) ⟨acc, disk⟩ ops = some b) :
    ∃ blocks, Chronicle sha256 config.storageDir blocks b ∧
      ∀ (N : UInt64) (records : List StoredLogRecord),
        CollisionFree sha256 (anchoredInputs sha256 blocks records) →
        ((ReportsValid sha256 (blockFileName N) records b.disk.ledger →
            IsBlockOfName blocks N records) ↔
          (∀ r ∈ records, r.blockId = N) ∨ ¬HoldsAnchoredBlock blocks records) := by
  obtain ⟨blocks, h⟩ := chronicle_of_run (kept_new hfresh hnew).chronicle hrun
  refine ⟨blocks, h, ?_⟩
  intro N records hcf
  rw [reportsValid_iff h _ hcf]
  constructor
  · intro hbound
    by_cases hholds : HoldsAnchoredBlock blocks records
    · exact Or.inl (hbound hholds).2
    · exact Or.inr hholds
  · rintro hcond ⟨first, p, hfirst, hfind, hsame⟩
    rcases hcond with hids | hnot
    · have hp := List.mem_of_find?_eq_some hfind
      have hfound := List.find?_some hfind
      have hid : p.2.blockId = N := by
        rw [beq_iff_eq] at hfound
        exact hfound.trans (hids first (List.mem_of_mem_head? hfirst))
      refine ⟨⟨p, hp, ?_, rawLogs_eq_of_rawEvidence hsame⟩, hids⟩
      rw [(h.flushed p hp).anchored.parquetFile, hid]
    · exact absurd ⟨first, p, hfirst, hfind, hsame⟩ hnot

/-- Two blocks of one log each. -/
def twoBlockOps : List SessionOp :=
  let env : FlushEnv := ⟨0, fun _ => "", none, none⟩
  [.call (.push ⟨"pfsense", "a", none, none, none⟩ 0 0 env), .call (.flush env),
    .call (.push ⟨"pfsense", "b", none, none, none⟩ 0 0 env), .call (.flush env)]

/-- The file of block 0 is audited as valid, and is the block of its name. -/
theorem audit_bound_to_name_iff_two_blocks :
    ∃ b blocks block0 block1,
      run (SessionOp.step sha2 false) ⟨⟨{}, [], none, 0, []⟩, [], none⟩ twoBlockOps = some b ∧
      Chronicle sha2 "data/parquet" blocks b ∧ b.disk.files = [block0, block1] ∧
      rawLogs block0.records = ["a"] ∧ rawLogs block1.records = ["b"] ∧
      CollisionFree sha2 (anchoredInputs sha2 blocks block0.records) ∧
      ReportsValid sha2 (blockFileName 0) block0.records b.disk.ledger ∧
      IsBlockOfName blocks 0 block0.records := by
  obtain ⟨b, block0, block1, hrun, hfiles, hlogs0, hlogs1, hids, hvalid⟩ : ∃ b block0 block1,
      run (SessionOp.step sha2 false) ⟨⟨{}, [], none, 0, []⟩, [], none⟩ twoBlockOps = some b ∧
      b.disk.files = [block0, block1] ∧ rawLogs block0.records = ["a"] ∧
      rawLogs block1.records = ["b"] ∧ (∀ r ∈ block0.records, r.blockId = 0) ∧
      ReportsValid sha2 (blockFileName 0) block0.records b.disk.ledger := by
    refine ⟨_, _, _, rfl, rfl, rfl, rfl, ?_, _, rfl, verifyRecords_of_rawEvidence rfl⟩
    exact fun r hr => congrArg StoredLogRecord.blockId (List.mem_singleton.mp hr)
  obtain ⟨blocks, h, hbound⟩ := audit_bound_to_name_iff sha2 false {} ⟨[], none⟩ rfl _ rfl
    twoBlockOps b hrun
  have hpair : CollisionFree sha2 [leafInput (asBytes "a"), leafInput (asBytes "b")] :=
    collisionFree_of_nodup (by decide +kernel)
  have hcf : CollisionFree sha2 (anchoredInputs sha2 blocks block0.records) := by
    have hinputs0 : treeInputs sha2 (logBytes block0.records) = [leafInput (asBytes "a")] := by
      rw [logBytes, hlogs0]
      exact treeInputs_singleton _
    have hinputs1 : treeInputs sha2 (logBytes block1.records) = [leafInput (asBytes "b")] := by
      rw [logBytes, hlogs1]
      exact treeInputs_singleton _
    apply hpair.mono
    apply h.anchoredInputs_subset
    · simp [hinputs0]
    · simp [hfiles, hinputs0, hinputs1]
  exact ⟨b, blocks, block0, block1, hrun, h, hfiles, hlogs0, hlogs1, hcf, hvalid,
    (hbound 0 block0.records hcf).mpr (Or.inl hids) hvalid⟩

/-- Block 1 overwritten with a copy of block 0 passes the audit. -/
theorem overwritten_block_accepted :
    ∃ acc b block0 block1 entry0 entry1,
      BatchAccumulator.new false {} ⟨[], none⟩ = some (.ok acc) ∧
      run (SessionOp.step sha2 false) ⟨acc, [], none⟩ twoBlockOps = some b ∧
      b.disk.files = [block0, block1] ∧ b.acc.inMemoryLedger = [entry0, entry1] ∧
      entry1.parquetFile = blockFileName 1 ∧ rawLogs block1.records = ["b"] ∧
      ReportsValid sha2 (blockFileName 1) block0.records b.disk.ledger ∧
      rawLogs block0.records = ["a"] ∧ ∃ r ∈ block0.records, r.blockId = 0 := by
  refine ⟨_, _, _, _, _, _, rfl, rfl, rfl, rfl, rfl, rfl, ⟨_, rfl, ?_⟩, rfl, _, List.mem_cons_self,
    rfl⟩
  exact verifyRecords_of_rawEvidence rfl

end Ulpf.Integrity
