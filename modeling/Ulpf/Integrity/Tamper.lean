import Ulpf.Integrity.Batcher

/-!
# Forensic tamper detection

`verify_records` counts the rows, checks the index and the digest of each, and rebuilds the
Merkle root. Against a block that was flushed, its verdict is exact for the raw evidence.
-/

namespace Ulpf.Integrity

inductive TamperReason where
  | digestMismatch (storedHash calculatedHash : String)
  | indexMismatch (expectedIndex foundIndex : UInt32)
  | countDiscrepancy (expectedCount actualCount : ℕ)
  | merkleRootMismatch (ledgerRoot computedRoot : String)
deriving DecidableEq

structure TamperedRecord where
  leafIndex : UInt32
  eventId : String
  storedRawHash : String
  calculatedRawHash : String
  rawLogPreview : String
  reason : TamperReason
deriving DecidableEq

structure TamperReport where
  isValid : Bool
  blockId : UInt64
  ledgerMerkleRoot : String
  computedMerkleRoot : String
  expectedRecords : ℕ
  actualRecords : ℕ
  tamperedRecords : List TamperedRecord
  summary : String
deriving DecidableEq

def previewLog (log : String) : String :=
  let maxLen := 64
  if log.toList.length ≤ maxLen then log else String.ofList (log.toList.take maxLen) ++ "..."

def countFindings (actual expected : ℕ) : List TamperedRecord :=
  if actual = expected then []
  else [⟨UInt32.ofNat actual, "", "", "", "", .countDiscrepancy expected actual⟩]

def indexFindings (i : ℕ) (record : StoredLogRecord) : List TamperedRecord :=
  let expectedIdx := UInt32.ofNat i
  if record.leafIndex = expectedIdx then []
  else [⟨record.leafIndex, record.eventId, record.rawHash, "", previewLog record.rawLog,
    .indexMismatch expectedIdx record.leafIndex⟩]

section Verify

variable (sha256 : Bytes → Hash)

def digestFindings (record : StoredLogRecord) : List TamperedRecord :=
  let computedDigest := rawDigest sha256 record.rawLog
  if computedDigest = record.rawHash then []
  else [⟨record.leafIndex, record.eventId, record.rawHash, computedDigest,
    previewLog record.rawLog, .digestMismatch record.rawHash computedDigest⟩]

def rowFindings (i : ℕ) (record : StoredLogRecord) : List TamperedRecord :=
  indexFindings i record ++ digestFindings sha256 record

def verifyRecords (records : List StoredLogRecord) (ledgerEntry : LedgerEntry) : TamperReport :=
  let actualRecords := records.length
  let expectedRecords := ledgerEntry.leafCount
  let found := countFindings actualRecords expectedRecords ++
    (records.mapIdx (rowFindings sha256)).flatten
  let computedRoot := (blockTree sha256 records).root.toHex
  let ledgerRoot := ledgerEntry.merkleRoot
  let rootMatches := decide (computedRoot = ledgerRoot)
  let tamperedRecords :=
    if rootMatches = false ∧ found = [] then
      [⟨0, "", ledgerRoot, computedRoot, "", .merkleRootMismatch ledgerRoot computedRoot⟩]
    else found
  let isValid := rootMatches && tamperedRecords.isEmpty
  let summary :=
    if isValid then "Block integrity mathematically verified against anchored Merkle root."
    else "Tamper detected: " ++ toString tamperedRecords.length ++
      " anomaly/anomalies found. Recomputed root " ++ computedRoot ++ " != Ledger root " ++
      ledgerRoot ++ "."
  { isValid
    blockId := ledgerEntry.blockId
    ledgerMerkleRoot := ledgerRoot
    computedMerkleRoot := computedRoot
    expectedRecords
    actualRecords
    tamperedRecords
    summary }

def rawEvidence (record : StoredLogRecord) : String × String × UInt32 :=
  (record.rawLog, record.rawHash, record.leafIndex)

/-- Row `i` carries its position and the digest of its own raw log. -/
def RowOk (i : ℕ) (record : StoredLogRecord) : Prop :=
  record.leafIndex = UInt32.ofNat i ∧ record.rawHash = rawDigest sha256 record.rawLog

def RowsOk (records : List StoredLogRecord) : Prop :=
  ∀ i r, records[i]? = some r → RowOk sha256 i r

variable {sha256}

/-! ### The checks -/

lemma rowFindings_eq_nil_iff (i : ℕ) (record : StoredLogRecord) :
    rowFindings sha256 i record = [] ↔ RowOk sha256 i record := by
  unfold rowFindings indexFindings digestFindings RowOk
  rw [List.append_eq_nil_iff]
  apply and_congr
  · simp
  · simp [eq_comm]

lemma flatten_rowFindings_eq_nil_iff (records : List StoredLogRecord) :
    (records.mapIdx (rowFindings sha256)).flatten = [] ↔ RowsOk sha256 records := by
  rw [List.flatten_eq_nil_iff]
  constructor
  · intro h i r hr
    apply (rowFindings_eq_nil_iff i r).mp
    apply h
    rw [List.mem_iff_getElem?]
    exact ⟨i, by rw [List.getElem?_mapIdx, hr]; rfl⟩
  · intro h found hfound
    obtain ⟨i, hi⟩ := List.mem_iff_getElem?.mp hfound
    rw [List.getElem?_mapIdx, Option.map_eq_some_iff] at hi
    obtain ⟨r, hr, rfl⟩ := hi
    exact (rowFindings_eq_nil_iff i r).mpr (h i r hr)

lemma countFindings_eq_nil_iff (actual expected : ℕ) :
    countFindings actual expected = [] ↔ actual = expected := by
  unfold countFindings
  by_cases h : actual = expected
  · rw [if_pos h]
    exact iff_of_true rfl h
  · rw [if_neg h]
    exact iff_of_false (List.cons_ne_nil _ _) h

/-- The verdict is the conjunction of the three checks. -/
theorem isValid_verifyRecords_iff (records : List StoredLogRecord) (entry : LedgerEntry) :
    (verifyRecords sha256 records entry).isValid = true ↔
      records.length = entry.leafCount ∧ RowsOk sha256 records ∧
        (blockTree sha256 records).root.toHex = entry.merkleRoot := by
  rw [← countFindings_eq_nil_iff, ← flatten_rowFindings_eq_nil_iff, ← and_assoc,
    ← List.append_eq_nil_iff]
  unfold verifyRecords
  dsimp only
  by_cases hroot : (blockTree sha256 records).root.toHex = entry.merkleRoot
  · simp [hroot]
  · simp [hroot]

/-! ### Exactness -/

lemma rowsOk_flushedBlock (acc : BatchAccumulator) (env : FlushEnv) :
    RowsOk sha256 (flushedBlock sha256 acc env).records := by
  intro i r hr
  rw [getElem?_flushedBlock, Option.map_eq_some_iff] at hr
  obtain ⟨item, -, rfl⟩ := hr
  exact ⟨rfl, rfl⟩

lemma rawLogs_eq_of_rawEvidence {records block : List StoredLogRecord}
    (h : records.map rawEvidence = block.map rawEvidence) : rawLogs records = rawLogs block := by
  have hlogs := congrArg (List.map Prod.fst) h
  rwa [List.map_map, List.map_map] at hlogs

lemma map_rawEvidence_eq_iff {records block : List StoredLogRecord} (hblock : RowsOk sha256 block) :
    records.map rawEvidence = block.map rawEvidence ↔
      RowsOk sha256 records ∧ rawLogs records = rawLogs block := by
  constructor
  · intro h
    have hget : ∀ i : ℕ, records[i]?.map rawEvidence = block[i]?.map rawEvidence := by
      intro i
      rw [← List.getElem?_map, ← List.getElem?_map, h]
    constructor
    · intro i r hr
      have hi := hget i
      rw [hr, Option.map_some] at hi
      obtain ⟨s, hs, heq⟩ := Option.map_eq_some_iff.mp hi.symm
      obtain ⟨hindex, hdigest⟩ := hblock i s hs
      simp only [rawEvidence, Prod.mk.injEq] at heq
      exact ⟨heq.2.2 ▸ hindex, by rw [← heq.2.1, hdigest, heq.1]⟩
    · exact rawLogs_eq_of_rawEvidence h
  · rintro ⟨hrows, hlogs⟩
    apply List.ext_getElem?
    intro i
    have hi := congrArg (·[i]?) hlogs
    simp only [rawLogs, List.getElem?_map] at hi
    rw [List.getElem?_map, List.getElem?_map]
    cases hr : records[i]? with
    | none =>
      rw [hr, Option.map_none, eq_comm, Option.map_eq_none_iff] at hi
      rw [hi]
    | some r =>
      rw [hr, Option.map_some] at hi
      obtain ⟨s, hs, heq⟩ := Option.map_eq_some_iff.mp hi.symm
      obtain ⟨hindex, hdigest⟩ := hrows i r hr
      obtain ⟨hindex', hdigest'⟩ := hblock i s hs
      rw [hs, Option.map_some, Option.map_some]
      simp only [rawEvidence, hindex, hindex', hdigest, hdigest', heq]

lemma length_logBytes (records : List StoredLogRecord) :
    (logBytes records).length = records.length := by
  rw [logBytes, List.length_map, rawLogs, List.length_map]

lemma asBytes_rawLogs_inj {records block : List StoredLogRecord}
    (h : logBytes records = logBytes block) : rawLogs records = rawLogs block :=
  List.map_injective_iff.mpr asBytes_injective h

lemma verifyRecords_of_rawEvidence {acc : BatchAccumulator} {env : FlushEnv}
    {records : List StoredLogRecord}
    (h : records.map rawEvidence = (flushedBlock sha256 acc env).records.map rawEvidence) :
    (verifyRecords sha256 records (flushedEntry sha256 acc env)).isValid = true := by
  obtain ⟨hrows, hlogs⟩ := (map_rawEvidence_eq_iff (rowsOk_flushedBlock acc env)).mp h
  have hlength : (flushedBlock sha256 acc env).records.length = acc.buffer.length :=
    List.length_mapIdx
  have hcount := congrArg List.length hlogs
  rw [rawLogs, rawLogs, List.length_map, List.length_map, hlength] at hcount
  rw [isValid_verifyRecords_iff]
  refine ⟨hcount, hrows, ?_⟩
  rw [blockTree, logBytes, hlogs]
  rfl

/-- The verdict on a flushed block is exact for the raw evidence. -/
lemma verifyRecords_flushed_iff {acc : BatchAccumulator} {env : FlushEnv} (hne : acc.buffer ≠ [])
    (records : List StoredLogRecord)
    (hcf : CollisionFree sha256 (treeInputs sha256 (logBytes records) ++
      treeInputs sha256 (logBytes (flushedBlock sha256 acc env).records))) :
    (verifyRecords sha256 records (flushedEntry sha256 acc env)).isValid = true ↔
      records.map rawEvidence = (flushedBlock sha256 acc env).records.map rawEvidence := by
  constructor
  · intro hvalid
    obtain ⟨hcount, hrows, hroot⟩ := (isValid_verifyRecords_iff records _).mp hvalid
    rw [map_rawEvidence_eq_iff (rowsOk_flushedBlock acc env)]
    refine ⟨hrows, asBytes_rawLogs_inj ?_⟩
    have hlength : (flushedBlock sha256 acc env).records.length = acc.buffer.length :=
      List.length_mapIdx
    have hpos := List.length_pos_iff.mpr hne
    have hcount' : records.length = acc.buffer.length := hcount
    apply rawLogs_eq_of_root_eq _ _ hcf (Hash.toHex_injective hroot)
    · rw [← List.length_pos_iff, length_logBytes]
      omega
    · rw [← List.length_pos_iff, length_logBytes]
      omega
  · exact verifyRecords_of_rawEvidence

/-- A flush leaves a block and a ledger entry with which `verify_records` accepts exactly the
row lists that agree with the block in raw log, raw hash and leaf index at every position. -/
theorem verifyRecords_exact (sha256 : Bytes → Hash) (overflowChecks : Bool) (b b' : Batcher)
    (env : FlushEnv) (result : BlockFlushResult)
    (hflush : flush sha256 overflowChecks b env = some (.ok (some result), b')) :
    ∃ block entry, b'.disk.files = b.disk.files ++ [block] ∧
      b'.acc.inMemoryLedger = b.acc.inMemoryLedger ++ [entry] ∧
      rawLogs block.records = b.acc.buffer.map IncomingLog.rawLog ∧
      ∀ records : List StoredLogRecord,
        CollisionFree sha256 (treeInputs sha256 (logBytes records) ++
          treeInputs sha256 (logBytes block.records)) →
        ((verifyRecords sha256 records entry).isValid = true ↔
          records.map rawEvidence = block.records.map rawEvidence) := by
  cases flushes_of_flush hflush with
  | anchored nextId hne hid hok =>
    refine ⟨flushedBlock sha256 b.acc env, flushedEntry sha256 b.acc env, rfl, rfl,
      rawLogs_flushedBlock b.acc env, ?_⟩
    intro records hcf
    exact verifyRecords_flushed_iff hne records hcf

/-- No alteration of the columns outside the raw evidence is detected. -/
theorem other_columns_unprotected (sha256 : Bytes → Hash) (overflowChecks : Bool) (b b' : Batcher)
    (env : FlushEnv) (result : BlockFlushResult)
    (hflush : flush sha256 overflowChecks b env = some (.ok (some result), b')) :
    ∃ block entry, b'.disk.files = b.disk.files ++ [block] ∧
      b'.acc.inMemoryLedger = b.acc.inMemoryLedger ++ [entry] ∧
      ∀ records : List StoredLogRecord, records ≠ block.records →
        records.map rawEvidence = block.records.map rawEvidence →
        (verifyRecords sha256 records entry).isValid = true := by
  cases flushes_of_flush hflush with
  | anchored nextId hne hid hok =>
    refine ⟨flushedBlock sha256 b.acc env, flushedEntry sha256 b.acc env, rfl, rfl, ?_⟩
    intro records _ hsame
    exact verifyRecords_of_rawEvidence hsame

end Verify

/-- One log of pfSense, flushed at time zero under block id zero. -/
def pfsenseBatcher : Batcher :=
  ⟨⟨{}, [⟨"pfsense", "a", none, none, none⟩], some 0, 0, []⟩, [], none⟩

/-- The row of that block with another vendor. -/
def forgedVendorRow : StoredLogRecord := ⟨"", 0, 0, 0, "forged", "a", rawDigest sha2 "a", "{}"⟩

lemma forgedVendorRow_ne {records : List StoredLogRecord}
    (hvendor : records.map StoredLogRecord.vendor = ["pfsense"]) : [forgedVendorRow] ≠ records := by
  rintro rfl
  have hsame : ["forged"] = ["pfsense"] := hvendor
  exact absurd hsame (by decide)

/-- The forged row is not the stored one, and passes. -/
theorem forged_vendor_accepted :
    ∃ result b' block entry,
      flush sha2 false pfsenseBatcher ⟨0, fun _ => "", none, none⟩ = some (.ok (some result), b') ∧
      b'.disk.files = [block] ∧ b'.acc.inMemoryLedger = [entry] ∧
      [forgedVendorRow] ≠ block.records ∧
      [forgedVendorRow].map rawEvidence = block.records.map rawEvidence ∧
      (verifyRecords sha2 [forgedVendorRow] entry).isValid = true := by
  have hvalid : (verifyRecords sha2 [forgedVendorRow] (flushedEntry sha2 pfsenseBatcher.acc
      ⟨0, fun _ => "", none, none⟩)).isValid = true := verifyRecords_of_rawEvidence rfl
  exact ⟨_, _, _, _, rfl, rfl, rfl, forgedVendorRow_ne rfl, rfl, hvalid⟩

theorem other_columns_unprotected_vendor :
    ∃ entry, (verifyRecords sha2 [forgedVendorRow] entry).isValid = true := by
  obtain ⟨block, entry, hfiles, -, hverify⟩ := other_columns_unprotected sha2 false pfsenseBatcher _
    ⟨0, fun _ => "", none, none⟩ _ rfl
  cases hfiles
  exact ⟨entry, hverify [forgedVendorRow] (forgedVendorRow_ne rfl) rfl⟩

/-- A rewritten log is rejected although its digest was recomputed. -/
theorem verifyRecords_exact_rewritten :
    ∃ (block : BlockWrite) (entry : LedgerEntry), rawLogs block.records = ["a"] ∧
      (verifyRecords sha2 [⟨"", 0, 0, 0, "pfsense", "b", rawDigest sha2 "b", "{}"⟩] entry).isValid =
        false := by
  obtain ⟨block, entry, -, -, hlogs, hexact⟩ := verifyRecords_exact sha2 false
    ⟨⟨{}, [⟨"pfsense", "a", none, none, none⟩], some 0, 0, []⟩, [], none⟩ _
    ⟨0, fun _ => "", none, none⟩ _ rfl
  refine ⟨block, entry, hlogs, ?_⟩
  have hcf : CollisionFree sha2 [leafInput (asBytes "b"), leafInput (asBytes "a")] :=
    collisionFree_of_nodup (by decide +kernel)
  rw [Bool.eq_false_iff, ne_eq, hexact]
  · intro h
    have hlog := congrArg (List.map Prod.fst) h
    rw [List.map_map, List.map_map] at hlog
    have hsame : ["b"] = ["a"] := hlog.trans hlogs
    exact absurd hsame (by decide)
  · rw [logBytes, logBytes, hlogs]
    simp only [rawLogs, List.map_cons, List.map_nil, treeInputs_singleton]
    exact hcf

end Ulpf.Integrity
