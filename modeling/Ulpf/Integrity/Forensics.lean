import Ulpf.Integrity.BlockAudit
import Ulpf.Integrity.Isolation

/-!
# Tampering over whole runs

`run_tamper` rewrites a row of a block file behind the back of the accumulators. However such
rewrites fall between the calls and restarts of the accumulators, an audit of an archived block
reports the rows that are not as they were archived, and no others.
-/

namespace Ulpf.Integrity
open Ulpf.Library

/-- The regular expression of an IP address: whether it matches, and the text with the first
match replaced. -/
structure AddressRegex where
  isMatch : String → Bool
  replace : String → String → String

def tamperedLog (regex : AddressRegex) (ip originalLog : String) : String :=
  if regex.isMatch originalLog then regex.replace originalLog ip
  else originalLog ++ " [SPOOFED_IP:" ++ ip ++ "]"

/-- What the files are after `run_tamper`; a file that was not closed cannot be read. -/
def runTamper (regex : AddressRegex) (files : List BlockWrite) (path : ParquetPath) (leaf : ℕ)
    (ip : String) (fault : Option StorageFault) : List BlockWrite :=
  match fileAt files path with
  | none => files
  | some file =>
    if file.closed then
      match file.records[leaf]? with
      | none => files
      | some record =>
        (writeRecordsToParquet files path
          (file.records.set leaf { record with rawLog := tamperedLog regex ip record.rawLog })
          .snappy fault).2
    else files

/-- A step of the accumulators, or a run of the tamper tool. -/
inductive ArchiveOp where
  | session (op : SessionOp)
  | tamper (path : ParquetPath) (leaf : ℕ) (ip : String) (fault : Option StorageFault)

/-- The state with other block files. -/
def Batcher.withFiles (b : Batcher) (files : List BlockWrite) : Batcher :=
  { b with disk := { b.disk with files } }

section Steps

variable (sha256 : Bytes → Hash) (overflowChecks : Bool) (regex : AddressRegex)

def ArchiveOp.step (b : Batcher) : ArchiveOp → Option Batcher
  | session op => op.step sha256 overflowChecks b
  | tamper path leaf ip fault =>
    some (b.withFiles (runTamper regex b.disk.files path leaf ip fault))

end Steps

/-- The tool was run on this row. -/
def Targeted (ops : List ArchiveOp) (path : ParquetPath) (leaf : ℕ) : Prop :=
  ∃ ip fault, ArchiveOp.tamper path leaf ip fault ∈ ops

/-! ### The accumulators do not read the block files -/

variable {sha256 : Bytes → Hash} {overflowChecks : Bool} {regex : AddressRegex}

lemma flush_withFiles {b : Batcher} {env : FlushEnv} {out : FlushOutcome}
    (h : flush sha256 overflowChecks b env = some out) (files : List BlockWrite) :
    ∃ written, out.2.disk.files = b.disk.files ++ written ∧
      flush sha256 overflowChecks (b.withFiles files) env =
        some (out.1, out.2.withFiles (files ++ written)) := by
  unfold flush at h ⊢
  by_cases hempty : b.acc.buffer.isEmpty
  · have hempty' : (b.withFiles files).acc.buffer.isEmpty = true := hempty
    rw [if_pos hempty] at h
    cases h
    exact ⟨[], (List.append_nil _).symm, by rw [if_pos hempty', List.append_nil]⟩
  · rw [if_neg hempty] at h
    have hempty' : ¬(b.withFiles files).acc.buffer.isEmpty = true := hempty
    rw [if_neg hempty']
    have hacc : (b.withFiles files).acc = b.acc := rfl
    rw [hacc]
    dsimp only at h ⊢
    split at h
    · cases h
    · next nextId hid =>
      cases hstored : env.storageFault with
      | none =>
        simp only [hstored, writeRecordsToParquet] at h ⊢
        cases hledger : env.ledgerFault with
        | none =>
          simp only [hledger, appendLedgerEntry] at h ⊢
          cases h
          exact ⟨_, rfl, rfl⟩
        | some fault =>
          simp only [hledger, appendLedgerEntry] at h ⊢
          cases h
          exact ⟨_, rfl, rfl⟩
      | some fault =>
        simp only [hstored, writeRecordsToParquet] at h ⊢
        cases h
        cases htruncates : fault.truncates with
        | false =>
          refine ⟨[], ?_, ?_⟩
          · simp
          · simp [Batcher.withFiles]
        | true =>
          refine ⟨_, rfl, ?_⟩
          simp [Batcher.withFiles]

lemma step_withFiles {b b' : Batcher} {op : SessionOp}
    (h : op.step sha256 overflowChecks b = some b') (files : List BlockWrite) :
    ∃ written, b'.disk.files = b.disk.files ++ written ∧
      op.step sha256 overflowChecks (b.withFiles files) =
        some (b'.withFiles (files ++ written)) := by
  cases op with
  | call op =>
    have haccept : op.accept (b.withFiles files) = (op.accept b).withFiles files := by
      cases op <;> rfl
    have hreach : op.reachesFlush (b.withFiles files) = op.reachesFlush b := by
      cases op <;> rfl
    have hdisk : (op.accept b).disk = b.disk := (op.accept_frame b).1
    obtain ⟨out, hcall, rfl⟩ := Option.map_eq_some_iff.mp h
    rw [BatchOp.call_eq] at hcall
    rw [SessionOp.step, BatchOp.step, BatchOp.call_eq, haccept, hreach]
    split_ifs at hcall ⊢ with hflush
    · obtain ⟨written, hwritten, hsame⟩ := flush_withFiles hcall files
      refine ⟨written, by rw [hwritten, hdisk], ?_⟩
      rw [hsame, Option.map_some]
    · cases hcall
      refine ⟨[], by rw [hdisk, List.append_nil], ?_⟩
      rw [List.append_nil]
      rfl
  | reopen config =>
    rw [SessionOp.step] at h
    split at h
    · next acc hnew =>
      cases h
      refine ⟨[], (List.append_nil _).symm, ?_⟩
      have hnew' : BatchAccumulator.new overflowChecks
          ((b.withFiles files).acc.successorConfig config) (b.withFiles files).disk =
            some (.ok acc) := hnew
      rw [SessionOp.step, hnew', List.append_nil]
      rfl
    · cases h

lemma fileAt_append_of_mem {files files' written : List BlockWrite} {path : ParquetPath}
    (h : ∃ w ∈ written, w.path = path) :
    fileAt (files ++ written) path = fileAt (files' ++ written) path := by
  have hsome : (written.reverse.find? fun w => w.path == path).isSome := by
    obtain ⟨w, hw, hpath⟩ := h
    rw [List.find?_isSome]
    exact ⟨w, List.mem_reverse.mpr hw, by simpa using hpath⟩
  obtain ⟨found, hfound⟩ := Option.isSome_iff_exists.mp hsome
  rw [fileAt, fileAt, List.reverse_append, List.reverse_append, List.find?_append,
    List.find?_append, hfound, Option.some_or, Option.some_or]

lemma entry_old_or_written {dir : String} {blocks : List (BlockWrite × LedgerEntry)}
    {b b' : Batcher} {op : SessionOp} (h : Chronicle sha256 dir blocks b)
    (hstep : op.step sha256 overflowChecks b = some b') {written : List BlockWrite}
    (hwritten : b'.disk.files = b.disk.files ++ written) :
    ∀ e ∈ b'.acc.inMemoryLedger, e ∈ b.acc.inMemoryLedger ∨
      ∃ w ∈ written, w.path = ⟨dir, e.parquetFile⟩ := by
  intro e he
  cases op with
  | call op =>
    obtain ⟨hdisk, hconfig, -, hmemory⟩ := op.accept_frame b
    rcases call_effect hstep with rfl | ⟨nextId, heffect⟩
    · rw [hmemory] at he
      exact Or.inl he
    · rcases heffect.ledgers with ⟨-, hsame⟩ | rfl
      · rw [hsame, hmemory] at he
        exact Or.inl he
      · change e ∈ (op.accept b).acc.inMemoryLedger ++ [_] at he
        rw [hmemory] at he
        rcases List.mem_append.mp he with hold | hnew
        · exact Or.inl hold
        · right
          have hfiles : (op.accept b).disk.files ++ [flushedBlock sha256 (op.accept b).acc op.env] =
              b.disk.files ++ written := hwritten
          rw [hdisk, List.append_cancel_left_eq] at hfiles
          refine ⟨_, hfiles ▸ List.mem_singleton_self _, ?_⟩
          rw [List.mem_singleton.mp hnew, ← h.storageDir, ← hconfig]
          rfl
  | reopen config =>
    obtain ⟨id, -, rfl⟩ := reopen_eq_some h hstep
    exact Or.inl he

/-! ### Blocks under attack -/

/-- The rows at the positions in `T` may have another raw log; all else is as in the block. -/
structure RewrittenAt (T : ℕ → Prop) (block records : List StoredLogRecord) : Prop where
  length : records.length = block.length
  columns : ∀ (i : ℕ) (r r' : StoredLogRecord), block[i]? = some r → records[i]? = some r' →
    r' = { r with rawLog := r'.rawLog }
  untouched : ∀ i, ¬T i → records[i]? = block[i]?

namespace RewrittenAt

variable {T T' : ℕ → Prop} {block records : List StoredLogRecord}

lemma refl (T : ℕ → Prop) (block : List StoredLogRecord) : RewrittenAt T block block where
  length := rfl
  columns i r r' hr hr' := by
    rw [hr] at hr'
    cases hr'
    rfl
  untouched i _ := rfl

lemma mono (h : RewrittenAt T block records) (hle : ∀ i, T i → T' i) :
    RewrittenAt T' block records where
  length := h.length
  columns := h.columns
  untouched i hi := h.untouched i fun hT => hi (hle i hT)

lemma set (h : RewrittenAt T block records) {leaf : ℕ} {record : StoredLogRecord}
    (hrecord : records[leaf]? = some record) (hleaf : T leaf) (rawLog : String) :
    RewrittenAt T block (records.set leaf { record with rawLog }) where
  length := by rw [List.length_set, h.length]
  columns i r r' hr hr' := by
    rw [List.getElem?_set] at hr'
    split_ifs at hr' with hi
    · subst hi
      cases hr'
      rw [h.columns _ r record hr hrecord]
    · exact h.columns i r r' hr hr'
  untouched i hi := by
    have hne : leaf ≠ i := by
      rintro rfl
      exact hi hleaf
    rw [List.getElem?_set_ne hne]
    exact h.untouched i hi

/-- The rows with another raw log. -/
def changed (block records : List StoredLogRecord) : Finset ℕ :=
  (Finset.range block.length).filter fun i =>
    records[i]?.map StoredLogRecord.rawLog ≠ block[i]?.map StoredLogRecord.rawLog

lemma corrupts (h : RewrittenAt T block records) :
    Corrupts (changed block records) block records where
  length := h.length
  inside i hi := Finset.mem_range.mp (Finset.mem_filter.mp hi).1
  columns := h.columns
  rawLog i r r' hr hr' := by
    have hi : i < block.length := (List.getElem?_eq_some_iff.mp hr).1
    rw [changed, Finset.mem_filter, Finset.mem_range, hr, hr']
    simp [hi]

lemma of_mem_changed (h : RewrittenAt T block records) {i : ℕ} (hi : i ∈ changed block records) :
    T i := by
  by_contra hT
  exact (Finset.mem_filter.mp hi).2 (by rw [h.untouched i hT])

lemma eq_of_changed_eq_empty (h : RewrittenAt T block records) (hnone : changed block records = ∅) :
    records = block := by
  apply List.ext_getElem? _
  intro i
  by_cases hi : i < block.length
  · have hi' : i < records.length := by rwa [h.length]
    have hr := List.getElem?_eq_getElem hi
    have hr' := List.getElem?_eq_getElem hi'
    have hsame : ¬(records[i].rawLog ≠ block[i].rawLog) := by
      rw [h.corrupts.rawLog i _ _ hr hr', hnone]
      exact Finset.notMem_empty i
    have hcolumns := h.columns i _ _ hr hr'
    rw [not_not.mp hsame] at hcolumns
    rw [hr, hr', hcolumns]
  · have hi' : ¬i < records.length := by rwa [h.length]
    rw [List.getElem?_eq_none (by omega), List.getElem?_eq_none (by omega)]

end RewrittenAt

/-- The accumulators in the state that they would be in without the attacks, and the file of
each archived block as the attacks have left it. -/
structure UnderAttack (sha256 : Bytes → Hash) (overflowChecks : Bool) (dir : String)
    (blocks : List (BlockWrite × LedgerEntry)) (n : ℕ) (T : ParquetPath → ℕ → Prop) (b : Batcher) :
    Prop where
  shadow : ∃ files, Kept sha256 overflowChecks dir blocks (b.withFiles files) n
  files : ∀ p ∈ blocks, ∃ file, fileAt b.disk.files p.1.path = some file ∧
    (file.closed = true → RewrittenAt (T p.1.path) p.1.records file.records)

variable {dir : String} {blocks : List (BlockWrite × LedgerEntry)} {n : ℕ}
  {T T' : ParquetPath → ℕ → Prop} {b b' : Batcher}

lemma UnderAttack.session (h : UnderAttack sha256 overflowChecks dir blocks n T b)
    (hn : n < 2 ^ 64) {op : SessionOp} (hstep : op.step sha256 overflowChecks b = some b') :
    ∃ blocks' n', n' ≤ n + 1 ∧ UnderAttack sha256 overflowChecks dir blocks' n' T b' := by
  obtain ⟨files, hkept⟩ := h.shadow
  obtain ⟨written, hwritten, hshadow⟩ := step_withFiles hstep files
  obtain ⟨blocks', n', hn', hkept'⟩ := hkept.step hn hshadow
  refine ⟨blocks', n', hn', ⟨_, hkept'⟩, ?_⟩
  intro p hp
  have hfile : fileAt (files ++ written) p.1.path = some p.1 := hkept'.files p hp
  by_cases hnew : ∃ w ∈ written, w.path = p.1.path
  · refine ⟨p.1, ?_, fun _ => RewrittenAt.refl _ _⟩
    rw [hwritten, ← hfile]
    exact fileAt_append_of_mem hnew
  · have hother : ∀ w ∈ written, w.path ≠ p.1.path := fun w hw hpath => hnew ⟨w, hw, hpath⟩
    have hpath := (hkept'.chronicle.flushed p hp).anchored.path
    -- The block is an old one, since the step has not written its file.
    have hentry : p.2 ∈ (b.withFiles files).acc.inMemoryLedger := by
      have hmem : p.2 ∈ (b'.withFiles (files ++ written)).acc.inMemoryLedger := by
        rw [hkept'.chronicle.inMemoryLedger]
        exact List.mem_map_of_mem hp
      rcases entry_old_or_written hkept.chronicle hshadow rfl p.2 hmem with hold | ⟨w, hw, hw'⟩
      · exact hold
      · exact absurd (hw'.trans hpath.symm) (hother w hw)
    rw [hkept.chronicle.inMemoryLedger] at hentry
    obtain ⟨q, hq, hsame⟩ := List.mem_map.mp hentry
    have hqpath : q.1.path = p.1.path := by
      rw [(hkept.chronicle.flushed q hq).anchored.path, hpath, hsame]
    have hblock : q.1 = p.1 := by
      have hqfile : fileAt files q.1.path = some q.1 := hkept.files q hq
      rw [fileAt_append_of_ne hother, ← hqpath, hqfile] at hfile
      exact Option.some.inj hfile
    obtain ⟨file, hat, hrewritten⟩ := h.files q hq
    rw [hblock] at hat hrewritten
    exact ⟨file, by rw [hwritten, fileAt_append_of_ne hother, hat], hrewritten⟩

/-- What the tool does to the files: nothing, or one write of the targeted path. -/
lemma runTamper_cases (regex : AddressRegex) (files : List BlockWrite) (path : ParquetPath)
    (leaf : ℕ) (ip : String) (fault : Option StorageFault) :
    runTamper regex files path leaf ip fault = files ∨
      ∃ file record closed, fileAt files path = some file ∧ file.closed = true ∧
        file.records[leaf]? = some record ∧
        runTamper regex files path leaf ip fault = files ++ [⟨path,
          file.records.set leaf { record with rawLog := tamperedLog regex ip record.rawLog },
          .snappy, closed⟩] := by
  unfold runTamper
  cases hfile : fileAt files path with
  | none => exact Or.inl rfl
  | some file =>
    dsimp only
    split_ifs with hclosed
    · cases hrecord : file.records[leaf]? with
      | none => exact Or.inl rfl
      | some record =>
        cases fault with
        | none => exact Or.inr ⟨file, record, true, rfl, hclosed, hrecord, rfl⟩
        | some fault =>
          simp only [writeRecordsToParquet]
          split_ifs
          · exact Or.inr ⟨file, record, false, rfl, hclosed, hrecord, rfl⟩
          · exact Or.inl rfl
    · exact Or.inl rfl

lemma UnderAttack.mono (h : UnderAttack sha256 overflowChecks dir blocks n T b)
    (hle : ∀ path i, T path i → T' path i) :
    UnderAttack sha256 overflowChecks dir blocks n T' b where
  shadow := h.shadow
  files p hp := by
    obtain ⟨file, hat, hrewritten⟩ := h.files p hp
    exact ⟨file, hat, fun hclosed => (hrewritten hclosed).mono (hle p.1.path)⟩

lemma UnderAttack.tamper (h : UnderAttack sha256 overflowChecks dir blocks n T b)
    (regex : AddressRegex) {path : ParquetPath} {leaf : ℕ} (htarget : T path leaf) (ip : String)
    (fault : Option StorageFault) :
    UnderAttack sha256 overflowChecks dir blocks n T
      (b.withFiles (runTamper regex b.disk.files path leaf ip fault)) where
  shadow := h.shadow
  files p hp := by
    obtain ⟨file, hat, hrewritten⟩ := h.files p hp
    change ∃ file, fileAt (runTamper regex b.disk.files path leaf ip fault) p.1.path = some file ∧ _
    rcases runTamper_cases regex b.disk.files path leaf ip fault with
      hsame | ⟨target, record, closed, htarget_at, hclosed, hrecord, hwrite⟩
    · rw [hsame]
      exact ⟨file, hat, hrewritten⟩
    · rw [hwrite]
      by_cases hpath : path = p.1.path
      · subst hpath
        rw [hat] at htarget_at
        cases htarget_at
        refine ⟨⟨p.1.path, _, .snappy, closed⟩, ?_,
          fun _ => (hrewritten hclosed).set hrecord htarget (tamperedLog regex ip record.rawLog)⟩
        exact fileAt_of_last rfl (fun w hw => by cases hw)
      · refine ⟨file, ?_, hrewritten⟩
        rw [fileAt_append_of_ne, hat]
        intro w hw
        rwa [List.mem_singleton.mp hw]

lemma Targeted.mono {ops : List ArchiveOp} {path : ParquetPath} {leaf : ℕ}
    (h : Targeted ops path leaf) (op : ArchiveOp) : Targeted (ops ++ [op]) path leaf := by
  obtain ⟨ip, fault, hmem⟩ := h
  exact ⟨ip, fault, List.mem_append_left _ hmem⟩

lemma underAttack_of_run {start : Batcher} {ops : List ArchiveOp}
    (hstart : Kept sha256 overflowChecks dir [] start 0)
    (hwrap : overflowChecks = true ∨ ops.length ≤ 2 ^ 64)
    (hrun : run (ArchiveOp.step sha256 overflowChecks regex) start ops = some b) :
    ∃ blocks n, n ≤ ops.length ∧
      UnderAttack sha256 overflowChecks dir blocks n (Targeted ops) b := by
  refine run_induction (motive := fun done b => overflowChecks = true ∨ done.length ≤ 2 ^ 64 →
    ∃ blocks n, n ≤ done.length ∧
      UnderAttack sha256 overflowChecks dir blocks n (Targeted done) b) _ ?_ ?_ hrun hwrap
  · exact fun _ => ⟨[], 0, Nat.le_refl 0, ⟨start.disk.files, hstart⟩, by simp⟩
  · rintro done op u v - ih hstep hdone
    rw [List.length_append, List.length_singleton] at hdone ⊢
    obtain ⟨blocks, n, hn, h⟩ := ih (hdone.imp_right fun hlen => by omega)
    have hmono : UnderAttack sha256 overflowChecks dir blocks n (Targeted (done ++ [op])) u :=
      h.mono fun path i hi => hi.mono op
    cases op with
    | session op =>
      have hlt : n < 2 ^ 64 := by
        rcases hdone with hchecks | hlen
        · obtain ⟨files, hkept⟩ := h.shadow
          exact hkept.noWrap hchecks
        · omega
      obtain ⟨blocks', n', hn', h'⟩ := hmono.session hlt hstep
      exact ⟨blocks', n', by omega, h'⟩
    | tamper path leaf ip fault =>
      cases hstep
      refine ⟨blocks, n, by omega, hmono.tamper regex ?_ ip fault⟩
      exact ⟨ip, fault, List.mem_append_right _ List.mem_cons_self⟩

/-! ### Audits -/

lemma tamperedRecords_of_isValid {records : List StoredLogRecord} {entry : LedgerEntry}
    (h : (verifyRecords sha256 records entry).isValid = true) :
    (verifyRecords sha256 records entry).tamperedRecords = [] := by
  unfold verifyRecords at h ⊢
  dsimp only at h ⊢
  rw [Bool.and_eq_true] at h
  exact List.isEmpty_iff.mp h.2

lemma isValid_eq_false_of_tamperedRecords {records : List StoredLogRecord} {entry : LedgerEntry}
    (h : (verifyRecords sha256 records entry).tamperedRecords ≠ []) :
    (verifyRecords sha256 records entry).isValid = false := by
  rw [Bool.eq_false_iff]
  exact fun hvalid => h (tamperedRecords_of_isValid hvalid)

/-- The audit of a block as the attacks have left it. -/
lemma audit_of_rewrittenAt {T : ℕ → Prop} {p : BlockWrite × LedgerEntry}
    {records : List StoredLogRecord} (hflushed : Flushed sha256 dir p)
    (h : RewrittenAt T p.1.records records)
    (hcf : CollisionFree sha256 (logBytes records ++ logBytes p.1.records)) :
    ((verifyRecords sha256 records p.2).isValid = true ↔
        RewrittenAt.changed p.1.records records = ∅) ∧
      List.Forall₂ (Blames sha256 p.1.records records)
        ((RewrittenAt.changed p.1.records records).sort (· ≤ ·))
        (verifyRecords sha256 records p.2).tamperedRecords := by
  obtain ⟨acc, env, -, -, rfl⟩ := hflushed
  rcases (RewrittenAt.changed (flushedBlock sha256 acc env).records records).eq_empty_or_nonempty
    with hnone | hsome
  · have hsame := h.eq_of_changed_eq_empty hnone
    have hvalid : (verifyRecords sha256 records (flushedEntry sha256 acc env)).isValid = true := by
      apply verifyRecords_of_rawEvidence
      rw [hsame]
    refine ⟨iff_of_true hvalid hnone, ?_⟩
    rw [hnone, tamperedRecords_of_isValid hvalid, Finset.sort_empty]
    exact List.Forall₂.nil
  · have hcount : (flushedEntry sha256 acc env).leafCount =
        (flushedBlock sha256 acc env).records.length := by
      rw [flushedEntry, flushedBlock, List.length_mapIdx]
    have hblamed := h.corrupts.tamperedRecords (rowsOk_flushedBlock acc env) hsome hcf hcount
    refine ⟨?_, hblamed⟩
    refine iff_of_false ?_ hsome.ne_empty
    rw [Bool.not_eq_true]
    apply isValid_eq_false_of_tamperedRecords
    intro hnil
    rw [hnil, List.forall₂_nil_right_iff] at hblamed
    obtain ⟨i, hi⟩ := hsome
    rw [← Finset.mem_sort (· ≤ ·), hblamed] at hi
    cases hi

lemma Kept.find?_eq {p : BlockWrite × LedgerEntry} (h : Kept sha256 overflowChecks dir blocks b n)
    (hp : p ∈ blocks) : blocks.find? (fun q => q.2.blockId == p.2.blockId) = some p := by
  obtain ⟨earlier, later, rfl⟩ := List.append_of_mem hp
  rw [List.find?_eq_some_iff_append]
  refine ⟨beq_self_eq_true _, earlier, later, rfl, ?_⟩
  intro q hq
  obtain ⟨-, -, hlt⟩ := List.pairwise_append.mp h.sorted
  have hne := UInt64.ne_of_lt (hlt q hq p List.mem_cons_self)
  simpa using hne

/-- However runs of the tamper tool fall between the calls and restarts of the accumulators, with
any I/O faults but torn appends and as long as no block id wraps, the file of every ledger entry is
destroyed, or it differs from the block that was archived in the raw logs of rows at which the tool
was run; its audit is valid if there are none, and blames these rows, in order, and no others. -/
theorem archive_forensics (sha256 : Bytes → Hash) (overflowChecks : Bool) (regex : AddressRegex)
    (config : BatcherConfig) (disk : Disk) (hfresh : disk.ledgerLines = [])
    (acc : BatchAccumulator)
    (hnew : BatchAccumulator.new overflowChecks config disk = some (.ok acc))
    (ops : List ArchiveOp) (hwrap : overflowChecks = true ∨ ops.length ≤ 2 ^ 64) (b : Batcher)
    (hrun : run (ArchiveOp.step sha256 overflowChecks regex) ⟨acc, disk⟩ ops = some b) :
    ∃ blocks : List (BlockWrite × LedgerEntry),
      b.disk.ledgerLines = blocks.map (fun p => .entry p.2) ∧
      ∀ p ∈ blocks, Anchored sha256 config.storageDir p.2.blockId p.1 p.2 ∧
        ∃ file, fileAt b.disk.files p.1.path = some file ∧
          (file.closed = true → ∃ S : Finset ℕ, (∀ i ∈ S, Targeted ops p.1.path i) ∧
            Corrupts S p.1.records file.records ∧
            (CollisionFree sha256 (logBytes file.records ++ logBytes p.1.records) →
              ∃ report, verifyBlockWithLedger sha256 p.2.parquetFile (some file.records)
                  b.disk.ledger = .ok report ∧
                (report.isValid = true ↔ S = ∅) ∧
                List.Forall₂ (Blames sha256 p.1.records file.records) (S.sort (· ≤ ·))
                  report.tamperedRecords)) := by
  obtain ⟨blocks, n, -, h⟩ := underAttack_of_run (kept_new hfresh hnew) hwrap hrun
  obtain ⟨files, hkept⟩ := h.shadow
  have hledger : b.disk.ledgerLines = blocks.map fun p => .entry p.2 := hkept.chronicle.ledger
  refine ⟨blocks, hledger, ?_⟩
  intro p hp
  have hflushed := hkept.chronicle.flushed p hp
  obtain ⟨file, hat, hrewritten⟩ := h.files p hp
  refine ⟨hflushed.anchored, file, hat, fun hclosed => ?_⟩
  have hrows := hrewritten hclosed
  refine ⟨_, fun i hi => hrows.of_mem_changed hi, hrows.corrupts, fun hcf => ?_⟩
  obtain ⟨hvalid, hblamed⟩ := audit_of_rewrittenAt hflushed hrows hcf
  refine ⟨_, ?_, hvalid, hblamed⟩
  have hlines : (b.withFiles files).disk.ledger = some (blocks.map fun p => .entry p.2) := by
    rw [Disk.ledgerLines] at hledger
    change b.disk.ledger = _
    cases hdisk : b.disk.ledger with
    | none =>
      rw [hdisk, Option.getD_none, eq_comm, List.map_eq_nil_iff] at hledger
      rw [hledger] at hp
      cases hp
    | some lines =>
      rw [hdisk, Option.getD_some] at hledger
      rw [hledger]
  have htarget : targetBlockId p.2.parquetFile file.records = p.2.blockId := by
    have hne := hflushed.records_ne_nil
    obtain ⟨first, rest, hcons⟩ := List.exists_cons_of_ne_nil hne
    have hfirst : p.1.records[0]? = some first := by rw [hcons]; rfl
    have hlt : 0 < file.records.length := by
      rw [hrows.length, hcons]
      exact Nat.succ_pos _
    have hfirst' := List.getElem?_eq_getElem hlt
    have hcolumns := hrows.columns 0 _ _ hfirst hfirst'
    have hid : file.records[0].blockId = first.blockId := by rw [hcolumns]
    rw [targetBlockId, List.head?_eq_getElem?, hfirst']
    exact hid.trans (hflushed.anchored.rowId first (List.mem_of_getElem? hfirst))
  have haudit := verifyBlockWithLedger_chronicle hkept.chronicle hlines p.2.parquetFile file.records
  rw [htarget, hkept.find?_eq hp] at haudit
  exact haudit

/-- A block of one row, at which the tool is run after a restart. -/
theorem archive_forensics_row :
    let env : FlushEnv := ⟨0, fun _ => "", none, none⟩
    let ops : List ArchiveOp :=
      [.session (.call (.push ⟨"pfsense", "a", none, none, none⟩ 0 0 env)),
        .session (.call (.flush env)), .session (.reopen {}),
        .tamper ⟨"data/parquet", "block_00000.parquet"⟩ 0 "10.0.0.1" none]
    ∃ b, run (ArchiveOp.step sha2 true ⟨fun _ => false, fun log _ => log⟩)
        ⟨⟨{}, [], none, 0, []⟩, ⟨[], none⟩⟩ ops = some b ∧
      ∃ blocks : List (BlockWrite × LedgerEntry),
        b.disk.ledgerLines = blocks.map (fun p => .entry p.2) ∧
        ∀ p ∈ blocks, ∃ file, fileAt b.disk.files p.1.path = some file := by
  intro env ops
  refine ⟨_, rfl, ?_⟩
  obtain ⟨blocks, hledger, hblocks⟩ := archive_forensics sha2 true
    ⟨fun _ => false, fun log _ => log⟩ {} ⟨[], none⟩ rfl ⟨{}, [], none, 0, []⟩ rfl ops
    (Or.inl rfl) _ rfl
  refine ⟨blocks, hledger, fun p hp => ?_⟩
  obtain ⟨-, file, hfile, -⟩ := hblocks p hp
  exact ⟨file, hfile⟩

end Ulpf.Integrity
