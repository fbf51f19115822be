import Mathlib.Data.Finset.Sort
import Ulpf.Integrity.Tamper

/-!
# Isolation of corrupted rows

Where rows of a flushed block have another raw log and nothing else is changed, the report lists
these rows, in order, and nothing else.
-/

namespace Ulpf.Integrity

/-- The rows at the positions in `S` have another raw log, and all else is as in the block. -/
structure Corrupts (S : Finset ℕ) (block records : List StoredLogRecord) : Prop where
  length : records.length = block.length
  inside : ∀ i ∈ S, i < block.length
  columns : ∀ (i : ℕ) (r r' : StoredLogRecord), block[i]? = some r → records[i]? = some r' →
    r' = { r with rawLog := r'.rawLog }
  rawLog : ∀ (i : ℕ) (r r' : StoredLogRecord), block[i]? = some r → records[i]? = some r' →
    (r'.rawLog ≠ r.rawLog ↔ i ∈ S)

/-- The entry blames the row for the digest of its new raw log. -/
def Blames (sha256 : Bytes → Hash) (block records : List StoredLogRecord) (i : ℕ)
    (t : TamperedRecord) : Prop :=
  ∃ r r', block[i]? = some r ∧ records[i]? = some r' ∧
    t = {
      leafIndex := r.leafIndex
      eventId := r.eventId
      storedRawHash := r.rawHash
      calculatedRawHash := rawDigest sha256 r'.rawLog
      rawLogPreview := previewLog r'.rawLog
      reason := .digestMismatch r.rawHash (rawDigest sha256 r'.rawLog) }

/-! ### Positions in order -/

lemma sort_eq_filter_range {S : Finset ℕ} {n : ℕ} (h : ∀ i ∈ S, i < n) :
    S.sort (· ≤ ·) = (List.range n).filter (· ∈ S) := by
  have hnodup : ((List.range n).filter (· ∈ S)).Nodup := List.nodup_range.filter _
  have hsorted : ((List.range n).filter (· ∈ S)).Pairwise (· ≤ ·) :=
    List.pairwise_le_range.sublist List.filter_sublist
  have hset : ((List.range n).filter (· ∈ S)).toFinset = S := by
    ext i
    simpa using h i
  have hsort := (List.toFinset_sort (· ≤ ·) hnodup).mpr hsorted
  rwa [hset] at hsort

lemma forall₂_flatten_mapIdx {α β : Type} {f : ℕ → α → List β} {R : ℕ → β → Prop} {S : Finset ℕ}
    (rows : List α) (hin : ∀ (i : ℕ) a, rows[i]? = some a → i ∈ S → ∃ b, f i a = [b] ∧ R i b)
    (hout : ∀ (i : ℕ) a, rows[i]? = some a → i ∉ S → f i a = []) :
    List.Forall₂ R ((List.range rows.length).filter (· ∈ S)) (rows.mapIdx f).flatten := by
  induction rows using List.reverseRecOn with
  | nil => exact List.Forall₂.nil
  | append_singleton rows a ih =>
    have hold : ∀ (i : ℕ) b, rows[i]? = some b → (rows ++ [a])[i]? = some b := by
      intro i b hb
      rwa [List.getElem?_append_left (List.getElem?_eq_some_iff.mp hb).1]
    have hlast : (rows ++ [a])[rows.length]? = some a := List.getElem?_concat_length
    rw [List.mapIdx_concat, List.flatten_concat, List.length_append, List.length_singleton,
      List.range_succ, List.filter_append]
    apply List.rel_append
    · exact ih (fun i b hb => hin i b (hold i b hb)) (fun i b hb => hout i b (hold i b hb))
    · by_cases hS : rows.length ∈ S
      · obtain ⟨b, hb, hR⟩ := hin _ a hlast hS
        rw [hb, List.filter_singleton, decide_eq_true hS, cond_true]
        exact .cons hR .nil
      · rw [hout _ a hlast hS, List.filter_singleton, decide_eq_false hS, cond_false]
        exact .nil

/-! ### The report -/

section Report

variable {sha256 : Bytes → Hash}

lemma mem_logBytes {records : List StoredLogRecord} {i : ℕ} {r : StoredLogRecord}
    (h : records[i]? = some r) : asBytes r.rawLog ∈ logBytes records :=
  List.mem_map_of_mem (List.mem_map_of_mem (List.mem_of_getElem? h))

lemma rawDigest_eq_iff {inputs : List Bytes} (hcf : CollisionFree sha256 inputs) {x y : String}
    (hx : asBytes x ∈ inputs) (hy : asBytes y ∈ inputs) :
    rawDigest sha256 x = rawDigest sha256 y ↔ x = y := by
  constructor
  · intro h
    exact asBytes_injective (hcf hx hy (Hash.toHex_injective h))
  · rintro rfl
    rfl

variable {S : Finset ℕ} {block records : List StoredLogRecord}

/-- A row finds the entry that blames it, or nothing if its raw log is the stored one. -/
lemma Corrupts.rowFindings (h : Corrupts S block records) (hok : RowsOk sha256 block)
    (hcf : CollisionFree sha256 (logBytes records ++ logBytes block)) {i : ℕ}
    {r' : StoredLogRecord} (hr' : records[i]? = some r') :
    (i ∈ S → ∃ t, rowFindings sha256 i r' = [t] ∧ Blames sha256 block records i t) ∧
      (i ∉ S → rowFindings sha256 i r' = []) := by
  have hi : i < block.length := by
    rw [← h.length]
    exact (List.getElem?_eq_some_iff.mp hr').1
  have hr : block[i]? = some block[i] := List.getElem?_eq_getElem hi
  obtain ⟨hindex, hdigest⟩ := hok i _ hr
  have hcolumns := h.columns i _ r' hr hr'
  have hleaf : r'.leafIndex = block[i].leafIndex := by rw [hcolumns]
  have hevent : r'.eventId = block[i].eventId := by rw [hcolumns]
  have hhash : r'.rawHash = block[i].rawHash := by rw [hcolumns]
  have hsame : rawDigest sha256 r'.rawLog = r'.rawHash ↔ i ∉ S := by
    rw [hhash, hdigest, rawDigest_eq_iff hcf (List.mem_append_left _ (mem_logBytes hr'))
      (List.mem_append_right _ (mem_logBytes hr)), ← h.rawLog i _ r' hr hr', ne_eq, not_not]
  have hindexed : indexFindings i r' = [] := if_pos (hleaf.trans hindex)
  rw [Integrity.rowFindings, hindexed, List.nil_append, digestFindings]
  constructor
  · intro hS
    refine ⟨_, if_neg (fun heq => hsame.mp heq hS), block[i], r', hr, hr', ?_⟩
    rw [hleaf, hevent, hhash]
  · intro hS
    exact if_pos (hsame.mpr hS)

lemma Corrupts.tamperedRecords (h : Corrupts S block records) (hok : RowsOk sha256 block)
    (hS : S.Nonempty) (hcf : CollisionFree sha256 (logBytes records ++ logBytes block))
    {entry : LedgerEntry} (hcount : entry.leafCount = block.length) :
    List.Forall₂ (Blames sha256 block records) (S.sort (· ≤ ·))
      (verifyRecords sha256 records entry).tamperedRecords := by
  have hrows : List.Forall₂ (Blames sha256 block records) (S.sort (· ≤ ·))
      (records.mapIdx (Integrity.rowFindings sha256)).flatten := by
    rw [sort_eq_filter_range (h.length ▸ h.inside)]
    exact forall₂_flatten_mapIdx records (fun i r' hr' => (h.rowFindings hok hcf hr').1)
      (fun i r' hr' => (h.rowFindings hok hcf hr').2)
  have hcounted : countFindings records.length entry.leafCount = [] :=
    if_pos (h.length.trans hcount.symm)
  -- Some row is blamed, so the different root adds no entry of its own.
  have hfound : (records.mapIdx (Integrity.rowFindings sha256)).flatten ≠ [] := by
    intro hnil
    rw [hnil, List.forall₂_nil_right_iff] at hrows
    obtain ⟨i, hi⟩ := hS
    rw [← Finset.mem_sort (· ≤ ·), hrows] at hi
    cases hi
  unfold verifyRecords
  dsimp only
  rw [hcounted, List.nil_append, if_neg (fun hnone => hfound hnone.2)]
  exact hrows

end Report

/-- Against the block and the ledger entry of a flush, the report on rows with other raw logs
has one entry for each of these rows, in increasing order, and no other entry. -/
theorem corrupted_rows_isolated (sha256 : Bytes → Hash) (overflowChecks : Bool) (b b' : Batcher)
    (env : FlushEnv) (result : BlockFlushResult)
    (hflush : flush sha256 overflowChecks b env = some (.ok (some result), b')) :
    ∃ block entry, b'.disk.files = b.disk.files ++ [block] ∧
      b'.acc.inMemoryLedger = b.acc.inMemoryLedger ++ [entry] ∧
      rawLogs block.records = b.acc.buffer.map IncomingLog.rawLog ∧
      ∀ (S : Finset ℕ) (records : List StoredLogRecord), S.Nonempty →
        Corrupts S block.records records →
        CollisionFree sha256 (logBytes records ++ logBytes block.records) →
        List.Forall₂ (Blames sha256 block.records records) (S.sort (· ≤ ·))
          (verifyRecords sha256 records entry).tamperedRecords := by
  cases flushes_of_flush hflush with
  | anchored nextId hne hid hok =>
    refine ⟨flushedBlock sha256 b.acc env, flushedEntry sha256 b.acc env, rfl, rfl,
      rawLogs_flushedBlock b.acc env, ?_⟩
    intro S records hS hcorrupts hcf
    have hlength : (flushedBlock sha256 b.acc env).records.length = b.acc.buffer.length :=
      List.length_mapIdx
    exact hcorrupts.tamperedRecords (rowsOk_flushedBlock b.acc env) hS hcf hlength.symm

/-- Two logs of pfSense, flushed under block id zero. -/
def twoRowBatcher : Batcher :=
  ⟨⟨{}, [⟨"pfsense", "a", none, none, none⟩, ⟨"pfsense", "b", none, none, none⟩], some 0, 0, []⟩,
    [], none⟩

/-- The rows of that block with another text in the second. -/
def secondRowRewritten : List StoredLogRecord :=
  [⟨"", 0, 0, 0, "pfsense", "a", rawDigest sha2 "a", "{}"⟩,
    ⟨"", 0, 1, 0, "pfsense", "c", rawDigest sha2 "b", "{}"⟩]

theorem corrupted_rows_isolated_second :
    ∃ (block : BlockWrite) (entry : LedgerEntry), rawLogs block.records = ["a", "b"] ∧
      List.Forall₂ (Blames sha2 block.records secondRowRewritten) [1]
        (verifyRecords sha2 secondRowRewritten entry).tamperedRecords := by
  obtain ⟨block, entry, hfiles, -, hlogs, hisolated⟩ := corrupted_rows_isolated sha2 false
    twoRowBatcher _ ⟨0, fun _ => "", none, none⟩ _ rfl
  refine ⟨block, entry, hlogs, ?_⟩
  have hcf : CollisionFree sha2 [asBytes "a", asBytes "c", asBytes "a", asBytes "b"] := by
    apply @CollisionFree.mono _ _ [asBytes "a", asBytes "b", asBytes "c"]
    · exact collisionFree_of_nodup (by decide +kernel)
    · simp
  rw [← Finset.sort_singleton (· ≤ ·) (1 : ℕ)]
  apply hisolated {1} secondRowRewritten (Finset.singleton_nonempty 1)
  · cases hfiles
    constructor
    · rfl
    · decide
    · rintro (_ | _ | i) r r' hr hr'
      · cases hr
        cases hr'
        rfl
      · cases hr
        cases hr'
        rfl
      · cases hr
    · rintro (_ | _ | i) r r' hr hr'
      · cases hr
        cases hr'
        decide
      · cases hr
        cases hr'
        decide
      · cases hr
  · rw [logBytes, logBytes, hlogs]
    exact hcf

end Ulpf.Integrity
