import Mathlib.Order.MinMax
import Ulpf.Integrity.Batcher

/-!
# Bounds of the buffer and of the blocks

The timer is set where a log enters an empty buffer, and cleared where the buffer is moved out,
before the block is written. So whatever the disk answers, the timer runs exactly while logs
are pending. The count trigger is judged after every log, which bounds the buffer and the block.
-/

namespace Ulpf.Integrity
open Ulpf.Library

/-- The count at which a buffer is flushed at the latest; a threshold of zero acts as one. -/
def BatcherConfig.limit (config : BatcherConfig) : ℕ := max 1 config.maxBatchSize

/-- The timer runs exactly while logs are pending, and fewer logs are pending than would
trigger a flush. -/
structure WithinBounds (config : BatcherConfig) (acc : BatchAccumulator) : Prop where
  configured : acc.config = config
  timer : acc.firstItemTime.isSome ↔ acc.buffer ≠ []
  pending : acc.buffer.length < config.limit

/-- The block holds at least one record, and no more than the limit. -/
def BlockBounded (config : BatcherConfig) (block : BlockWrite) : Prop :=
  1 ≤ block.records.length ∧ block.records.length ≤ config.limit

section Call

variable {sha256 : Bytes → Hash} {overflowChecks : Bool} {config : BatcherConfig} {b : Batcher}

lemma limit_pos (config : BatcherConfig) : 0 < config.limit :=
  Nat.one_pos.trans_le (le_max_left 1 config.maxBatchSize)

lemma withinBounds_drained {acc : BatchAccumulator} (h : acc.config = config) (nextId : UInt64) :
    WithinBounds config (acc.drained nextId) where
  configured := h
  timer := by simp [BatchAccumulator.drained]
  pending := limit_pos config

lemma length_flushedBlock (acc : BatchAccumulator) (env : FlushEnv) :
    (flushedBlock sha256 acc env).records.length = acc.buffer.length :=
  List.length_mapIdx

lemma timer_accept (h : WithinBounds config b.acc) (op : BatchOp) :
    (op.accept b).acc.firstItemTime.isSome ↔ (op.accept b).acc.buffer ≠ [] := by
  cases op with
  | push log startedAt checkedAt env =>
    have hne : (BatchOp.accept b (.push log startedAt checkedAt env)).acc.buffer ≠ [] := by
      rw [BatchOp.buffer_accept]
      exact List.append_ne_nil_of_right_ne_nil _ (List.cons_ne_nil log [])
    refine iff_of_true ?_ hne
    unfold BatchOp.accept ingest
    split_ifs with hempty
    · rfl
    · exact h.timer.mpr fun hnil => hempty (List.isEmpty_iff.mpr hnil)
  | checkTimeout checkedAt env => exact h.timer
  | flush env => exact h.timer

lemma length_accept_le (h : WithinBounds config b.acc) (op : BatchOp) :
    (op.accept b).acc.buffer.length ≤ config.limit := by
  have hpending := h.pending
  have hpushed : op.pushed.length ≤ 1 := by
    cases op <;> simp [BatchOp.pushed]
  rw [BatchOp.buffer_accept, List.length_append]
  omega

lemma length_accept_lt (h : WithinBounds config b.acc) {op : BatchOp}
    (hstays : op.reachesFlush b = false) : (op.accept b).acc.buffer.length < config.limit := by
  cases op with
  | push log startedAt checkedAt env =>
    have hconfig : (ingest b log startedAt).acc.config = config :=
      (BatchOp.accept_frame b (.push log startedAt checkedAt env)).2.1.trans h.configured
    change (ingest b log startedAt).acc.shouldFlush checkedAt = false at hstays
    unfold BatchAccumulator.shouldFlush at hstays
    split_ifs at hstays with hempty
    · change (ingest b log startedAt).acc.buffer.length < config.limit
      rw [List.isEmpty_iff.mp hempty]
      exact limit_pos config
    · rw [Bool.or_eq_false_iff, decide_eq_false_iff_not, not_le, hconfig] at hstays
      exact hstays.1.trans_le (le_max_right 1 config.maxBatchSize)
  | checkTimeout checkedAt env => exact h.pending
  | flush env => exact h.pending

lemma blockBounded_flushed (h : WithinBounds config b.acc) {op : BatchOp}
    (hne : (op.accept b).acc.buffer ≠ []) (env : FlushEnv) :
    BlockBounded config (flushedBlock sha256 (op.accept b).acc env) := by
  unfold BlockBounded
  rw [length_flushedBlock]
  exact ⟨List.length_pos_iff.mpr hne, length_accept_le h op⟩

/-- What a call keeps, with or without faults: the bounds of the accumulator and those of the
block it writes, if it writes one. -/
lemma WithinBounds.step {b' : Batcher} (h : WithinBounds config b.acc) {op : BatchOp}
    (hstep : op.step sha256 overflowChecks b = some b') :
    WithinBounds config b'.acc ∧ ∃ written, b'.disk.files = b.disk.files ++ written ∧
      ∀ block ∈ written, BlockBounded config block := by
  obtain ⟨out, hcall, rfl⟩ := Option.map_eq_some_iff.mp hstep
  obtain ⟨hdisk, hframe, -, -⟩ := op.accept_frame b
  have hconfig : (op.accept b).acc.config = config := hframe.trans h.configured
  rw [BatchOp.call_eq] at hcall
  split_ifs at hcall with hreach
  · rw [← hdisk]
    cases flushes_of_flush hcall with
    | idle hempty =>
      refine ⟨⟨hconfig, timer_accept h op, ?_⟩, [], (List.append_nil _).symm, by simp⟩
      rw [hempty]
      exact limit_pos config
    | unwritten nextId fault hne hid hfault =>
      refine ⟨withinBounds_drained hconfig nextId, ?_⟩
      dsimp only [abandonedFiles]
      split_ifs
      · refine ⟨_, rfl, ?_⟩
        rintro block hblock
        rw [List.mem_singleton.mp hblock]
        exact blockBounded_flushed h hne op.env
      · exact ⟨[], (List.append_nil _).symm, by simp⟩
    | unanchored nextId fault hne hid hstored hfault =>
      refine ⟨withinBounds_drained hconfig nextId, _, rfl, ?_⟩
      rintro block hblock
      rw [List.mem_singleton.mp hblock]
      exact blockBounded_flushed h hne op.env
    | anchored nextId hne hid hok =>
      have hdrained := withinBounds_drained hconfig nextId
      refine ⟨⟨hconfig, hdrained.timer, hdrained.pending⟩, _, rfl, ?_⟩
      rintro block hblock
      rw [List.mem_singleton.mp hblock]
      exact blockBounded_flushed h hne op.env
  · cases hcall
    rw [← hdisk]
    refine ⟨⟨hconfig, timer_accept h op, ?_⟩, [], (List.append_nil _).symm, by simp⟩
    exact length_accept_lt h (Bool.eq_false_of_not_eq_true hreach)

end Call

lemma withinBounds_new {overflowChecks : Bool} {config : BatcherConfig} {disk : Disk}
    {acc : BatchAccumulator}
    (hnew : BatchAccumulator.new overflowChecks config disk = some (.ok acc)) :
    WithinBounds config acc := by
  unfold BatchAccumulator.new at hnew
  dsimp only at hnew
  split at hnew
  · cases hnew
  · obtain ⟨blockId, -, heq⟩ := Option.map_eq_some_iff.mp hnew
    cases heq
    exact ⟨rfl, by simp, limit_pos config⟩

/-- After every call of a run, with any I/O faults but torn appends, the timer is set exactly while
logs are pending, fewer logs are pending than the limit, and every block written has at least one
record and at most the limit. -/
theorem batch_bounds (sha256 : Bytes → Hash) (overflowChecks : Bool) (config : BatcherConfig)
    (disk : Disk) (acc : BatchAccumulator)
    (hnew : BatchAccumulator.new overflowChecks config disk = some (.ok acc)) (ops : List BatchOp)
    (b : Batcher) (hrun : run (BatchOp.step sha256 overflowChecks) ⟨acc, disk⟩ ops = some b) :
    (b.acc.firstItemTime.isSome ↔ b.acc.buffer ≠ []) ∧
      b.acc.buffer.length < max 1 config.maxBatchSize ∧
      ∃ written, b.disk.files = disk.files ++ written ∧ ∀ block ∈ written,
        1 ≤ block.records.length ∧ block.records.length ≤ max 1 config.maxBatchSize := by
  have hkept : WithinBounds config b.acc ∧ ∃ written, b.disk.files = disk.files ++ written ∧
      ∀ block ∈ written, BlockBounded config block := by
    refine run_induction (motive := fun _ b => WithinBounds config b.acc ∧
      ∃ written, b.disk.files = disk.files ++ written ∧
        ∀ block ∈ written, BlockBounded config block) _ ?_ ?_ hrun
    · exact ⟨withinBounds_new hnew, [], (List.append_nil _).symm, by simp⟩
    · rintro done op u v - ⟨hbounds, written, hfiles, hwritten⟩ hstep
      obtain ⟨hbounds', more, hmore, hblocks⟩ := hbounds.step hstep
      refine ⟨hbounds', written ++ more, ?_, ?_⟩
      · rw [hmore, hfiles, List.append_assoc]
      · intro block hblock
        exact (List.mem_append.mp hblock).elim (hwritten block) (hblocks block)
  exact ⟨hkept.1.timer, hkept.1.pending, hkept.2⟩

/-- With a threshold of zero a log whose block cannot be created leaves nothing pending. -/
theorem batch_bounds_zero :
    ∃ acc b, BatchAccumulator.new false { maxBatchSize := 0 } ⟨[], none⟩ = some (.ok acc) ∧
      run (BatchOp.step sha2 false) ⟨acc, [], none⟩
        [.push ⟨"pfsense", "a", none, none, none⟩ 0 0
          ⟨0, fun _ => "", some .createFile, none⟩] = some b ∧
      (b.acc.firstItemTime.isSome ↔ b.acc.buffer ≠ []) := by
  refine ⟨_, _, rfl, rfl, ?_⟩
  exact (batch_bounds sha2 false { maxBatchSize := 0 } ⟨[], none⟩ _ rfl
    [.push ⟨"pfsense", "a", none, none, none⟩ 0 0 ⟨0, fun _ => "", some .createFile, none⟩] _
    rfl).1

end Ulpf.Integrity
