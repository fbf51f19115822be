import Ulpf.Integrity.BatcherRuns

/-!
# Restarts

Accumulators opened one after another on one ledger and one storage directory. Every entry of
the ledger is the entry of an honest flush, whatever faults happen in between, and as long as
the block ids do not wrap no write touches a file that an entry names.
-/

namespace Ulpf.Integrity
open Ulpf.Library

/-- A call of the open accumulator, or its end and the opening of the next one on its store. -/
inductive SessionOp where
  | call (op : BatchOp)
  | reopen (config : BatcherConfig)

variable (sha256 : Bytes → Hash) (overflowChecks : Bool)

/-- The configuration of a successor that works on the store of `acc`. -/
def BatchAccumulator.successorConfig (acc : BatchAccumulator) (config : BatcherConfig) :
    BatcherConfig :=
  { config with storageDir := acc.config.storageDir, ledgerPath := acc.config.ledgerPath }

def SessionOp.step (b : Batcher) : SessionOp → Option Batcher
  | call op => op.step sha256 overflowChecks b
  | reopen config =>
    match BatchAccumulator.new overflowChecks (b.acc.successorConfig config) b.disk with
    | some (.ok acc) => some ⟨acc, b.disk⟩
    | _ => none

/-- What one call may do to the files: it leaves every file named by a ledger entry alone. -/
def SparesAnchored (b : Batcher) (op : SessionOp) : Prop :=
  ∀ b', op.step sha256 overflowChecks b = some b' →
    ∃ written, b'.disk.files = b.disk.files ++ written ∧
      ∀ e ∈ b.acc.inMemoryLedger, ∀ w ∈ written,
        w.path ≠ ⟨b.acc.config.storageDir, e.parquetFile⟩

/-! ### What a call does to the store -/

/-- The writes of a flush of `a` that takes `nextId` go to the file of the current block id; the
ledgers stay, or gain the entry of the flush. -/
structure FlushEffect (a b' : Batcher) (env : FlushEnv) (nextId : UInt64) : Prop where
  nonempty : a.acc.buffer ≠ []
  nextId_eq : nextBlockId overflowChecks a.acc.currentBlockId = some nextId
  config : b'.acc.config = a.acc.config
  currentBlockId : b'.acc.currentBlockId = nextId
  files : ∃ written, b'.disk.files = a.disk.files ++ written ∧
    ∀ w ∈ written, w.path = ⟨a.acc.config.storageDir, blockFileName a.acc.currentBlockId⟩
  ledgers : (b'.disk.ledger = a.disk.ledger ∧ b'.acc.inMemoryLedger = a.acc.inMemoryLedger) ∨
    b' = anchoredState sha256 a env nextId

variable {sha256 overflowChecks} in
/-- A call leaves the state in which it accepts its log, or flushes it. -/
lemma call_effect {b b' : Batcher} {op : BatchOp}
    (hstep : op.step sha256 overflowChecks b = some b') :
    b' = op.accept b ∨
      ∃ nextId, FlushEffect sha256 overflowChecks (op.accept b) b' op.env nextId := by
  unfold BatchOp.step at hstep
  obtain ⟨out, hcall, rfl⟩ := Option.map_eq_some_iff.mp hstep
  rw [BatchOp.call_eq] at hcall
  split_ifs at hcall with hreach
  · cases flushes_of_flush hcall with
    | idle hempty => exact Or.inl rfl
    | unwritten nextId fault hne hid hfault =>
      right
      refine ⟨nextId, hne, hid, rfl, rfl, ?_, Or.inl ⟨rfl, rfl⟩⟩
      unfold abandonedFiles
      split_ifs
      · exact ⟨_, rfl, fun w hw => by rw [List.mem_singleton.mp hw]; rfl⟩
      · exact ⟨[], (List.append_nil _).symm, fun w hw => by cases hw⟩
    | unanchored nextId fault hne hid hstored hfault =>
      right
      refine ⟨nextId, hne, hid, rfl, rfl, ⟨_, rfl, ?_⟩, Or.inl ⟨rfl, rfl⟩⟩
      intro w hw
      rw [List.mem_singleton.mp hw]
      rfl
    | anchored nextId hne hid hok =>
      right
      refine ⟨nextId, hne, hid, rfl, rfl, ⟨_, rfl, ?_⟩, Or.inr rfl⟩
      intro w hw
      rw [List.mem_singleton.mp hw]
      rfl
  · cases hcall
    exact Or.inl rfl

/-! ### The ledger is a list of honest flushes -/

/-- A block and the ledger entry that one flush made of them. -/
def Flushed (storageDir : String) (p : BlockWrite × LedgerEntry) : Prop :=
  ∃ acc env, acc.buffer ≠ [] ∧ acc.config.storageDir = storageDir ∧
    p = (flushedBlock sha256 acc env, flushedEntry sha256 acc env)

/-- The ledger on disk and the one in memory are the entries of `blocks`, which were written. -/
structure Chronicle (dir : String) (blocks : List (BlockWrite × LedgerEntry)) (b : Batcher) :
    Prop where
  storageDir : b.acc.config.storageDir = dir
  written : ∀ p ∈ blocks, p.1 ∈ b.disk.files
  ledger : b.disk.ledgerLines = blocks.map fun p => .entry p.2
  inMemoryLedger : b.acc.inMemoryLedger = blocks.map Prod.snd
  flushed : ∀ p ∈ blocks, Flushed sha256 dir p

variable {sha256 overflowChecks}

lemma Flushed.anchored {storageDir : String} {p : BlockWrite × LedgerEntry}
    (h : Flushed sha256 storageDir p) : Anchored sha256 storageDir p.2.blockId p.1 p.2 := by
  obtain ⟨acc, env, -, rfl, rfl⟩ := h
  exact anchored_flushed acc env

lemma Chronicle.congr {dir : String} {blocks : List (BlockWrite × LedgerEntry)} {b b' : Batcher}
    (h : Chronicle sha256 dir blocks b) (hdir : b'.acc.config.storageDir = b.acc.config.storageDir)
    (hfiles : b.disk.files ⊆ b'.disk.files) (hledger : b'.disk.ledgerLines = b.disk.ledgerLines)
    (hmemory : b'.acc.inMemoryLedger = b.acc.inMemoryLedger) : Chronicle sha256 dir blocks b' where
  storageDir := hdir.trans h.storageDir
  written p hp := hfiles (h.written p hp)
  ledger := hledger.trans h.ledger
  inMemoryLedger := hmemory.trans h.inMemoryLedger
  flushed := h.flushed

lemma Chronicle.abandon {dir : String} {blocks : List (BlockWrite × LedgerEntry)} {a b' : Batcher}
    {env : FlushEnv} {nextId : UInt64} (h : Chronicle sha256 dir blocks a)
    (heffect : FlushEffect sha256 overflowChecks a b' env nextId)
    (hledger : b'.disk.ledger = a.disk.ledger)
    (hmemory : b'.acc.inMemoryLedger = a.acc.inMemoryLedger) : Chronicle sha256 dir blocks b' := by
  obtain ⟨written, hwritten, -⟩ := heffect.files
  apply h.congr
  · rw [heffect.config]
  · rw [hwritten]
    exact List.subset_append_left _ _
  · rw [Disk.ledgerLines, Disk.ledgerLines, hledger]
  · exact hmemory

lemma Chronicle.anchor {dir : String} {blocks : List (BlockWrite × LedgerEntry)} {b : Batcher}
    (h : Chronicle sha256 dir blocks b) (env : FlushEnv) (nextId : UInt64)
    (hne : b.acc.buffer ≠ []) :
    Chronicle sha256 dir
      (blocks ++ [(flushedBlock sha256 b.acc env, flushedEntry sha256 b.acc env)])
      (anchoredState sha256 b env nextId) where
  storageDir := h.storageDir
  written p hp := by
    rcases List.mem_append.mp hp with hold | hnew
    · exact List.mem_append_left _ (h.written p hold)
    · rw [List.mem_singleton.mp hnew]
      exact List.mem_append_right _ (List.mem_singleton_self _)
  ledger := by
    rw [List.map_append, ← h.ledger]
    rfl
  inMemoryLedger := by
    rw [List.map_append, ← h.inMemoryLedger]
    rfl
  flushed p hp := by
    rcases List.mem_append.mp hp with hold | hnew
    · exact h.flushed p hold
    · rw [List.mem_singleton] at hnew
      exact ⟨b.acc, env, hne, h.storageDir, hnew⟩

lemma loadLedgerEntries_entries (entries : List LedgerEntry) (idx : ℕ) :
    loadLedgerEntries (entries.map .entry) idx = .ok entries := by
  induction entries generalizing idx with
  | nil => rfl
  | cons e entries ih =>
    rw [List.map_cons, loadLedgerEntries, ih]
    rfl

/-- The block id with which an accumulator opens on a ledger. -/
def openingId (overflowChecks : Bool) (entries : List LedgerEntry) : Option UInt64 :=
  match entries.getLast? with
  | some entry => nextBlockId overflowChecks entry.blockId
  | none => some 0

lemma new_of_entries (config : BatcherConfig) {disk : Disk} {entries : List LedgerEntry}
    (h : disk.ledgerLines = entries.map .entry) :
    BatchAccumulator.new overflowChecks config disk =
      (openingId overflowChecks entries).map fun id => .ok ⟨config, [], none, id, entries⟩ := by
  unfold BatchAccumulator.new openingId
  cases hledger : disk.ledger with
  | none =>
    rw [Disk.ledgerLines, hledger, Option.getD_none, eq_comm, List.map_eq_nil_iff] at h
    subst h
    rfl
  | some lines =>
    rw [Disk.ledgerLines, hledger, Option.getD_some] at h
    have hload : loadLedgerEntries lines 0 = .ok entries := by rw [h, loadLedgerEntries_entries]
    cases hlast : entries.getLast? <;> simp [hload, hlast]

lemma reopen_eq_some {dir : String} {blocks : List (BlockWrite × LedgerEntry)} {b b' : Batcher}
    (h : Chronicle sha256 dir blocks b) {config : BatcherConfig}
    (hstep : (SessionOp.reopen config).step sha256 overflowChecks b = some b') :
    ∃ id, openingId overflowChecks b.acc.inMemoryLedger = some id ∧
      b' = ⟨⟨b.acc.successorConfig config, [], none, id, b.acc.inMemoryLedger⟩, b.disk⟩ := by
  have hledger : b.disk.ledgerLines = b.acc.inMemoryLedger.map .entry := by
    rw [h.ledger, h.inMemoryLedger, List.map_map]
    rfl
  rw [SessionOp.step, new_of_entries _ hledger] at hstep
  cases hid : openingId overflowChecks b.acc.inMemoryLedger with
  | none => simp [hid] at hstep
  | some id =>
    rw [hid] at hstep
    cases hstep
    exact ⟨id, rfl, rfl⟩

lemma Chronicle.accept {dir : String} {blocks : List (BlockWrite × LedgerEntry)} {b : Batcher}
    (h : Chronicle sha256 dir blocks b) (op : BatchOp) :
    Chronicle sha256 dir blocks (op.accept b) := by
  obtain ⟨hdisk, hconfig, -, hmemory⟩ := op.accept_frame b
  exact h.congr (by rw [hconfig]) (by rw [hdisk]; exact List.Subset.refl _) (by rw [hdisk]) hmemory

lemma Chronicle.call {dir : String} {blocks : List (BlockWrite × LedgerEntry)} {b b' : Batcher}
    (h : Chronicle sha256 dir blocks b) {op : BatchOp}
    (hstep : op.step sha256 overflowChecks b = some b') :
    ∃ blocks', Chronicle sha256 dir blocks' b' := by
  rcases call_effect hstep with rfl | ⟨nextId, heffect⟩
  · exact ⟨blocks, h.accept op⟩
  · rcases heffect.ledgers with ⟨hledger, hmemory⟩ | rfl
    · exact ⟨blocks, (h.accept op).abandon heffect hledger hmemory⟩
    · exact ⟨_, (h.accept op).anchor op.env nextId heffect.nonempty⟩

lemma Chronicle.step {dir : String} {blocks : List (BlockWrite × LedgerEntry)} {b b' : Batcher}
    (h : Chronicle sha256 dir blocks b) {op : SessionOp}
    (hstep : op.step sha256 overflowChecks b = some b') :
    ∃ blocks', Chronicle sha256 dir blocks' b' := by
  cases op with
  | call op => exact h.call hstep
  | reopen config =>
    obtain ⟨id, -, rfl⟩ := reopen_eq_some h hstep
    exact ⟨blocks, h.congr rfl (List.Subset.refl _) rfl rfl⟩

/-- Whatever faults, restarts and wraps a run meets, its ledger is a list of honest flushes. -/
theorem chronicle_of_run {dir : String} {start b : Batcher} {ops : List SessionOp}
    (hstart : Chronicle sha256 dir [] start)
    (hrun : run (SessionOp.step sha256 overflowChecks) start ops = some b) :
    ∃ blocks, Chronicle sha256 dir blocks b := by
  refine run_induction (motive := fun _ b => ∃ blocks, Chronicle sha256 dir blocks b) _
    ⟨[], hstart⟩ ?_ hrun
  rintro done op u v - ⟨blocks, h⟩ hstep
  exact h.step hstep

/-! ### Anchored files -/

lemma fileAt_append_of_ne {files written : List BlockWrite} {path : ParquetPath}
    (h : ∀ w ∈ written, w.path ≠ path) : fileAt (files ++ written) path = fileAt files path := by
  have hnone : written.reverse.find? (fun w => w.path == path) = none := by
    rw [List.find?_eq_none]
    intro w hw
    simpa using h w (List.mem_reverse.mp hw)
  rw [fileAt, List.reverse_append, List.find?_append, hnone, Option.none_or]
  rfl

/-- With the ids of the entries below the next one, and the next one `n` as a number, every
entry's file still holds its block. -/
structure Kept (sha256 : Bytes → Hash) (overflowChecks : Bool) (dir : String)
    (blocks : List (BlockWrite × LedgerEntry)) (b : Batcher) (n : ℕ) : Prop where
  chronicle : Chronicle sha256 dir blocks b
  nextId : b.acc.currentBlockId = UInt64.ofNat n
  below : ∀ p ∈ blocks, p.2.blockId.toNat < n
  sorted : blocks.Pairwise fun p q => p.2.blockId < q.2.blockId
  files : ∀ p ∈ blocks, fileAt b.disk.files p.1.path = some p.1
  noWrap : overflowChecks = true → n < 2 ^ 64

lemma Kept.accept {dir : String} {blocks : List (BlockWrite × LedgerEntry)} {b : Batcher} {n : ℕ}
    (h : Kept sha256 overflowChecks dir blocks b n) (op : BatchOp) :
    Kept sha256 overflowChecks dir blocks (op.accept b) n := by
  obtain ⟨hdisk, -, hid, -⟩ := op.accept_frame b
  exact { h with
    chronicle := h.chronicle.accept op
    nextId := hid.trans h.nextId
    files := hdisk ▸ h.files }

lemma Kept.toNat_currentBlockId {dir : String} {blocks : List (BlockWrite × LedgerEntry)}
    {b : Batcher} {n : ℕ} (h : Kept sha256 overflowChecks dir blocks b n) (hn : n < 2 ^ 64) :
    b.acc.currentBlockId.toNat = n := by
  rw [h.nextId, UInt64.toNat_ofNat']
  exact Nat.mod_eq_of_lt hn

lemma Kept.path_ne {dir : String} {blocks : List (BlockWrite × LedgerEntry)} {b : Batcher} {n : ℕ}
    (h : Kept sha256 overflowChecks dir blocks b n) (hn : n < 2 ^ 64)
    {p : BlockWrite × LedgerEntry} (hp : p ∈ blocks) (storageDir : String) :
    (⟨storageDir, blockFileName b.acc.currentBlockId⟩ : ParquetPath) ≠
      ⟨storageDir, p.2.parquetFile⟩ := by
  intro heq
  have hname := (ParquetPath.mk.inj heq).2
  rw [(h.chronicle.flushed p hp).anchored.parquetFile] at hname
  have hid := congrArg UInt64.toNat (blockFileName_injective hname)
  rw [h.toNat_currentBlockId hn] at hid
  exact absurd (h.below p hp) (by omega)

lemma Kept.flush {dir : String} {blocks : List (BlockWrite × LedgerEntry)} {a b' : Batcher}
    {env : FlushEnv} {nextId : UInt64} {n : ℕ} (h : Kept sha256 overflowChecks dir blocks a n)
    (hn : n < 2 ^ 64) (heffect : FlushEffect sha256 overflowChecks a b' env nextId) :
    ∃ blocks', Kept sha256 overflowChecks dir blocks' b' (n + 1) := by
  have hcurrent := h.toNat_currentBlockId hn
  obtain ⟨hnextId, hlt⟩ := nextBlockId_eq_some heffect.nextId_eq
  have hnext : b'.acc.currentBlockId = UInt64.ofNat (n + 1) := by
    rw [heffect.currentBlockId, hnextId, h.nextId, UInt64.ofNat_add]
    rfl
  have hbelow : ∀ p ∈ blocks, p.2.blockId.toNat < n + 1 :=
    fun p hp => (h.below p hp).trans (Nat.lt_succ_self n)
  have hnoWrap : overflowChecks = true → n + 1 < 2 ^ 64 := hcurrent ▸ hlt
  have hfiles : ∀ p ∈ blocks, fileAt b'.disk.files p.1.path = some p.1 := by
    intro p hp
    obtain ⟨written, hwritten, hpath⟩ := heffect.files
    rw [hwritten, fileAt_append_of_ne, h.files p hp]
    intro w hw
    rw [hpath w hw, (h.chronicle.flushed p hp).anchored.path, ← h.chronicle.storageDir]
    exact h.path_ne hn hp _
  rcases heffect.ledgers with ⟨hledger, hmemory⟩ | rfl
  · exact ⟨blocks, h.chronicle.abandon heffect hledger hmemory, hnext, hbelow, h.sorted, hfiles,
      hnoWrap⟩
  · refine ⟨_, h.chronicle.anchor env nextId heffect.nonempty, hnext, ?_, ?_, ?_, hnoWrap⟩
    · intro p hp
      rcases List.mem_append.mp hp with hold | hnew
      · exact hbelow p hold
      · rw [List.mem_singleton.mp hnew]
        exact hcurrent.trans_lt (Nat.lt_succ_self n)
    · rw [List.pairwise_append]
      refine ⟨h.sorted, List.pairwise_singleton _ _, ?_⟩
      intro p hp q hq
      rw [List.mem_singleton.mp hq, UInt64.lt_iff_toNat_lt]
      exact (h.below p hp).trans_eq hcurrent.symm
    · intro p hp
      rcases List.mem_append.mp hp with hold | hnew
      · exact hfiles p hold
      · rw [List.mem_singleton.mp hnew]
        exact fileAt_of_last rfl (fun w hw => by cases hw)

/-- The number behind the last id of a ledger. -/
def nextNumber (blocks : List (BlockWrite × LedgerEntry)) : ℕ :=
  (blocks.getLast?.map fun p => p.2.blockId.toNat + 1).getD 0

lemma nextNumber_le {blocks : List (BlockWrite × LedgerEntry)} {n : ℕ}
    (h : ∀ p ∈ blocks, p.2.blockId.toNat < n) : nextNumber blocks ≤ n := by
  unfold nextNumber
  cases hlast : blocks.getLast? with
  | none => exact Nat.zero_le n
  | some last => exact h last (List.mem_of_getLast? hlast)

/-- An accumulator goes on behind the last entry, so it may take up ids that failed flushes of its
predecessor have used. -/
lemma kept_of_openingId {dir : String} {blocks : List (BlockWrite × LedgerEntry)} {b : Batcher}
    (h : Chronicle sha256 dir blocks b)
    (hid : openingId overflowChecks b.acc.inMemoryLedger = some b.acc.currentBlockId)
    (hsorted : blocks.Pairwise fun p q => p.2.blockId < q.2.blockId)
    (hfiles : ∀ p ∈ blocks, fileAt b.disk.files p.1.path = some p.1) :
    Kept sha256 overflowChecks dir blocks b (nextNumber blocks) := by
  rw [h.inMemoryLedger] at hid
  rcases List.eq_nil_or_concat blocks with rfl | ⟨earlier, last, rfl⟩
  · exact ⟨h, (Option.some.inj hid).symm, by simp, hsorted, hfiles, fun _ => Nat.two_pow_pos 64⟩
  · rw [List.concat_eq_append] at h hid hsorted hfiles ⊢
    rw [openingId, List.map_append, List.map_singleton, List.getLast?_concat] at hid
    obtain ⟨hnext, hlt⟩ := nextBlockId_eq_some hid
    have hnumber : nextNumber (earlier ++ [last]) = last.2.blockId.toNat + 1 := by
      rw [nextNumber, List.getLast?_concat]
      rfl
    rw [hnumber]
    refine ⟨h, ?_, ?_, hsorted, hfiles, hlt⟩
    · rw [hnext, UInt64.ofNat_add, UInt64.ofNat_toNat]
      rfl
    · intro p hp
      rcases List.mem_append.mp hp with hold | hnew
      · rw [List.pairwise_append] at hsorted
        have hle := UInt64.lt_iff_toNat_lt.mp (hsorted.2.2 p hold last (by simp))
        exact hle.trans (Nat.lt_succ_self _)
      · rw [List.mem_singleton.mp hnew]
        exact Nat.lt_succ_self _

lemma Kept.step {dir : String} {blocks : List (BlockWrite × LedgerEntry)} {b b' : Batcher}
    {op : SessionOp} {n : ℕ} (h : Kept sha256 overflowChecks dir blocks b n) (hn : n < 2 ^ 64)
    (hstep : op.step sha256 overflowChecks b = some b') :
    ∃ blocks' n', n' ≤ n + 1 ∧ Kept sha256 overflowChecks dir blocks' b' n' := by
  cases op with
  | call op =>
    rcases call_effect hstep with rfl | ⟨nextId, heffect⟩
    · exact ⟨blocks, n, Nat.le_succ n, h.accept op⟩
    · obtain ⟨blocks', hkept⟩ := (h.accept op).flush hn heffect
      exact ⟨blocks', n + 1, le_rfl, hkept⟩
  | reopen config =>
    obtain ⟨id, hid, rfl⟩ := reopen_eq_some h.chronicle hstep
    have hchronicle : Chronicle sha256 dir blocks
        ⟨⟨b.acc.successorConfig config, [], none, id, b.acc.inMemoryLedger⟩, b.disk⟩ :=
      h.chronicle.congr rfl (List.Subset.refl _) rfl rfl
    exact ⟨blocks, nextNumber blocks, (nextNumber_le h.below).trans (Nat.le_succ n),
      kept_of_openingId hchronicle hid h.sorted h.files⟩

/-! ### Sessions -/

/-- Every step takes one id at most, so short runs do not wrap. -/
lemma kept_of_run {dir : String} {start b : Batcher} {ops : List SessionOp}
    {prior : List (BlockWrite × LedgerEntry)} {first : ℕ}
    (hstart : Kept sha256 overflowChecks dir prior start first)
    (hwrap : overflowChecks = true ∨ first + ops.length ≤ 2 ^ 64)
    (hrun : run (SessionOp.step sha256 overflowChecks) start ops = some b) :
    ∃ blocks n, n ≤ first + ops.length ∧ Kept sha256 overflowChecks dir blocks b n := by
  refine run_induction (motive := fun done b => overflowChecks = true ∨
    first + done.length ≤ 2 ^ 64 →
      ∃ blocks n, n ≤ first + done.length ∧ Kept sha256 overflowChecks dir blocks b n) _
    (fun _ => ⟨prior, first, le_rfl, hstart⟩) ?_ hrun hwrap
  rintro done op u v - ih hstep hdone
  rw [List.length_append, List.length_singleton] at hdone ⊢
  obtain ⟨blocks, n, hn, h⟩ := ih (hdone.imp_right fun hlen => by omega)
  have hlt : n < 2 ^ 64 := by
    rcases hdone with hchecks | hlen
    · exact h.noWrap hchecks
    · omega
  obtain ⟨blocks', n', hn', h'⟩ := h.step hlt hstep
  exact ⟨blocks', n', by omega, h'⟩

lemma Kept.sparesAnchored {dir : String} {blocks : List (BlockWrite × LedgerEntry)} {b : Batcher}
    {n : ℕ} (h : Kept sha256 overflowChecks dir blocks b n) (hn : n < 2 ^ 64) (op : SessionOp) :
    SparesAnchored sha256 overflowChecks b op := by
  intro b' hstep
  cases op with
  | call op =>
    obtain ⟨hdisk, hconfig, -, -⟩ := op.accept_frame b
    rcases call_effect hstep with rfl | ⟨nextId, heffect⟩
    · exact ⟨[], by rw [hdisk, List.append_nil], fun _ _ _ hw => by cases hw⟩
    · obtain ⟨written, hwritten, hpath⟩ := heffect.files
      refine ⟨written, by rw [hwritten, hdisk], ?_⟩
      intro e he w hw
      rw [h.chronicle.inMemoryLedger] at he
      obtain ⟨p, hp, rfl⟩ := List.mem_map.mp he
      rw [hpath w hw, hconfig]
      exact (h.accept op).path_ne hn hp _
  | reopen config =>
    obtain ⟨id, -, rfl⟩ := reopen_eq_some h.chronicle hstep
    exact ⟨[], (List.append_nil _).symm, fun _ _ _ hw => by cases hw⟩

lemma Chronicle.step_isSome {dir : String} {blocks : List (BlockWrite × LedgerEntry)} {b : Batcher}
    (h : Chronicle sha256 dir blocks b) (op : SessionOp) :
    (op.step sha256 false b).isSome := by
  cases op with
  | call op => exact Ulpf.Integrity.step_isSome b op
  | reopen config =>
    have hledger : b.disk.ledgerLines = b.acc.inMemoryLedger.map .entry := by
      rw [h.ledger, h.inMemoryLedger, List.map_map]
      rfl
    rw [SessionOp.step, new_of_entries _ hledger, openingId]
    cases b.acc.inMemoryLedger.getLast? <;> rfl

lemma Chronicle.run_isSome {dir : String} {blocks : List (BlockWrite × LedgerEntry)}
    {start : Batcher} (h : Chronicle sha256 dir blocks start) (ops : List SessionOp) :
    ∃ b, run (SessionOp.step sha256 false) start ops = some b := by
  apply exists_run_of_invariant (I := fun b => ∃ blocks, Chronicle sha256 dir blocks b)
  · rintro b op ⟨blocks, h⟩
    exact h.step_isSome op
  · rintro b op b' ⟨blocks, h⟩ hstep
    exact h.step hstep
  · exact ⟨blocks, h⟩

/-- A ledger on which accumulators can go on: it lists flushes in the order of their ids, and the
file of each entry holds its block. -/
structure Intact (sha256 : Bytes → Hash) (dir : String) (blocks : List (BlockWrite × LedgerEntry))
    (disk : Disk) : Prop where
  ledger : disk.ledgerLines = blocks.map fun p => .entry p.2
  flushed : ∀ p ∈ blocks, Flushed sha256 dir p
  sorted : blocks.Pairwise fun p q => p.2.blockId < q.2.blockId
  files : ∀ p ∈ blocks, fileAt disk.files p.1.path = some p.1

lemma Intact.kept {config : BatcherConfig} {blocks : List (BlockWrite × LedgerEntry)} {disk : Disk}
    {acc : BatchAccumulator} (h : Intact sha256 config.storageDir blocks disk)
    (hnew : BatchAccumulator.new overflowChecks config disk = some (.ok acc)) :
    Kept sha256 overflowChecks config.storageDir blocks ⟨acc, disk⟩ (nextNumber blocks) := by
  have hlines : disk.ledgerLines = (blocks.map Prod.snd).map .entry := by
    rw [h.ledger, List.map_map]
    rfl
  rw [new_of_entries config hlines, Option.map_eq_some_iff] at hnew
  obtain ⟨id, hid, hacc⟩ := hnew
  cases hacc
  have hwritten : ∀ p ∈ blocks, p.1 ∈ disk.files :=
    fun p hp => List.mem_reverse.mp (List.mem_of_find?_eq_some (h.files p hp))
  exact kept_of_openingId ⟨rfl, hwritten, h.ledger, rfl, h.flushed⟩ hid h.sorted h.files

lemma kept_new {config : BatcherConfig} {disk : Disk} {acc : BatchAccumulator}
    (hfresh : disk.ledgerLines = [])
    (hnew : BatchAccumulator.new overflowChecks config disk = some (.ok acc)) :
    Kept sha256 overflowChecks config.storageDir [] ⟨acc, disk⟩ 0 :=
  Intact.kept ⟨hfresh, by simp, List.Pairwise.nil, by simp⟩ hnew

/-- Over any sequence of accumulators opened on one intact ledger, which may be empty, with any I/O
faults but torn appends, the ledger on disk is the one in memory, its ids increase, no write goes to
the file of an entry, and every entry's file holds the block it anchors, until the steps could wrap
the ids. -/
theorem ledger_survives_restarts (sha256 : Bytes → Hash) (overflowChecks : Bool)
    (config : BatcherConfig) (disk : Disk) (prior : List (BlockWrite × LedgerEntry))
    (hintact : Intact sha256 config.storageDir prior disk) (acc : BatchAccumulator)
    (hnew : BatchAccumulator.new overflowChecks config disk = some (.ok acc))
    (ops : List SessionOp)
    (hwrap : overflowChecks = true ∨ nextNumber prior + ops.length ≤ 2 ^ 64) :
    (overflowChecks = false →
      ∃ b, run (SessionOp.step sha256 overflowChecks) ⟨acc, disk⟩ ops = some b) ∧
    Along (SessionOp.step sha256 overflowChecks) (SparesAnchored sha256 overflowChecks)
      ⟨acc, disk⟩ ops ∧
    ∀ b, run (SessionOp.step sha256 overflowChecks) ⟨acc, disk⟩ ops = some b →
      b.disk.ledgerLines = b.acc.inMemoryLedger.map .entry ∧
      (b.acc.inMemoryLedger.Pairwise fun e f => e.blockId < f.blockId) ∧
      ∀ e ∈ b.acc.inMemoryLedger, ∃ block,
        fileAt b.disk.files ⟨config.storageDir, e.parquetFile⟩ = some block ∧
        Anchored sha256 config.storageDir e.blockId block e := by
  have hstart := hintact.kept hnew
  refine ⟨?_, ?_, ?_⟩
  · rintro rfl
    exact hstart.chronicle.run_isSome ops
  · apply along_of_prefix
    intro done op u hprefix hrun
    have hlen := hprefix.length_le
    rw [List.length_append, List.length_singleton] at hlen
    obtain ⟨blocks, n, hn, h⟩ := kept_of_run hstart (hwrap.imp_right fun _ => by omega) hrun
    refine h.sparesAnchored ?_ op
    rcases hwrap with hchecks | hwrap
    · exact h.noWrap hchecks
    · omega
  · intro b hrun
    obtain ⟨blocks, n, -, h⟩ := kept_of_run hstart hwrap hrun
    have hmemory := h.chronicle.inMemoryLedger
    refine ⟨by rw [h.chronicle.ledger, hmemory, List.map_map]; rfl, ?_, ?_⟩
    · rw [hmemory, List.pairwise_map]
      exact h.sorted
    · intro e he
      rw [hmemory] at he
      obtain ⟨p, hp, rfl⟩ := List.mem_map.mp he
      have hanchored := (h.chronicle.flushed p hp).anchored
      exact ⟨p.1, by rw [← hanchored.path]; exact h.files p hp, hanchored⟩

/-- An accumulator with one log, which is about to take the id. -/
def loneBatch (blockId : UInt64) : Batcher :=
  ⟨⟨{}, [⟨"pfsense", "a", none, none, none⟩], none, blockId, []⟩, [], none⟩

def calmEnv : FlushEnv := ⟨0, fun _ => "", none, none⟩

/-- A ledger of one entry, with its block. -/
def loneDisk (blockId : UInt64) : Disk :=
  (anchoredState sha2 (loneBatch blockId) calmEnv (blockId + 1)).disk

lemma intact_loneDisk (blockId : UInt64) :
    Intact sha2 "data/parquet" [(flushedBlock sha2 (loneBatch blockId).acc calmEnv,
      flushedEntry sha2 (loneBatch blockId).acc calmEnv)] (loneDisk blockId) where
  ledger := rfl
  flushed p hp := ⟨_, _, List.cons_ne_nil _ _, rfl, List.mem_singleton.mp hp⟩
  sorted := List.pairwise_singleton _ _
  files p hp := by
    rw [List.mem_singleton.mp hp]
    exact fileAt_of_last (List.nil_append [_]).symm (fun w hw => by cases hw)

/-- Behind an earlier block: a flush whose append fails, a restart, and a second flush. -/
theorem ledger_survives_restarts_gap :
    let push : BatchOp := .push ⟨"pfsense", "a", none, none, none⟩ 0 0 calmEnv
    let ops : List SessionOp := [.call push,
      .call (.flush { calmEnv with ledgerFault := some .append }), .reopen {}, .call push,
      .call (.flush calmEnv)]
    ∃ acc b, run (SessionOp.step sha2 false) ⟨acc, loneDisk 6⟩ ops = some b ∧
      b.disk.ledgerLines = b.acc.inMemoryLedger.map .entry := by
  intro push ops
  obtain ⟨hruns, -, h⟩ := ledger_survives_restarts sha2 false {} (loneDisk 6) _
    (intact_loneDisk 6) _ rfl ops (Or.inr (by decide))
  obtain ⟨b, hb⟩ := hruns rfl
  exact ⟨_, b, hb, (h b hb).1⟩

/-- Behind the last block id of all, a release build goes on with zero. -/
theorem wrapped_ids_not_increasing :
    let push : SessionOp := .call (.push ⟨"pfsense", "b", none, none, none⟩ 0 0 calmEnv)
    ∃ prior acc b, Intact sha2 "data/parquet" prior (loneDisk 18446744073709551615) ∧
      BatchAccumulator.new false { maxBatchSize := 1 } (loneDisk 18446744073709551615) =
        some (.ok acc) ∧
      run (SessionOp.step sha2 false) ⟨acc, loneDisk 18446744073709551615⟩ [push] = some b ∧
      ¬b.acc.inMemoryLedger.Pairwise fun e f => e.blockId < f.blockId := by
  intro push
  let last : LedgerEntry := flushedEntry sha2 (loneBatch 18446744073709551615).acc calmEnv
  let acc : BatchAccumulator := ⟨{ maxBatchSize := 1 }, [], none, 0, [last]⟩
  let b : Batcher := ingest ⟨acc, loneDisk 18446744073709551615⟩
    ⟨"pfsense", "b", none, none, none⟩ 0
  refine ⟨_, acc, anchoredState sha2 b calmEnv 1, intact_loneDisk _, rfl, rfl, ?_⟩
  intro hsorted
  have hids : [(18446744073709551615 : UInt64), 0].Pairwise (· < ·) :=
    List.pairwise_map.mpr hsorted
  rw [List.pairwise_pair] at hids
  exact absurd hids (by decide)

end Ulpf.Integrity
