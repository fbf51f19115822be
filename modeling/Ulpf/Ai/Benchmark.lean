import Mathlib.Algebra.Order.BigOperators.Group.List
import Mathlib.Algebra.Order.Monoid.NatCast
import Ulpf.Core.Text
import Ulpf.Library.Accounting
import Ulpf.Library.RoundRobin

/-!
# The benchmark workers

The threads of an isolated benchmark pass walk the corpus in turn, count logs and bytes of their
own, and add them to the shared totals in blocks of 1024 logs. The main thread starts them, sleeps,
sets the stop signal and joins them. Each atomic operation is a step.
-/

namespace Ulpf.Ai
open Ulpf.Library Ulpf.Core

/-! ### The steps -/

/-- The shared counters, the stop signal and how many threads the main thread has started. -/
structure Benchmark where
  stopSignal : Bool
  totalCount : ℕ
  totalBytes : ℕ
  spawned : ℕ

def Benchmark.new : Benchmark := ⟨false, 0, 0, 0⟩

/-- The operation that a worker does next. -/
inductive BenchmarkWorker.Phase where
  | loading
  | parsing
  | addingCount
  | addingBytes
  | leavingCount
  | leavingBytes
  | finished
  | panicked
deriving DecidableEq

/-- Each block of 1024 logs is added to the totals at once. -/
def BenchmarkWorker.Phase.afterLog (localCount : ℕ) : BenchmarkWorker.Phase :=
  if localCount % 1024 = 0 then .addingCount else .loading

structure BenchmarkWorker where
  workerId : ℕ
  idx : ℕ
  localCount : ℕ
  localBytes : ℕ
  phase : BenchmarkWorker.Phase

/-- What a step depends on: whether a relaxed load sees the store of the stop signal, and whether
the engine panics on the log. -/
structure BenchmarkReading where
  seesStop : Bool
  panics : Bool

namespace BenchmarkWorker

def start (workerId : ℕ) : BenchmarkWorker := ⟨workerId, workerId, 0, 0, .loading⟩

/-- One operation of the closure that `thread::spawn` runs. A panic ends the thread only, since
the result of `join` is dropped. -/
def advance (corpus : List Text) (b : Benchmark) (w : BenchmarkWorker) (r : BenchmarkReading) :
    Option (Benchmark × BenchmarkWorker) :=
  match w.phase with
  | .loading =>
    some (b, { w with phase := if b.stopSignal && r.seesStop then .leavingCount else .parsing })
  | .parsing =>
    -- The remainder of an empty corpus is a division by zero.
    match corpus[w.idx % corpus.length]? with
    | none => some (b, { w with phase := .panicked })
    | some raw =>
      if r.panics then some (b, { w with phase := .panicked })
      else some (b,
        { w with
          idx := w.idx + 1
          localCount := w.localCount + 1
          localBytes := w.localBytes + utf8Len raw
          phase := .afterLog (w.localCount + 1) })
  | .addingCount =>
    some ({ b with totalCount := b.totalCount + 1024 }, { w with phase := .addingBytes })
  | .addingBytes =>
    some ({ b with totalBytes := b.totalBytes + w.localBytes },
      { w with localBytes := 0, phase := .loading })
  | .leavingCount =>
    some ({ b with totalCount := b.totalCount + w.localCount % 1024 },
      { w with phase := .leavingBytes })
  | .leavingBytes =>
    some ({ b with totalBytes := b.totalBytes + w.localBytes }, { w with phase := .finished })
  | .finished => none
  | .panicked => none

end BenchmarkWorker

/-- The main thread starts one worker after another, and then sets the stop signal once. -/
def benchmarkMachine (corpus : List Text) (threads : ℕ) :
    Machine Benchmark BenchmarkWorker Unit BenchmarkReading Unit where
  enter b _ := if b.spawned < threads then
      some ({ b with spawned := b.spawned + 1 }, .start b.spawned)
    else none
  advance := BenchmarkWorker.advance corpus
  signal b _ := if b.spawned = threads ∧ b.stopSignal = false then
      some { b with stopSignal := true }
    else none

abbrev BenchmarkRun := Interleaved Benchmark BenchmarkWorker

/-- The bytes of the logs that have their turn. -/
def turnBytes (corpus : List Text) (first count : ℕ) : ℕ :=
  ((roundRobin corpus first count).map utf8Len).sum

lemma turnBytes_zero (corpus : List Text) (first : ℕ) : turnBytes corpus first 0 = 0 := rfl

lemma turnBytes_succ {corpus : List Text} {first count : ℕ} {raw : Text}
    (h : corpus[(first + count) % corpus.length]? = some raw) :
    turnBytes corpus first (count + 1) = turnBytes corpus first count + utf8Len raw := by
  have hone : roundRobin corpus (first + count) 1 = [raw] := by
    simp [roundRobin, turns, h]
  rw [turnBytes, turnBytes, roundRobin_add, hone, List.map_append, List.sum_append,
    List.map_singleton, List.sum_singleton]

/-! ### What a worker has added -/

/-- The logs that a worker has added to the total, of those it has counted. -/
def BenchmarkWorker.Phase.countAdded : BenchmarkWorker.Phase → ℕ → ℕ
  | .loading, n => n / 1024 * 1024
  | .parsing, n => n / 1024 * 1024
  | .addingCount, n => (n - 1) / 1024 * 1024
  | .addingBytes, n => n
  | .leavingCount, n => n / 1024 * 1024
  | .leavingBytes, n => n
  | .finished, n => n
  | .panicked, n => n / 1024 * 1024

/-- The logs whose bytes a worker has added to the total. -/
def BenchmarkWorker.Phase.bytesAdded : BenchmarkWorker.Phase → ℕ → ℕ
  | .loading, n => n / 1024 * 1024
  | .parsing, n => n / 1024 * 1024
  | .addingCount, n => (n - 1) / 1024 * 1024
  | .addingBytes, n => (n - 1) / 1024 * 1024
  | .leavingCount, n => n / 1024 * 1024
  | .leavingBytes, n => n / 1024 * 1024
  | .finished, n => n
  | .panicked, n => n / 1024 * 1024

namespace BenchmarkWorker

def countAdded (w : BenchmarkWorker) : ℕ := w.phase.countAdded w.localCount

def bytesAdded (corpus : List Text) (w : BenchmarkWorker) : ℕ :=
  turnBytes corpus w.workerId (w.phase.bytesAdded w.localCount)

/-- The local counters are those of the turns taken, less what was added in blocks. -/
structure Counts (corpus : List Text) (w : BenchmarkWorker) : Prop where
  idx : w.idx = w.workerId + w.localCount
  blocks : w.phase = .addingCount ∨ w.phase = .addingBytes →
    0 < w.localCount ∧ w.localCount % 1024 = 0
  bytes : w.phase ≠ .finished →
    w.bytesAdded corpus + w.localBytes = turnBytes corpus w.workerId w.localCount

/-- What a step does to the totals it does to the parts of the worker. -/
structure Adds (corpus : List Text) (b b' : Benchmark) (w w' : BenchmarkWorker) : Prop where
  counts : w'.Counts corpus
  count : b'.totalCount + w.countAdded = b.totalCount + w'.countAdded
  bytes : b'.totalBytes + w.bytesAdded corpus = b.totalBytes + w'.bytesAdded corpus

variable {corpus : List Text} {b b' : Benchmark} {w w' : BenchmarkWorker} {r : BenchmarkReading}

lemma counts_start (corpus : List Text) (workerId : ℕ) : (start workerId).Counts corpus where
  idx := rfl
  blocks h := by
    rcases h with h | h
    · cases h
    · cases h
  bytes _ := by simp [bytesAdded, start, Phase.bytesAdded, turnBytes_zero]

lemma Counts.adds_of_phase (h : w.Counts corpus) {phase : Phase} (hne : w.phase ≠ .finished)
    (hblocks : phase ≠ .addingCount ∧ phase ≠ .addingBytes)
    (hcount : phase.countAdded w.localCount = w.phase.countAdded w.localCount)
    (hbytes : phase.bytesAdded w.localCount = w.phase.bytesAdded w.localCount) :
    Adds corpus b b w { w with phase := phase } := by
  have hsame : bytesAdded corpus { w with phase := phase } = w.bytesAdded corpus := by
    rw [bytesAdded, bytesAdded, hbytes]
  refine ⟨⟨h.idx, ?_, fun _ => ?_⟩, ?_, ?_⟩
  · rintro (hphase | hphase)
    · exact absurd hphase hblocks.1
    · exact absurd hphase hblocks.2
  · rw [hsame]
    exact h.bytes hne
  · rw [countAdded, countAdded, hcount]
  · rw [hsame]

lemma countAdded_afterLog (n : ℕ) :
    (Phase.afterLog (n + 1)).countAdded (n + 1) = n / 1024 * 1024 := by
  rw [Phase.afterLog]
  split_ifs
  · rw [Phase.countAdded]
    omega
  · rw [Phase.countAdded]
    omega

lemma bytesAdded_afterLog (n : ℕ) :
    (Phase.afterLog (n + 1)).bytesAdded (n + 1) = n / 1024 * 1024 := by
  rw [Phase.afterLog]
  split_ifs
  · rw [Phase.bytesAdded]
    omega
  · rw [Phase.bytesAdded]
    omega

lemma mod_eq_zero_of_afterLog {n : ℕ}
    (h : Phase.afterLog n = .addingCount ∨ Phase.afterLog n = .addingBytes) : n % 1024 = 0 := by
  by_contra hblock
  rw [Phase.afterLog, if_neg hblock] at h
  simp at h

lemma Counts.adds_of_parsed (h : w.Counts corpus) (hphase : w.phase = .parsing) {raw : Text}
    (hraw : corpus[w.idx % corpus.length]? = some raw) :
    Adds corpus b b w
      { w with
        idx := w.idx + 1
        localCount := w.localCount + 1
        localBytes := w.localBytes + utf8Len raw
        phase := .afterLog (w.localCount + 1) } := by
  have hbytes := h.bytes (by simp [hphase])
  have hsucc : turnBytes corpus w.workerId (w.localCount + 1) =
      turnBytes corpus w.workerId w.localCount + utf8Len raw := by
    rw [h.idx] at hraw
    exact turnBytes_succ hraw
  have hcount := countAdded_afterLog w.localCount
  have hadded := bytesAdded_afterLog w.localCount
  refine ⟨⟨?_, ?_, fun _ => ?_⟩, ?_, ?_⟩
  · rw [h.idx, Nat.add_assoc]
  · intro hadding
    exact ⟨Nat.succ_pos _, mod_eq_zero_of_afterLog hadding⟩
  · rw [bytesAdded, hphase] at hbytes
    rw [bytesAdded, hadded, hsucc, ← hbytes, Nat.add_assoc]
    rfl
  · rw [countAdded, countAdded, hcount, hphase]
    rfl
  · rw [bytesAdded, bytesAdded, hadded, hphase]
    rfl

lemma adds_of_advance (h : w.Counts corpus) (hstep : advance corpus b w r = some (b', w')) :
    Adds corpus b b' w w' := by
  cases hphase : w.phase with
  | loading =>
    simp only [advance, hphase] at hstep
    cases hstep
    split_ifs
    · exact h.adds_of_phase (by simp [hphase]) (by simp) (by rw [hphase]; rfl) (by rw [hphase]; rfl)
    · exact h.adds_of_phase (by simp [hphase]) (by simp) (by rw [hphase]; rfl) (by rw [hphase]; rfl)
  | parsing =>
    have hpanicked : Adds corpus b b w { w with phase := .panicked } :=
      h.adds_of_phase (by simp [hphase]) (by simp) (by rw [hphase]; rfl) (by rw [hphase]; rfl)
    simp only [advance, hphase] at hstep
    split at hstep
    · cases hstep
      exact hpanicked
    · next raw hraw =>
      split_ifs at hstep with hpanics
      · cases hstep
        exact hpanicked
      · cases hstep
        exact h.adds_of_parsed hphase hraw
  | addingCount =>
    obtain ⟨hpos, hblock⟩ := h.blocks (Or.inl hphase)
    have hbytes := h.bytes (by simp [hphase])
    simp only [advance, hphase] at hstep
    cases hstep
    refine ⟨⟨h.idx, fun _ => ⟨hpos, hblock⟩, fun _ => ?_⟩, ?_, ?_⟩
    · rw [bytesAdded, hphase] at hbytes
      exact hbytes
    · simp only [countAdded, hphase, Phase.countAdded]
      omega
    · simp only [bytesAdded, hphase, Phase.bytesAdded]
  | addingBytes =>
    obtain ⟨hpos, hblock⟩ := h.blocks (Or.inr hphase)
    have hbytes := h.bytes (by simp [hphase])
    have hwhole : w.localCount / 1024 * 1024 = w.localCount := by omega
    simp only [advance, hphase] at hstep
    cases hstep
    refine ⟨⟨h.idx, by simp, fun _ => ?_⟩, ?_, ?_⟩
    · simp only [bytesAdded, Phase.bytesAdded]
      rw [hwhole, Nat.add_zero]
    · simp only [countAdded, hphase, Phase.countAdded]
      rw [hwhole]
    · simp only [bytesAdded, hphase, Phase.bytesAdded] at hbytes ⊢
      rw [hwhole]
      omega
  | leavingCount =>
    have hbytes := h.bytes (by simp [hphase])
    simp only [advance, hphase] at hstep
    cases hstep
    refine ⟨⟨h.idx, by simp, fun _ => ?_⟩, ?_, ?_⟩
    · rw [bytesAdded, hphase] at hbytes
      exact hbytes
    · simp only [countAdded, hphase, Phase.countAdded]
      omega
    · simp only [bytesAdded, hphase, Phase.bytesAdded]
  | leavingBytes =>
    have hbytes := h.bytes (by simp [hphase])
    simp only [advance, hphase] at hstep
    cases hstep
    refine ⟨⟨h.idx, by simp, fun hne => absurd rfl hne⟩, ?_, ?_⟩
    · simp only [countAdded, hphase, Phase.countAdded]
    · simp only [bytesAdded, hphase, Phase.bytesAdded] at hbytes ⊢
      omega
  | finished =>
    simp only [advance, hphase] at hstep
    cases hstep
  | panicked =>
    simp only [advance, hphase] at hstep
    cases hstep

lemma frame_of_advance (hstep : advance corpus b w r = some (b', w')) :
    w'.workerId = w.workerId ∧ b'.spawned = b.spawned ∧ b'.stopSignal = b.stopSignal := by
  cases hphase : w.phase with
  | parsing =>
    simp only [advance, hphase] at hstep
    split at hstep
    · cases hstep
      exact ⟨rfl, rfl, rfl⟩
    · split at hstep
      · cases hstep
        exact ⟨rfl, rfl, rfl⟩
      · cases hstep
        exact ⟨rfl, rfl, rfl⟩
  | loading | addingCount | addingBytes | leavingCount | leavingBytes =>
    simp only [advance, hphase] at hstep
    cases hstep
    exact ⟨rfl, rfl, rfl⟩
  | finished | panicked =>
    simp only [advance, hphase] at hstep
    cases hstep

/-! ### How a worker ends -/

def Phase.HasEnded (phase : Phase) : Prop := phase = .finished ∨ phase = .panicked

/-- How many operations a worker has left, once it sees the stop signal. -/
def Phase.rank : Phase → ℕ
  | .parsing => 6
  | .addingCount => 5
  | .addingBytes => 4
  | .loading => 3
  | .leavingCount => 2
  | .leavingBytes => 1
  | .finished => 0
  | .panicked => 0

lemma Phase.rank_le (phase : Phase) : phase.rank ≤ 6 := by
  cases phase <;> simp [Phase.rank]

lemma rank_lt_of_advance (hstop : b.stopSignal = true) (hsees : r.seesStop = true)
    (hstep : advance corpus b w r = some (b', w')) : w'.phase.rank < w.phase.rank := by
  cases hphase : w.phase with
  | loading =>
    simp only [advance, hphase, hstop, hsees] at hstep
    cases hstep
    simp [Phase.rank]
  | parsing =>
    simp only [advance, hphase] at hstep
    split at hstep
    · cases hstep
      simp [Phase.rank]
    · split at hstep
      · cases hstep
        simp [Phase.rank]
      · cases hstep
        dsimp only
        rw [Phase.afterLog]
        split
        · simp [Phase.rank]
        · simp [Phase.rank]
  | addingCount | addingBytes | leavingCount | leavingBytes =>
    simp only [advance, hphase] at hstep
    cases hstep
    simp [Phase.rank]
  | finished | panicked =>
    simp only [advance, hphase] at hstep
    cases hstep

lemma advance_eq_none_iff : (∀ r, advance corpus b w r = none) ↔ w.phase.HasEnded := by
  constructor
  · intro h
    have hnone := h ⟨true, true⟩
    cases hphase : w.phase with
    | parsing =>
      simp only [advance, hphase] at hnone
      split at hnone
      · cases hnone
      · cases hnone
    | loading | addingCount | addingBytes | leavingCount | leavingBytes =>
      simp only [advance, hphase] at hnone
      cases hnone
    | finished => exact Or.inl rfl
    | panicked => exact Or.inr rfl
  · rintro (hphase | hphase) r
    · simp only [advance, hphase]
    · simp only [advance, hphase]

/-- The logs of a worker that the totals count in the end. A worker that panics does not come to
add those of its last block. -/
def logsCounted (w : BenchmarkWorker) : ℕ :=
  if w.phase = .panicked then w.localCount / 1024 * 1024 else w.localCount

lemma countAdded_of_hasEnded (h : w.phase.HasEnded) : w.countAdded = w.logsCounted := by
  rcases h with hphase | hphase
  · rw [logsCounted, if_neg (by simp [hphase]), countAdded, hphase]
    rfl
  · rw [logsCounted, if_pos hphase, countAdded, hphase]
    rfl

lemma bytesAdded_of_hasEnded (h : w.phase.HasEnded) :
    w.bytesAdded corpus = turnBytes corpus w.workerId w.logsCounted := by
  rcases h with hphase | hphase
  · rw [logsCounted, if_neg (by simp [hphase]), bytesAdded, hphase]
    rfl
  · rw [logsCounted, if_pos hphase, bytesAdded, hphase]
    rfl

lemma countAdded_le (w : BenchmarkWorker) :
    w.countAdded ≤ w.localCount ∧ w.localCount ≤ w.countAdded + 1024 := by
  rw [countAdded]
  cases w.phase with
  | loading | parsing | leavingCount | panicked =>
    simp only [Phase.countAdded]
    omega
  | addingCount =>
    simp only [Phase.countAdded]
    omega
  | addingBytes | leavingBytes | finished =>
    simp only [Phase.countAdded]
    omega

end BenchmarkWorker

/-! ### The whole pass -/

section Pass

variable {corpus : List Text} {threads : ℕ} {s t : BenchmarkRun}
  {turns : List (Turn Unit BenchmarkReading Unit)}

lemma keeps_counts (corpus : List Text) (threads : ℕ) :
    (benchmarkMachine corpus threads).Keeps (BenchmarkWorker.Counts corpus) where
  enter h := by
    obtain ⟨-, h⟩ := Option.ite_none_right_eq_some.mp h
    cases h
    exact BenchmarkWorker.counts_start corpus _
  advance hcounts h := (BenchmarkWorker.adds_of_advance hcounts h).counts

lemma balanced_count (corpus : List Text) (threads : ℕ) :
    (benchmarkMachine corpus threads).Balanced (BenchmarkWorker.Counts corpus)
      Benchmark.totalCount BenchmarkWorker.countAdded where
  enter h := by
    obtain ⟨-, h⟩ := Option.ite_none_right_eq_some.mp h
    cases h
    simp [BenchmarkWorker.countAdded, BenchmarkWorker.start, BenchmarkWorker.Phase.countAdded]
  advance hcounts h := (BenchmarkWorker.adds_of_advance hcounts h).count
  signal h := by
    obtain ⟨-, h⟩ := Option.ite_none_right_eq_some.mp h
    cases h
    rfl

lemma balanced_bytes (corpus : List Text) (threads : ℕ) :
    (benchmarkMachine corpus threads).Balanced (BenchmarkWorker.Counts corpus)
      Benchmark.totalBytes (BenchmarkWorker.bytesAdded corpus) where
  enter h := by
    obtain ⟨-, h⟩ := Option.ite_none_right_eq_some.mp h
    cases h
    simp [BenchmarkWorker.bytesAdded, BenchmarkWorker.start, BenchmarkWorker.Phase.bytesAdded,
      turnBytes_zero]
  advance hcounts h := (BenchmarkWorker.adds_of_advance hcounts h).bytes
  signal h := by
    obtain ⟨-, h⟩ := Option.ite_none_right_eq_some.mp h
    cases h
    rfl

/-- The workers are those that the main thread has started, and it sets the stop signal when it
has started all. -/
structure Spawned (threads : ℕ) (s : BenchmarkRun) : Prop where
  workerIds : s.calls.map BenchmarkWorker.workerId = List.range s.shared.spawned
  le : s.shared.spawned ≤ threads
  all : s.shared.stopSignal = true → s.shared.spawned = threads

lemma Spawned.length (h : Spawned threads s) : s.calls.length = s.shared.spawned := by
  rw [← List.length_map (f := BenchmarkWorker.workerId), h.workerIds, List.length_range]

lemma Spawned.step (h : Spawned threads s) {turn : Turn Unit BenchmarkReading Unit}
    (hstep : (benchmarkMachine corpus threads).step s turn = some t) : Spawned threads t := by
  cases turn with
  | enter entry =>
    obtain ⟨out, hout, rfl⟩ := Option.map_eq_some_iff.mp hstep
    obtain ⟨hlt, hout⟩ := Option.ite_none_right_eq_some.mp hout
    cases hout
    refine ⟨?_, hlt, fun hstop => ?_⟩
    · rw [List.map_append, h.workerIds, List.range_succ]
      rfl
    · have hall := h.all hstop
      omega
  | advance i reading =>
    obtain ⟨w, hw, hstep⟩ := Option.bind_eq_some_iff.mp hstep
    obtain ⟨out, hout, rfl⟩ := Option.map_eq_some_iff.mp hstep
    obtain ⟨hid, hspawned, hstop⟩ := BenchmarkWorker.frame_of_advance hout
    refine ⟨?_, ?_, ?_⟩
    · have hmap : (s.calls.map BenchmarkWorker.workerId)[i]? = some out.2.workerId := by
        rw [List.getElem?_map, hw, Option.map_some, hid]
      obtain ⟨hlt, hget⟩ := List.getElem?_eq_some_iff.mp hmap
      rw [hspawned, ← h.workerIds, List.map_set, ← hget, List.set_getElem_self]
    · rw [hspawned]
      exact h.le
    · rw [hspawned, hstop]
      exact h.all
  | signal signal =>
    obtain ⟨out, hout, rfl⟩ := Option.map_eq_some_iff.mp hstep
    obtain ⟨hready, hout⟩ := Option.ite_none_right_eq_some.mp hout
    cases hout
    exact ⟨h.workerIds, h.le, fun _ => hready.1⟩

lemma spawned_of_run
    (hrun : run (benchmarkMachine corpus threads).step ⟨.new, []⟩ turns = some s) :
    Spawned threads s := by
  refine run_induction (motive := fun _ s => Spawned threads s) _ ?_ ?_ hrun
  · exact ⟨rfl, Nat.zero_le _, fun h => by cases h⟩
  · exact fun done turn u v _ hu hstep => hu.step hstep

lemma descends_rank (corpus : List Text) (threads : ℕ) :
    (benchmarkMachine corpus threads).Descends
      (fun b => b.stopSignal = true ∧ b.spawned = threads) (fun r => r.seesStop = true)
      (fun w => w.phase.rank) where
  enter h := by
    apply if_neg
    rw [h.2]
    exact Nat.lt_irrefl threads
  advance h hsees hstep := by
    obtain ⟨-, hspawned, hstop⟩ := BenchmarkWorker.frame_of_advance hstep
    refine ⟨⟨hstop.trans h.1, hspawned.trans h.2⟩, ?_⟩
    exact BenchmarkWorker.rank_lt_of_advance h.1 hsees hstep
  signal h := by
    apply if_neg
    rw [h.1]
    simp

/-- In every interleaving the total of the logs is behind by at most one block for each worker.
When all workers have ended, the totals are those of all logs that the workers have walked over,
each from its own place in the corpus on; of a worker that has panicked they are those of its whole
blocks. -/
theorem benchmark_totals (corpus : List Text) (threads : ℕ)
    (turns : List (Turn Unit BenchmarkReading Unit)) (s : BenchmarkRun)
    (hrun : run (benchmarkMachine corpus threads).step ⟨.new, []⟩ turns = some s) :
    s.calls.map BenchmarkWorker.workerId = List.range s.calls.length ∧
      s.calls.length ≤ threads ∧
      s.shared.totalCount ≤ (s.calls.map BenchmarkWorker.localCount).sum ∧
      (s.calls.map BenchmarkWorker.localCount).sum ≤
        s.shared.totalCount + 1024 * s.calls.length ∧
      ((∀ w ∈ s.calls, w.phase.HasEnded) →
        s.shared.totalCount = (s.calls.map BenchmarkWorker.logsCounted).sum ∧
        s.shared.totalBytes =
          (s.calls.map fun w => turnBytes corpus w.workerId w.logsCounted).sum) := by
  have hspawned := spawned_of_run hrun
  have hcount : s.shared.totalCount = 0 + (s.calls.map BenchmarkWorker.countAdded).sum :=
    Machine.total_of_run (keeps_counts corpus threads) (balanced_count corpus threads) hrun
  have hbytes : s.shared.totalBytes = 0 + (s.calls.map (BenchmarkWorker.bytesAdded corpus)).sum :=
    Machine.total_of_run (keeps_counts corpus threads) (balanced_bytes corpus threads) hrun
  rw [Nat.zero_add] at hcount hbytes
  refine ⟨?_, ?_, ?_, ?_, fun hended => ⟨?_, ?_⟩⟩
  · rw [hspawned.workerIds, hspawned.length]
  · rw [hspawned.length]
    exact hspawned.le
  · rw [hcount]
    exact List.sum_le_sum fun w _ => w.countAdded_le.1
  · have hsum : (s.calls.map fun w => w.countAdded + 1024).sum =
        (s.calls.map BenchmarkWorker.countAdded).sum + 1024 * s.calls.length := by
      rw [List.sum_map_add, List.map_const', List.sum_replicate, Nat.nsmul_eq_mul, Nat.mul_comm]
    rw [hcount, ← hsum]
    exact List.sum_le_sum fun w _ => w.countAdded_le.2
  · rw [hcount]
    refine congrArg List.sum (List.map_congr_left fun w hw => ?_)
    exact BenchmarkWorker.countAdded_of_hasEnded (hended w hw)
  · rw [hbytes]
    refine congrArg List.sum (List.map_congr_left fun w hw => ?_)
    exact BenchmarkWorker.bytesAdded_of_hasEnded (hended w hw)

/-- A pass of two workers over two logs, up to the stop signal, which finds the second worker in the
last log of a block. -/
def blockPass : List (Turn Unit BenchmarkReading Unit) :=
  [.enter (), .enter (), .advance 0 ⟨false, false⟩] ++
    List.replicate 2047 (.advance 1 ⟨false, false⟩) ++ [.signal ()]

/-- The rest of the pass; the first worker panics on its log. -/
def blockPassEnd : List (Turn Unit BenchmarkReading Unit) :=
  .advance 0 ⟨true, true⟩ :: List.replicate 6 (.advance 1 ⟨true, false⟩)

lemma exists_blockPass : ∃ s t,
    run (benchmarkMachine ["ab".toList, "c".toList] 2).step ⟨.new, []⟩ blockPass = some s ∧
      run (benchmarkMachine ["ab".toList, "c".toList] 2).step s blockPassEnd = some t ∧
      s.shared.stopSignal = true ∧ t.shared.totalCount = 1024 ∧
      ∀ w ∈ t.calls, w.phase.HasEnded := by
  have heval : ((run (benchmarkMachine ["ab".toList, "c".toList] 2).step ⟨.new, []⟩
      blockPass).bind fun s =>
        (run (benchmarkMachine ["ab".toList, "c".toList] 2).step s blockPassEnd).map fun t =>
          (s.shared.stopSignal, t.shared.totalCount, t.calls.map BenchmarkWorker.phase)) =
      some (true, 1024, [.panicked, .finished]) := by
    decide +kernel
  obtain ⟨s, hrun, heval⟩ := Option.bind_eq_some_iff.mp heval
  obtain ⟨t, hrun', ht⟩ := Option.map_eq_some_iff.mp heval
  simp only [Prod.mk.injEq] at ht
  obtain ⟨hstop, hcount, hphases⟩ := ht
  refine ⟨s, t, hrun, hrun', hstop, hcount, fun w hw => ?_⟩
  have hphase : w.phase ∈ t.calls.map BenchmarkWorker.phase := List.mem_map_of_mem hw
  rw [hphases] at hphase
  rcases List.mem_pair.mp hphase with hpanicked | hfinished
  · exact Or.inr hpanicked
  · exact Or.inl hfinished

theorem benchmark_totals_blockPass :
    ∃ t, run (benchmarkMachine ["ab".toList, "c".toList] 2).step ⟨.new, []⟩
        (blockPass ++ blockPassEnd) = some t ∧
      t.shared.totalCount = 1024 ∧
      t.shared.totalCount = (t.calls.map BenchmarkWorker.logsCounted).sum ∧
      t.shared.totalBytes = (t.calls.map fun w =>
        turnBytes ["ab".toList, "c".toList] w.workerId w.logsCounted).sum := by
  obtain ⟨s, t, hrun, hrun', -, hcount, hended⟩ := exists_blockPass
  have hboth : run (benchmarkMachine ["ab".toList, "c".toList] 2).step ⟨.new, []⟩
      (blockPass ++ blockPassEnd) = some t := by
    rw [run_append, hrun]
    exact hrun'
  obtain ⟨-, -, -, -, htotals⟩ := benchmark_totals _ 2 _ t hboth
  exact ⟨t, hboth, hcount, htotals hended⟩

/-- Once the stop signal is set and seen, no worker takes more than six operations, and the steps
end only when all workers have ended. -/
theorem benchmark_stops (corpus : List Text) (threads : ℕ)
    (turns turns' : List (Turn Unit BenchmarkReading Unit)) (s t : BenchmarkRun)
    (hrun : run (benchmarkMachine corpus threads).step ⟨.new, []⟩ turns = some s)
    (hstop : s.shared.stopSignal = true)
    (hsees : ∀ r ∈ Machine.readings turns', r.seesStop = true)
    (hrun' : run (benchmarkMachine corpus threads).step s turns' = some t) :
    (∀ i, turns'.countP (Machine.advances i) ≤ 6) ∧ turns'.length ≤ 6 * threads ∧
      ((∀ turn, (benchmarkMachine corpus threads).step t turn = none) ↔
        ∀ w ∈ t.calls, w.phase.HasEnded) := by
  have hspawned := spawned_of_run hrun
  have hspawned' : Spawned threads t := by
    refine run_induction (motive := fun _ s => Spawned threads s) _ hspawned ?_ hrun'
    exact fun done turn u v _ hu hstep => hu.step hstep
  have hclosed : s.shared.stopSignal = true ∧ s.shared.spawned = threads :=
    ⟨hstop, hspawned.all hstop⟩
  obtain ⟨⟨hstop', hall⟩, hlength⟩ :=
    Machine.length_le_of_run (descends_rank corpus threads) hclosed hsees hrun'
  refine ⟨fun i => ?_, ?_, ?_⟩
  · have hcount := Machine.countP_le_of_run (descends_rank corpus threads) hclosed hsees hrun' i
    have hrank : (s.calls[i]?.map fun w => w.phase.rank).getD 0 ≤ 6 := by
      cases s.calls[i]? with
      | none => exact Nat.zero_le 6
      | some w => exact w.phase.rank_le
    omega
  · have hranks : (s.calls.map fun w => w.phase.rank).sum ≤ s.calls.length * 6 := by
      rw [← Nat.nsmul_eq_mul, ← List.length_map (f := fun w : BenchmarkWorker => w.phase.rank)]
      apply List.sum_le_card_nsmul
      intro n hn
      obtain ⟨w, -, rfl⟩ := List.mem_map.mp hn
      exact w.phase.rank_le
    have hle := hspawned.le
    rw [hspawned.length] at hranks
    omega
  · rw [Machine.stuck_iff_of_closed (descends_rank corpus threads) ⟨hstop', hall⟩]
    exact forall₂_congr fun w hw => BenchmarkWorker.advance_eq_none_iff

theorem benchmark_stops_blockPass :
    ∃ t, run (benchmarkMachine ["ab".toList, "c".toList] 2).step ⟨.new, []⟩
        (blockPass ++ blockPassEnd) = some t ∧
      blockPassEnd.countP (Machine.advances 1) = 6 ∧
      (∀ i, blockPassEnd.countP (Machine.advances i) ≤ 6) ∧
      ∀ turn, (benchmarkMachine ["ab".toList, "c".toList] 2).step t turn = none := by
  obtain ⟨s, t, hrun, hrun', hstop, -, hended⟩ := exists_blockPass
  have hsees : ∀ r ∈ Machine.readings blockPassEnd, r.seesStop = true := by
    simp [Machine.readings, blockPassEnd]
  obtain ⟨hsix, -, hends⟩ := benchmark_stops _ 2 blockPass blockPassEnd s t hrun hstop hsees hrun'
  refine ⟨t, ?_, rfl, hsix, hends.mpr hended⟩
  rw [run_append, hrun]
  exact hrun'

end Pass

end Ulpf.Ai
