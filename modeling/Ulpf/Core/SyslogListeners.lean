import Ulpf.Core.Text
import Ulpf.Library.Pieces
import Ulpf.Library.Utf8

/-!
# The syslog listeners

`UdpSyslogListener::run_raw` and the reader task of `TcpSyslogListener::run_raw` cut what they
receive into lines and send these in batches. The outcomes of `recv_from`, the bytes of a
connection and the clock are inputs; the receiver of the batches stays open.
-/

namespace Ulpf.Core
open Ulpf.Library

structure IngestConfig where
  batchSize : ℕ := 1000
  /-- In nanoseconds, like the clock. -/
  batchTimeout : ℕ := 50000000

/-! ### Lines -/

/-- `str::from_utf8` -/
abbrev fromUtf8 (bytes : List UInt8) : Option Text := Utf8.decode bytes

/-- A line without the carriage return at its end. -/
def stripCarriageReturn (line : Text) : Text :=
  if line.getLast? = some '\r' then line.dropLast else line

/-- `str::lines` -/
def lines (s : Text) : List Text :=
  let parts := s.splitOn '\n'
  let last := parts.getLast?.getD []
  parts.dropLast.map stripCarriageReturn ++ if last = [] then [] else [last]

/-- What `Lines::next_line` answers until the stream ends, nothing for a line that is not UTF-8. -/
def nextLines (stream : List UInt8) : List (Option Text) :=
  let parts := stream.splitOn 10
  let last := parts.getLast?.getD []
  (parts.dropLast.map fun part => (fromUtf8 part).map stripCarriageReturn) ++
    if last = [] then [] else [fromUtf8 last]

/-- The lines that are not blank, trimmed. -/
def trimmedLines (lines : List Text) : List Text := (lines.map trim).filter (· ≠ [])

/-- The lines of the bytes that are UTF-8 and not blank, trimmed. -/
def deliverable (bytes : List UInt8) : List Text :=
  trimmedLines ((bytes.splitOn 10).filterMap fromUtf8)

/-! ### Batches -/

/-- The state of a reader: the batches it has sent, the one it holds, and the number of times it
has read the clock. -/
structure LineBatcher where
  sent : List (List Text)
  currentBatch : List Text
  lastFlush : ℕ
  reads : ℕ

/-- All lines that were pushed. -/
def LineBatcher.delivered (s : LineBatcher) : List Text := s.sent.flatten ++ s.currentBatch

section Readers

variable (config : IngestConfig) (clock : ℕ → ℕ)

namespace LineBatcher

def start : LineBatcher := ⟨[], [], clock 0, 1⟩

def push (s : LineBatcher) (line : Text) : LineBatcher :=
  { s with currentBatch := s.currentBatch ++ [line] }

def flush (s : LineBatcher) : LineBatcher :=
  ⟨s.sent ++ [s.currentBatch], [], clock s.reads, s.reads + 1⟩

/-- `last_flush.elapsed() >= batch_timeout` -/
def timedOut (s : LineBatcher) : Bool × LineBatcher :=
  (decide (config.batchTimeout ≤ clock s.reads - s.lastFlush), { s with reads := s.reads + 1 })

end LineBatcher

/-- What `select!` of the UDP loop waits for. -/
inductive UdpEvent where
  /-- A datagram as far as `recv_from` has put it into the buffer. -/
  | received (payload : List UInt8)
  | failed
  | timer

namespace UdpSyslogListener

def pushLine (s : LineBatcher) (line : Text) : LineBatcher :=
  let trimmed := trim line
  if trimmed = [] then s
  else
    let s := s.push trimmed
    if config.batchSize ≤ s.currentBatch.length then s.flush clock else s

def step (s : LineBatcher) : UdpEvent → LineBatcher
  | .received payload =>
    match fromUtf8 payload with
    | some text => (lines text).foldl (pushLine config clock) s
    | none => s
  | .failed => s
  | .timer =>
    if s.currentBatch = [] then s
    else
      let (elapsed, s) := s.timedOut config clock
      if elapsed then s.flush clock else s

def runRaw (events : List UdpEvent) : LineBatcher :=
  events.foldl (step config clock) (.start clock)

end UdpSyslogListener

namespace TcpSyslogListener

def pushLine (s : LineBatcher) (line : Text) : LineBatcher :=
  let trimmed := trim line
  if trimmed = [] then s
  else
    let s := s.push trimmed
    if config.batchSize ≤ s.currentBatch.length then s.flush clock
    else
      let (elapsed, s) := s.timedOut config clock
      if elapsed then s.flush clock else s

/-- The loop ends with the first answer that is no line. -/
def readLines : LineBatcher → List (Option Text) → LineBatcher
  | s, some line :: answers => readLines (pushLine config clock s line) answers
  | s, _ => s

/-- The reader task of a connection, from its first byte to the end of its stream. -/
def readConnection (stream : List UInt8) : LineBatcher :=
  let s := readLines config clock (.start clock) (nextLines stream)
  if s.currentBatch = [] then s
  else { s with sent := s.sent ++ [s.currentBatch], currentBatch := [] }

end TcpSyslogListener

end Readers

/-! ### Trimmed lines -/

lemma trimmedLines_append (l l' : List Text) :
    trimmedLines (l ++ l') = trimmedLines l ++ trimmedLines l' := by
  simp [trimmedLines]

lemma trimmedLines_cons (line : Text) (l : List Text) :
    trimmedLines (line :: l) = trimmedLines [line] ++ trimmedLines l :=
  trimmedLines_append [line] l

lemma trim_concat {c : Char} (hc : isWhitespace c = true) (s : Text) :
    trim (s ++ [c]) = trim s := by
  unfold trim
  rw [List.dropWhile_append]
  split_ifs with hblank
  · rw [List.isEmpty_iff.mp hblank]
    simp [hc]
  · simp [hc]

lemma trim_stripCarriageReturn (line : Text) : trim (stripCarriageReturn line) = trim line := by
  unfold stripCarriageReturn
  split_ifs with hlast
  · have hsplit : line = line.dropLast ++ ['\r'] := by
      rw [← List.dropLast_append_getLast? _ hlast]
      simp
    conv_rhs => rw [hsplit]
    rw [trim_concat (by decide)]
  · rfl

lemma trimmedLines_map_strip (l : List Text) :
    trimmedLines (l.map stripCarriageReturn) = trimmedLines l := by
  unfold trimmedLines
  rw [List.map_map]
  congr 1
  exact List.map_congr_left fun line _ => trim_stripCarriageReturn line

lemma dropLast_concat_last {α : Type*} {parts : List (List α)} (h : parts ≠ []) :
    parts.dropLast ++ [parts.getLast?.getD []] = parts := by
  rw [List.getLast?_eq_some_getLast h, Option.getD_some, List.dropLast_append_getLast]

lemma trimmedLines_lines (s : Text) : trimmedLines (lines s) = trimmedLines (s.splitOn '\n') := by
  have hparts := dropLast_concat_last (List.splitOn_ne_nil '\n' s)
  conv_rhs => rw [← hparts]
  unfold lines
  rw [trimmedLines_append, trimmedLines_append, trimmedLines_map_strip]
  split_ifs with hlast
  · rw [hlast]
    rfl
  · rfl

lemma deliverable_of_fromUtf8 {bytes : List UInt8} {text : Text} (h : fromUtf8 bytes = some text) :
    deliverable bytes = trimmedLines (lines text) := by
  have hdecode : ∀ l : List Text, (l.map Utf8.encode).filterMap fromUtf8 = l := by
    intro l
    induction l with
    | nil => rfl
    | cons line l ih =>
      rw [List.map_cons, List.filterMap_cons_some (Utf8.decode_encode line), ih]
  rw [trimmedLines_lines, deliverable, ← Utf8.decode_eq_some_iff.mp h, Utf8.splitOn_encode,
    hdecode]

lemma newline_notMem_of_fromUtf8 {bytes part : List UInt8} (hpart : part ∈ bytes.splitOn 10)
    {line : Text} (h : fromUtf8 part = some line) : '\n' ∉ line := by
  intro hmem
  rw [List.splitOn_eq_splitOnP] at hpart
  have hencoded : 10 ∈ part := by
    rw [← Utf8.decode_eq_some_iff.mp h]
    exact List.mem_flatMap.mpr ⟨'\n', hmem, List.mem_singleton.mpr rfl⟩
  exact absurd (not_of_mem_piece hpart 10 hencoded) (by decide)

lemma stripCarriageReturn_subset (line : Text) : stripCarriageReturn line ⊆ line := by
  unfold stripCarriageReturn
  split_ifs
  · exact (List.dropLast_sublist line).subset
  · exact List.Subset.refl line

lemma newline_notMem_of_nextLines {bytes : List UInt8} {line : Text}
    (h : some line ∈ nextLines bytes) : '\n' ∉ line := by
  rw [nextLines, List.mem_append] at h
  rcases h with hdropped | hlast
  · obtain ⟨part, hpart, hline⟩ := List.mem_map.mp hdropped
    obtain ⟨text, htext, rfl⟩ := Option.map_eq_some_iff.mp hline
    intro hmem
    exact newline_notMem_of_fromUtf8 (List.mem_of_mem_dropLast hpart) htext
      (stripCarriageReturn_subset text hmem)
  · split_ifs at hlast with hempty
    · cases hlast
    · have hpart : (bytes.splitOn 10).getLast?.getD [] ∈ bytes.splitOn 10 := by
        rw [List.getLast?_eq_getLast_of_ne_nil (List.splitOn_ne_nil 10 bytes), Option.getD_some]
        exact List.getLast_mem _
      exact newline_notMem_of_fromUtf8 hpart (List.mem_singleton.mp hlast).symm

/-- The trimmed lines before the first answer that is no line. -/
def readable : List (Option Text) → List Text
  | some line :: answers => trimmedLines [line] ++ readable answers
  | _ => []

lemma mem_readable {answers : List (Option Text)} {line : Text} (h : line ∈ readable answers) :
    ∃ full, some full ∈ answers ∧ line = trim full ∧ line ≠ [] := by
  induction answers with
  | nil => cases h
  | cons answer answers ih =>
    cases answer with
    | none => cases h
    | some full =>
      rw [readable, List.mem_append] at h
      rcases h with hfirst | hrest
      · rw [trimmedLines, List.mem_filter, List.map_singleton, List.mem_singleton] at hfirst
        exact ⟨full, List.mem_cons_self, hfirst.1, by simpa using hfirst.2⟩
      · obtain ⟨other, hother, hline⟩ := ih hrest
        exact ⟨other, List.mem_cons_of_mem _ hother, hline⟩

lemma readable_strip (answers tail : List (Option Text)) :
    readable (answers.map (Option.map stripCarriageReturn) ++ tail) =
      readable (answers ++ tail) := by
  induction answers with
  | nil => rfl
  | cons answer answers ih =>
    cases answer with
    | none => rfl
    | some line =>
      simp only [List.map_cons, Option.map_some, List.cons_append, readable, ih]
      rw [← trimmedLines_map_strip [line]]
      rfl

lemma readable_concat_empty (answers : List (Option Text)) :
    readable (answers ++ [some []]) = readable answers := by
  induction answers with
  | nil => rfl
  | cons answer answers ih =>
    cases answer with
    | none => rfl
    | some line => simp only [List.cons_append, readable, ih]

/-- The reader sees the parts between the line feeds, up to the first that is not UTF-8. -/
lemma readable_nextLines (stream : List UInt8) :
    readable (nextLines stream) = readable ((stream.splitOn 10).map fromUtf8) := by
  have hparts := dropLast_concat_last (List.splitOn_ne_nil 10 stream)
  have hstrip : nextLines stream =
      ((stream.splitOn 10).dropLast.map fromUtf8).map (Option.map stripCarriageReturn) ++
        if (stream.splitOn 10).getLast?.getD [] = [] then []
        else [fromUtf8 ((stream.splitOn 10).getLast?.getD [])] := by
    rw [List.map_map]
    rfl
  conv_rhs => rw [← hparts]
  rw [hstrip, readable_strip, List.map_append]
  split_ifs with hlast
  · have hempty : fromUtf8 [] = some [] := Utf8.decode_encode []
    rw [hlast, List.append_nil, List.map_singleton, hempty, readable_concat_empty]
  · rfl

lemma readable_of_isSome {answers : List (Option Text)} (h : ∀ answer ∈ answers, answer.isSome) :
    readable answers = trimmedLines (answers.filterMap id) := by
  induction answers with
  | nil => rfl
  | cons answer answers ih =>
    obtain ⟨line, rfl⟩ := Option.isSome_iff_exists.mp (h answer List.mem_cons_self)
    rw [readable, ih fun a ha => h a (List.mem_cons_of_mem _ ha), ← trimmedLines_cons]
    rfl

/-! ### What a reader delivers -/

namespace LineBatcher

/-- Batches are neither empty nor longer than configured, and the one that is held is shorter. -/
structure Sized (config : IngestConfig) (s : LineBatcher) : Prop where
  sent : ∀ batch ∈ s.sent, 1 ≤ batch.length ∧ batch.length ≤ max 1 config.batchSize
  held : s.currentBatch.length < max 1 config.batchSize

variable {config : IngestConfig} {clock : ℕ → ℕ} {s : LineBatcher}

lemma delivered_push (s : LineBatcher) (line : Text) :
    (s.push line).delivered = s.delivered ++ [line] := by
  simp [delivered, push]

lemma delivered_flush (s : LineBatcher) : (s.flush clock).delivered = s.delivered := by
  simp [delivered, flush]

lemma sized_start (config : IngestConfig) (clock : ℕ → ℕ) : (start clock).Sized config where
  sent batch hbatch := by cases hbatch
  held := Nat.lt_of_lt_of_le Nat.zero_lt_one (Nat.le_max_left 1 config.batchSize)

variable (clock) in
lemma Sized.flush
    (hsent : ∀ batch ∈ s.sent, 1 ≤ batch.length ∧ batch.length ≤ max 1 config.batchSize)
    (hheld : 1 ≤ s.currentBatch.length ∧ s.currentBatch.length ≤ max 1 config.batchSize) :
    (s.flush clock).Sized config where
  sent batch hbatch := by
    rcases List.mem_append.mp hbatch with hold | hnew
    · exact hsent batch hold
    · rw [List.mem_singleton.mp hnew]
      exact hheld
  held := Nat.lt_of_lt_of_le Nat.zero_lt_one (Nat.le_max_left 1 config.batchSize)

variable (clock) in
lemma Sized.push (h : s.Sized config) (line : Text) :
    ((s.push line).flush clock).Sized config ∧
      ((s.push line).currentBatch.length < config.batchSize → (s.push line).Sized config) := by
  have hlength : (s.push line).currentBatch.length = s.currentBatch.length + 1 := by
    simp [LineBatcher.push]
  have hheld := h.held
  refine ⟨Sized.flush clock h.sent ⟨by omega, by omega⟩, ?_⟩
  intro hshort
  exact ⟨h.sent, by omega⟩

end LineBatcher

section Delivery

variable {config : IngestConfig} {clock : ℕ → ℕ}

/-- The state after a reader has taken in some lines. -/
structure TakesIn (config : IngestConfig) (s t : LineBatcher) (taken : List Text) : Prop where
  delivered : t.delivered = s.delivered ++ taken
  sized : s.Sized config → t.Sized config

lemma TakesIn.refl (s : LineBatcher) : TakesIn config s s [] := ⟨by simp, id⟩

lemma TakesIn.trans {s t u : LineBatcher} {l l' : List Text} (h : TakesIn config s t l)
    (h' : TakesIn config t u l') : TakesIn config s u (l ++ l') :=
  ⟨by rw [h'.delivered, h.delivered, List.append_assoc], fun hs => h'.sized (h.sized hs)⟩

lemma TakesIn.congr {s t u : LineBatcher} {l : List Text} (h : TakesIn config s t l)
    (hsent : u.sent = t.sent) (hheld : u.currentBatch = t.currentBatch) : TakesIn config s u l where
  delivered := by rw [LineBatcher.delivered, hsent, hheld, ← h.delivered, LineBatcher.delivered]
  sized hs := ⟨by rw [hsent]; exact (h.sized hs).sent, by rw [hheld]; exact (h.sized hs).held⟩

variable (clock) in
lemma takesIn_push_flush (s : LineBatcher) (line : Text) :
    TakesIn config s ((s.push line).flush clock) [line] where
  delivered := by rw [LineBatcher.delivered_flush, LineBatcher.delivered_push]
  sized hs := (hs.push clock line).1

lemma takesIn_push {s : LineBatcher} {line : Text}
    (hshort : (s.push line).currentBatch.length < config.batchSize) :
    TakesIn config s (s.push line) [line] where
  delivered := s.delivered_push line
  sized hs := (hs.push (fun _ => 0) line).2 hshort

lemma trimmedLines_singleton (line : Text) :
    trimmedLines [line] = if trim line = [] then [] else [trim line] := by
  unfold trimmedLines
  split_ifs with hblank <;> simp [hblank]

lemma UdpSyslogListener.takesIn_pushLine (s : LineBatcher) (line : Text) :
    TakesIn config s (pushLine config clock s line) (trimmedLines [line]) := by
  rw [pushLine, trimmedLines_singleton]
  by_cases hblank : trim line = []
  · rw [if_pos hblank, if_pos hblank]
    exact TakesIn.refl s
  · rw [if_neg hblank, if_neg hblank]
    dsimp only
    split_ifs with hfull
    · exact takesIn_push_flush clock s (trim line)
    · exact takesIn_push (Nat.lt_of_not_le hfull)

lemma TcpSyslogListener.takesIn_pushLine (s : LineBatcher) (line : Text) :
    TakesIn config s (pushLine config clock s line) (trimmedLines [line]) := by
  rw [pushLine, trimmedLines_singleton]
  by_cases hblank : trim line = []
  · rw [if_pos hblank, if_pos hblank]
    exact TakesIn.refl s
  · rw [if_neg hblank, if_neg hblank]
    dsimp only
    split_ifs with hfull helapsed
    · exact takesIn_push_flush clock s (trim line)
    · exact (takesIn_push_flush clock s (trim line)).congr rfl rfl
    · exact (takesIn_push (Nat.lt_of_not_le hfull)).congr rfl rfl

/-! ### Datagrams -/

/-- The lines of the event that the loop can read. -/
def UdpEvent.lines : UdpEvent → List Text
  | received payload => if (fromUtf8 payload).isSome then deliverable payload else []
  | failed => []
  | timer => []

lemma UdpSyslogListener.takesIn_foldl (s : LineBatcher) (l : List Text) :
    TakesIn config s (l.foldl (pushLine config clock) s) (trimmedLines l) := by
  induction l generalizing s with
  | nil => exact TakesIn.refl s
  | cons line l ih =>
    rw [trimmedLines_cons]
    exact (takesIn_pushLine s line).trans (ih (pushLine config clock s line))

lemma UdpSyslogListener.takesIn_step (s : LineBatcher) (event : UdpEvent) :
    TakesIn config s (step config clock s event) event.lines := by
  cases event with
  | received payload =>
    rw [step, UdpEvent.lines]
    cases htext : fromUtf8 payload with
    | none => exact TakesIn.refl s
    | some text =>
      rw [deliverable_of_fromUtf8 htext]
      exact takesIn_foldl s (Core.lines text)
  | failed => exact TakesIn.refl s
  | timer =>
    rw [step, UdpEvent.lines]
    by_cases hempty : s.currentBatch = []
    · rw [if_pos hempty]
      exact TakesIn.refl s
    · rw [if_neg hempty]
      have hflush : TakesIn config s (s.flush clock) [] := by
        refine ⟨by rw [LineBatcher.delivered_flush, List.append_nil], ?_⟩
        intro hs
        exact LineBatcher.Sized.flush clock hs.sent ⟨List.length_pos_iff.mpr hempty, hs.held.le⟩
      dsimp only
      split_ifs with helapsed
      · exact hflush.congr rfl rfl
      · exact (TakesIn.refl s).congr rfl rfl

variable (config clock) in
lemma UdpSyslogListener.takesIn_runRaw (events : List UdpEvent) :
    TakesIn config (.start clock) (runRaw config clock events) (events.flatMap UdpEvent.lines) := by
  unfold runRaw
  generalize LineBatcher.start clock = s
  induction events generalizing s with
  | nil => exact TakesIn.refl s
  | cons event events ih => exact (takesIn_step s event).trans (ih (step config clock s event))

/-! ### Connections -/

variable (config clock) in
lemma TcpSyslogListener.takesIn_readLines (s : LineBatcher) (answers : List (Option Text)) :
    TakesIn config s (readLines config clock s answers) (readable answers) := by
  induction answers generalizing s with
  | nil => exact TakesIn.refl s
  | cons answer answers ih =>
    cases answer with
    | none => exact TakesIn.refl s
    | some line => exact (takesIn_pushLine s line).trans (ih (pushLine config clock s line))

variable (config clock) in
/-- At the end of the stream nothing is held, and everything readable is sent. -/
lemma TcpSyslogListener.readConnection_spec (stream : List UInt8) :
    let s := readConnection config clock stream
    s.sent.flatten = readable ((stream.splitOn 10).map fromUtf8) ∧ s.currentBatch = [] ∧
      s.Sized config := by
  have htaken := takesIn_readLines config clock (.start clock)
    (nextLines stream)
  have hsized := htaken.sized (LineBatcher.sized_start config clock)
  have hdelivered := htaken.delivered
  have hstart : (LineBatcher.start clock).delivered = [] := rfl
  rw [readable_nextLines, hstart, List.nil_append, LineBatcher.delivered] at hdelivered
  rw [readConnection]
  dsimp only
  split_ifs with hempty
  · refine ⟨?_, hempty, hsized⟩
    rwa [hempty, List.append_nil] at hdelivered
  · refine ⟨?_, rfl, ?_⟩
    · simpa using hdelivered
    · have hflush := LineBatcher.Sized.flush clock hsized.sent
        ⟨List.length_pos_iff.mpr hempty, hsized.held.le⟩
      exact ⟨hflush.sent, hflush.held⟩

lemma readable_of_fromUtf8 {stream : List UInt8} (h : (fromUtf8 stream).isSome) :
    readable ((stream.splitOn 10).map fromUtf8) = deliverable stream := by
  rw [readable_of_isSome, deliverable, List.filterMap_map]
  · rfl
  · intro answer hanswer
    obtain ⟨line, hline, rfl⟩ := List.mem_map.mp hanswer
    exact Utf8.isSome_decode_iff_lines.mp h line hline

end Delivery

/-- The UDP loop has sent or still holds the trimmed lines of the datagrams it received, in order,
and the reader of a connection has sent all lines of its stream. No batch is empty or longer than
configured. -/
theorem lines_delivered (config : IngestConfig) (clock : ℕ → ℕ) :
    (∀ events : List UdpEvent,
      (∀ payload, .received payload ∈ events → (fromUtf8 payload).isSome) →
        let s := UdpSyslogListener.runRaw config clock events
        s.sent.flatten ++ s.currentBatch = events.flatMap (fun
          | .received payload => deliverable payload
          | _ => []) ∧
          ∀ batch ∈ s.sent, 1 ≤ batch.length ∧ batch.length ≤ max 1 config.batchSize) ∧
      ∀ stream, (fromUtf8 stream).isSome →
        let s := TcpSyslogListener.readConnection config clock stream
        s.sent.flatten = deliverable stream ∧ s.currentBatch = [] ∧
          ∀ batch ∈ s.sent, 1 ≤ batch.length ∧ batch.length ≤ max 1 config.batchSize := by
  constructor
  · intro events hutf8
    have htaken := UdpSyslogListener.takesIn_runRaw config clock events
    refine ⟨?_, (htaken.sized (LineBatcher.sized_start config clock)).sent⟩
    have hstart : (LineBatcher.start clock).delivered = [] := rfl
    have hdelivered := htaken.delivered
    rw [hstart, List.nil_append, LineBatcher.delivered] at hdelivered
    rw [hdelivered]
    apply List.flatMap_congr
    intro event hevent
    cases event with
    | received payload => exact if_pos (hutf8 payload hevent)
    | failed => rfl
    | timer => rfl
  · intro stream hutf8
    obtain ⟨hsent, hheld, hsized⟩ :=
      TcpSyslogListener.readConnection_spec config clock stream
    exact ⟨hsent.trans (readable_of_fromUtf8 hutf8), hheld, hsized.sent⟩

/-- Two datagrams with a timer between them, and a connection that ends within a line. -/
theorem lines_delivered_two_datagrams :
    let s := UdpSyslogListener.runRaw ⟨2, 50⟩ id
      [.received [97, 10, 98, 10, 99], .timer, .received [32, 13, 10, 100]]
    let t := TcpSyslogListener.readConnection ⟨2, 50⟩ id [97, 13, 10, 98]
    s.sent.flatten ++ s.currentBatch = [['a'], ['b'], ['c'], ['d']] ∧
      t.sent.flatten = [['a'], ['b']] := by
  have hlines := lines_delivered ⟨2, 50⟩ id
  have hutf8 : ∀ payload, UdpEvent.received payload ∈
      [.received [97, 10, 98, 10, 99], .timer, .received [32, 13, 10, 100]] →
        (fromUtf8 payload).isSome := by
    intro payload hmem
    simp only [List.mem_cons, UdpEvent.received.injEq, reduceCtorEq, List.not_mem_nil, false_or,
      or_false] at hmem
    rcases hmem with rfl | rfl <;> decide +kernel
  have hstream : (fromUtf8 [97, 13, 10, 98]).isSome := by decide +kernel
  exact ⟨(hlines.1 _ hutf8).1.trans (by decide +kernel),
    (hlines.2 _ hstream).1.trans (by decide +kernel)⟩

end Ulpf.Core
