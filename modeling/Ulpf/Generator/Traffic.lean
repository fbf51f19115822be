import Ulpf.Cli.Readers
import Ulpf.Generator.Datasets
import Ulpf.Library.Execution
import Ulpf.Library.RoundRobin

/-!
# The traffic of the generator

The workers send the logs of a data set in turn, in rounds whose size a rate controller sets. A
send that succeeds has handed its bytes to the network, which may lose datagrams and may end a
connection early. What the readers of the ingest engine get of it: each datagram that arrives is
its log, whole, and what they read of a connection are whole logs in turn and at most a part of
one more.
-/

namespace Ulpf.Generator
open Ulpf.Core Ulpf.Library Ulpf.Cli

inductive Protocol where
  | udp
  | tcp
deriving DecidableEq

/-- A log as it goes over the network. -/
def Protocol.frame : Protocol → Text → List UInt8
  | udp, log => utf8Bytes log
  | tcp, log => utf8Bytes log ++ [10]

structure WorkerArgs where
  workerId : ℕ
  logs : List (List UInt8)
  targetRate : ℕ
  batchSize : ℕ

/-- What one worker adds to the statistics. -/
structure Stats where
  packetsSent : ℕ := 0
  bytesSent : ℕ := 0
  errors : ℕ := 0

/-- The size of the next round, `expectedSent` what the rate gives for the time passed; none
where the worker pauses. -/
def WorkerArgs.toSend (args : WorkerArgs) (sentCount expectedSent : ℕ) : Option ℕ :=
  if 0 < args.targetRate then
    -- Ahead of schedule, pause briefly
    if expectedSent + args.batchSize < sentCount then none
    else some (min args.batchSize (max (expectedSent - sentCount) 1))
  else some args.batchSize

/-- The logs of a round and the index after it. -/
def takeLogs (logs : List (List UInt8)) : ℕ → ℕ → List (List UInt8) × ℕ
  | 0, logIdx => ([], logIdx)
  | n + 1, logIdx =>
    let (batch, next) := takeLogs logs n ((logIdx + 1) % logs.length)
    (logs[logIdx]?.toList ++ batch, next)

/-! ### Datagrams -/

/-- `sends j` tells whether the send of the log `j` of the round succeeds. -/
structure UdpRound where
  expectedSent : ℕ
  sends : ℕ → Bool

/-- `datagrams` are those handed to the network, of which any may be lost. -/
structure UdpWorker where
  logIdx : ℕ
  sentCount : ℕ
  stats : Stats
  datagrams : List (List UInt8)

namespace UdpWorker

variable (args : WorkerArgs)

def start : UdpWorker := ⟨args.workerId * 17 % args.logs.length, 0, {}, []⟩

def step (w : UdpWorker) (round : UdpRound) : UdpWorker :=
  match args.toSend w.sentCount round.expectedSent with
  | none => w
  | some n =>
    let (batch, logIdx) := takeLogs args.logs n w.logIdx
    let sent := (batch.zipIdx.filter fun p => round.sends p.2).map Prod.fst
    { logIdx
      sentCount := w.sentCount + sent.length
      stats :=
        { packetsSent := w.stats.packetsSent + sent.length
          bytesSent := w.stats.bytesSent + sent.flatten.length
          errors := w.stats.errors + (batch.length - sent.length) }
      datagrams := w.datagrams ++ sent }

end UdpWorker

/-! ### Connections -/

/-- What a connection has accepted, of which the other side may read less. Once a write has failed
it takes nothing more. -/
structure TcpConnection where
  stream : List UInt8
  broken : Bool

inductive WriteResult where
  | written
  /-- After `before` bytes, and whether the new connection is there. -/
  | failed (before : ℕ) (reconnected : Bool)

structure TcpRound where
  expectedSent : ℕ
  result : WriteResult

structure TcpWorker where
  logIdx : ℕ
  sentCount : ℕ
  stats : Stats
  closed : List TcpConnection
  connection : TcpConnection

namespace TcpWorker

variable (args : WorkerArgs)

def start : TcpWorker := ⟨args.workerId * 17 % args.logs.length, 0, {}, [], ⟨[], false⟩⟩

def step (w : TcpWorker) (round : TcpRound) : Option TcpWorker :=
  match args.toSend w.sentCount round.expectedSent with
  | none => some w
  | some n =>
    let (batch, logIdx) := takeLogs args.logs n w.logIdx
    let sendBuf := batch.flatten
    match round.result with
    | .written =>
      if w.connection.broken then none
      else some
        { logIdx
          sentCount := w.sentCount + n
          stats :=
            { packetsSent := w.stats.packetsSent + n
              bytesSent := w.stats.bytesSent + sendBuf.length
              errors := w.stats.errors }
          closed := w.closed
          connection := ⟨w.connection.stream ++ sendBuf, false⟩ }
    | .failed before reconnected =>
      if before < sendBuf.length ∧ (w.connection.broken → before = 0) then
        let torn : TcpConnection := ⟨w.connection.stream ++ sendBuf.take before, true⟩
        some
          { logIdx
            sentCount := w.sentCount
            stats := { w.stats with errors := w.stats.errors + 1 }
            closed := if reconnected then w.closed ++ [torn] else w.closed
            connection := if reconnected then ⟨[], false⟩ else torn }
      else none

end TcpWorker

/-! ### Rounds -/

variable {args : WorkerArgs}

lemma takeLogs_eq {logs : List (List UInt8)} (hne : logs ≠ []) (n first : ℕ) :
    takeLogs logs n (first % logs.length) =
      (roundRobin logs first n, (first + n) % logs.length) := by
  induction n generalizing first with
  | zero => rfl
  | succ n ih =>
    have hlt : first % logs.length < logs.length := Nat.mod_lt _ (List.length_pos_iff.mpr hne)
    have hfirst : roundRobin logs first 1 = logs[first % logs.length]?.toList := by
      rw [List.getElem?_eq_getElem hlt]
      simp [roundRobin, turns, List.getElem?_eq_getElem hlt]
    have hnext : (first % logs.length + 1) % logs.length = (first + 1) % logs.length :=
      Nat.mod_add_mod first logs.length 1
    rw [takeLogs, hnext, ih, Nat.add_comm n 1, roundRobin_add, hfirst, Nat.add_assoc]

/-- A round ends at most one log after the batch that may be sent ahead of schedule. -/
lemma toSend_le {sentCount expectedSent n : ℕ} (hrate : 0 < args.targetRate)
    (h : args.toSend sentCount expectedSent = some n) :
    sentCount + n ≤ expectedSent + args.batchSize + 1 := by
  rw [WorkerArgs.toSend, if_pos hrate] at h
  split_ifs at h with hahead
  cases h
  omega

/-! ### What arrives in datagrams -/

namespace UdpWorker

/-- The datagrams are those logs of the turns taken whose sends succeeded. -/
structure Sends (args : WorkerArgs) (w : UdpWorker) : Prop where
  logIdx : w.logIdx =
    (args.workerId * 17 + (w.stats.packetsSent + w.stats.errors)) % args.logs.length
  datagrams : w.datagrams.Sublist
    (roundRobin args.logs (args.workerId * 17) (w.stats.packetsSent + w.stats.errors))
  packets : w.datagrams.length = w.stats.packetsSent
  count : w.sentCount = w.stats.packetsSent

lemma sends_start (args : WorkerArgs) : (start args).Sends args :=
  ⟨rfl, List.Sublist.refl _, rfl, rfl⟩

lemma Sends.step (hne : args.logs ≠ []) {w : UdpWorker} (h : w.Sends args) (round : UdpRound) :
    (w.step args round).Sends args := by
  unfold UdpWorker.step
  split
  · exact h
  · next n hsize =>
    rw [h.logIdx, takeLogs_eq hne]
    dsimp only
    generalize hbatch : roundRobin args.logs
      (args.workerId * 17 + (w.stats.packetsSent + w.stats.errors)) n = batch
    generalize hsent : (batch.zipIdx.filter fun p => round.sends p.2).map Prod.fst = sent
    have hsublist : sent.Sublist batch := by
      have hfirst := (List.filter_sublist (l := batch.zipIdx) (p := fun p => round.sends p.2)).map
        Prod.fst
      rwa [hsent, List.zipIdx_map_fst] at hfirst
    have hlength : batch.length = n := by
      rw [← hbatch, length_roundRobin hne]
    have hle := hsublist.length_le
    have htotal : w.stats.packetsSent + sent.length +
        (w.stats.errors + (batch.length - sent.length)) =
          w.stats.packetsSent + w.stats.errors + n := by omega
    constructor
    · rw [htotal]
      exact congrArg (· % args.logs.length) (Nat.add_assoc _ _ _)
    · rw [htotal, roundRobin_add, hbatch]
      exact h.datagrams.append hsublist
    · rw [List.length_append, h.packets]
    · rw [h.count]

lemma sends_foldl (hne : args.logs ≠ []) (rounds : List UdpRound) :
    (rounds.foldl (step args) (start args)).Sends args := by
  induction rounds using List.reverseRecOn with
  | nil => exact sends_start args
  | append_singleton rounds round ih =>
    rw [List.foldl_concat]
    exact ih.step hne round

end UdpWorker

lemma received_lines_of_oneLine {log : Text} (h : OneLine log) :
    (UdpEvent.received (Protocol.udp.frame log)).lines = [log] := by
  have hdecode : fromUtf8 (utf8Bytes log) = some log := Utf8.decode_encode log
  have hsplit : (utf8Bytes log).splitOn 10 = [utf8Bytes log] := by
    have hline : log.splitOn '\n' = [log] := List.splitOn_eq_singleton h.newline
    exact (Utf8.splitOn_encode log).trans (congrArg (List.map Utf8.encode) hline)
  rw [UdpEvent.lines, Protocol.frame, if_pos (by rw [hdecode]; rfl), deliverable, hsplit,
    List.filterMap_cons_some hdecode, List.filterMap_nil, trimmedLines_singleton, h.trim_eq,
    if_neg h.ne_nil]

lemma grows_receiveDatagrams {logs : List Text} (h : ∀ log ∈ logs, OneLine log) (feed : RawFeed) :
    feed.Grows ((logs.map Protocol.udp.frame).foldl RawFeed.receiveDatagram feed) logs := by
  induction logs generalizing feed with
  | nil => exact RawFeed.Grows.refl feed
  | cons log logs ih =>
    rw [List.forall_mem_cons] at h
    have hfirst := feed.grows_receiveDatagram (Protocol.udp.frame log)
    rw [received_lines_of_oneLine h.1] at hfirst
    exact hfirst.trans (ih h.2 _)

/-! ### What arrives over connections -/

lemma take_flatten_eq {α : Type*} {L : List (List α)} {n : ℕ} (h : n < L.flatten.length) :
    ∃ j l, L[j]? = some l ∧ ∃ k < l.length, L.flatten.take n = (L.take j).flatten ++ l.take k := by
  induction L generalizing n with
  | nil => cases h
  | cons l L ih =>
    rw [List.flatten_cons, List.length_append] at h
    by_cases hl : n < l.length
    · refine ⟨0, l, rfl, n, hl, ?_⟩
      rw [List.flatten_cons, List.take_append_of_le_length (Nat.le_of_lt hl)]
      rfl
    · obtain ⟨j, m, hm, k, hk, htake⟩ := ih (n := n - l.length) (by omega)
      refine ⟨j + 1, m, hm, k, hk, ?_⟩
      rw [List.flatten_cons, List.take_append, List.take_of_length_le (by omega), htake,
        List.take_succ_cons, List.flatten_cons, List.append_assoc]

/-- The connection carries whole logs in turn, and once it is broken a part of one more. -/
def Carries (logs : List Text) (c : TcpConnection) (first count : ℕ) : Prop :=
  ∃ log ∈ logs, ∃ k ≤ (utf8Bytes log).length, (c.broken = false → k = 0) ∧
    c.stream = (roundRobin logs first count).flatMap Protocol.tcp.frame ++ (utf8Bytes log).take k

lemma newline_notMem_utf8Bytes {log : Text} (h : '\n' ∉ log) : 10 ∉ utf8Bytes log := by
  intro hmem
  obtain ⟨c, hc, hbyte⟩ := List.mem_flatMap.mp hmem
  rw [Utf8.newline_mem_encodeChar_iff.mp hbyte] at hc
  exact h hc

lemma readable_terminated {logs : List Text} (h : ∀ log ∈ logs, OneLine log)
    (rest : List UInt8) :
    readable (((logs.flatMap Protocol.tcp.frame ++ rest).splitOn 10).map fromUtf8) =
      logs ++ readable ((rest.splitOn 10).map fromUtf8) := by
  have hframes : logs.flatMap Protocol.tcp.frame =
      (logs.map Utf8.encode).flatMap (· ++ [10]) := by
    rw [List.flatMap_map]
    rfl
  have hnewline : ∀ msg ∈ logs.map Utf8.encode, 10 ∉ msg := by
    rw [List.forall_mem_map]
    exact fun log hlog => newline_notMem_utf8Bytes (h log hlog).newline
  rw [hframes, Utf8.splitOn_terminated hnewline, List.map_append, List.map_map]
  clear hframes hnewline
  induction logs with
  | nil => rfl
  | cons log logs ih =>
    rw [List.forall_mem_cons] at h
    have hdecode : fromUtf8 (Utf8.encode log) = some log := Utf8.decode_encode log
    rw [List.map_cons, List.cons_append, Function.comp_apply, hdecode, readable, ih h.2,
      trimmedLines_singleton, h.1.trim_eq, if_neg h.1.ne_nil]
    rfl

lemma readable_take {log : Text} (h : OneLine log) (k : ℕ) :
    (readable ((((utf8Bytes log).take k).splitOn 10).map fromUtf8)).length ≤ 1 ∧
      ∀ line ∈ readable ((((utf8Bytes log).take k).splitOn 10).map fromUtf8), line <+: log := by
  have hnewline : 10 ∉ (utf8Bytes log).take k := fun hmem =>
    newline_notMem_utf8Bytes h.newline (List.mem_of_mem_take hmem)
  rw [List.splitOn_eq_singleton hnewline, List.map_singleton]
  cases htext : fromUtf8 ((utf8Bytes log).take k) with
  | none => exact ⟨Nat.zero_le 1, by simp [readable]⟩
  | some text =>
    have hread : readable [some text] = trimmedLines [text] := List.append_nil _
    rw [hread, trimmedLines_singleton]
    split_ifs with hblank
    · exact ⟨Nat.zero_le 1, by simp⟩
    · refine ⟨Nat.le_refl 1, ?_⟩
      intro line hline
      rw [List.mem_singleton.mp hline]
      have hprefix : text <+: log := by
        apply Utf8.prefix_of_encode_prefix
        rw [Utf8.decode_eq_some_iff.mp htext]
        exact List.take_prefix k (utf8Bytes log)
      cases text with
      | nil => exact absurd rfl hblank
      | cons c text =>
        obtain ⟨rest, rfl⟩ := hprefix
        have hc : isWhitespace c = false := h.bare.head c rfl
        have htrim : trim (c :: text) <+: c :: text := by
          rw [show trim (c :: text) = _ from strip_cons_of_neg hc text, List.prefix_cons_inj]
          exact List.rdropWhile_prefix isWhitespace text
        exact htrim.trans (List.prefix_append _ _)

lemma take_roundRobin {α : Type*} {l : List α} (hl : l ≠ []) {j n : ℕ} (h : j ≤ n) (first : ℕ) :
    (roundRobin l first n).take j = roundRobin l first j := by
  obtain ⟨m, rfl⟩ := Nat.exists_eq_add_of_le h
  rw [roundRobin_add]
  exact List.take_left' (length_roundRobin hl first j)

namespace Carries

variable {logs : List Text} {c : TcpConnection} {first count : ℕ}

lemma fresh (hne : logs ≠ []) (first : ℕ) : Carries logs ⟨[], false⟩ first 0 := by
  obtain ⟨log, hlog⟩ := List.exists_mem_of_ne_nil logs hne
  exact ⟨log, hlog, 0, Nat.zero_le _, fun _ => rfl, rfl⟩

lemma write (h : Carries logs c first count) (hwhole : c.broken = false) (n : ℕ) :
    Carries logs ⟨c.stream ++ (roundRobin logs (first + count) n).flatMap Protocol.tcp.frame, false⟩
      first (count + n) := by
  obtain ⟨log, hlog, k, hk, hzero, hstream⟩ := h
  refine ⟨log, hlog, 0, Nat.zero_le _, fun _ => rfl, ?_⟩
  rw [hstream, hzero hwhole, roundRobin_add, List.flatMap_append, List.take_zero, List.append_nil,
    List.append_nil]

lemma tear (hne : logs ≠ []) (h : Carries logs c first count) {n before : ℕ}
    (hbefore : before < ((roundRobin logs (first + count) n).flatMap Protocol.tcp.frame).length)
    (hwhole : c.broken = false) :
    ∃ j ≤ n, Carries logs ⟨c.stream ++
      ((roundRobin logs (first + count) n).flatMap Protocol.tcp.frame).take before, true⟩
        first (count + j) := by
  rw [List.flatMap_def] at hbefore ⊢
  obtain ⟨j, frame, hframe, k, hk, htake⟩ := take_flatten_eq hbefore
  rw [List.getElem?_map, Option.map_eq_some_iff] at hframe
  obtain ⟨log, hlog, rfl⟩ := hframe
  have hj : j < n := by
    have hlt := (List.getElem?_eq_some_iff.mp hlog).1
    rwa [length_roundRobin hne] at hlt
  rw [Protocol.frame, List.length_append, List.length_singleton] at hk
  have hwrite := h.write hwhole j
  refine ⟨j, Nat.le_of_lt hj, log, mem_of_mem_roundRobin (List.mem_of_getElem? hlog), k, by omega,
    fun hfalse => (by cases hfalse), ?_⟩
  obtain ⟨log', -, k', -, hzero, hstream⟩ := hwrite
  rw [hzero rfl, List.take_zero, List.append_nil] at hstream
  change c.stream ++ _ = _ at hstream
  rw [htake, ← List.map_take, take_roundRobin hne (Nat.le_of_lt hj), ← List.flatMap_def,
    ← List.append_assoc, hstream, Protocol.frame, List.take_append_of_le_length (by omega)]

lemma grows (h : Carries logs c first count) (hlogs : ∀ log ∈ logs, OneLine log) (feed : RawFeed) :
    ∃ cut : List Text,
      feed.Grows (feed.readConnection c.stream) (roundRobin logs first count ++ cut) ∧
        (c.broken = false → cut = []) ∧ cut.length ≤ 1 ∧
        ∀ line ∈ cut, ∃ log ∈ logs, line <+: log := by
  obtain ⟨log, hlog, k, -, hzero, hstream⟩ := h
  obtain ⟨hlength, hbeginning⟩ := readable_take (hlogs log hlog) k
  refine ⟨readable ((((utf8Bytes log).take k).splitOn 10).map fromUtf8), ?_, ?_, hlength,
    fun line hline => ⟨log, hlog, hbeginning line hline⟩⟩
  · have hread := feed.grows_readConnection c.stream
    rwa [hstream, readable_terminated fun log h => hlogs log (mem_of_mem_roundRobin h),
      ← hstream] at hread
  · intro hwhole
    have hempty : fromUtf8 [] = some [] := Utf8.decode_encode []
    rw [hzero hwhole, List.take_zero, List.splitOn_nil, List.map_singleton, hempty]
    rfl

lemma truncate (hne : logs ≠ []) (h : Carries logs c first count) (n : ℕ) :
    ∃ count' ≤ count, Carries logs ⟨c.stream.take n, true⟩ first count' := by
  obtain ⟨log, hlog, k, hk, -, hstream⟩ := h
  by_cases hwhole : n < ((roundRobin logs first count).flatMap Protocol.tcp.frame).length
  · obtain ⟨j, hj, htorn⟩ := (Carries.fresh hne first).tear hne hwhole rfl
    refine ⟨0 + j, by omega, ?_⟩
    rw [hstream, List.take_append_of_le_length (Nat.le_of_lt hwhole)]
    exact htorn
  · refine ⟨count, Nat.le_refl _, log, hlog,
      min (n - ((roundRobin logs first count).flatMap Protocol.tcp.frame).length) k, by omega,
      fun hfalse => (by cases hfalse), ?_⟩
    rw [hstream, List.take_append, List.take_of_length_le (by omega), List.take_take]

/-- However far the reader gets, it has some of the whole logs and at most a beginning of one
more. -/
lemma grows_take (hne : logs ≠ []) (h : Carries logs c first count)
    (hlogs : ∀ log ∈ logs, OneLine log) (feed : RawFeed) (n : ℕ) :
    ∃ count' ≤ count, ∃ cut : List Text,
      feed.Grows (feed.readConnection (c.stream.take n)) (roundRobin logs first count' ++ cut) ∧
        cut.length ≤ 1 ∧ (∀ line ∈ cut, ∃ log ∈ logs, line <+: log) ∧
        (c.stream.length ≤ n → count' = count ∧ (c.broken = false → cut = [])) := by
  by_cases hall : c.stream.length ≤ n
  · obtain ⟨cut, hgrows, hcut, hlength, hbeginning⟩ := h.grows hlogs feed
    rw [List.take_of_length_le hall]
    exact ⟨count, Nat.le_refl _, cut, hgrows, hlength, hbeginning, fun _ => ⟨rfl, hcut⟩⟩
  · obtain ⟨count', hle, hpart⟩ := h.truncate hne n
    obtain ⟨cut, hgrows, -, hlength, hbeginning⟩ := hpart.grows hlogs feed
    exact ⟨count', hle, cut, hgrows, hlength, hbeginning, fun h => absurd h hall⟩

end Carries

namespace TcpWorker

/-- The turns that the connections carry: those of the closed ones, and the turns from `first` on
of the current one; `position` counts the turns that have been taken. -/
structure Sends (logs : List Text) (args : WorkerArgs) (w : TcpWorker) (parts : List (ℕ × ℕ))
    (first count position : ℕ) : Prop where
  logIdx : w.logIdx = position % args.logs.length
  closed : List.Forall₂ (fun c p => Carries logs c p.1 p.2) w.closed parts
  current : Carries logs w.connection first count
  whole : w.connection.broken = false → first + count = position
  ordered : (parts ++ [(first, count)]).Pairwise fun p q => p.1 + p.2 ≤ q.1
  bounded : ∀ p ∈ parts ++ [(first, count)], p.1 + p.2 ≤ position
  sent : w.stats.packetsSent ≤ (parts.map Prod.snd).sum + count
  clean : w.stats.errors = 0 → w.closed = [] ∧ w.connection.broken = false ∧
    first = args.workerId * 17 ∧ count = w.stats.packetsSent

variable {logs : List Text} {w w' : TcpWorker}

lemma sends_start (hne : logs ≠ []) (args : WorkerArgs) :
    (start args).Sends logs args [] (args.workerId * 17) 0 (args.workerId * 17) where
  logIdx := rfl
  closed := List.Forall₂.nil
  current := Carries.fresh hne _
  whole _ := rfl
  ordered := List.pairwise_singleton _ _
  bounded p hp := by
    rw [List.nil_append, List.mem_singleton] at hp
    rw [hp, Nat.add_zero]
  sent := Nat.le_refl 0
  clean _ := ⟨rfl, rfl, rfl, rfl⟩

lemma Sends.extend {parts : List (ℕ × ℕ)} {first count position : ℕ}
    (h : w.Sends logs args parts first count position) {count' position' : ℕ}
    (hcount : first + count' ≤ position') (hposition : position ≤ position') :
    (parts ++ [(first, count')]).Pairwise (fun p q => p.1 + p.2 ≤ q.1) ∧
      ∀ p ∈ parts ++ [(first, count')], p.1 + p.2 ≤ position' := by
  obtain ⟨hparts, -, hlast⟩ := List.pairwise_append.mp h.ordered
  constructor
  · refine List.pairwise_append.mpr ⟨hparts, List.pairwise_singleton _ _, ?_⟩
    intro p hp q hq
    rw [List.mem_singleton.mp hq]
    exact hlast p hp (first, count) List.mem_cons_self
  · rw [List.forall_mem_append]
    constructor
    · exact fun p hp => (h.bounded p (List.mem_append_left _ hp)).trans hposition
    · intro p hp
      rwa [List.mem_singleton.mp hp]

lemma Sends.write {parts : List (ℕ × ℕ)} {first count position n : ℕ}
    (h : w.Sends logs args parts first count position) (hwhole : w.connection.broken = false)
    (hlogIdx : w'.logIdx = (position + n) % args.logs.length) (hclosed : w'.closed = w.closed)
    (hconnection : w'.connection = ⟨w.connection.stream ++
      (roundRobin logs position n).flatMap Protocol.tcp.frame, false⟩)
    (hpackets : w'.stats.packetsSent = w.stats.packetsSent + n)
    (herrors : w'.stats.errors = w.stats.errors) :
    w'.Sends logs args parts first (count + n) (position + n) := by
  have hposition := h.whole hwhole
  have hend : first + (count + n) ≤ position + n := by omega
  obtain ⟨hordered, hbounded⟩ := h.extend hend (Nat.le_add_right _ _)
  refine ⟨hlogIdx, ?_, ?_, ?_, hordered, hbounded, ?_, ?_⟩
  · rw [hclosed]
    exact h.closed
  · rw [hconnection, ← hposition]
    exact h.current.write hwhole n
  · intro _
    rw [← Nat.add_assoc, hposition]
  · rw [hpackets, ← Nat.add_assoc]
    exact Nat.add_le_add_right h.sent n
  · intro hnone
    obtain ⟨hopen, -, hfirst, hcount⟩ := h.clean (herrors ▸ hnone)
    rw [hclosed, hconnection, hpackets]
    exact ⟨hopen, rfl, hfirst, congrArg (· + n) hcount⟩

lemma Sends.tear (hne : logs ≠ []) {parts : List (ℕ × ℕ)} {first count position n before : ℕ}
    (h : w.Sends logs args parts first count position)
    (hbefore : before < ((roundRobin logs position n).flatMap Protocol.tcp.frame).length)
    (hbroken : w.connection.broken = true → before = 0) :
    ∃ count', count ≤ count' ∧ first + count' ≤ position + n ∧
      Carries logs ⟨w.connection.stream ++
        ((roundRobin logs position n).flatMap Protocol.tcp.frame).take before, true⟩
          first count' := by
  cases hwhole : w.connection.broken with
  | true =>
    refine ⟨count, Nat.le_refl _, ?_, ?_⟩
    · exact (h.bounded _ (List.mem_append_right _ List.mem_cons_self)).trans
        (Nat.le_add_right _ _)
    · rw [hbroken hwhole, List.take_zero, List.append_nil, ← hwhole]
      exact h.current
  | false =>
    have hposition := h.whole hwhole
    obtain ⟨j, hj, htear⟩ := h.current.tear hne (by rw [hposition]; exact hbefore) hwhole
    rw [hposition] at htear
    exact ⟨count + j, Nat.le_add_right _ _, by omega, htear⟩

lemma Sends.step (hne : logs ≠ []) (hframes : args.logs = logs.map Protocol.tcp.frame)
    {parts : List (ℕ × ℕ)} {first count position : ℕ}
    (h : w.Sends logs args parts first count position) {round : TcpRound}
    (hstep : w.step args round = some w') :
    ∃ parts' first' count' position', w'.Sends logs args parts' first' count' position' := by
  have hframes_ne : args.logs ≠ [] := by
    rw [hframes]
    simpa using hne
  unfold TcpWorker.step at hstep
  split at hstep
  · cases hstep
    exact ⟨parts, first, count, position, h⟩
  · next n hsize =>
    rw [h.logIdx, takeLogs_eq hframes_ne] at hstep
    have hbuffer : (roundRobin args.logs position n).flatten =
        (roundRobin logs position n).flatMap Protocol.tcp.frame := by
      rw [hframes, roundRobin_map, List.flatMap_def]
    dsimp only at hstep
    rw [hbuffer] at hstep
    split at hstep
    · split_ifs at hstep with hbroken
      cases hstep
      exact ⟨parts, first, count + n, position + n,
        h.write (Bool.eq_false_iff.mpr hbroken) rfl rfl rfl rfl rfl⟩
    · next before reconnected hresult =>
      rw [Option.ite_none_right_eq_some] at hstep
      obtain ⟨hfailed, hnext⟩ := hstep
      cases hnext
      obtain ⟨count', hle, hbound, htorn⟩ := h.tear hne hfailed.1 hfailed.2
      obtain ⟨hordered, hbounded⟩ := h.extend hbound (Nat.le_add_right position n)
      have hsent : w.stats.packetsSent ≤ (parts.map Prod.snd).sum + count' :=
        h.sent.trans (Nat.add_le_add_left hle _)
      cases reconnected with
      | true =>
        refine ⟨parts ++ [(first, count')], position + n, 0, position + n, rfl, ?_,
          Carries.fresh hne _, fun _ => rfl, ?_, ?_, ?_, fun herrors => (by cases herrors)⟩
        · exact List.rel_append h.closed (List.Forall₂.cons htorn List.Forall₂.nil)
        · refine List.pairwise_append.mpr ⟨hordered, List.pairwise_singleton _ _, ?_⟩
          intro p hp q hq
          rw [List.mem_singleton.mp hq]
          exact hbounded p hp
        · rw [List.forall_mem_append]
          refine ⟨hbounded, ?_⟩
          intro p hp
          rw [List.mem_singleton.mp hp, Nat.add_zero]
        · rw [List.map_append, List.sum_append, List.map_singleton, List.sum_singleton]
          exact hsent
      | false =>
        exact ⟨parts, first, count', position + n, rfl, h.closed, htorn,
          fun hwhole => (by cases hwhole), hordered, hbounded, hsent,
          fun herrors => (by cases herrors)⟩

lemma sends_of_run (hne : logs ≠ []) (hframes : args.logs = logs.map Protocol.tcp.frame)
    {rounds : List TcpRound} (hrun : run (step args) (start args) rounds = some w) :
    ∃ parts first count position, w.Sends logs args parts first count position := by
  refine run_induction (motive := fun _ w =>
    ∃ parts first count position, w.Sends logs args parts first count position) _ ?_ ?_ hrun
  · exact ⟨_, _, _, _, sends_start hne args⟩
  · rintro done round u v - ⟨parts, first, count, position, h⟩ hstep
    exact h.step hne hframes hstep

end TcpWorker

/-! ### Pace -/

lemma length_takeLogs_le (logs : List (List UInt8)) (n logIdx : ℕ) :
    (takeLogs logs n logIdx).1.length ≤ n := by
  induction n generalizing logIdx with
  | zero => exact Nat.le_refl 0
  | succ n ih =>
    have hrest := ih ((logIdx + 1) % logs.length)
    have hfirst : (logs[logIdx]?.toList).length ≤ 1 := Option.length_toList_le
    rw [takeLogs, List.length_append]
    omega

/-- What a worker has sent is counted in both places, and is not too far ahead. -/
def Paced (args : WorkerArgs) (expected sentCount : ℕ) (stats : Stats) : Prop :=
  stats.packetsSent = sentCount ∧ sentCount ≤ expected + args.batchSize + 1

lemma UdpWorker.paced_step (hrate : 0 < args.targetRate) {expected : ℕ} {w : UdpWorker}
    (h : Paced args expected w.sentCount w.stats) {round : UdpRound}
    (hround : round.expectedSent ≤ expected) :
    Paced args expected (w.step args round).sentCount (w.step args round).stats := by
  unfold UdpWorker.step
  split
  · exact h
  · next n hsize =>
    have hbatch := length_takeLogs_le args.logs n w.logIdx
    have hsent := List.length_filter_le (fun p => round.sends p.2)
      (takeLogs args.logs n w.logIdx).1.zipIdx
    rw [List.length_zipIdx] at hsent
    have hle := toSend_le hrate hsize
    dsimp only
    rw [List.length_map]
    exact ⟨congrArg (· + _) h.1, by omega⟩

lemma TcpWorker.paced_step (hrate : 0 < args.targetRate) {expected : ℕ} {w w' : TcpWorker}
    (h : Paced args expected w.sentCount w.stats) {round : TcpRound}
    (hround : round.expectedSent ≤ expected) (hstep : w.step args round = some w') :
    Paced args expected w'.sentCount w'.stats := by
  unfold TcpWorker.step at hstep
  split at hstep
  · cases hstep
    exact h
  · next n hsize =>
    have hle := toSend_le hrate hsize
    dsimp only at hstep
    split at hstep
    · split_ifs at hstep
      cases hstep
      exact ⟨congrArg (· + n) h.1, hle.trans (by omega)⟩
    · rw [Option.ite_none_right_eq_some] at hstep
      obtain ⟨-, hnext⟩ := hstep
      cases hnext
      exact h

/-- Whatever the network does, a worker is never further ahead of its rate than a batch and one
log. -/
theorem worker_pace (args : WorkerArgs) (hrate : 0 < args.targetRate) (expected : ℕ) :
    (∀ rounds : List UdpRound, (∀ round ∈ rounds, round.expectedSent ≤ expected) →
      (rounds.foldl (UdpWorker.step args) (.start args)).stats.packetsSent ≤
        expected + args.batchSize + 1) ∧
    ∀ (rounds : List TcpRound) (w : TcpWorker), (∀ round ∈ rounds, round.expectedSent ≤ expected) →
      run (TcpWorker.step args) (.start args) rounds = some w →
        w.stats.packetsSent ≤ expected + args.batchSize + 1 := by
  constructor
  · intro rounds hrounds
    have hpaced : Paced args expected (rounds.foldl (UdpWorker.step args) (.start args)).sentCount
        (rounds.foldl (UdpWorker.step args) (.start args)).stats := by
      induction rounds using List.reverseRecOn with
      | nil => exact ⟨rfl, Nat.zero_le _⟩
      | append_singleton rounds round ih =>
        rw [List.forall_mem_append, List.forall_mem_singleton] at hrounds
        rw [List.foldl_concat]
        exact UdpWorker.paced_step hrate (ih hrounds.1) hrounds.2
    exact hpaced.1.trans_le hpaced.2
  · intro rounds w hrounds hrun
    have hpaced : Paced args expected w.sentCount w.stats := by
      refine run_induction (motive := fun _ w => Paced args expected w.sentCount w.stats) _
        ⟨rfl, Nat.zero_le _⟩ ?_ hrun
      exact fun done round u v hround hu hstep =>
        TcpWorker.paced_step hrate hu (hrounds round hround) hstep
    exact hpaced.1.trans_le hpaced.2

/-- A round of one log comes through, and the next one is behind schedule; over a connection, the
second of two rounds fails. -/
theorem worker_pace_two_rounds :
    let args : WorkerArgs := ⟨0, [[97], [98]], 10, 4⟩
    ([⟨0, fun _ => true⟩, ⟨6, fun _ => true⟩].foldl (UdpWorker.step args)
        (.start args)).stats.packetsSent ≤ 6 + 4 + 1 ∧
      ∃ w, run (TcpWorker.step args) (.start args) [⟨0, .written⟩, ⟨6, .failed 1 true⟩] = some w ∧
        w.stats.packetsSent ≤ 6 + 4 + 1 :=
  have hpace := worker_pace ⟨0, [[97], [98]], 10, 4⟩ (by decide) 6
  ⟨hpace.1 _ (by decide), _, rfl, hpace.2 [⟨0, .written⟩, ⟨6, .failed 1 true⟩] _ (by decide) rfl⟩

/-! ### From the files to the ingest engine -/

section Traffic

variable {files : String → Option (List UInt8)} {clock : ℕ → String} {kind : DatasetKind}
  {logs : List Text}

/-- A data set of two logs, the second with a blank and an end of its own. -/
def sampleFiles (name : String) : Option (List UInt8) :=
  if name = "cisco_asa.log" then some [97, 10, 32, 98, 32, 99, 13, 10, 10] else none

lemma loadDataset_sampleFiles :
    loadDataset sampleFiles (fun _ => "") .cisco = .ok ["a".toList, "b c".toList] := by
  rfl

end Traffic

end Ulpf.Generator
