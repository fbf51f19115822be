import Ulpf.Cli.Ingest
import Ulpf.Cli.Readers
import Ulpf.Library.FanIn
import Ulpf.Library.Interleaving

/-!
# The ingest engine with its readers

`run_ingest` as a whole: the UDP reader, the readers of all TCP connections, the bounded channel
between them and the processing loop. They take their steps in any order; of the loop these are
taking a line out of the channel, parsing and counting it, clustering it, pushing it, and counting
the block that the push has written. Every line that a reader finds in its bytes comes to the
archive once and in the order of its source.
-/

namespace Ulpf.Cli
open Ulpf.Library Ulpf.Core Ulpf.Ai.Drain Ulpf.Integrity

/-- `mpsc::channel::<String>(50_000)` -/
def rawChannelCapacity : ℕ := 50000

def enableUdp (proto : Option String) : Bool := proto.map String.toLower != some "tcp"

def enableTcp (proto : Option String) : Bool := proto.map String.toLower != some "udp"

/-- Where a reader is in its loop: it waits for the next line, or is about to count a line, or to
send a line that it has counted. -/
inductive ReaderPhase where
  | waiting
  | read (line : Text)
  | counted (line : Text)
  | finished
deriving DecidableEq

inductive Transport where
  | udp
  | tcp
deriving DecidableEq

/-- A reader, with the lines that `lines()` or `next_line` will still give it, and all lines of use
in what it was given so far. -/
structure Reader where
  transport : Transport
  given : List Text
  answers : List (Option Text)
  phase : ReaderPhase

def ReaderPhase.line : ReaderPhase → Option Text
  | read line | counted line => some line
  | waiting | finished => none

def ReaderPhase.isCounted : ReaderPhase → Bool
  | counted _ => true
  | _ => false

/-- The reader takes the next line. -/
def Reader.next (r : Reader) : Option Reader :=
  match r.phase, r.answers with
  | .waiting, some line :: answers =>
    let trimmed := trim line
    some { r with answers, phase := if trimmed = [] then .waiting else .read trimmed }
  | .waiting, none :: _ => some { r with answers := [], phase := .finished }
  | .waiting, [] =>
    match r.transport with
    | .tcp => some { r with phase := .finished }
    | .udp => none
  | _, _ => none

/-- The UDP reader has read the last datagram to its end and receives another one. -/
def Reader.receive (r : Reader) (payload : List UInt8) : Option Reader :=
  match r.transport, r.phase, r.answers with
  | .udp, .waiting, [] =>
    let answers := match fromUtf8 payload with
      | some text => (lines text).map some
      | none => []
    some { r with given := r.given ++ (UdpEvent.received payload).lines, answers }
  | _, _, _ => none

/-- Where the processing loop is: it waits for a line, has one in its hand before or after it is
parsed and counted or clustered, or is about to count a block. -/
inductive LoopPhase where
  | waiting
  | taken (line : Text)
  | parsed (line : Text) (event : NetworkActivity)
  | clustered (line : Text) (event : NetworkActivity)
  | flushed

namespace LoopPhase

def hand : LoopPhase → Option Text
  | taken line | parsed line _ | clustered line _ => some line
  | waiting | flushed => none

/-- The lines taken but not counted as parsed or not. -/
def uncounted : LoopPhase → ℕ
  | taken _ => 1
  | _ => 0

/-- The blocks written but not counted. -/
def unreported : LoopPhase → ℕ
  | flushed => 1
  | _ => 0

end LoopPhase

structure ProcessingLoop where
  engine : IngestEngine
  phase : LoopPhase

/-- What the loop does with a line, and what it reads from outside for it. -/
inductive LoopTask where
  | parse (readings : Readings)
  | cluster (nowMs : Int64) (elapsedMicros : UInt64)
  | push (startedAt checkedAt : ℕ) (env : FlushEnv)
  | countBlock

/-- The tasks of `run_ingest` with the channel and the counters; lines in the channel and beyond
it carry the index of their reader. -/
structure IngestSystem where
  tcp : Bool
  readers : List Reader
  totalIngested : ℕ
  queue : List (ℕ × Text)
  taken : List (ℕ × Text)
  loop : ProcessingLoop

/-- A connection is accepted with all that its reader will get of it: the bytes up to its end, or,
where it breaks, the lines that were complete by then. -/
inductive SystemOp where
  | accept (stream : List UInt8)
  | datagram (i : ℕ) (payload : List UInt8)
  | next (i : ℕ)
  | count (i : ℕ)
  | send (i : ℕ)
  | recv
  | work (task : LoopTask)

/-- The lines of use that the sources have sent, each source for itself, after one more step. -/
def SystemOp.supply (given : List (List Text)) : SystemOp → List (List Text)
  | accept stream => given ++ [readable ((stream.splitOn 10).map fromUtf8)]
  | datagram i payload => given.modify i (· ++ (UdpEvent.received payload).lines)
  | _ => given

/-- The lines of use in all that the sources have sent. -/
def supplied (proto : Option String) (ops : List SystemOp) : List (List Text) :=
  ops.foldl SystemOp.supply (if enableUdp proto then [[]] else [])

section System

variable (rt : Runtime) (mask : String → String) (toJson : NetworkActivity → Option String)
  (overflowChecks : Bool)

namespace ProcessingLoop

def take (p : ProcessingLoop) (line : Text) : Option ProcessingLoop :=
  match p.phase with
  | .waiting => some { p with phase := .taken line }
  | _ => none

/-- A panic or a failed push ends the program. -/
def perform (p : ProcessingLoop) : LoopTask → Option ProcessingLoop
  | .parse readings =>
    match p.phase with
    | .taken line =>
      (parseLossless (universalParser rt readings) (String.ofList line)).map fun event =>
        ⟨p.engine.countEvent event, .parsed line event⟩
    | _ => none
  | .cluster nowMs elapsedMicros =>
    match p.phase with
    | .parsed line event =>
      (p.engine.miner.addLog mask overflowChecks ⟨String.ofList line, nowMs, elapsedMicros⟩).map
        fun (clusterRes, miner) =>
          ⟨{ p.engine with
            miner
            totalAnomalies :=
              if clusterRes.anomaly.isSome then p.engine.totalAnomalies + 1
              else p.engine.totalAnomalies }, .clustered line event⟩
    | _ => none
  | .push startedAt checkedAt env =>
    match p.phase with
    | .clustered line event =>
      match push rt.sha256 overflowChecks p.engine.batcher
          (incomingLog toJson (String.ofList line) event) startedAt checkedAt env with
      | some (.ok none, batcher) => some ⟨{ p.engine with batcher }, .waiting⟩
      | some (.ok (some _), batcher) => some ⟨{ p.engine with batcher }, .flushed⟩
      | _ => none
    | _ => none
  | .countBlock =>
    match p.phase with
    | .flushed => some ⟨{ p.engine with totalBlocks := p.engine.totalBlocks + 1 }, .waiting⟩
    | _ => none

end ProcessingLoop

namespace IngestSystem

def start (proto : Option String) (engine : IngestEngine) : IngestSystem where
  tcp := enableTcp proto
  readers := if enableUdp proto then [⟨.udp, [], [], .waiting⟩] else []
  totalIngested := 0
  queue := []
  taken := []
  loop := ⟨engine, .waiting⟩

def setReader (s : IngestSystem) (i : ℕ) (r : Reader) : IngestSystem :=
  { s with readers := s.readers.set i r }

/-- One step of a task. -/
def step (s : IngestSystem) : SystemOp → Option IngestSystem
  | .accept stream =>
    if s.tcp then
      let answers := nextLines stream
      some { s with readers := s.readers ++ [⟨.tcp, readable answers, answers, .waiting⟩] }
    else none
  | .datagram i payload => s.readers[i]?.bind fun r => (r.receive payload).map (s.setReader i)
  | .next i => s.readers[i]?.bind fun r => r.next.map (s.setReader i)
  | .count i => s.readers[i]?.bind fun r =>
      match r.phase with
      | .read line =>
        some { s.setReader i { r with phase := .counted line } with
          totalIngested := s.totalIngested + 1 }
      | _ => none
  | .send i => s.readers[i]?.bind fun r =>
      match r.phase with
      | .counted line =>
        if s.queue.length < rawChannelCapacity then
          some { s.setReader i { r with phase := .waiting } with queue := s.queue ++ [(i, line)] }
        else none
      | _ => none
  | .recv =>
    match s.queue with
    | [] => none
    | (i, line) :: queue => (s.loop.take line).map fun loop =>
        { s with queue, taken := s.taken ++ [(i, line)], loop }
  | .work task => (s.loop.perform rt mask toJson overflowChecks task).map fun loop =>
      { s with loop }

end IngestSystem

end System

/-! ### The readers and the channel -/

def Reader.toSender (r : Reader) : Sender Text := ⟨r.given, readable r.answers, r.phase.line⟩

namespace IngestSystem

/-- The tasks as senders to one receiver. -/
def toFanIn (s : IngestSystem) : FanIn Text where
  capacity := rawChannelCapacity
  senders := s.readers.map Reader.toSender
  queue := s.queue
  received := s.taken

variable {rt : Runtime} {mask : String → String} {toJson : NetworkActivity → Option String}
  {overflowChecks : Bool} {s t : IngestSystem}

lemma toFanIn_setReader (s : IngestSystem) (i : ℕ) (r : Reader) :
    (s.setReader i r).toFanIn = s.toFanIn.setSender i r.toSender := by
  simp only [toFanIn, setReader, FanIn.setSender, List.map_set]

lemma getElem?_senders {i : ℕ} {r : Reader} (h : s.readers[i]? = some r) :
    s.toFanIn.senders[i]? = some r.toSender := by
  rw [toFanIn, List.getElem?_map, h, Option.map_some]

lemma toFanIn_setReader_self {i : ℕ} {r r' : Reader} (h : s.readers[i]? = some r)
    (hsame : r'.toSender = r.toSender) : (s.setReader i r').toFanIn = s.toFanIn := by
  obtain ⟨hlt, hget⟩ := List.getElem?_eq_some_iff.mp (getElem?_senders h)
  rw [toFanIn_setReader, hsame, FanIn.setSender, ← hget, List.set_getElem_self]

lemma next_cases {r r' : Reader} (h : r.next = some r') :
    r'.toSender = r.toSender ∨
      ∃ line ahead, r.toSender = ⟨r.given, line :: ahead, none⟩ ∧
        r'.toSender = ⟨r.given, ahead, some line⟩ := by
  unfold Reader.next at h
  split at h
  · next line answers hphase hanswers =>
    cases h
    have hahead : readable r.answers = trimmedLines [line] ++ readable answers := by
      rw [hanswers]
      rfl
    rw [trimmedLines_singleton] at hahead
    by_cases hblank : trim line = []
    · left
      rw [if_pos hblank] at hahead
      simp only [Reader.toSender, hblank, if_true, hahead, hphase, List.nil_append]
    · right
      rw [if_neg hblank] at hahead
      refine ⟨trim line, readable answers, ?_, ?_⟩
      · rw [Reader.toSender, hahead, hphase]
        rfl
      · simp only [Reader.toSender, hblank, if_false]
        rfl
  · next rest hphase hanswers =>
    cases h
    left
    rw [Reader.toSender, Reader.toSender, hphase, hanswers]
    rfl
  · next hphase hanswers =>
    split at h
    · cases h
      left
      rw [Reader.toSender, Reader.toSender, hphase]
      rfl
    · cases h
  · cases h

lemma receive_cases {r r' : Reader} {payload : List UInt8} (h : r.receive payload = some r') :
    r'.toSender = ⟨r.toSender.given ++ (UdpEvent.received payload).lines,
      r.toSender.ahead ++ (UdpEvent.received payload).lines, r.toSender.holding⟩ := by
  unfold Reader.receive at h
  split at h
  · next htransport hphase hanswers =>
    cases h
    have hlines : readable (match fromUtf8 payload with
        | some text => (lines text).map some
        | none => []) = (UdpEvent.received payload).lines := by
      rw [UdpEvent.lines]
      cases htext : fromUtf8 payload with
      | none => rfl
      | some text =>
        rw [deliverable_of_fromUtf8 htext]
        refine (readable_of_isSome (by simp)).trans ?_
        simp
    simp only [Reader.toSender, hlines, hanswers, hphase, readable, List.nil_append]
  · cases h

/-- What a step of the program can do. -/
inductive Steps (rt : Runtime) (mask : String → String) (toJson : NetworkActivity → Option String)
    (overflowChecks : Bool) (s : IngestSystem) : SystemOp → IngestSystem → Prop where
  | accepted (stream : List UInt8) :
      Steps rt mask toJson overflowChecks s (.accept stream)
        { s with readers := s.readers ++
          [⟨.tcp, readable (nextLines stream), nextLines stream, .waiting⟩] }
  | received (i : ℕ) (payload : List UInt8) (r r' : Reader) (hr : s.readers[i]? = some r)
      (hreceive : r.receive payload = some r') :
      Steps rt mask toJson overflowChecks s (.datagram i payload) (s.setReader i r')
  | advanced (i : ℕ) (r r' : Reader) (hr : s.readers[i]? = some r) (hnext : r.next = some r') :
      Steps rt mask toJson overflowChecks s (.next i) (s.setReader i r')
  | counted (i : ℕ) (r : Reader) (line : Text) (hr : s.readers[i]? = some r)
      (hphase : r.phase = .read line) :
      Steps rt mask toJson overflowChecks s (.count i)
        { s.setReader i { r with phase := .counted line } with
          totalIngested := s.totalIngested + 1 }
  | sent (i : ℕ) (r : Reader) (line : Text) (hr : s.readers[i]? = some r)
      (hphase : r.phase = .counted line) (hroom : s.queue.length < rawChannelCapacity) :
      Steps rt mask toJson overflowChecks s (.send i)
        { s.setReader i { r with phase := .waiting } with queue := s.queue ++ [(i, line)] }
  | taken (i : ℕ) (line : Text) (queue : List (ℕ × Text)) (hqueue : s.queue = (i, line) :: queue)
      (hphase : s.loop.phase = .waiting) :
      Steps rt mask toJson overflowChecks s .recv
        { s with
          queue
          taken := s.taken ++ [(i, line)]
          loop := { s.loop with phase := .taken line } }
  | worked (task : LoopTask) (loop : ProcessingLoop)
      (hloop : s.loop.perform rt mask toJson overflowChecks task = some loop) :
      Steps rt mask toJson overflowChecks s (.work task) { s with loop }

lemma take_eq_some {p q : ProcessingLoop} {line : Text} (h : p.take line = some q) :
    p.phase = .waiting ∧ q = { p with phase := .taken line } := by
  unfold ProcessingLoop.take at h
  split at h
  · next hphase =>
    cases h
    exact ⟨hphase, rfl⟩
  · cases h

theorem steps_of_step {op : SystemOp} (h : s.step rt mask toJson overflowChecks op = some t) :
    Steps rt mask toJson overflowChecks s op t := by
  cases op with
  | accept stream =>
    rw [step] at h
    split_ifs at h
    cases h
    exact .accepted stream
  | datagram i payload =>
    obtain ⟨r, hr, hmap⟩ := Option.bind_eq_some_iff.mp h
    obtain ⟨r', hreceive, rfl⟩ := Option.map_eq_some_iff.mp hmap
    exact .received i payload r r' hr hreceive
  | next i =>
    obtain ⟨r, hr, hmap⟩ := Option.bind_eq_some_iff.mp h
    obtain ⟨r', hnext, rfl⟩ := Option.map_eq_some_iff.mp hmap
    exact .advanced i r r' hr hnext
  | count i =>
    obtain ⟨r, hr, hcount⟩ := Option.bind_eq_some_iff.mp h
    split at hcount
    · next line hphase =>
      cases hcount
      exact .counted i r line hr hphase
    · cases hcount
  | send i =>
    obtain ⟨r, hr, hsend⟩ := Option.bind_eq_some_iff.mp h
    split at hsend
    · next line hphase =>
      split_ifs at hsend with hroom
      cases hsend
      exact .sent i r line hr hphase hroom
    · cases hsend
  | recv =>
    rw [step] at h
    split at h
    · cases h
    · next i line queue hqueue =>
      obtain ⟨loop, hloop, rfl⟩ := Option.map_eq_some_iff.mp h
      obtain ⟨hphase, rfl⟩ := take_eq_some hloop
      exact .taken i line queue hqueue hphase
  | work task =>
    obtain ⟨loop, hloop, rfl⟩ := Option.map_eq_some_iff.mp h
    exact .worked task loop hloop

/-- Every step of the program is one of the senders or the receiver, or changes nothing of
theirs. -/
theorem toFanIn_step {op : SystemOp} (h : Steps rt mask toJson overflowChecks s op t) :
    t.toFanIn = s.toFanIn ∨ ∃ op', s.toFanIn.step op' = some t.toFanIn := by
  cases h with
  | accepted stream =>
    right
    refine ⟨.join (readable (nextLines stream)), ?_⟩
    simp only [FanIn.step, toFanIn, List.map_append]
    rfl
  | received i payload r r' hr hreceive =>
    right
    refine ⟨.supply i (UdpEvent.received payload).lines, ?_⟩
    rw [FanIn.step, getElem?_senders hr, Option.map_some, toFanIn_setReader,
      receive_cases hreceive]
  | advanced i r r' hr hnext =>
    rcases next_cases hnext with hsame | ⟨line, ahead, hbefore, hafter⟩
    · exact Or.inl (toFanIn_setReader_self hr hsame)
    · right
      refine ⟨.pick i, ?_⟩
      rw [FanIn.step, getElem?_senders hr, hbefore, toFanIn_setReader, hafter]
      rfl
  | counted i r line hr hphase =>
    left
    refine toFanIn_setReader_self hr ?_
    rw [Reader.toSender, Reader.toSender, hphase]
    rfl
  | sent i r line hr hphase hroom =>
    right
    refine ⟨.send i, ?_⟩
    have hsender : r.toSender = ⟨r.given, readable r.answers, some line⟩ := by
      rw [Reader.toSender, hphase]
      rfl
    have hlength : s.toFanIn.queue.length < s.toFanIn.capacity := hroom
    rw [FanIn.step, getElem?_senders hr, hsender, Option.bind_some]
    dsimp only
    rw [if_pos hlength]
    simp only [toFanIn, setReader, FanIn.setSender, List.map_set]
    rfl
  | taken i line queue hqueue hphase =>
    right
    refine ⟨.receive, ?_⟩
    have hsame : s.toFanIn.queue = (i, line) :: queue := hqueue
    unfold FanIn.step
    dsimp only
    rw [hsame]
    rfl
  | worked task loop hloop => exact Or.inl rfl

lemma given_next {r r' : Reader} (h : r.next = some r') : r'.given = r.given := by
  rcases next_cases h with hsame | ⟨line, ahead, -, hafter⟩
  · exact congrArg Sender.given hsame
  · exact congrArg Sender.given hafter

lemma given_receive {r r' : Reader} {payload : List UInt8} (h : r.receive payload = some r') :
    r'.given = r.given ++ (UdpEvent.received payload).lines :=
  congrArg Sender.given (receive_cases h)

lemma given_setReader_self {i : ℕ} {r r' : Reader} (h : s.readers[i]? = some r)
    (hsame : r'.given = r.given) : (s.setReader i r').readers.map Reader.given =
      s.readers.map Reader.given := by
  obtain ⟨hlt, rfl⟩ := List.getElem?_eq_some_iff.mp h
  have hlen : i < (s.readers.map Reader.given).length := by rwa [List.length_map]
  have hget : (s.readers.map Reader.given)[i] = r'.given := by
    rw [List.getElem_map, hsame]
  rw [setReader, List.map_set, ← hget, List.set_getElem_self]

lemma given_step {op : SystemOp} (h : Steps rt mask toJson overflowChecks s op t) :
    t.readers.map Reader.given = op.supply (s.readers.map Reader.given) := by
  cases h with
  | accepted stream =>
    rw [List.map_append, List.map_singleton, readable_nextLines]
    rfl
  | received i payload r r' hr hreceive =>
    obtain ⟨hlt, rfl⟩ := List.getElem?_eq_some_iff.mp hr
    have hlt' : i < (s.readers.map Reader.given).length := by rwa [List.length_map]
    rw [setReader, List.map_set, given_receive hreceive, SystemOp.supply,
      List.modify_eq_set_get _ hlt', List.get_eq_getElem, List.getElem_map]
  | advanced i r r' hr hnext => exact given_setReader_self hr (given_next hnext)
  | counted i r line hr hphase => exact given_setReader_self hr rfl
  | sent i r line hr hphase hroom => exact given_setReader_self hr rfl
  | taken i line queue hqueue hphase => rfl
  | worked task loop hloop => rfl

lemma given_of_run {proto : Option String} {engine : IngestEngine} {ops : List SystemOp}
    (hrun : run (step rt mask toJson overflowChecks) (start proto engine) ops = some s) :
    s.readers.map Reader.given = supplied proto ops := by
  refine run_induction (motive := fun done s => s.readers.map Reader.given = supplied proto done)
    _ ?_ ?_ hrun
  · unfold start supplied
    dsimp only
    split_ifs <;> rfl
  · intro done op u v hu hgiven hstep
    rw [given_step (steps_of_step hstep), hgiven, supplied, supplied, List.foldl_concat]

end IngestSystem

/-! ### The processing loop -/

namespace ProcessingLoop

variable {rt : Runtime} {mask : String → String} {toJson : NetworkActivity → Option String}
  {overflowChecks : Bool} {p q : ProcessingLoop}

lemma countEvent_counts (engine : IngestEngine) (event : NetworkActivity) :
    (engine.countEvent event).parsedOk + (engine.countEvent event).fallbackUnparsed =
      engine.parsedOk + engine.fallbackUnparsed + 1 := by
  unfold IngestEngine.countEvent
  dsimp only
  split_ifs <;> omega

/-- Parsing and clustering a line leave the accumulator and the hand as they are; a push empties
the hand, and the block that it writes is counted next. -/
inductive Performs (rt : Runtime) (toJson : NetworkActivity → Option String)
    (overflowChecks : Bool) (p q : ProcessingLoop) : Prop where
  | kept (hbatcher : q.engine.batcher = p.engine.batcher) (hhand : q.phase.hand = p.phase.hand)
      (hcounted : q.engine.parsedOk + q.engine.fallbackUnparsed + q.phase.uncounted =
        p.engine.parsedOk + p.engine.fallbackUnparsed + p.phase.uncounted)
      (hblocks : q.engine.totalBlocks + q.phase.unreported =
        p.engine.totalBlocks + p.phase.unreported)
  | pushed (line : Text) (event : NetworkActivity) (startedAt checkedAt : ℕ) (env : FlushEnv)
      (result : Option BlockFlushResult) (hphase : p.phase = .clustered line event)
      (hpush : push rt.sha256 overflowChecks p.engine.batcher
        (incomingLog toJson (String.ofList line) event) startedAt checkedAt env =
          some (.ok result, q.engine.batcher)) (hhand : q.phase.hand = none)
      (hcounted : q.engine.parsedOk + q.engine.fallbackUnparsed + q.phase.uncounted =
        p.engine.parsedOk + p.engine.fallbackUnparsed + p.phase.uncounted)
      (hblocks : q.engine.totalBlocks + q.phase.unreported =
        p.engine.totalBlocks + p.phase.unreported + result.isSome.toNat)

theorem performs_of_perform {task : LoopTask}
    (h : p.perform rt mask toJson overflowChecks task = some q) :
    Performs rt toJson overflowChecks p q := by
  obtain ⟨engine, phase⟩ := p
  cases task with
  | parse readings =>
    cases phase with
    | taken line =>
      obtain ⟨event, -, rfl⟩ := Option.map_eq_some_iff.mp h
      exact .kept rfl rfl (countEvent_counts engine event) rfl
    | _ => cases h
  | cluster nowMs elapsedMicros =>
    cases phase with
    | parsed line event =>
      obtain ⟨⟨clusterRes, miner⟩, -, rfl⟩ := Option.map_eq_some_iff.mp h
      exact .kept rfl rfl rfl rfl
    | _ => cases h
  | push startedAt checkedAt env =>
    cases phase with
    | clustered line event =>
      rw [perform] at h
      dsimp only at h
      split at h
      · next batcher hpush =>
        cases h
        exact .pushed line event startedAt checkedAt env none rfl hpush rfl rfl rfl
      · next result batcher hpush =>
        cases h
        exact .pushed line event startedAt checkedAt env (some result) rfl hpush rfl rfl rfl
      · cases h
    | _ => cases h
  | countBlock =>
    cases phase with
    | flushed =>
      cases h
      exact .kept rfl rfl rfl rfl
    | _ => cases h

/-- The tasks of a line do together what the body of the loop does. -/
theorem exists_run_of_receive {engine engine' : IngestEngine} {a : LineArrival}
    (h : engine.receive rt mask toJson overflowChecks a = some (.ok engine')) :
    ∃ tasks, run (perform rt mask toJson overflowChecks) ⟨engine, .taken a.rawLog.toList⟩ tasks =
      some ⟨engine', .waiting⟩ := by
  unfold IngestEngine.receive at h
  split at h
  · cases h
  · next event hevent =>
    dsimp only at h
    split at h
    · cases h
    · next clusterRes miner hmined =>
      let tasks : List LoopTask := [.parse a.readings, .cluster a.miningNowMs a.elapsedMicros,
        .push a.startedAt a.checkedAt a.flushEnv]
      split at h
      · cases h
      · cases h
      · next batcher hpush =>
        cases h
        refine ⟨tasks, ?_⟩
        simp [tasks, run, perform, String.ofList_toList, hevent, hmined, hpush]
      · next result batcher hpush =>
        cases h
        refine ⟨tasks ++ [.countBlock], ?_⟩
        simp [tasks, run, perform, String.ofList_toList, hevent, hmined, hpush]

end ProcessingLoop

/-! ### The archive -/

lemma accounted_of_push {overflowChecks : Bool} {sha256 : Bytes → Hash} {start b b' : Batcher}
    {blocks : List (BlockWrite × LedgerEntry)} {ops : List BatchOp} {log : IncomingLog}
    {startedAt checkedAt : ℕ} {env : FlushEnv} {result : Option BlockFlushResult}
    (h : Accounted sha256 overflowChecks start blocks ops b)
    (hpush : push sha256 overflowChecks b log startedAt checkedAt env = some (.ok result, b')) :
    ∃ blocks', Accounted sha256 overflowChecks start blocks'
        (ops ++ [.push log startedAt checkedAt env]) b' ∧
      blocks'.length = blocks.length + result.isSome.toNat := by
  have hcall : BatchOp.call sha256 overflowChecks b (.push log startedAt checkedAt env) =
      some (.ok result, b') := hpush
  rw [BatchOp.call_eq] at hcall
  split_ifs at hcall with hreach
  · cases flushes_of_flush hcall with
    | idle hempty => exact ⟨blocks, h.accept _, rfl⟩
    | anchored nextId hne hid hok =>
      exact ⟨_, (h.accept (.push log startedAt checkedAt env)).anchor env hid, by simp⟩
  · cases hcall
    exact ⟨blocks, h.accept _, rfl⟩

namespace IngestSystem

variable {rt : Runtime} {mask : String → String} {toJson : NetworkActivity → Option String}
  {overflowChecks : Bool} {s t : IngestSystem}

/-- The lines that have reached the processing loop, as it gets them. -/
def takenLogs (s : IngestSystem) : List String := s.taken.map fun p => String.ofList p.2

/-- The line in the hand of the processing loop. -/
def handLogs (s : IngestSystem) : List String := (s.loop.phase.hand.map String.ofList).toList

/-- What the loop has taken out of the channel is accounted for by the batch accumulator, or in the
hand of the loop. -/
def Archives (rt : Runtime) (overflowChecks : Bool) (batcher : Batcher) (s : IngestSystem) : Prop :=
  ∃ blocks ops, Accounted rt.sha256 overflowChecks batcher blocks ops s.loop.engine.batcher ∧
    pushedLogs ops ++ s.handLogs = s.takenLogs ∧
    s.loop.engine.totalBlocks + s.loop.phase.unreported = blocks.length

lemma loop_step {op : SystemOp} (h : Steps rt mask toJson overflowChecks s op t) :
    (t.loop = s.loop ∧ t.taken = s.taken) ∨
      (ProcessingLoop.Performs rt toJson overflowChecks s.loop t.loop ∧ t.taken = s.taken) ∨
      ∃ p, s.loop.phase = .waiting ∧ t.loop = { s.loop with phase := .taken p.2 } ∧
        t.taken = s.taken ++ [p] := by
  cases h with
  | taken i line queue hqueue hphase => exact Or.inr (Or.inr ⟨(i, line), hphase, rfl, rfl⟩)
  | worked task loop hloop =>
    exact Or.inr (Or.inl ⟨ProcessingLoop.performs_of_perform hloop, rfl⟩)
  | _ => exact Or.inl ⟨rfl, rfl⟩

lemma Archives.step {batcher : Batcher} {op : SystemOp} (h : Archives rt overflowChecks batcher s)
    (hstep : Steps rt mask toJson overflowChecks s op t) :
    Archives rt overflowChecks batcher t := by
  obtain ⟨blocks, ops, haccounted, hlogs, hblocks⟩ := h
  rcases loop_step hstep with ⟨hloop, htaken⟩ | ⟨hperforms, htaken⟩ | ⟨p, hphase, hloop, htaken⟩
  · refine ⟨blocks, ops, ?_, ?_, ?_⟩
    · rwa [hloop]
    · rwa [handLogs, takenLogs, hloop, htaken]
    · rwa [hloop]
  · rw [handLogs, takenLogs] at hlogs
    cases hperforms with
    | kept hbatcher hhand hcounted htotal =>
      refine ⟨blocks, ops, ?_, ?_, ?_⟩
      · rwa [hbatcher]
      · rwa [handLogs, takenLogs, hhand, htaken]
      · rwa [htotal]
    | pushed line event startedAt checkedAt env result hphase hpush hhand hcounted htotal =>
      obtain ⟨blocks', haccounted', hlength⟩ := accounted_of_push haccounted hpush
      refine ⟨blocks', _, haccounted', ?_, ?_⟩
      · rw [pushedLogs_concat, handLogs, takenLogs, hhand, htaken, ← hlogs, hphase]
        exact List.append_nil _
      · rw [htotal, hblocks, hlength]
  · refine ⟨blocks, ops, ?_, ?_, ?_⟩
    · rwa [hloop]
    · rw [handLogs, hphase] at hlogs
      rw [handLogs, takenLogs, hloop, htaken, List.map_append, ← takenLogs, ← hlogs]
      change pushedLogs ops ++ [String.ofList p.2] = pushedLogs ops ++ [] ++ [String.ofList p.2]
      rw [List.append_nil]
    · rw [hphase] at hblocks
      rwa [hloop]

/-! ### The counters -/

/-- The counters of the program and what they count. -/
structure Counts (s : IngestSystem) : Prop where
  ingested : s.totalIngested =
    s.taken.length + s.queue.length + s.readers.countP fun r => r.phase.isCounted
  processed : s.loop.engine.parsedOk + s.loop.engine.fallbackUnparsed + s.loop.phase.uncounted =
    s.taken.length

lemma countP_set {i : ℕ} {r : Reader} (h : s.readers[i]? = some r) (r' : Reader) :
    (s.readers.set i r').countP (fun r => r.phase.isCounted) + r.phase.isCounted.toNat =
      s.readers.countP (fun r => r.phase.isCounted) + r'.phase.isCounted.toNat :=
  Machine.countP_set_add (fun r => r.phase.isCounted) h r'

lemma isCounted_next {r r' : Reader} (h : r.next = some r') :
    r.phase.isCounted = false ∧ r'.phase.isCounted = false := by
  unfold Reader.next at h
  split at h
  · next line answers hphase hanswers =>
    cases h
    rw [hphase]
    dsimp only
    split_ifs <;> exact ⟨rfl, rfl⟩
  · next rest hphase hanswers =>
    cases h
    rw [hphase]
    exact ⟨rfl, rfl⟩
  · next hphase hanswers =>
    split at h
    · cases h
      rw [hphase]
      exact ⟨rfl, rfl⟩
    · cases h
  · cases h

lemma isCounted_receive {r r' : Reader} {payload : List UInt8} (h : r.receive payload = some r') :
    r.phase.isCounted = false ∧ r'.phase.isCounted = false := by
  unfold Reader.receive at h
  split at h
  · next htransport hphase hanswers =>
    cases h
    rw [hphase]
    exact ⟨rfl, rfl⟩
  · cases h

lemma Counts.processed_step {op : SystemOp} (h : s.Counts)
    (hstep : Steps rt mask toJson overflowChecks s op t) :
    t.loop.engine.parsedOk + t.loop.engine.fallbackUnparsed + t.loop.phase.uncounted =
      t.taken.length := by
  have hbefore := h.processed
  rcases loop_step hstep with ⟨hloop, htaken⟩ | ⟨hperforms, htaken⟩ | ⟨p, hphase, hloop, htaken⟩
  · rw [hloop, htaken, hbefore]
  · rw [htaken, ← hbefore]
    cases hperforms with
    | kept hbatcher hhand hcounted htotal => exact hcounted
    | pushed line event startedAt checkedAt env result hphase hpush hhand hcounted htotal =>
      exact hcounted
  · rw [hphase] at hbefore
    rw [hloop, htaken, List.length_append, List.length_singleton, ← hbefore]
    rfl

lemma Counts.ingested_step {op : SystemOp} (h : s.Counts)
    (hstep : Steps rt mask toJson overflowChecks s op t) :
    t.totalIngested =
      t.taken.length + t.queue.length + t.readers.countP fun r => r.phase.isCounted := by
  have hbefore := h.ingested
  cases hstep with
  | accepted stream => simpa [ReaderPhase.isCounted] using hbefore
  | received i payload r r' hr hreceive =>
    have hset := countP_set hr r'
    rw [(isCounted_receive hreceive).1, (isCounted_receive hreceive).2] at hset
    simp only [setReader]
    omega
  | advanced i r r' hr hnext =>
    have hset := countP_set hr r'
    rw [(isCounted_next hnext).1, (isCounted_next hnext).2] at hset
    simp only [setReader]
    omega
  | counted i r line hr hphase =>
    have hset := countP_set hr { r with phase := .counted line }
    have hold : r.phase.isCounted = false := by rw [hphase]; rfl
    rw [hold] at hset
    change _ + 0 = _ + 1 at hset
    change s.totalIngested + 1 = s.taken.length + s.queue.length + _
    simp only [setReader]
    omega
  | sent i r line hr hphase hroom =>
    have hset := countP_set hr { r with phase := .waiting }
    have hold : r.phase.isCounted = true := by rw [hphase]; rfl
    rw [hold] at hset
    change _ + 1 = _ + 0 at hset
    simp only [setReader, List.length_append, List.length_singleton]
    omega
  | taken i line queue hqueue hphase =>
    rw [hqueue, List.length_cons] at hbefore
    simp only [List.length_append, List.length_singleton]
    omega
  | worked task loop hloop => exact hbefore

/-! ### Runs -/

lemma inSequence_start (proto : Option String) (engine : IngestEngine) :
    (start proto engine).toFanIn.InSequence where
  sequence i sender h := by
    unfold start toFanIn at h
    dsimp only at h
    split_ifs at h
    · rw [List.map_singleton, List.getElem?_singleton] at h
      split_ifs at h
      cases h
      rfl
    · cases h
  joined p hp := by cases hp
  bounded := Nat.zero_le _

variable {args : IngestArgs} {disk : Disk} {engine : IngestEngine}

/-- The program keeps its lines in sequence, archives what it takes and counts both. -/
lemma invariants_of_run {proto : Option String} {ops : List SystemOp}
    (hstart : IngestEngine.start overflowChecks args disk = some (.ok engine))
    (hrun : run (step rt mask toJson overflowChecks) (start proto engine) ops = some s) :
    s.toFanIn.InSequence ∧ s.Archives rt overflowChecks engine.batcher ∧ s.Counts := by
  obtain ⟨loaded, -, hloaded⟩ := Option.map_eq_some_iff.mp hstart
  have hzero : engine.parsedOk = 0 ∧ engine.fallbackUnparsed = 0 ∧ engine.totalBlocks = 0 := by
    cases loaded with
    | error err => cases hloaded
    | ok acc =>
      cases hloaded
      exact ⟨rfl, rfl, rfl⟩
  refine run_induction (motive := fun _ s => s.toFanIn.InSequence ∧
    s.Archives rt overflowChecks engine.batcher ∧ s.Counts) _ ?_ ?_ hrun
  · refine ⟨inSequence_start proto engine, ⟨[], [], accounted_start _, rfl, hzero.2.2⟩, ?_, ?_⟩
    · unfold start
      dsimp only
      split_ifs <;> rfl
    · change engine.parsedOk + engine.fallbackUnparsed = 0
      rw [hzero.1, hzero.2.1]
  · rintro done op u v - ⟨hsequence, harchives, hcounts⟩ hstep
    have hsteps := steps_of_step hstep
    refine ⟨?_, harchives.step hsteps,
      ⟨hcounts.ingested_step hsteps, hcounts.processed_step hsteps⟩⟩
    rcases toFanIn_step hsteps with hsame | ⟨op', hop⟩
    · rwa [hsame]
    · exact hsequence.step hop

end IngestSystem

section System

variable (rt : Runtime) (mask : String → String) (toJson : NetworkActivity → Option String)
  (overflowChecks : Bool)

/-! ### A block of one line -/

/-- A line that is of no known format, twice. -/
def pairStream : List UInt8 :=
  let line := [108, 105, 110, 107, 32, 100, 111, 119, 110, 13, 10]
  line ++ line

/-- One line comes through its connection and the channel into the hand of the loop. -/
def deliverTasks : List SystemOp := [.next 0, .count 0, .send 0, .recv]

lemma run_work {s : IngestSystem} {tasks : List LoopTask} {loop : ProcessingLoop}
    (h : run (ProcessingLoop.perform rt mask toJson overflowChecks) s.loop tasks = some loop) :
    run (IngestSystem.step rt mask toJson overflowChecks) s (tasks.map .work) =
      some { s with loop } := by
  induction tasks generalizing s with
  | nil =>
    cases h
    rfl
  | cons task tasks ih =>
    rw [run_cons] at h
    obtain ⟨between, hbetween, hrest⟩ := Option.bind_eq_some_iff.mp h
    have hstep : s.step rt mask toJson overflowChecks (.work task) =
        some { s with loop := between } := by
      rw [IngestSystem.step, hbetween, Option.map_some]
    rw [List.map_cons, run_cons, hstep, Option.bind_some]
    exact ih hrest

/-- With blocks of one line, the first of two lines is anchored and the second is in the hand of
the loop. -/
lemma exists_flushing_run : ∃ engine, ∃ tasks : List LoopTask, ∃ s,
    IngestEngine.start overflowChecks { batchSize := 1 } ⟨[], none⟩ = some (.ok engine) ∧
      run (IngestSystem.step rt mask toJson overflowChecks) (.start (some "tcp") engine)
        (.accept pairStream :: deliverTasks ++ tasks.map .work ++ deliverTasks) = some s ∧
      s.totalIngested = 2 ∧ s.queue = [] ∧ s.loop.engine.totalBlocks = 1 ∧
      s.handLogs = ["link down"] ∧ s.takenLogs = ["link down", "link down"] := by
  let args : IngestArgs := { batchSize := 1 }
  let engine : IngestEngine := ⟨⟨⟨args.batcherConfig, [], none, 0, []⟩, [], none⟩,
    DrainMiner.new {}, 0, 0, 0, 0, 0⟩
  obtain ⟨event, hevent⟩ := exists_event_loneLine rt
  have hdepth : 2 ≤ engine.miner.config.depth := by
    change 2 ≤ 4
    omega
  have htriggers : Triggers engine.batcher.acc 0 0 := Or.inl (le_refl 1)
  have hid : nextBlockId overflowChecks 0 = some 1 := by cases overflowChecks <;> rfl
  obtain ⟨engine', hreceive, hblocks⟩ := receive_of_triggers rt mask toJson overflowChecks hdepth
    (iff_of_true rfl rfl) hevent htriggers hid ⟨rfl, rfl⟩
  obtain ⟨tasks, htasks⟩ := ProcessingLoop.exists_run_of_receive hreceive
  have htcp : enableTcp (some "tcp") = true := by decide +kernel
  have hudp : enableUdp (some "tcp") = false := by decide +kernel
  obtain ⟨line, hraw, hlines, htrim, hne⟩ : ∃ line, line = loneLine.rawLog.toList ∧
      nextLines pairStream = [some line, some line] ∧ trim line = line ∧ line ≠ [] :=
    ⟨"link down".toList, rfl, by decide +kernel, by decide +kernel, by decide⟩
  have hlog : String.ofList line = "link down" := by
    rw [hraw]
    exact String.ofList_toList
  -- the first line reaches the loop
  have hfirst : run (IngestSystem.step rt mask toJson overflowChecks)
      (.start (some "tcp") engine) (.accept pairStream :: deliverTasks) =
        some ⟨true, [⟨.tcp, [line, line], [some line], .waiting⟩], 1, [], [(0, line)],
          ⟨engine, .taken line⟩⟩ := by
    simp [deliverTasks, run, IngestSystem.step, IngestSystem.start, htcp, hudp, hlines, htrim,
      hne, readable, trimmedLines, Reader.next, IngestSystem.setReader, rawChannelCapacity,
      ProcessingLoop.take]
  rw [← hraw] at htasks
  have hsecond : run (IngestSystem.step rt mask toJson overflowChecks)
      ⟨true, [⟨.tcp, [line, line], [some line], .waiting⟩], 1, [], [(0, line)],
        ⟨engine', .waiting⟩⟩ deliverTasks =
        some ⟨true, [⟨.tcp, [line, line], [], .waiting⟩], 2, [], [(0, line), (0, line)],
          ⟨engine', .taken line⟩⟩ := by
    simp [deliverTasks, run, IngestSystem.step, htrim, hne, Reader.next, IngestSystem.setReader,
      rawChannelCapacity, ProcessingLoop.take]
  refine ⟨engine, tasks, ⟨true, [⟨.tcp, [line, line], [], .waiting⟩], 2, [],
    [(0, line), (0, line)], ⟨engine', .taken line⟩⟩, rfl, ?_, rfl, rfl, hblocks, ?_, ?_⟩
  · rw [run_append, run_append, hfirst, Option.bind_some, run_work rt mask toJson _ htasks,
      Option.bind_some]
    exact hsecond
  · exact congrArg (fun log => [log]) hlog
  · exact congrArg (fun log => [log, log]) hlog

/-- A runtime in which no library call finds anything. -/
def bareRuntime : Runtime where
  sha256 := sha2
  isAlphanumeric := Char.isAlphanum
  chrono := ⟨fun _ _ => none, fun _ => none⟩
  json := ⟨fun _ => .error "expected value", fun _ => ""⟩
  captures _ _ := none

/-! ### The whole program -/

/-- Each line that the readers find in what a source has sent is in one place: in the blocks or
the buffer of the accumulator or the hand of the loop, which hold all lines that left the channel
in the order in which they did, in the channel, in the hand of the reader, or not yet read; and
the lines of one source keep their order on this way. -/
theorem lines_reach_archive (proto : Option String) (args : IngestArgs) (disk : Disk)
    (engine : IngestEngine) (ops : List SystemOp) (s : IngestSystem)
    (hstart : IngestEngine.start overflowChecks args disk = some (.ok engine))
    (hrun : run (IngestSystem.step rt mask toJson overflowChecks) (.start proto engine) ops =
      some s) :
    (∃ blocks : List (BlockWrite × LedgerEntry),
      s.loop.engine.batcher.disk.files = disk.files ++ blocks.map Prod.fst ∧
      s.loop.engine.batcher.disk.ledgerLines =
        disk.ledgerLines ++ blocks.map (fun p => .entry p.2) ∧
      (∀ p ∈ blocks, Anchored rt.sha256 args.parquetDir p.2.blockId p.1 p.2) ∧
      blockLogs blocks ++ bufferedLogs s.loop.engine.batcher ++ s.handLogs = s.takenLogs) ∧
    ∀ i r, s.readers[i]? = some r →
      (supplied proto ops)[i]? = some (ofSender i s.taken ++ ofSender i s.queue ++
        r.phase.line.toList ++ readable r.answers) := by
  obtain ⟨hsequence, ⟨blocks, done, haccounted, hlogs, -⟩, -⟩ :=
    IngestSystem.invariants_of_run hstart hrun
  obtain ⟨hconfig, hbuffer, -⟩ := start_eq_some hstart
  have hdisk : engine.batcher.disk = disk := by
    obtain ⟨loaded, -, hloaded⟩ := Option.map_eq_some_iff.mp hstart
    cases loaded with
    | error err => cases hloaded
    | ok acc =>
      cases hloaded
      rfl
  constructor
  · refine ⟨blocks, ?_, ?_, ?_, ?_⟩
    · rw [haccounted.files, hdisk]
    · rw [haccounted.ledger, hdisk]
    · intro p hp
      have hanchored := haccounted.anchored_of_mem hp
      rwa [hconfig] at hanchored
    · rw [haccounted.logs, ← hlogs, bufferedLogs, hbuffer]
      rfl
  · intro i r hr
    have hsender := hsequence.sequence i r.toSender (IngestSystem.getElem?_senders hr)
    rw [FanIn.passed, FanIn.ofSender_append] at hsender
    rw [← IngestSystem.given_of_run hrun, List.getElem?_map, hr, Option.map_some]
    exact congrArg some hsender.symm

theorem lines_reach_archive_pair :
    ∃ engine, ∃ tasks : List LoopTask, ∃ s,
      run (IngestSystem.step bareRuntime id (fun _ => none) true) (.start (some "tcp") engine)
        (.accept pairStream :: deliverTasks ++ tasks.map .work ++ deliverTasks) = some s ∧
      ∃ blocks : List (BlockWrite × LedgerEntry),
        blockLogs blocks ++ bufferedLogs s.loop.engine.batcher ++ ["link down"] =
          ["link down", "link down"] := by
  obtain ⟨engine, tasks, s, hstart, hrun, -, -, -, hhand, htaken⟩ :=
    exists_flushing_run bareRuntime id (fun _ => none) true
  obtain ⟨⟨blocks, -, -, -, harchived⟩, -⟩ := lines_reach_archive bareRuntime id (fun _ => none)
    true (some "tcp") { batchSize := 1 } ⟨[], none⟩ engine _ s hstart hrun
  rw [hhand, htaken] at harchived
  exact ⟨engine, tasks, s, hrun, blocks, harchived⟩

/-- At any time the counters add up: what was counted is counted as parsed or not, in the hand of
the loop, in the channel or in the hand of its reader, and the files written are counted as blocks
but for one that the loop is about to count. -/
theorem counters_add_up (proto : Option String) (args : IngestArgs) (disk : Disk)
    (engine : IngestEngine) (ops : List SystemOp) (s : IngestSystem)
    (hstart : IngestEngine.start overflowChecks args disk = some (.ok engine))
    (hrun : run (IngestSystem.step rt mask toJson overflowChecks) (.start proto engine) ops =
      some s) :
    s.totalIngested = s.loop.engine.parsedOk + s.loop.engine.fallbackUnparsed +
        s.loop.phase.uncounted + s.queue.length + s.readers.countP (fun r => r.phase.isCounted) ∧
      s.queue.length ≤ rawChannelCapacity ∧
      s.loop.engine.batcher.disk.files.length =
        disk.files.length + s.loop.engine.totalBlocks + s.loop.phase.unreported := by
  obtain ⟨hsequence, ⟨blocks, done, haccounted, -, hblocks⟩, hcounts⟩ :=
    IngestSystem.invariants_of_run hstart hrun
  refine ⟨?_, hsequence.bounded, ?_⟩
  · rw [hcounts.processed, hcounts.ingested]
  · obtain ⟨loaded, -, hloaded⟩ := Option.map_eq_some_iff.mp hstart
    rw [haccounted.files, List.length_append, List.length_map, Nat.add_assoc, hblocks]
    cases loaded with
    | error err => cases hloaded
    | ok acc =>
      cases hloaded
      rfl

theorem counters_add_up_pair :
    ∃ engine, ∃ tasks : List LoopTask, ∃ s,
      run (IngestSystem.step bareRuntime id (fun _ => none) true) (.start (some "tcp") engine)
        (.accept pairStream :: deliverTasks ++ tasks.map .work ++ deliverTasks) = some s ∧
      2 = s.loop.engine.parsedOk + s.loop.engine.fallbackUnparsed + s.loop.phase.uncounted +
        s.queue.length + s.readers.countP (fun r => r.phase.isCounted) ∧
      s.loop.engine.batcher.disk.files.length = 1 + s.loop.phase.unreported := by
  obtain ⟨engine, tasks, s, hstart, hrun, hingested, -, hblocks, -⟩ :=
    exists_flushing_run bareRuntime id (fun _ => none) true
  obtain ⟨hcounted, -, hfiles⟩ := counters_add_up bareRuntime id (fun _ => none)
    true (some "tcp") { batchSize := 1 } ⟨[], none⟩ engine _ s hstart hrun
  rw [hblocks] at hfiles
  exact ⟨engine, tasks, s, hrun, hingested.symm.trans hcounted, hfiles⟩

end System

end Ulpf.Cli
