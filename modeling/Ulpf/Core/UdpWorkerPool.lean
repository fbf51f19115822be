import Ulpf.Core.NetworkEvents
import Ulpf.Core.SyslogListeners
import Ulpf.Library.Relay

/-!
# The UDP worker pool

`spawn_udp_worker_pool` starts workers on sockets of one port. Each has a listener task, which
batches the lines of its datagrams, and a parser task, which parses the batches losslessly and
forwards the events to a channel that all workers share. A line on which the parser panics ends
the parser task of its worker, and its listener with the next batch.
-/

namespace Ulpf.Core
open Ulpf.Library

/-- The channel between the tasks of a worker. -/
def rawBatchCapacity : ℕ := 100

structure UdpWorkerPool where
  listeners : List LineBatcher
  workers : Relays Text NetworkActivity

inductive PoolOp where
  /-- What `select!` of a listener gets. -/
  | event (i : ℕ) (event : UdpEvent)
  | task (task : RelayTask Readings)
  /-- The receiver of the events is dropped. -/
  | close

/-- What the listener of a worker got. -/
def PoolOp.eventOf (i : ℕ) : PoolOp → Option UdpEvent
  | .event j got => if j = i then some got else none
  | _ => none

/-- What a line is parsed to, unless the parser panics. -/
def parseLine (rt : Runtime) (r : Readings) (line : Text) : Option NetworkActivity :=
  parseLossless (universalParser rt r) (String.ofList line)

namespace UdpWorkerPool

variable (rt : Runtime) (config : IngestConfig) (clock : ℕ → ℕ → ℕ)

/-- The workers whose sockets can be bound, up to the first that cannot; the pool reports an error
if there is one, but the workers spawned before run on. -/
def spawnUdpWorkerPool (capacity : ℕ) (binds : List Bool) : Bool × UdpWorkerPool :=
  let n := (binds.takeWhile id).length
  (binds.all id, ⟨(List.range n).map fun i => .start (clock i), .start rawBatchCapacity capacity n⟩)

def step (s : UdpWorkerPool) : PoolOp → Option UdpWorkerPool
  | .event i event => s.listeners[i]?.bind fun listener =>
      let listener' := UdpSyslogListener.step config (clock i) listener event
      (s.workers.step (parseLine rt) (.supply i (listener'.sent.drop listener.sent.length))).map
        fun workers => ⟨s.listeners.set i listener', workers⟩
  | .task task => (s.workers.step (parseLine rt) (.task task)).map fun workers => { s with workers }
  | .close => (s.workers.step (parseLine rt) .close).map fun workers => { s with workers }

end UdpWorkerPool

/-! ### The listeners -/

section Listener

variable {config : IngestConfig} {clock : ℕ → ℕ}

lemma sent_prefix_pushLine (s : LineBatcher) (line : Text) :
    s.sent <+: (UdpSyslogListener.pushLine config clock s line).sent := by
  unfold UdpSyslogListener.pushLine
  dsimp only
  split_ifs
  · exact List.prefix_rfl
  · exact List.prefix_append _ _
  · exact List.prefix_rfl

lemma sent_prefix_step (s : LineBatcher) (event : UdpEvent) :
    s.sent <+: (UdpSyslogListener.step config clock s event).sent := by
  cases event with
  | received payload =>
    rw [UdpSyslogListener.step]
    cases fromUtf8 payload with
    | none => exact List.prefix_rfl
    | some text =>
      dsimp only
      generalize lines text = ls
      induction ls generalizing s with
      | nil => exact List.prefix_rfl
      | cons line ls ih => exact (sent_prefix_pushLine s line).trans (ih _)
  | failed => exact List.prefix_rfl
  | timer =>
    rw [UdpSyslogListener.step]
    dsimp only [LineBatcher.timedOut]
    split_ifs
    · exact List.prefix_rfl
    · exact List.prefix_append _ _
    · exact List.prefix_rfl

end Listener

namespace UdpWorkerPool

variable {rt : Runtime} {config : IngestConfig} {clock : ℕ → ℕ → ℕ} {s t : UdpWorkerPool}

/-- Each listener is where its events have brought it, and its worker was given what it sent. -/
structure Listens (config : IngestConfig) (clock : ℕ → ℕ → ℕ) (ops : List PoolOp)
    (s : UdpWorkerPool) : Prop where
  listener : ∀ i listener, s.listeners[i]? = some listener →
    listener = UdpSyslogListener.runRaw config (clock i) (ops.filterMap (PoolOp.eventOf i))
  given : s.workers.relays.map Relay.given = s.listeners.map LineBatcher.sent

lemma listens_spawn (capacity : ℕ) (binds : List Bool) :
    (spawnUdpWorkerPool clock capacity binds).2.Listens config clock [] where
  listener i listener hlistener := by
    rw [spawnUdpWorkerPool, List.getElem?_map, Option.map_eq_some_iff] at hlistener
    obtain ⟨j, hj, rfl⟩ := hlistener
    obtain ⟨hlt, rfl⟩ := List.getElem?_eq_some_iff.mp hj
    rw [List.getElem_range]
    rfl
  given := by
    simp [spawnUdpWorkerPool, Relays.start, Relay.new, LineBatcher.start, Function.comp_def]

lemma Listens.of_workers {ops : List PoolOp} (h : s.Listens config clock ops) {op : PoolOp}
    (hop : ∀ i, op.eventOf i = none) {workers : Relays Text NetworkActivity}
    (hgiven : workers.relays.map Relay.given = s.workers.relays.map Relay.given) :
    ({ s with workers } : UdpWorkerPool).Listens config clock (ops ++ [op]) where
  listener i listener hlistener := by
    rw [List.filterMap_append, List.filterMap_cons_none (hop i), List.filterMap_nil,
      List.append_nil]
    exact h.listener i listener hlistener
  given := hgiven.trans h.given

lemma Listens.event {ops : List PoolOp} (h : s.Listens config clock ops) {i : ℕ} {event : UdpEvent}
    (hstep : s.step rt config clock (.event i event) = some t) :
    t.Listens config clock (ops ++ [.event i event]) := by
  obtain ⟨listener, hlistener, hstep⟩ := Option.bind_eq_some_iff.mp hstep
  obtain ⟨workers, hworkers, rfl⟩ := Option.map_eq_some_iff.mp hstep
  obtain ⟨r, hr, hgiven⟩ := Relays.map_given_supply hworkers
  constructor
  · intro j other hother
    rw [List.getElem?_set] at hother
    rw [List.filterMap_append]
    split_ifs at hother with heq hlt
    · cases hother
      subst heq
      have hself : PoolOp.eventOf i (.event i event) = some event := if_pos rfl
      rw [List.filterMap_cons_some hself, List.filterMap_nil, UdpSyslogListener.runRaw,
        List.foldl_append, h.listener i listener hlistener]
      rfl
    · have hnone : PoolOp.eventOf j (.event i event) = none := if_neg heq
      rw [List.filterMap_cons_none hnone, List.filterMap_nil, List.append_nil]
      exact h.listener j other hother
  · have hsame : r.given = listener.sent := by
      have hmap := congrArg (·[i]?) h.given
      simpa [hr, hlistener] using hmap
    have happend : listener.sent ++
        (UdpSyslogListener.step config (clock i) listener event).sent.drop listener.sent.length =
          (UdpSyslogListener.step config (clock i) listener event).sent :=
      List.prefix_iff_eq_append.mp (sent_prefix_step listener event)
    dsimp only
    rw [hgiven, hsame, happend, h.given, List.map_set]

lemma Listens.step {ops : List PoolOp} (h : s.Listens config clock ops) {op : PoolOp}
    (hstep : s.step rt config clock op = some t) : t.Listens config clock (ops ++ [op]) := by
  cases op with
  | event i event => exact h.event hstep
  | task task =>
    obtain ⟨workers, hworkers, rfl⟩ := Option.map_eq_some_iff.mp hstep
    exact h.of_workers (fun _ => rfl) (Relays.map_given_perform hworkers)
  | close =>
    obtain ⟨workers, hworkers, rfl⟩ := Option.map_eq_some_iff.mp hstep
    refine h.of_workers (fun _ => rfl) ?_
    change s.workers.close = some workers at hworkers
    unfold Relays.close at hworkers
    split_ifs at hworkers
    cases hworkers
    rfl

lemma exists_step_workers {op : PoolOp} (hstep : s.step rt config clock op = some t) :
    ∃ op', s.workers.step (parseLine rt) op' = some t.workers := by
  cases op with
  | event i event =>
    obtain ⟨listener, -, hstep⟩ := Option.bind_eq_some_iff.mp hstep
    obtain ⟨workers, hworkers, rfl⟩ := Option.map_eq_some_iff.mp hstep
    exact ⟨_, hworkers⟩
  | task task =>
    obtain ⟨workers, hworkers, rfl⟩ := Option.map_eq_some_iff.mp hstep
    exact ⟨_, hworkers⟩
  | close =>
    obtain ⟨workers, hworkers, rfl⟩ := Option.map_eq_some_iff.mp hstep
    exact ⟨_, hworkers⟩

lemma invariants_of_run {capacity : ℕ} {binds : List Bool} {ops : List PoolOp}
    (hrun : run (step rt config clock) (spawnUdpWorkerPool clock capacity binds).2 ops = some s) :
    s.Listens config clock ops ∧ s.workers.Faithful (parseLine rt) ∧
      s.workers.rawCapacity = rawBatchCapacity ∧ s.workers.capacity = capacity := by
  refine run_induction (motive := fun ops s => s.Listens config clock ops ∧
    s.workers.Faithful (parseLine rt) ∧ s.workers.rawCapacity = rawBatchCapacity ∧
      s.workers.capacity = capacity) (step rt config clock)
    ⟨listens_spawn capacity binds, Relays.faithful_start _ _ _ _, rfl, rfl⟩ ?_ hrun
  rintro done op u v - ⟨hlistens, hfaithful, hraw, hcapacity⟩ hstep
  obtain ⟨op', hop'⟩ := exists_step_workers hstep
  obtain ⟨hraw', hcapacity'⟩ := Relays.capacities_step hop'
  exact ⟨hlistens.step hstep, hfaithful.step hop', hraw'.trans hraw, hcapacity'.trans hcapacity⟩

lemma Listens.sent {ops : List PoolOp} (h : s.Listens config clock ops) {i : ℕ}
    {r : Relay Text NetworkActivity} (hr : s.workers.relays[i]? = some r) :
    s.listeners[i]? =
        some (UdpSyslogListener.runRaw config (clock i) (ops.filterMap (PoolOp.eventOf i))) ∧
      r.given =
        (UdpSyslogListener.runRaw config (clock i) (ops.filterMap (PoolOp.eventOf i))).sent := by
  have hgiven := congrArg (·[i]?) h.given
  rw [List.getElem?_map, List.getElem?_map, hr, Option.map_some, eq_comm,
    Option.map_eq_some_iff] at hgiven
  obtain ⟨listener, hlistener, hsent⟩ := hgiven
  rw [← h.listener i listener hlistener]
  exact ⟨hlistener, hsent.symm⟩

end UdpWorkerPool

/-! ### Without new lines -/

/-- A step that brings no line to the pool, and leaves the receiver. -/
def PoolOp.Quiet : PoolOp → Prop
  | .event _ got => got.lines = []
  | .task _ => True
  | .close => False

def PoolOp.isTask : PoolOp → Bool
  | .task _ => true
  | _ => false

/-- The number of steps that the batch of a listener will need once it is sent. -/
def LineBatcher.rank (s : LineBatcher) : ℕ :=
  if s.currentBatch = [] then 0 else s.currentBatch.length + 4

lemma UdpSyslogListener.foldl_pushLine_of_blank {config : IngestConfig} {clock : ℕ → ℕ}
    (s : LineBatcher) {ls : List Text} (h : trimmedLines ls = []) :
    ls.foldl (pushLine config clock) s = s := by
  induction ls with
  | nil => rfl
  | cons line ls ih =>
    rw [trimmedLines_cons, List.append_eq_nil_iff, trimmedLines_singleton, ite_eq_left_iff] at h
    have hblank : trim line = [] := by
      by_contra hne
      cases h.1 hne
    rw [List.foldl_cons, pushLine, if_pos hblank]
    exact ih h.2

lemma UdpSyslogListener.step_cases {config : IngestConfig} {clock : ℕ → ℕ} (s : LineBatcher)
    {event : UdpEvent} (h : event.lines = []) :
    let t := UdpSyslogListener.step config clock s event
    (t.sent = s.sent ∧ t.currentBatch = s.currentBatch) ∨
      (s.currentBatch ≠ [] ∧ t.sent = s.sent ++ [s.currentBatch] ∧ t.currentBatch = []) := by
  intro t
  cases event with
  | received payload =>
    have hsame : UdpSyslogListener.step config clock s (.received payload) = s := by
      rw [UdpSyslogListener.step]
      rw [UdpEvent.lines] at h
      cases htext : fromUtf8 payload with
      | none => rfl
      | some text =>
        rw [if_pos (by rw [htext]; rfl), deliverable_of_fromUtf8 htext] at h
        exact foldl_pushLine_of_blank s h
    exact Or.inl ⟨congrArg LineBatcher.sent hsame, congrArg LineBatcher.currentBatch hsame⟩
  | failed => exact Or.inl ⟨rfl, rfl⟩
  | timer =>
    have ht : t = if s.currentBatch = [] then s
        else if (s.timedOut config clock).1 then (s.timedOut config clock).2.flush clock
        else (s.timedOut config clock).2 := rfl
    rw [ht]
    split_ifs with hempty helapsed
    · exact Or.inl ⟨rfl, rfl⟩
    · exact Or.inr ⟨hempty, rfl, rfl⟩
    · exact Or.inl ⟨rfl, rfl⟩

namespace UdpWorkerPool

variable {rt : Runtime} {config : IngestConfig} {clock : ℕ → ℕ → ℕ} {s t : UdpWorkerPool}

/-- The number of steps that the lines in the pool may still need. -/
def rank (s : UdpWorkerPool) : ℕ :=
  s.workers.rank + (s.listeners.map LineBatcher.rank).sum

lemma rank_event {i : ℕ} {event : UdpEvent} (hquiet : event.lines = [])
    (hstep : s.step rt config clock (.event i event) = some t) : t.rank = s.rank := by
  obtain ⟨listener, hlistener, hstep⟩ := Option.bind_eq_some_iff.mp hstep
  obtain ⟨workers, hworkers, rfl⟩ := Option.map_eq_some_iff.mp hstep
  have hsupply := Relays.rank_supply hworkers
  have hsum := sum_map_set_add LineBatcher.rank hlistener
    (UdpSyslogListener.step config (clock i) listener event)
  have hkept : (UdpSyslogListener.step config (clock i) listener event).rank +
      (((UdpSyslogListener.step config (clock i) listener event).sent.drop
        listener.sent.length).map fun batch => batch.length + 4).sum = listener.rank := by
    rcases UdpSyslogListener.step_cases listener hquiet with ⟨hsent, hheld⟩ | ⟨hne, hsent, hheld⟩
    · rw [hsent, List.drop_length, LineBatcher.rank, hheld]
      rfl
    · rw [hsent, List.drop_left, LineBatcher.rank, LineBatcher.rank, if_pos hheld, if_neg hne]
      simp
  rw [rank, rank]
  dsimp only
  omega

lemma rank_task {task : RelayTask Readings}
    (hstep : s.step rt config clock (.task task) = some t) : t.rank < s.rank := by
  obtain ⟨workers, hworkers, rfl⟩ := Option.map_eq_some_iff.mp hstep
  have hlt : workers.rank < s.workers.rank := Relays.rank_perform hworkers
  exact Nat.add_lt_add_right hlt _

lemma countP_add_rank_le {ops : List PoolOp} (hquiet : ∀ op ∈ ops, op.Quiet)
    (hrun : run (step rt config clock) s ops = some t) :
    ops.countP PoolOp.isTask + t.rank ≤ s.rank := by
  induction ops generalizing s with
  | nil =>
    cases hrun
    exact Nat.le_of_eq (Nat.zero_add _)
  | cons op ops ih =>
    rw [List.forall_mem_cons] at hquiet
    obtain ⟨u, hstep, hrest⟩ := Option.bind_eq_some_iff.mp hrun
    have hle := ih hquiet.2 hrest
    rw [List.countP_cons]
    cases op with
    | event i event =>
      have hsame := rank_event hquiet.1 hstep
      change _ + 0 + _ ≤ _
      omega
    | task task =>
      have hlt := rank_task hstep
      change _ + 1 + _ ≤ _
      omega
    | close => exact hquiet.1.elim

lemma flatMap_lines_of_quiet {ops : List PoolOp} (hquiet : ∀ op ∈ ops, op.Quiet) (i : ℕ) :
    (ops.filterMap (PoolOp.eventOf i)).flatMap UdpEvent.lines = [] := by
  rw [List.flatMap_eq_nil_iff]
  intro event hevent
  obtain ⟨op, hop, heq⟩ := List.mem_filterMap.mp hevent
  have hbrings := hquiet op hop
  cases op with
  | event j got =>
    rw [PoolOp.eventOf, Option.ite_none_right_eq_some] at heq
    obtain ⟨-, hsome⟩ := heq
    cases hsome
    exact hbrings
  | task task => cases heq
  | close => cases heq

end UdpWorkerPool

/-- The event of a line, whatever the clocks and the id generator were at. -/
def EventOf (rt : Runtime) (line : Text) (event : NetworkActivity) : Prop :=
  (∃ r, parseLossless (universalParser rt r) (String.ofList line) = some event) ∧
    event.metadata.rawData = String.ofList line

lemma eventOf_of_turned {rt : Runtime} {line : Text} {event : NetworkActivity}
    (h : Turned (parseLine rt) line event) : EventOf rt line event := by
  obtain ⟨r, hr⟩ := h
  exact ⟨⟨r, hr⟩, (ensures_enveloped.parseLossless event hr).rawData⟩

lemma eventsOf_of_turned {rt : Runtime} {batches : List (List Text)}
    {events : List (List NetworkActivity)}
    (h : List.Forall₂ (List.Forall₂ (Turned (parseLine rt))) batches events) :
    List.Forall₂ (List.Forall₂ (EventOf rt)) batches events :=
  h.imp fun _ _ hbatch => hbatch.imp fun _ _ => eventOf_of_turned

/-! ### One line through a pool of two -/

section Lone

def quietRuntime : Runtime where
  sha256 := Integrity.sha2
  isAlphanumeric := Char.isAlphanum
  chrono := ⟨fun _ _ => none, fun _ => none⟩
  json := ⟨fun _ => .error "expected value", fun _ => ""⟩
  captures _ _ := none

/-- The clock of each listener goes on by 50 with each reading. -/
def loneClock (_ n : ℕ) : ℕ := 50 * n

abbrev loneStep : UdpWorkerPool → PoolOp → Option UdpWorkerPool :=
  UdpWorkerPool.step quietRuntime ⟨2, 50⟩ loneClock

/-- The first worker gets a datagram with one line, which its listener holds. -/
def loneDatagram : PoolOp := .event 0 (.received [97])

/-- What becomes of the line once the timer of the listener has fired. -/
def loneTasks : List (RelayTask Readings) :=
  [.push 0, .take 0, .turn 0 ⟨"", 0, 0⟩, .send 0, .receive]

def loneSteps : List PoolOp := .event 0 .timer :: loneTasks.map .task

/-- A pool of two whose first listener holds the line. -/
def heldPool : UdpWorkerPool where
  listeners := [⟨[], [['a']], 0, 1⟩, .start (loneClock 1)]
  workers := ⟨rawBatchCapacity, 4, [.new, .new], [], [], false⟩

/-- A pool of two whose first worker was given the line. -/
def lonePool (unsent : List (List Text)) (work : Option (List Text × List NetworkActivity))
    (received : List (ℕ × List NetworkActivity)) : UdpWorkerPool where
  listeners := [⟨[[['a']]], [], 100, 3⟩, .start (loneClock 1)]
  workers := ⟨rawBatchCapacity, 4, [⟨[[['a']]], unsent, [], work, true, true⟩, .new], [], received,
    false⟩

lemma run_loneDatagram :
    run loneStep (UdpWorkerPool.spawnUdpWorkerPool loneClock 4 [true, true]).2 [loneDatagram] =
      some heldPool := rfl

lemma exists_run_loneSteps : ∃ event,
    run loneStep heldPool loneSteps = some (lonePool [] none [(0, [event])]) := by
  have hreturns : (parseLine quietRuntime ⟨"", 0, 0⟩ ['a']).isSome := by
    refine isSome_parseLossless_iff.mpr ?_
    have hunknown : classify (String.ofList ['a']) = .unknown := by decide +kernel
    rw [hunknown]
    exact not_panics_unknown
  obtain ⟨event, hevent⟩ := Option.isSome_iff_exists.mp hreturns
  have htaken : run loneStep heldPool
      [.event 0 .timer, .task (.push 0), .task (.take 0)] =
        some (lonePool [] (some ([['a']], [])) []) := rfl
  have hturned : loneStep (lonePool [] (some ([['a']], [])) [])
      (.task (.turn 0 ⟨"", 0, 0⟩)) = some (lonePool [] (some ([['a']], [event])) []) := by
    simp [loneStep, UdpWorkerPool.step, lonePool, Relays.step, Relays.perform, Relay.turn,
      Relays.setRelay, hevent]
  have hsent : run loneStep (lonePool [] (some ([['a']], [event])) [])
      [.task (.send 0), .task .receive] = some (lonePool [] none [(0, [event])]) := rfl
  have hsplit : loneSteps = [.event 0 .timer, .task (.push 0), .task (.take 0)] ++
      (.task (.turn 0 ⟨"", 0, 0⟩) :: [.task (.send 0), .task .receive]) := rfl
  refine ⟨event, ?_⟩
  rw [hsplit, run_append, htaken, Option.bind_some, run_cons, hturned, Option.bind_some]
  exact hsent

end Lone

section Pool

variable (rt : Runtime) (config : IngestConfig) (clock : ℕ → ℕ → ℕ)

open UdpWorkerPool

/-- What the receiver has got from a worker are the events of its first batches, line by line. While
the receiver is there, a worker that runs has all other lines of its datagrams on their way, in
order, in batches of the configured size; one that ended was sent a line on which the parser
panics. -/
theorem pool_parses_lines (capacity : ℕ) (binds : List Bool) (ops : List PoolOp) (s : UdpWorkerPool)
    (hrun : run (step rt config clock) (spawnUdpWorkerPool clock capacity binds).2 ops = some s)
    (i : ℕ) (r : Relay Text NetworkActivity) (hr : s.workers.relays[i]? = some r) :
    let events := ops.filterMap (PoolOp.eventOf i)
    let listener := UdpSyslogListener.runRaw config (clock i) events
    (∃ batches, batches <+: listener.sent ∧
      List.Forall₂ (List.Forall₂ (EventOf rt)) batches (ofSender i s.workers.received)) ∧
    (s.workers.closed = false → r.relayRuns = true → ∃ batches,
      List.Forall₂ (List.Forall₂ (EventOf rt)) batches
        (ofSender i (s.workers.received ++ s.workers.queue)) ∧
      (batches ++ r.pending).flatten ++ listener.currentBatch =
        events.flatMap UdpEvent.lines) ∧
    (s.workers.closed = false → r.relayRuns = false → ∃ line ∈ events.flatMap UdpEvent.lines,
      Panics (classify (String.ofList line)) (String.ofList line)) ∧
    r.raw.length ≤ rawBatchCapacity ∧ s.workers.queue.length ≤ capacity ∧
    ∀ batch ∈ r.pending, 1 ≤ batch.length ∧ batch.length ≤ max 1 config.batchSize := by
  intro events listener
  obtain ⟨hlistens, hfaithful, hraw, hcapacity⟩ := invariants_of_run hrun
  have hworker := hfaithful.relay i r hr
  have hgiven : r.given = listener.sent := (hlistens.sent hr).2
  have htakes := UdpSyslogListener.takesIn_runRaw config (clock i) events
  have hlines : listener.sent.flatten ++ listener.currentBatch = events.flatMap UdpEvent.lines :=
    htakes.delivered
  obtain ⟨batches, hbatches, hprefix, hrest⟩ := hworker.delivered
  refine ⟨?_, fun hopen hruns => ⟨batches, eventsOf_of_turned hbatches, ?_⟩, fun hopen hend => ?_,
    hraw ▸ hworker.raw_le, hcapacity ▸ hfaithful.queue_le, fun batch hbatch => ?_⟩
  · rw [Relays.passed, FanIn.ofSender_append] at hbatches
    refine ⟨batches.take (ofSender i s.workers.received).length,
      (List.take_prefix _ _).trans (hgiven ▸ hprefix), ?_⟩
    exact eventsOf_of_turned (List.forall₂_take_append _ _ _ hbatches)
  · rw [hrest hopen hruns, hgiven]
    exact hlines
  · obtain ⟨batch, hbatch, line, hline, reading, hnone⟩ := hworker.ended hopen hend
    refine ⟨line, ?_, ?_⟩
    · rw [← hlines, ← hgiven]
      exact List.mem_append_left _ (List.mem_flatten.mpr ⟨batch, hbatch, hline⟩)
    · by_contra hreturns
      have hsome : (parseLine rt reading line).isSome := isSome_parseLossless_iff.mpr hreturns
      rw [hnone] at hsome
      cases hsome
  · refine (htakes.sized (LineBatcher.sized_start config (clock i))).sent batch ?_
    rw [← hgiven]
    exact hworker.pending_subset hbatch

theorem pool_parses_lines_lone : ∃ s event,
    run loneStep (spawnUdpWorkerPool loneClock 4 [true, true]).2 (loneDatagram :: loneSteps) =
      some s ∧
    s.workers.received = [(0, [event])] ∧ EventOf quietRuntime ['a'] event := by
  obtain ⟨event, hevent⟩ := exists_run_loneSteps
  have hrun : run loneStep (spawnUdpWorkerPool loneClock 4 [true, true]).2
      ([loneDatagram] ++ loneSteps) = some (lonePool [] none [(0, [event])]) := by
    rw [run_append, run_loneDatagram]
    exact hevent
  obtain ⟨⟨batches, hprefix, hbatches⟩, -⟩ :=
    pool_parses_lines quietRuntime ⟨2, 50⟩ loneClock 4 [true, true] _ _ hrun 0 _ rfl
  have hone : List.Forall₂ (List.Forall₂ (EventOf quietRuntime)) batches [[event]] := hbatches
  have hgiven : batches <+: [[['a']]] := hprefix
  refine ⟨_, event, hrun, rfl, ?_⟩
  cases hone with
  | cons hbatch hrest =>
    cases hrest
    rw [List.cons_prefix_cons] at hgiven
    rw [hgiven.1] at hbatch
    cases hbatch with
    | cons hline _ => exact hline

/-- From every state that a pool reaches, its tasks take at most `rank` steps unless a line comes
in, whatever the timers of the listeners do, and they can do nothing exactly when nothing is on its
way. The receiver then has the events of all lines of the workers that run, but for those that a
listener holds for a batch that is not sent. -/
theorem pool_drains (capacity : ℕ) (hcapacity : 0 < capacity) (binds : List Bool)
    (ops : List PoolOp) (s : UdpWorkerPool)
    (hrun : run (step rt config clock) (spawnUdpWorkerPool clock capacity binds).2 ops = some s)
    (ops' : List PoolOp) (hquiet : ∀ op ∈ ops', op.Quiet) (t : UdpWorkerPool)
    (hrun' : run (step rt config clock) s ops' = some t) :
    ops'.countP PoolOp.isTask ≤ s.rank ∧
      ((∀ task, t.step rt config clock (.task task) = none) ↔ t.workers.Drained) ∧
      (t.workers.Drained → t.workers.closed = false → ∀ i r, t.workers.relays[i]? = some r →
        r.relayRuns = true → ∃ listener, t.listeners[i]? = some listener ∧
          List.Forall₂ (List.Forall₂ (EventOf rt)) listener.sent
            (ofSender i t.workers.received) ∧
          listener.sent.flatten ++ listener.currentBatch =
            (ops.filterMap (PoolOp.eventOf i)).flatMap UdpEvent.lines) := by
  have hrun'' : run (step rt config clock) (spawnUdpWorkerPool clock capacity binds).2
      (ops ++ ops') = some t := by
    rw [run_append, hrun]
    exact hrun'
  obtain ⟨hlistens, hfaithful, hraw, hcapacity'⟩ := invariants_of_run hrun''
  have hrank := countP_add_rank_le hquiet hrun'
  have hreadings : Nonempty Readings := ⟨⟨"", 0, 0⟩⟩
  have hstuck : (∀ task : RelayTask Readings, t.workers.perform (parseLine rt) task = none) ↔
      t.workers.Drained :=
    Relays.stuck_iff_drained hfaithful (hraw ▸ (by decide : 0 < rawBatchCapacity))
      (hcapacity' ▸ hcapacity)
  refine ⟨by omega, ?_, fun hdrained hopen i r hr hruns => ?_⟩
  · rw [← hstuck]
    apply forall_congr'
    intro task
    exact Option.map_eq_none_iff
  · obtain ⟨hlistener, hgiven⟩ := hlistens.sent hr
    have hlines := (UdpSyslogListener.takesIn_runRaw config (clock i)
      ((ops ++ ops').filterMap (PoolOp.eventOf i))).delivered
    rw [List.filterMap_append, List.flatMap_append, flatMap_lines_of_quiet hquiet,
      List.append_nil, ← List.filterMap_append] at hlines
    refine ⟨_, hlistener, ?_, hlines⟩
    rw [← hgiven]
    exact eventsOf_of_turned (hdrained.delivered hfaithful hopen hr hruns)

theorem pool_drains_lone : ∃ t, run loneStep heldPool loneSteps = some t ∧ heldPool.rank = 7 ∧
    5 ≤ heldPool.rank ∧ (∀ task, loneStep t (.task task) = none) ∧
    List.Forall₂ (List.Forall₂ (EventOf quietRuntime)) [[['a']]]
      (ofSender 0 t.workers.received) := by
  obtain ⟨event, hevent⟩ := exists_run_loneSteps
  have hquiet : ∀ op ∈ loneSteps, op.Quiet := by
    simp [loneSteps, loneTasks, PoolOp.Quiet, UdpEvent.lines]
  obtain ⟨hrank, hstuck, hdelivered⟩ := pool_drains quietRuntime ⟨2, 50⟩ loneClock 4
    (by decide) [true, true] _ _ run_loneDatagram loneSteps hquiet _ hevent
  have hdrained : (lonePool [] none [(0, [event])]).workers.Drained := by
    refine ⟨rfl, fun r hr => ?_⟩
    rcases List.mem_pair.mp hr with rfl | rfl
    · rfl
    · rfl
  obtain ⟨listener, hlistener, hevents, -⟩ := hdelivered hdrained rfl 0 _ rfl rfl
  cases hlistener
  exact ⟨_, hevent, rfl, hrank, hstuck.mpr hdrained, hevents⟩

end Pool

end Ulpf.Core
