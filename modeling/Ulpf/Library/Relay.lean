import Mathlib.Data.List.Forall2
import Ulpf.Library.Accounting
import Ulpf.Library.FanIn

/-!
# Relays between two bounded channels

Each relay has a source of its own, which sends it batches through a bounded channel. It turns them
item by item and sends them on through a channel that all relays share. Turning an item may fail,
which ends the relay. The receiver may go away; a relay notices when it sends. The source notices
the end of its relay when it sends to it.
-/

namespace Ulpf.Library

variable {Item Out Reading : Type*}

/-- A relay with its source: the batches given to the source so far, those it has still to send,
those in the channel between the two, and the batch in work with what its first items became. -/
structure Relay (Item Out : Type*) where
  given : List (List Item)
  unsent : List (List Item)
  raw : List (List Item)
  work : Option (List Item × List Out)
  sourceRuns : Bool
  relayRuns : Bool

namespace Relay

variable (r : Relay Item Out)

def new : Relay Item Out := ⟨[], [], [], none, true, true⟩

/-- The source takes in more batches after it has sent the others. -/
def supply (batches : List (List Item)) : Option (Relay Item Out) :=
  if r.sourceRuns = true ∧ r.unsent = [] then
    some { r with given := r.given ++ batches, unsent := batches }
  else none

def push (rawCapacity : ℕ) : Option (Relay Item Out) :=
  if r.sourceRuns then
    match r.unsent with
    | [] => none
    | batch :: unsent =>
      if r.relayRuns = false then some { r with unsent := [], sourceRuns := false }
      else if r.raw.length < rawCapacity then some { r with unsent, raw := r.raw ++ [batch] }
      else none
  else none

def take : Option (Relay Item Out) :=
  if r.relayRuns then
    match r.work, r.raw with
    | none, batch :: raw => some { r with raw, work := some (batch, []) }
    | none, [] => if r.sourceRuns then none else some { r with relayRuns := false }
    | some _, _ => none
  else none

/-- Its end drops the channel with what is in it. -/
def stop : Relay Item Out := { r with raw := [], work := none, relayRuns := false }

def turn (f : Reading → Item → Option Out) (reading : Reading) : Option (Relay Item Out) :=
  r.work.bind fun (batch, done) => batch[done.length]?.map fun item =>
    match f reading item with
    | some out => { r with work := some (batch, done ++ [out]) }
    | none => r.stop

/-- What the relay sends next. -/
def ready : Option (List Out) :=
  r.work.bind fun (batch, done) => if batch.length ≤ done.length then some done else none

/-- The batches that are on their way. -/
def pending : List (List Item) := (r.work.map Prod.fst).toList ++ r.raw ++ r.unsent

end Relay

structure Relays (Item Out : Type*) where
  rawCapacity : ℕ
  capacity : ℕ
  relays : List (Relay Item Out)
  queue : List (ℕ × List Out)
  received : List (ℕ × List Out)
  closed : Bool

/-- What the sources, the relays and the receiver do with the batches that are there. -/
inductive RelayTask (Reading : Type*) where
  | push (i : ℕ)
  | take (i : ℕ)
  | turn (i : ℕ) (reading : Reading)
  | send (i : ℕ)
  | receive

inductive RelayOp (Item Reading : Type*) where
  | supply (i : ℕ) (batches : List (List Item))
  | task (task : RelayTask Reading)
  | close

namespace Relays

def start (rawCapacity capacity n : ℕ) : Relays Item Out :=
  ⟨rawCapacity, capacity, List.replicate n .new, [], [], false⟩

def setRelay (s : Relays Item Out) (i : ℕ) (r : Relay Item Out) : Relays Item Out :=
  { s with relays := s.relays.set i r }

def receive (s : Relays Item Out) : Option (Relays Item Out) :=
  match s.queue with
  | [] => none
  | entry :: queue => some { s with queue, received := s.received ++ [entry] }

/-- The receiver goes away, and what is in the channel with it. -/
def close (s : Relays Item Out) : Option (Relays Item Out) :=
  if s.closed then none else some { s with queue := [], closed := true }

def perform (f : Reading → Item → Option Out) (s : Relays Item Out) :
    RelayTask Reading → Option (Relays Item Out)
  | .push i => s.relays[i]?.bind fun r => (r.push s.rawCapacity).map (s.setRelay i)
  | .take i => s.relays[i]?.bind fun r => r.take.map (s.setRelay i)
  | .turn i reading => s.relays[i]?.bind fun r => (r.turn f reading).map (s.setRelay i)
  | .send i => s.relays[i]?.bind fun r => r.ready.bind fun done =>
      if s.closed then some (s.setRelay i r.stop)
      else if s.queue.length < s.capacity then
        some { s.setRelay i { r with work := none } with queue := s.queue ++ [(i, done)] }
      else none
  | .receive => s.receive

def step (f : Reading → Item → Option Out) (s : Relays Item Out) :
    RelayOp Item Reading → Option (Relays Item Out)
  | .supply i batches => s.relays[i]?.bind fun r => (r.supply batches).map (s.setRelay i)
  | .task task => s.perform f task
  | .close => s.close

/-- All batches that have entered the shared channel and were not dropped with it. -/
def passed (s : Relays Item Out) : List (ℕ × List Out) := s.received ++ s.queue

end Relays

/-! ### What a task does -/

/-- The ways a relay or its source goes on by itself. -/
inductive Relay.Acts (f : Reading → Item → Option Out) (rawCapacity : ℕ) (closed : Bool)
    (r r' : Relay Item Out) : Prop where
  | push (h : r.push rawCapacity = some r')
  | take (h : r.take = some r')
  | turn {reading : Reading} (h : r.turn f reading = some r')
  | stop {done : List Out} (hready : r.ready = some done) (hclosed : closed = true)
      (h : r' = r.stop)

variable {f : Reading → Item → Option Out}

namespace Relays

variable {s t : Relays Item Out}

/-- A relay goes on by itself, a batch enters the shared channel or it leaves it. -/
lemma perform_cases {task : RelayTask Reading} (h : s.perform f task = some t) :
    (∃ i r r', s.relays[i]? = some r ∧ Relay.Acts f s.rawCapacity s.closed r r' ∧
        t = s.setRelay i r') ∨
      (∃ (i : ℕ) (r : Relay Item Out) (done : List Out), s.relays[i]? = some r ∧
        r.ready = some done ∧ s.closed = false ∧ s.queue.length < s.capacity ∧
          t = { s.setRelay i { r with work := none } with queue := s.queue ++ [(i, done)] }) ∨
      ∃ entry queue, s.queue = entry :: queue ∧
        t = { s with queue, received := s.received ++ [entry] } := by
  cases task with
  | push i =>
    obtain ⟨r, hr, h⟩ := Option.bind_eq_some_iff.mp h
    obtain ⟨r', hr', rfl⟩ := Option.map_eq_some_iff.mp h
    exact Or.inl ⟨i, r, r', hr, .push hr', rfl⟩
  | take i =>
    obtain ⟨r, hr, h⟩ := Option.bind_eq_some_iff.mp h
    obtain ⟨r', hr', rfl⟩ := Option.map_eq_some_iff.mp h
    exact Or.inl ⟨i, r, r', hr, .take hr', rfl⟩
  | turn i reading =>
    obtain ⟨r, hr, h⟩ := Option.bind_eq_some_iff.mp h
    obtain ⟨r', hr', rfl⟩ := Option.map_eq_some_iff.mp h
    exact Or.inl ⟨i, r, r', hr, .turn hr', rfl⟩
  | send i =>
    obtain ⟨r, hr, h⟩ := Option.bind_eq_some_iff.mp h
    obtain ⟨done, hready, h⟩ := Option.bind_eq_some_iff.mp h
    split_ifs at h with hclosed hroom
    · exact Or.inl ⟨i, r, r.stop, hr, .stop hready hclosed rfl, (Option.some.inj h).symm⟩
    · exact Or.inr (Or.inl ⟨i, r, done, hr, hready, by simpa using hclosed, hroom,
        (Option.some.inj h).symm⟩)
  | receive =>
    change s.receive = some t at h
    unfold receive at h
    split at h
    · cases h
    · next entry queue hqueue =>
      exact Or.inr (Or.inr ⟨entry, queue, hqueue, (Option.some.inj h).symm⟩)

lemma supply_cases {i : ℕ} {batches : List (List Item)}
    (h : s.step f (.supply i batches) = some t) : ∃ (r r' : Relay Item Out),
      s.relays[i]? = some r ∧ r.supply batches = some r' ∧ t = s.setRelay i r' := by
  obtain ⟨r, hr, h⟩ := Option.bind_eq_some_iff.mp h
  obtain ⟨r', hr', rfl⟩ := Option.map_eq_some_iff.mp h
  exact ⟨r, r', hr, hr', rfl⟩

lemma close_cases (h : s.step f .close = some t) : t = { s with queue := [], closed := true } := by
  change s.close = some t at h
  unfold close at h
  split_ifs at h
  exact (Option.some.inj h).symm

lemma capacities_step {op : RelayOp Item Reading} (h : s.step f op = some t) :
    t.rawCapacity = s.rawCapacity ∧ t.capacity = s.capacity := by
  cases op with
  | supply i batches =>
    obtain ⟨r, r', -, -, rfl⟩ := supply_cases h
    exact ⟨rfl, rfl⟩
  | task task =>
    rcases perform_cases h with ⟨i, r, r', -, -, rfl⟩ | ⟨i, r, done, -, -, -, -, rfl⟩ |
      ⟨entry, queue, -, rfl⟩
    · exact ⟨rfl, rfl⟩
    · exact ⟨rfl, rfl⟩
    · exact ⟨rfl, rfl⟩
  | close =>
    rw [close_cases h]
    exact ⟨rfl, rfl⟩

end Relays

namespace Relay

variable {r r' : Relay Item Out}

lemma given_push {rawCapacity : ℕ} (h : r.push rawCapacity = some r') : r'.given = r.given := by
  unfold push at h
  split at h
  · split at h
    · cases h
    · split_ifs at h
      · cases h
        rfl
      · cases h
        rfl
  · cases h

lemma given_take (h : r.take = some r') : r'.given = r.given := by
  unfold take at h
  split at h
  · split at h
    · cases h
      rfl
    · split_ifs at h
      cases h
      rfl
    · cases h
  · cases h

lemma given_turn {reading : Reading} (h : r.turn f reading = some r') :
    r'.given = r.given := by
  obtain ⟨⟨batch, done⟩, -, h⟩ := Option.bind_eq_some_iff.mp h
  obtain ⟨item, -, rfl⟩ := Option.map_eq_some_iff.mp h
  split
  · rfl
  · rfl

lemma Acts.given {rawCapacity : ℕ} {closed : Bool} (h : Acts f rawCapacity closed r r') :
    r'.given = r.given := by
  cases h with
  | push h => exact given_push h
  | take h => exact given_take h
  | turn h => exact given_turn h
  | stop hready hclosed h => rw [h, Relay.stop]

end Relay

/-! ### What the relays keep -/

/-- The item becomes `out` at some reading. -/
def Turned (f : Reading → Item → Option Out) (item : Item) (out : Out) : Prop :=
  ∃ reading, f reading item = some out

/-- What a relay has delivered are the first of its batches, turned; as long as it runs and the
receiver is there, the others are on their way. A relay that the receiver did not end had an item
that could not be turned. -/
structure Relay.Faithful (f : Reading → Item → Option Out) (rawCapacity : ℕ) (closed : Bool)
    (delivered : List (List Out)) (r : Relay Item Out) : Prop where
  delivered : ∃ batches, List.Forall₂ (List.Forall₂ (Turned f)) batches delivered ∧
    batches <+: r.given ∧
      (closed = false → r.relayRuns = true → batches ++ r.pending = r.given)
  working : ∀ batch done, r.work = some (batch, done) →
    List.Forall₂ (Turned f) (batch.take done.length) done
  ended : closed = false → r.relayRuns = false →
    ∃ batch ∈ r.given, ∃ item ∈ batch, ∃ reading, f reading item = none
  source : r.sourceRuns = false → r.relayRuns = false ∧ r.unsent = []
  stopped : r.relayRuns = false → r.work = none ∧ r.raw = []
  raw_le : r.raw.length ≤ rawCapacity
  pending_subset : r.pending ⊆ r.given

namespace Relay.Faithful

variable {rawCapacity : ℕ} {closed : Bool} {delivered : List (List Out)} {r r' : Relay Item Out}

lemma new : (Relay.new : Relay Item Out).Faithful f rawCapacity false [] where
  delivered := ⟨[], .nil, List.nil_prefix, fun _ _ => rfl⟩
  working := nofun
  ended := nofun
  source := nofun
  stopped := nofun
  raw_le := Nat.zero_le _
  pending_subset := List.nil_subset _

lemma supply (h : r.Faithful f rawCapacity closed delivered) {batches : List (List Item)}
    (hstep : r.supply batches = some r') : r'.Faithful f rawCapacity closed delivered := by
  unfold Relay.supply at hstep
  split_ifs at hstep with hready
  cases hstep
  obtain ⟨done, hdone, hprefix, hrest⟩ := h.delivered
  have hpending : ({ r with given := r.given ++ batches, unsent := batches } :
      Relay Item Out).pending = r.pending ++ batches := by
    unfold Relay.pending
    rw [hready.2, List.append_nil]
  refine ⟨⟨done, hdone, hprefix.trans (List.prefix_append _ _), fun hopen hruns => ?_⟩, h.working,
    fun hopen hend => ?_, fun hsource => absurd (hsource.symm.trans hready.1) Bool.false_ne_true,
    h.stopped, h.raw_le, ?_⟩
  · rw [hpending, ← List.append_assoc, hrest hopen hruns]
  · obtain ⟨batch, hbatch, hitem⟩ := h.ended hopen hend
    exact ⟨batch, List.mem_append_left _ hbatch, hitem⟩
  · rw [hpending]
    exact List.append_subset.mpr
      ⟨List.Subset.trans h.pending_subset (List.subset_append_left _ _),
        List.subset_append_right _ _⟩

lemma push (h : r.Faithful f rawCapacity closed delivered)
    (hstep : r.push rawCapacity = some r') : r'.Faithful f rawCapacity closed delivered := by
  unfold Relay.push at hstep
  split at hstep
  · split at hstep
    · cases hstep
    · next batch unsent hunsent =>
      split_ifs at hstep with hstopped hroom
      · cases hstep
        obtain ⟨done, hdone, hprefix, -⟩ := h.delivered
        refine ⟨⟨done, hdone, hprefix, fun _ hruns =>
          absurd (hstopped.symm.trans hruns) Bool.false_ne_true⟩, h.working, h.ended,
          fun _ => ⟨hstopped, rfl⟩, h.stopped, h.raw_le, ?_⟩
        intro b hb
        apply h.pending_subset
        simp only [Relay.pending, List.append_nil] at hb ⊢
        exact List.mem_append_left _ hb
      · cases hstep
        obtain ⟨done, hdone, hprefix, hrest⟩ := h.delivered
        have hpending : ({ r with unsent, raw := r.raw ++ [batch] } : Relay Item Out).pending =
            r.pending := by
          simp [Relay.pending, hunsent]
        refine ⟨⟨done, hdone, hprefix, fun hopen hruns => ?_⟩, h.working, h.ended, ?_, ?_, ?_, ?_⟩
        · rw [hpending]
          exact hrest hopen hruns
        · intro hsource
          exact absurd (h.source hsource).1 hstopped
        · intro hend
          exact absurd hend hstopped
        · rw [List.length_append, List.length_singleton]
          exact hroom
        · rw [hpending]
          exact h.pending_subset
  · cases hstep

lemma take (h : r.Faithful f rawCapacity closed delivered) (hstep : r.take = some r') :
    r'.Faithful f rawCapacity closed delivered := by
  unfold Relay.take at hstep
  split at hstep
  · next hruns =>
    split at hstep
    · next batch raw hwork hraw =>
      cases hstep
      obtain ⟨done, hdone, hprefix, hrest⟩ := h.delivered
      have hpending : ({ r with raw, work := some (batch, []) } : Relay Item Out).pending =
          r.pending := by
        simp [Relay.pending, hwork, hraw]
      have hle := h.raw_le
      rw [hraw] at hle
      refine ⟨⟨done, hdone, hprefix, fun hopen hruns => ?_⟩, ?_, h.ended, h.source, ?_,
        Nat.le_of_succ_le hle, ?_⟩
      · rw [hpending]
        exact hrest hopen hruns
      · intro batch' done' heq
        cases heq
        exact .nil
      · intro hend
        exact absurd (hend.symm.trans hruns) Bool.false_ne_true
      · rw [hpending]
        exact h.pending_subset
    · split_ifs at hstep with hsource
      exact absurd ((h.source (by simpa using hsource)).1.symm.trans hruns) Bool.false_ne_true
    · cases hstep
  · cases hstep

lemma stop (h : r.Faithful f rawCapacity closed delivered)
    (hend : closed = false → ∃ batch ∈ r.given, ∃ item ∈ batch, ∃ reading, f reading item = none) :
    r.stop.Faithful f rawCapacity closed delivered := by
  obtain ⟨sent, hsent, hprefix, -⟩ := h.delivered
  refine ⟨⟨sent, hsent, hprefix, nofun⟩, nofun, fun hopen _ => hend hopen,
    fun hsource => ⟨rfl, (h.source hsource).2⟩, fun _ => ⟨rfl, rfl⟩, Nat.zero_le _, ?_⟩
  intro b hb
  apply h.pending_subset
  exact List.mem_append_right _ hb

lemma turn (h : r.Faithful f rawCapacity closed delivered) {reading : Reading}
    (hstep : r.turn f reading = some r') : r'.Faithful f rawCapacity closed delivered := by
  obtain ⟨⟨batch, done⟩, hwork, hstep⟩ := Option.bind_eq_some_iff.mp hstep
  obtain ⟨item, hitem, rfl⟩ := Option.map_eq_some_iff.mp hstep
  split
  · next out hout =>
    have hpending : ({ r with work := some (batch, done ++ [out]) } : Relay Item Out).pending =
        r.pending := by
      simp [Relay.pending, hwork]
    obtain ⟨sent, hsent, hprefix, hrest⟩ := h.delivered
    refine ⟨⟨sent, hsent, hprefix, fun hopen hruns => ?_⟩, ?_, h.ended, h.source, ?_, h.raw_le, ?_⟩
    · rw [hpending]
      exact hrest hopen hruns
    · intro batch' done' heq
      cases heq
      rw [List.length_append, List.length_singleton, List.take_add_one, hitem]
      exact List.rel_append (h.working batch done hwork) (.cons ⟨reading, hout⟩ .nil)
    · intro hend
      rw [(h.stopped hend).1] at hwork
      cases hwork
    · rw [hpending]
      exact h.pending_subset
  · next hfails =>
    have hbatch : batch ∈ r.pending := by
      simp [Relay.pending, hwork]
    exact h.stop fun _ =>
      ⟨batch, h.pending_subset hbatch, item, List.mem_of_getElem? hitem, reading, hfails⟩

lemma ready_eq_some {done : List Out} (hready : r.ready = some done) :
    ∃ batch, r.work = some (batch, done) ∧ batch.length ≤ done.length := by
  obtain ⟨⟨batch, done'⟩, hwork, hready⟩ := Option.bind_eq_some_iff.mp hready
  dsimp only at hready
  split_ifs at hready with hlength
  cases hready
  exact ⟨batch, hwork, hlength⟩

lemma send (h : r.Faithful f rawCapacity false delivered) {done : List Out}
    (hready : r.ready = some done) :
    ({ r with work := none } : Relay Item Out).Faithful f rawCapacity false
      (delivered ++ [done]) := by
  obtain ⟨batch, hwork, hlength⟩ := ready_eq_some hready
  obtain ⟨sent, hsent, -, hrest⟩ := h.delivered
  have hturned := h.working batch done hwork
  rw [List.take_of_length_le hlength] at hturned
  have hpending : r.pending = batch :: ({ r with work := none } : Relay Item Out).pending := by
    simp [Relay.pending, hwork]
  have hruns : r.relayRuns = true := by
    cases hruns : r.relayRuns with
    | true => rfl
    | false =>
      rw [(h.stopped hruns).1] at hwork
      cases hwork
  have hgiven :
      sent ++ [batch] ++ ({ r with work := none } : Relay Item Out).pending = r.given := by
    rw [← hrest rfl hruns, hpending, List.append_assoc]
    rfl
  refine ⟨⟨sent ++ [batch], List.rel_append hsent (.cons hturned .nil), ⟨_, hgiven⟩,
    fun _ _ => hgiven⟩, nofun, h.ended, h.source, fun hend => ⟨rfl, (h.stopped hend).2⟩,
    h.raw_le, ?_⟩
  have hsubset := h.pending_subset
  rw [hpending] at hsubset
  exact (List.cons_subset.mp hsubset).2

lemma close {lost : List (List Out)} (h : r.Faithful f rawCapacity closed (delivered ++ lost)) :
    r.Faithful f rawCapacity true delivered := by
  obtain ⟨sent, hsent, hprefix, -⟩ := h.delivered
  refine ⟨⟨sent.take delivered.length, List.forall₂_take_append _ _ _ hsent,
    (List.take_prefix _ _).trans hprefix, nofun⟩, h.working, nofun, h.source, h.stopped,
    h.raw_le, h.pending_subset⟩

lemma acts (h : r.Faithful f rawCapacity closed delivered)
    (hacts : Relay.Acts f rawCapacity closed r r') :
    r'.Faithful f rawCapacity closed delivered := by
  cases hacts with
  | push hstep => exact h.push hstep
  | take hstep => exact h.take hstep
  | turn hstep => exact h.turn hstep
  | stop hready hclosed heq =>
    rw [heq]
    exact h.stop fun hopen => absurd (hopen.symm.trans hclosed) Bool.false_ne_true

end Relay.Faithful

namespace Relays

/-- Every relay is faithful, and the shared channel holds no more than it can. -/
structure Faithful (f : Reading → Item → Option Out) (s : Relays Item Out) : Prop where
  relay : ∀ i (r : Relay Item Out), s.relays[i]? = some r →
    Relay.Faithful f s.rawCapacity s.closed (ofSender i s.passed) r
  queue_le : s.queue.length ≤ s.capacity
  queue_closed : s.closed = true → s.queue = []

variable {s t : Relays Item Out}

lemma faithful_start (f : Reading → Item → Option Out) (rawCapacity capacity n : ℕ) :
    (start rawCapacity capacity n : Relays Item Out).Faithful f where
  relay i r hr := by
    rw [(List.mem_replicate.mp (List.mem_of_getElem? hr)).2]
    exact .new
  queue_le := Nat.zero_le _
  queue_closed := nofun

lemma Faithful.setRelay (h : s.Faithful f) {i : ℕ} {r : Relay Item Out}
    (hr : r.Faithful f s.rawCapacity s.closed (ofSender i s.passed)) :
    (s.setRelay i r).Faithful f where
  relay j other hother := by
    rw [Relays.setRelay, List.getElem?_set] at hother
    split_ifs at hother with heq hlt
    · cases hother
      subst heq
      exact hr
    · exact h.relay j other hother
  queue_le := h.queue_le
  queue_closed := h.queue_closed

lemma Faithful.send (h : s.Faithful f) {i : ℕ} {r : Relay Item Out} (hr : s.relays[i]? = some r)
    {done : List Out} (hready : r.ready = some done) (hopen : s.closed = false)
    (hroom : s.queue.length < s.capacity) :
    ({ s.setRelay i { r with work := none } with queue := s.queue ++ [(i, done)] } :
      Relays Item Out).Faithful f where
  relay j other hother := by
    rw [Relays.setRelay, List.getElem?_set] at hother
    change other.Faithful f s.rawCapacity s.closed
      (ofSender j (s.received ++ (s.queue ++ [(i, done)])))
    rw [← List.append_assoc, FanIn.ofSender_append]
    split_ifs at hother with heq hlt
    · cases hother
      subst heq
      have hbefore := h.relay i r hr
      rw [hopen] at hbefore ⊢
      rw [FanIn.ofSender_singleton_self]
      exact hbefore.send hready
    · rw [FanIn.ofSender_singleton_of_ne heq, List.append_nil]
      exact h.relay j other hother
  queue_le := by
    rw [List.length_append, List.length_singleton]
    exact hroom
  queue_closed hclosed := absurd (hopen.symm.trans hclosed) Bool.false_ne_true

lemma Faithful.receive (h : s.Faithful f) {entry : ℕ × List Out} {queue : List (ℕ × List Out)}
    (hqueue : s.queue = entry :: queue) :
    ({ s with queue, received := s.received ++ [entry] } : Relays Item Out).Faithful f where
  relay i r hr := by
    have hpassed : s.received ++ [entry] ++ queue = s.passed := by
      rw [passed, hqueue, List.append_assoc]
      rfl
    change r.Faithful f s.rawCapacity s.closed (ofSender i (s.received ++ [entry] ++ queue))
    rw [hpassed]
    exact h.relay i r hr
  queue_le := by
    have hle := h.queue_le
    rw [hqueue] at hle
    exact Nat.le_of_succ_le hle
  queue_closed hclosed := by
    rw [h.queue_closed hclosed] at hqueue
    cases hqueue

lemma Faithful.close (h : s.Faithful f) :
    ({ s with queue := [], closed := true } : Relays Item Out).Faithful f where
  relay i r hr := by
    have hbefore := h.relay i r hr
    rw [passed, FanIn.ofSender_append] at hbefore
    change r.Faithful f s.rawCapacity true (ofSender i (s.received ++ []))
    rw [List.append_nil]
    exact hbefore.close
  queue_le := Nat.zero_le _
  queue_closed _ := rfl

lemma Faithful.perform (h : s.Faithful f) {task : RelayTask Reading}
    (hstep : s.perform f task = some t) : t.Faithful f := by
  rcases perform_cases hstep with ⟨i, r, r', hr, hacts, rfl⟩ |
    ⟨i, r, done, hr, hready, hopen, hroom, rfl⟩ | ⟨entry, queue, hqueue, rfl⟩
  · exact h.setRelay ((h.relay i r hr).acts hacts)
  · exact h.send hr hready hopen hroom
  · exact h.receive hqueue

lemma Faithful.step (h : s.Faithful f) {op : RelayOp Item Reading}
    (hstep : s.step f op = some t) : t.Faithful f := by
  cases op with
  | supply i batches =>
    obtain ⟨r, r', hr, hsupply, rfl⟩ := supply_cases hstep
    exact h.setRelay ((h.relay i r hr).supply hsupply)
  | task task => exact h.perform hstep
  | close =>
    rw [close_cases hstep]
    exact h.close

lemma map_given_setRelay {i : ℕ} {r r' : Relay Item Out} (hr : s.relays[i]? = some r)
    (hgiven : r'.given = r.given) :
    (s.setRelay i r').relays.map Relay.given = s.relays.map Relay.given := by
  obtain ⟨hlt, rfl⟩ := List.getElem?_eq_some_iff.mp hr
  have hlen : i < (s.relays.map Relay.given).length := by rwa [List.length_map]
  have hget : (s.relays.map Relay.given)[i] = r'.given := by
    rw [List.getElem_map, hgiven]
  rw [setRelay, List.map_set, ← hget, List.set_getElem_self]

lemma map_given_perform {task : RelayTask Reading} (hstep : s.perform f task = some t) :
    t.relays.map Relay.given = s.relays.map Relay.given := by
  rcases perform_cases hstep with ⟨i, r, r', hr, hacts, rfl⟩ | ⟨i, r, done, hr, -, -, -, rfl⟩ |
    ⟨entry, queue, -, rfl⟩
  · exact map_given_setRelay hr hacts.given
  · exact map_given_setRelay hr rfl
  · rfl

lemma map_given_supply {i : ℕ} {batches : List (List Item)}
    (hstep : s.step f (.supply i batches) = some t) : ∃ r, s.relays[i]? = some r ∧
      t.relays.map Relay.given = (s.relays.map Relay.given).set i (r.given ++ batches) := by
  obtain ⟨r, r', hr, hsupply, rfl⟩ := supply_cases hstep
  unfold Relay.supply at hsupply
  split_ifs at hsupply
  cases hsupply
  exact ⟨r, hr, List.map_set⟩

end Relays

/-! ### Draining -/

/-- The number of steps that the batches of a relay still need. -/
def Relay.rank (r : Relay Item Out) : ℕ :=
  (r.unsent.map fun batch => batch.length + 4).sum +
    (r.raw.map fun batch => batch.length + 3).sum +
    (match r.work with
      | some (batch, done) => batch.length - done.length + 2
      | none => 0) +
    r.relayRuns.toNat

namespace Relay

variable {r r' : Relay Item Out}

lemma rank_supply {batches : List (List Item)} (h : r.supply batches = some r') :
    r'.rank = r.rank + (batches.map fun batch => batch.length + 4).sum := by
  unfold supply at h
  split_ifs at h with hready
  cases h
  simp only [rank, hready.2, List.map_nil, List.sum_nil]
  omega

lemma rank_push {rawCapacity : ℕ} (h : r.push rawCapacity = some r') : r'.rank < r.rank := by
  unfold push at h
  split at h
  · split at h
    · cases h
    · next batch unsent hunsent =>
      split_ifs at h with hstopped hroom
      · cases h
        simp only [rank, hunsent, List.map_cons, List.map_nil, List.sum_cons, List.sum_nil]
        omega
      · cases h
        simp only [rank, hunsent, List.map_cons, List.map_append, List.map_nil, List.sum_cons,
          List.sum_append, List.sum_nil]
        omega
  · cases h

lemma rank_take (h : r.take = some r') : r'.rank < r.rank := by
  unfold take at h
  split at h
  · next hruns =>
    split at h
    · next batch raw hwork hraw =>
      cases h
      simp only [rank, hwork, hraw, List.map_cons, List.sum_cons, List.length_nil]
      omega
    · split_ifs at h
      cases h
      simp only [rank, hruns, Bool.toNat_true, Bool.toNat_false]
      omega
    · cases h
  · cases h

lemma rank_turn {reading : Reading} (h : r.turn f reading = some r') : r'.rank < r.rank := by
  obtain ⟨⟨batch, done⟩, hwork, h⟩ := Option.bind_eq_some_iff.mp h
  obtain ⟨item, hitem, rfl⟩ := Option.map_eq_some_iff.mp h
  have hlt := (List.getElem?_eq_some_iff.mp hitem).1
  split
  · simp only [rank, hwork, List.length_append, List.length_singleton]
    omega
  · simp only [rank, stop, hwork, List.map_nil, List.sum_nil, Bool.toNat_false]
    omega

lemma rank_send {done : List Out} (h : r.ready = some done) :
    ({ r with work := none } : Relay Item Out).rank + 2 ≤ r.rank ∧ r.stop.rank < r.rank := by
  obtain ⟨batch, hwork, -⟩ := Faithful.ready_eq_some h
  simp only [rank, stop, hwork, List.map_nil, List.sum_nil, Bool.toNat_false]
  omega

lemma Acts.rank_lt {rawCapacity : ℕ} {closed : Bool} (h : Acts f rawCapacity closed r r') :
    r'.rank < r.rank := by
  cases h with
  | push h => exact rank_push h
  | take h => exact rank_take h
  | turn h => exact rank_turn h
  | stop hready hclosed h =>
    rw [h]
    exact (rank_send hready).2

lemma Faithful.pending_eq_nil {rawCapacity : ℕ} {closed : Bool} {delivered : List (List Out)}
    (h : r.Faithful f rawCapacity closed delivered) (hraw : 0 < rawCapacity)
    (reading : Reading) (hpush : r.push rawCapacity = none) (htake : r.take = none)
    (hturn : r.turn f reading = none) (hready : r.ready = none) : r.pending = [] := by
  have hwork : r.work = none := by
    cases hwork : r.work with
    | none => rfl
    | some work =>
      obtain ⟨batch, done⟩ := work
      rw [Relay.ready, hwork] at hready
      rw [Relay.turn, hwork] at hturn
      simp only [Option.bind_some] at hready hturn
      split_ifs at hready with hlength
      rw [Option.map_eq_none_iff, List.getElem?_eq_none_iff] at hturn
      exact absurd hturn hlength
  have hempty : r.raw = [] := by
    cases hraws : r.raw with
    | nil => rfl
    | cons batch raw =>
      cases hruns : r.relayRuns with
      | false =>
        rw [(h.stopped hruns).2] at hraws
        cases hraws
      | true =>
        rw [Relay.take, hruns, hwork, hraws] at htake
        cases htake
  have hsent : r.unsent = [] := by
    cases hunsent : r.unsent with
    | nil => rfl
    | cons batch unsent =>
      cases hsource : r.sourceRuns with
      | false =>
        rw [(h.source hsource).2] at hunsent
        cases hunsent
      | true =>
        rw [Relay.push, hsource, hunsent, hempty] at hpush
        dsimp only at hpush
        rw [if_pos rfl] at hpush
        split_ifs at hpush with hstopped hroom
        exact absurd hraw hroom
  rw [Relay.pending, hwork, hempty, hsent]
  rfl

end Relay

namespace Relays

variable {s t : Relays Item Out}

def rank (s : Relays Item Out) : ℕ := (s.relays.map Relay.rank).sum + s.queue.length

lemma rank_perform {task : RelayTask Reading} (h : s.perform f task = some t) :
    t.rank < s.rank := by
  rcases perform_cases h with ⟨i, r, r', hr, hacts, rfl⟩ | ⟨i, r, done, hr, hready, -, -, rfl⟩ |
    ⟨entry, queue, hqueue, rfl⟩
  · have hlt := hacts.rank_lt
    have hsum := sum_map_set_add Relay.rank hr r'
    rw [setRelay, rank, rank]
    dsimp only
    omega
  · have hsent := (Relay.rank_send hready).1
    have hsum := sum_map_set_add Relay.rank hr { r with work := none }
    simp only [rank, setRelay, List.length_append, List.length_singleton]
    omega
  · simp only [rank, hqueue, List.length_cons]
    omega

lemma rank_supply {i : ℕ} {batches : List (List Item)}
    (h : s.step f (.supply i batches) = some t) :
    t.rank = s.rank + (batches.map fun batch => batch.length + 4).sum := by
  obtain ⟨r, r', hr, hsupply, rfl⟩ := supply_cases h
  have hfirst := Relay.rank_supply hsupply
  have hsum := sum_map_set_add Relay.rank hr r'
  rw [setRelay, rank, rank]
  dsimp only
  omega

/-- Nothing is on its way. -/
def Drained (s : Relays Item Out) : Prop := s.queue = [] ∧ ∀ r ∈ s.relays, r.pending = []

/-- As long as something is on its way, something can be done. -/
theorem stuck_iff_drained [Nonempty Reading] (h : s.Faithful f) (hraw : 0 < s.rawCapacity)
    (hcapacity : 0 < s.capacity) :
    (∀ task : RelayTask Reading, s.perform f task = none) ↔ s.Drained := by
  constructor
  · intro hstuck
    have hqueue : s.queue = [] := by
      have hreceive : s.receive = none := hstuck .receive
      unfold receive at hreceive
      split at hreceive
      · next hqueue => exact hqueue
      · cases hreceive
    refine ⟨hqueue, fun r hmem => ?_⟩
    obtain ⟨i, hr⟩ := List.mem_iff_getElem?.mp hmem
    obtain ⟨reading⟩ := ‹Nonempty Reading›
    have hpush := hstuck (.push i)
    have htake := hstuck (.take i)
    have hturn := hstuck (.turn i reading)
    have hsend := hstuck (.send i)
    simp only [perform, hr, Option.bind_some, Option.map_eq_none_iff] at hpush htake hturn
    rw [perform, hr, Option.bind_some, Option.bind_eq_none_iff] at hsend
    refine (h.relay i r hr).pending_eq_nil hraw reading hpush htake hturn ?_
    rw [Option.eq_none_iff_forall_ne_some]
    intro done hready
    have hnone := hsend done hready
    rw [hqueue, List.length_nil] at hnone
    split_ifs at hnone
  · intro hdrained task
    have hrelay : ∀ (i : ℕ) (r : Relay Item Out), s.relays[i]? = some r →
        r.work = none ∧ r.raw = [] ∧ r.unsent = [] := by
      intro i r hr
      have hpending := hdrained.2 r (List.mem_of_getElem? hr)
      simpa [Relay.pending, and_assoc] using hpending
    cases task with
    | push i =>
      rw [perform, Option.bind_eq_none_iff]
      intro r hr
      rw [Option.map_eq_none_iff, Relay.push, (hrelay i r hr).2.2]
      split_ifs <;> rfl
    | take i =>
      rw [perform, Option.bind_eq_none_iff]
      intro r hr
      rw [Option.map_eq_none_iff, Relay.take, (hrelay i r hr).1, (hrelay i r hr).2.1]
      split_ifs with hruns hsource
      · rfl
      · have hstopped := ((h.relay i r hr).source (by simpa using hsource)).1
        exact absurd (hstopped.symm.trans hruns) Bool.false_ne_true
      · rfl
    | turn i reading =>
      rw [perform, Option.bind_eq_none_iff]
      intro r hr
      rw [Option.map_eq_none_iff, Relay.turn, (hrelay i r hr).1]
      rfl
    | send i =>
      rw [perform, Option.bind_eq_none_iff]
      intro r hr
      rw [Relay.ready, (hrelay i r hr).1]
      rfl
    | receive =>
      change s.receive = none
      rw [receive, hdrained.1]

lemma Drained.delivered (hdrained : s.Drained) (h : s.Faithful f) (hopen : s.closed = false) {i : ℕ}
    {r : Relay Item Out} (hr : s.relays[i]? = some r) (hruns : r.relayRuns = true) :
    List.Forall₂ (List.Forall₂ (Turned f)) r.given (ofSender i s.received) := by
  obtain ⟨batches, hbatches, -, hrest⟩ := (h.relay i r hr).delivered
  have hgiven := hrest hopen hruns
  rw [hdrained.2 r (List.mem_of_getElem? hr), List.append_nil] at hgiven
  rw [passed, hdrained.1, List.append_nil, hgiven] at hbatches
  exact hbatches

end Relays

end Ulpf.Library
