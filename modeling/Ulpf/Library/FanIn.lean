import Ulpf.Library.Execution

/-!
# Many senders and one receiver

Senders share a bounded queue. Each puts its messages in one after another and waits with the next
one in its hand while the queue is full; the receiver takes them out. However the steps are
ordered, each sender's messages come out in the order in which it was given them, and none is lost
or comes twice: `sequence_of_run`.
-/

namespace Ulpf.Library

/-- A sender with all it was given so far, of which `ahead` is still to come. -/
structure Sender (Msg : Type*) where
  given : List Msg
  ahead : List Msg
  holding : Option Msg

/-- Messages in the queue and beyond it carry the index of their sender. -/
structure FanIn (Msg : Type*) where
  capacity : ℕ
  senders : List (Sender Msg)
  queue : List (ℕ × Msg)
  received : List (ℕ × Msg)

inductive FanInOp (Msg : Type*) where
  | join (msgs : List Msg)
  | supply (i : ℕ) (msgs : List Msg)
  | pick (i : ℕ)
  | send (i : ℕ)
  | receive

/-- The messages of one sender. -/
def ofSender {Msg : Type*} (i : ℕ) (msgs : List (ℕ × Msg)) : List Msg :=
  (msgs.filter fun p => p.1 == i).map Prod.snd

namespace FanIn

variable {Msg : Type*}

def start (capacity : ℕ) : FanIn Msg := ⟨capacity, [], [], []⟩

def setSender (s : FanIn Msg) (i : ℕ) (sender : Sender Msg) : FanIn Msg :=
  { s with senders := s.senders.set i sender }

def step (s : FanIn Msg) : FanInOp Msg → Option (FanIn Msg)
  | .join msgs => some { s with senders := s.senders ++ [⟨msgs, msgs, none⟩] }
  | .supply i msgs => s.senders[i]?.map fun sender =>
      s.setSender i ⟨sender.given ++ msgs, sender.ahead ++ msgs, sender.holding⟩
  | .pick i => s.senders[i]?.bind fun sender =>
      match sender.holding, sender.ahead with
      | none, msg :: ahead => some (s.setSender i ⟨sender.given, ahead, some msg⟩)
      | _, _ => none
  | .send i => s.senders[i]?.bind fun sender =>
      match sender.holding with
      | some msg =>
        if s.queue.length < s.capacity then
          some { s.setSender i ⟨sender.given, sender.ahead, none⟩ with
            queue := s.queue ++ [(i, msg)] }
        else none
      | none => none
  | .receive =>
    match s.queue with
    | [] => none
    | entry :: queue => some { s with queue, received := s.received ++ [entry] }

/-- All messages that have entered the queue. -/
def passed (s : FanIn Msg) : List (ℕ × Msg) := s.received ++ s.queue

/-- Every sender's messages are, in order, those that have entered the queue, the one in its hand
and those that are still to come. -/
structure InSequence (s : FanIn Msg) : Prop where
  sequence : ∀ i sender, s.senders[i]? = some sender →
    ofSender i s.passed ++ sender.holding.toList ++ sender.ahead = sender.given
  joined : ∀ p ∈ s.passed, p.1 < s.senders.length
  bounded : s.queue.length ≤ s.capacity

variable {s t : FanIn Msg}

lemma ofSender_append (i : ℕ) (l l' : List (ℕ × Msg)) :
    ofSender i (l ++ l') = ofSender i l ++ ofSender i l' := by
  simp [ofSender]

lemma ofSender_singleton_self (i : ℕ) (msg : Msg) : ofSender i [(i, msg)] = [msg] := by
  simp [ofSender]

lemma ofSender_singleton_of_ne {i j : ℕ} (h : j ≠ i) (msg : Msg) : ofSender i [(j, msg)] = [] := by
  simp [ofSender, h]

lemma ofSender_eq_nil {i : ℕ} {l : List (ℕ × Msg)} (h : ∀ p ∈ l, p.1 < i) : ofSender i l = [] := by
  unfold ofSender
  rw [List.map_eq_nil_iff, List.filter_eq_nil_iff]
  intro p hp
  simpa using Nat.ne_of_lt (h p hp)

lemma inSequence_start (capacity : ℕ) : (start capacity : FanIn Msg).InSequence where
  sequence i sender h := by cases h
  joined p hp := by cases hp
  bounded := Nat.zero_le _

lemma InSequence.setSender (h : s.InSequence) {i : ℕ} {sender : Sender Msg}
    (hsender : ofSender i s.passed ++ sender.holding.toList ++ sender.ahead = sender.given) :
    (s.setSender i sender).InSequence where
  sequence j other hother := by
    rw [FanIn.setSender, List.getElem?_set] at hother
    split_ifs at hother with heq hlt
    · cases hother
      subst heq
      exact hsender
    · exact h.sequence j other hother
  joined p hp := by
    rw [FanIn.setSender, List.length_set]
    exact h.joined p hp
  bounded := h.bounded

lemma InSequence.join (h : s.InSequence) (msgs : List Msg) :
    ({ s with senders := s.senders ++ [⟨msgs, msgs, none⟩] } : FanIn Msg).InSequence where
  sequence i sender hsender := by
    rw [List.getElem?_append] at hsender
    split_ifs at hsender with hlt
    · exact h.sequence i sender hsender
    · have hnew : i = s.senders.length ∧ sender = ⟨msgs, msgs, none⟩ := by
        rw [List.getElem?_singleton] at hsender
        split_ifs at hsender with hzero
        exact ⟨by omega, (Option.some.inj hsender).symm⟩
      obtain ⟨rfl, rfl⟩ := hnew
      change ofSender _ s.passed ++ [] ++ msgs = msgs
      rw [ofSender_eq_nil h.joined]
      rfl
  joined p hp := by
    rw [List.length_append]
    exact Nat.lt_add_right 1 (h.joined p hp)
  bounded := h.bounded

lemma InSequence.send (h : s.InSequence) {i : ℕ} {sender : Sender Msg} {msg : Msg}
    (hsender : s.senders[i]? = some sender) (hholding : sender.holding = some msg)
    (hroom : s.queue.length < s.capacity) :
    ({ s.setSender i ⟨sender.given, sender.ahead, none⟩ with
      queue := s.queue ++ [(i, msg)] } : FanIn Msg).InSequence where
  sequence j other hother := by
    have hpassed : ∀ j, ofSender j (s.received ++ (s.queue ++ [(i, msg)])) =
        ofSender j s.passed ++ ofSender j [(i, msg)] := by
      intro j
      rw [← List.append_assoc, ofSender_append, passed]
    rw [FanIn.setSender, List.getElem?_set] at hother
    change ofSender j (s.received ++ (s.queue ++ [(i, msg)])) ++ _ ++ _ = _
    rw [hpassed]
    split_ifs at hother with heq hlt
    · cases hother
      subst heq
      have hbefore := h.sequence i sender hsender
      rw [hholding] at hbefore
      rw [ofSender_singleton_self]
      simpa using hbefore
    · rw [ofSender_singleton_of_ne heq, List.append_nil]
      exact h.sequence j other hother
  joined p hp := by
    rw [FanIn.setSender, List.length_set]
    rw [passed, ← List.append_assoc, List.mem_append, List.mem_singleton] at hp
    rcases hp with hp | rfl
    · exact h.joined p hp
    · exact (List.getElem?_eq_some_iff.mp hsender).1
  bounded := by
    rw [List.length_append, List.length_singleton]
    exact hroom

lemma InSequence.receive (h : s.InSequence) {entry : ℕ × Msg} {queue : List (ℕ × Msg)}
    (hqueue : s.queue = entry :: queue) :
    ({ s with queue, received := s.received ++ [entry] } : FanIn Msg).InSequence := by
  have hpassed : ({ s with queue, received := s.received ++ [entry] } : FanIn Msg).passed =
      s.passed := by
    rw [passed, passed, hqueue, List.append_assoc]
    rfl
  refine ⟨?_, ?_, ?_⟩
  · intro i sender hsender
    rw [hpassed]
    exact h.sequence i sender hsender
  · rw [hpassed]
    exact h.joined
  · have hbounded := h.bounded
    rw [hqueue] at hbounded
    exact Nat.le_of_succ_le hbounded

lemma InSequence.step (h : s.InSequence) {op : FanInOp Msg} (hstep : s.step op = some t) :
    t.InSequence := by
  cases op with
  | join msgs =>
    cases hstep
    exact h.join msgs
  | supply i msgs =>
    obtain ⟨sender, hsender, rfl⟩ := Option.map_eq_some_iff.mp hstep
    apply h.setSender
    have hbefore := h.sequence i sender hsender
    rw [← List.append_assoc, hbefore]
  | pick i =>
    obtain ⟨sender, hsender, hpick⟩ := Option.bind_eq_some_iff.mp hstep
    have hbefore := h.sequence i sender hsender
    split at hpick
    · next msg ahead hholding hahead =>
      cases hpick
      apply h.setSender
      rw [hholding, hahead] at hbefore
      simpa using hbefore
    · cases hpick
  | send i =>
    obtain ⟨sender, hsender, hsend⟩ := Option.bind_eq_some_iff.mp hstep
    split at hsend
    · next msg hholding =>
      split_ifs at hsend with hroom
      cases hsend
      exact h.send hsender hholding hroom
    · cases hsend
  | receive =>
    unfold FanIn.step at hstep
    dsimp only at hstep
    split at hstep
    · cases hstep
    · next entry queue hqueue =>
      cases hstep
      exact h.receive hqueue

/-- However the steps of the senders and the receiver are ordered, the messages stay in
sequence. -/
theorem sequence_of_run {ops : List (FanInOp Msg)} (h : s.InSequence)
    (hrun : run step s ops = some t) : t.InSequence :=
  run_induction (motive := fun _ t => t.InSequence) step h
    (fun _ _ _ _ _ hu hstep => hu.step hstep) hrun

end FanIn

end Ulpf.Library
