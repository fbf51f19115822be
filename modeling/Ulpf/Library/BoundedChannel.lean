import Mathlib.Data.List.Basic
import Mathlib.Data.Nat.Notation
import Mathlib.Tactic.SplitIfs

/-!
# Bounded channels

A queue of bounded length between senders that do not block and one receiver that does. With
capacity zero a message goes from hand to hand: it is taken exactly if the receiver listens.
-/

namespace Ulpf.Library

structure BoundedChannel (Msg : Type*) where
  capacity : ℕ
  waiting : List Msg
  received : List Msg
  /-- The receiver blocks until there is a message. -/
  listening : Bool
  length_waiting : waiting.length ≤ capacity

namespace BoundedChannel

variable {Msg : Type*}

def empty (capacity : ℕ) : BoundedChannel Msg := ⟨capacity, [], [], false, Nat.zero_le capacity⟩

/-- All messages that the channel has taken. -/
def passed (c : BoundedChannel Msg) : List Msg := c.received ++ c.waiting

def hasRoom (c : BoundedChannel Msg) : Bool :=
  if c.capacity = 0 then c.listening else decide (c.waiting.length < c.capacity)

/-- The channel after it has taken the message, if there is room for it. -/
def trySend (c : BoundedChannel Msg) (msg : Msg) : Option (BoundedChannel Msg) :=
  if c.capacity = 0 then
    if c.listening then some { c with received := c.received ++ [msg], listening := false }
    else none
  else if h : c.waiting.length < c.capacity then
    some { c with
      waiting := c.waiting ++ [msg]
      length_waiting := by rwa [List.length_append, List.length_singleton] }
  else none

/-- The receiver starts to wait for a message. -/
def listen (c : BoundedChannel Msg) : BoundedChannel Msg := { c with listening := true }

/-- The waiting receiver takes the first message of the queue. -/
def receive (c : BoundedChannel Msg) : Option (BoundedChannel Msg) :=
  if c.listening then
    match h : c.waiting with
    | [] => none
    | msg :: waiting => some { c with
        waiting
        received := c.received ++ [msg]
        listening := false
        length_waiting := by
          have hlength := c.length_waiting
          rw [h] at hlength
          exact Nat.le_of_succ_le hlength }
  else none

variable {c d : BoundedChannel Msg} {msg : Msg}

lemma isSome_trySend (c : BoundedChannel Msg) (msg : Msg) :
    (c.trySend msg).isSome = c.hasRoom := by
  unfold trySend hasRoom
  by_cases hzero : c.capacity = 0
  · cases hlistening : c.listening <;> simp [hzero]
  · by_cases hroom : c.waiting.length < c.capacity <;> simp [hzero, hroom]

lemma passed_trySend (h : c.trySend msg = some d) : d.passed = c.passed ++ [msg] := by
  unfold trySend at h
  split_ifs at h with hzero hlistening hroom
  · cases h
    have hwaiting : c.waiting = [] :=
      List.eq_nil_of_length_eq_zero (Nat.eq_zero_of_le_zero (hzero ▸ c.length_waiting))
    simp [passed, hwaiting]
  · cases h
    simp [passed]

lemma passed_receive (h : c.receive = some d) : d.passed = c.passed := by
  unfold receive at h
  split_ifs at h
  split at h
  · cases h
  · next msg waiting hwaiting =>
    cases h
    simp [passed, hwaiting]

end BoundedChannel

end Ulpf.Library
