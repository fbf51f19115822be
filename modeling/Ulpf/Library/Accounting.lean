import Mathlib.Algebra.BigOperators.Group.List.Basic
import Mathlib.Algebra.GroupWithZero.Nat
import Ulpf.Library.Interleaving

/-!
# Totals of interleaved calls

Calls add what they do to a shared total, now and then. In every interleaving the total is the sum
of the parts that the calls have added (`total_of_run`). Where each step of a call brings it nearer
to its end and no other party acts, the runs are bounded (`length_le_of_run`).
-/

namespace Ulpf.Library

lemma sum_map_set_add {α A : Type*} [AddCommMonoid A] (f : α → A) {l : List α} {i : ℕ} {a : α}
    (h : l[i]? = some a) (b : α) :
    ((l.set i b).map f).sum + f a = (l.map f).sum + f b := by
  induction l generalizing i with
  | nil => cases h
  | cons x l ih =>
    cases i with
    | zero =>
      cases h
      rw [List.set_cons_zero, List.map_cons, List.map_cons, List.sum_cons, List.sum_cons,
        add_right_comm, add_comm (f b), add_right_comm]
    | succ i =>
      have hrest := ih h
      rw [List.set_cons_succ, List.map_cons, List.map_cons, List.sum_cons, List.sum_cons,
        add_assoc, hrest, add_assoc]

namespace Machine

variable {Shared Call Entry Reading Signal : Type*}
  (m : Machine Shared Call Entry Reading Signal)

/-- A property of single calls that none of their steps breaks. -/
structure Keeps (J : Call → Prop) : Prop where
  enter : ∀ {s t : Shared} {entry : Entry} {call : Call}, m.enter s entry = some (t, call) → J call
  advance : ∀ {s t : Shared} {call call' : Call} {reading : Reading}, J call →
    m.advance s call reading = some (t, call') → J call'

/-- What a step adds to the total it adds to the part of the call that takes it. -/
structure Balanced {A : Type*} [AddCommMonoid A] (J : Call → Prop) (total : Shared → A)
    (part : Call → A) : Prop where
  enter : ∀ {s t : Shared} {entry : Entry} {call : Call}, m.enter s entry = some (t, call) →
    total t = total s + part call
  advance : ∀ {s t : Shared} {call call' : Call} {reading : Reading}, J call →
    m.advance s call reading = some (t, call') → total t + part call = total s + part call'
  signal : ∀ {s t : Shared} {signal : Signal}, m.signal s signal = some t → total t = total s

/-- In a closed state a step is one of a call, and brings that call nearer to its end. -/
structure Descends (closed : Shared → Prop) (J : Reading → Prop) (rank : Call → ℕ) : Prop where
  enter : ∀ {s : Shared} {entry : Entry}, closed s → m.enter s entry = none
  advance : ∀ {s t : Shared} {call call' : Call} {reading : Reading}, closed s → J reading →
    m.advance s call reading = some (t, call') → closed t ∧ rank call' < rank call
  signal : ∀ {s : Shared} {signal : Signal}, closed s → m.signal s signal = none

variable {m} {J : Call → Prop} {start : Shared} {s t : Interleaved Shared Call}
  {turn : Turn Entry Reading Signal} {turns : List (Turn Entry Reading Signal)}

lemma Keeps.step (h : m.Keeps J) (hs : ∀ call ∈ s.calls, J call)
    (hstep : m.step s turn = some t) : ∀ call ∈ t.calls, J call := by
  cases turn with
  | enter entry =>
    obtain ⟨out, hout, rfl⟩ := Option.map_eq_some_iff.mp hstep
    exact List.forall_mem_append.mpr ⟨hs, List.forall_mem_singleton.mpr (h.enter hout)⟩
  | advance i reading =>
    obtain ⟨call, hcall, hstep⟩ := Option.bind_eq_some_iff.mp hstep
    obtain ⟨out, hout, rfl⟩ := Option.map_eq_some_iff.mp hstep
    intro other hother
    rcases List.mem_or_eq_of_mem_set hother with hold | rfl
    · exact hs other hold
    · exact h.advance (hs call (List.mem_of_getElem? hcall)) hout
  | signal signal =>
    obtain ⟨shared, hout, rfl⟩ := Option.map_eq_some_iff.mp hstep
    exact hs

section Total

variable {A : Type*} [AddCancelCommMonoid A] {total : Shared → A} {part : Call → A}

lemma Balanced.step (h : m.Balanced J total part) (hs : ∀ call ∈ s.calls, J call) {a : A}
    (htotal : total s.shared = a + (s.calls.map part).sum) (hstep : m.step s turn = some t) :
    total t.shared = a + (t.calls.map part).sum := by
  cases turn with
  | enter entry =>
    obtain ⟨out, hout, rfl⟩ := Option.map_eq_some_iff.mp hstep
    rw [h.enter hout, htotal, List.map_append, List.sum_append, List.map_singleton,
      List.sum_singleton, add_assoc]
  | advance i reading =>
    obtain ⟨call, hcall, hstep⟩ := Option.bind_eq_some_iff.mp hstep
    obtain ⟨out, hout, rfl⟩ := Option.map_eq_some_iff.mp hstep
    have hadds := h.advance (hs call (List.mem_of_getElem? hcall)) hout
    apply add_right_cancel (b := part call)
    rw [hadds, htotal, add_assoc, add_assoc, sum_map_set_add part hcall]
  | signal signal =>
    obtain ⟨shared, hout, rfl⟩ := Option.map_eq_some_iff.mp hstep
    exact (h.signal hout).trans htotal

/-- In every interleaving the shared total is the sum of the parts. -/
theorem total_of_run (hkeeps : m.Keeps J) (h : m.Balanced J total part)
    (hrun : run m.step ⟨start, []⟩ turns = some s) :
    total s.shared = total start + (s.calls.map part).sum := by
  have hboth : (∀ call ∈ s.calls, J call) ∧
      total s.shared = total start + (s.calls.map part).sum := by
    refine run_induction (motive := fun _ s => (∀ call ∈ s.calls, J call) ∧
      total s.shared = total start + (s.calls.map part).sum) m.step ?_ ?_ hrun
    · refine ⟨List.forall_mem_nil J, ?_⟩
      rw [List.map_nil, List.sum_nil, add_zero]
    · rintro done turn u v - ⟨hcalls, hu⟩ hstep
      exact ⟨hkeeps.step hcalls hstep, h.step hcalls hu hstep⟩
  exact hboth.2

end Total

section Rank

variable {closed : Shared → Prop} {K : Reading → Prop} {rank : Call → ℕ}

/-- The readings that a run takes. -/
def readings (turns : List (Turn Entry Reading Signal)) : List Reading :=
  turns.filterMap fun
    | .advance _ reading => some reading
    | _ => none

def advances (i : ℕ) : Turn Entry Reading Signal → Bool
  | .advance j _ => j == i
  | _ => false

/-- From a closed state on, a call takes at most as many steps as its rank allows. -/
theorem countP_le_of_run (h : m.Descends closed K rank) (hclosed : closed s.shared)
    (hreadings : ∀ reading ∈ readings turns, K reading) (hrun : run m.step s turns = some t)
    (i : ℕ) : turns.countP (advances i) + (t.calls[i]?.map rank).getD 0 ≤
      (s.calls[i]?.map rank).getD 0 := by
  induction turns generalizing s with
  | nil =>
    cases hrun
    exact Nat.le_of_eq (Nat.zero_add _)
  | cons turn turns ih =>
    obtain ⟨u, hstep, hrest⟩ := Option.bind_eq_some_iff.mp hrun
    cases turn with
    | enter entry =>
      obtain ⟨out, hout, -⟩ := Option.map_eq_some_iff.mp hstep
      rw [h.enter hclosed] at hout
      cases hout
    | advance j reading =>
      obtain ⟨call, hcall, hstep⟩ := Option.bind_eq_some_iff.mp hstep
      obtain ⟨out, hout, rfl⟩ := Option.map_eq_some_iff.mp hstep
      obtain ⟨hreading, hlater⟩ := List.forall_mem_cons.mp hreadings
      obtain ⟨hnext, hrank⟩ := h.advance hclosed hreading hout
      have hle := ih hnext hlater hrest
      have hlt := (List.getElem?_eq_some_iff.mp hcall).1
      rw [List.countP_cons, advances]
      dsimp only at hle
      by_cases heq : j = i
      · subst heq
        rw [List.getElem?_set_self hlt, Option.map_some, Option.getD_some] at hle
        rw [hcall, Option.map_some, Option.getD_some, beq_self_eq_true, if_pos rfl]
        omega
      · rw [List.getElem?_set_ne heq] at hle
        rw [beq_eq_false_iff_ne.mpr heq, if_neg Bool.false_ne_true]
        omega
    | signal signal =>
      obtain ⟨shared, hout, -⟩ := Option.map_eq_some_iff.mp hstep
      rw [h.signal hclosed] at hout
      cases hout

/-- From a closed state on, a run has at most as many steps as the ranks of the calls allow. -/
theorem length_le_of_run (h : m.Descends closed K rank) (hclosed : closed s.shared)
    (hreadings : ∀ reading ∈ readings turns, K reading) (hrun : run m.step s turns = some t) :
    closed t.shared ∧ turns.length + (t.calls.map rank).sum ≤ (s.calls.map rank).sum := by
  induction turns generalizing s with
  | nil =>
    cases hrun
    exact ⟨hclosed, Nat.le_of_eq (Nat.zero_add _)⟩
  | cons turn turns ih =>
    obtain ⟨u, hstep, hrest⟩ := Option.bind_eq_some_iff.mp hrun
    cases turn with
    | enter entry =>
      obtain ⟨out, hout, -⟩ := Option.map_eq_some_iff.mp hstep
      rw [h.enter hclosed] at hout
      cases hout
    | advance i reading =>
      obtain ⟨call, hcall, hstep⟩ := Option.bind_eq_some_iff.mp hstep
      obtain ⟨out, hout, rfl⟩ := Option.map_eq_some_iff.mp hstep
      obtain ⟨hreading, hlater⟩ := List.forall_mem_cons.mp hreadings
      obtain ⟨hnext, hrank⟩ := h.advance hclosed hreading hout
      have hset := sum_map_set_add rank hcall out.2
      obtain ⟨ht, hlength⟩ := ih hnext hlater hrest
      refine ⟨ht, ?_⟩
      dsimp only at hlength
      rw [List.length_cons]
      omega
    | signal signal =>
      obtain ⟨shared, hout, -⟩ := Option.map_eq_some_iff.mp hstep
      rw [h.signal hclosed] at hout
      cases hout

/-- In a closed state nothing can be done exactly if no call can take a step. -/
theorem stuck_iff_of_closed (h : m.Descends closed K rank) (hclosed : closed s.shared) :
    (∀ turn, m.step s turn = none) ↔
      ∀ call ∈ s.calls, ∀ reading, m.advance s.shared call reading = none := by
  constructor
  · intro hstuck call hcall reading
    obtain ⟨i, hi⟩ := List.getElem?_of_mem hcall
    have hstep := hstuck (.advance i reading)
    rw [step, hi, Option.bind_some, Option.map_eq_none_iff] at hstep
    exact hstep
  · intro hcalls turn
    cases turn with
    | enter entry => rw [step, h.enter hclosed, Option.map_none]
    | advance i reading =>
      rw [step, Option.bind_eq_none_iff]
      intro call hcall
      rw [Option.map_eq_none_iff]
      exact hcalls call (List.mem_of_getElem? hcall) reading
    | signal signal => rw [step, h.signal hclosed, Option.map_none]

end Rank

end Machine

end Ulpf.Library
