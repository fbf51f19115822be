import Mathlib.Data.List.Induction
import Ulpf.Library.Execution

/-!
# Interleaved calls

Calls share a state and each takes one atomic step at a time, in any order; other parties change
the shared state between them. What the calls bring in has gone out again or is carried by the
calls that are still in between: `flow_of_run`.
-/

namespace Ulpf.Library

variable {Shared Call Entry Reading Signal : Type*}

/-- What happens when a call enters, when it takes a step and when another party acts. -/
structure Machine (Shared Call Entry Reading Signal : Type*) where
  enter : Shared → Entry → Option (Shared × Call)
  advance : Shared → Call → Reading → Option (Shared × Call)
  signal : Shared → Signal → Option Shared

inductive Turn (Entry Reading Signal : Type*) where
  | enter (entry : Entry)
  | advance (i : ℕ) (reading : Reading)
  | signal (signal : Signal)

/-- The calls that have entered, in the order in which they did. -/
structure Interleaved (Shared Call : Type*) where
  shared : Shared
  calls : List Call

namespace Machine

variable (m : Machine Shared Call Entry Reading Signal)

def step (s : Interleaved Shared Call) :
    Turn Entry Reading Signal → Option (Interleaved Shared Call)
  | .enter entry => (m.enter s.shared entry).map fun out => ⟨out.1, s.calls ++ [out.2]⟩
  | .advance i reading => s.calls[i]?.bind fun call =>
      (m.advance s.shared call reading).map fun out => ⟨out.1, s.calls.set i out.2⟩
  | .signal signal => (m.signal s.shared signal).map fun shared => ⟨shared, s.calls⟩

/-- The ways the shared state changes in a step. -/
inductive Changes : Shared → Shared → Prop where
  | enter {s t : Shared} {entry : Entry} {call : Call} (h : m.enter s entry = some (t, call)) :
      Changes s t
  | advance {s t : Shared} {call call' : Call} {reading : Reading}
      (h : m.advance s call reading = some (t, call')) : Changes s t
  | signal {s t : Shared} {signal : Signal} (h : m.signal s signal = some t) : Changes s t

/-- Each step brings in what it lets out and what the calls carry on top of before. -/
structure Flow (I : Shared → Prop) (inflow outflow : Shared → ℕ) (carries : Call → Bool) :
    Prop where
  enter : ∀ {s t : Shared} {entry : Entry} {call : Call}, I s →
    m.enter s entry = some (t, call) →
      inflow t + outflow s = inflow s + outflow t + (carries call).toNat
  advance : ∀ {s t : Shared} {call call' : Call} {reading : Reading}, I s →
    m.advance s call reading = some (t, call') →
      inflow t + outflow s + (carries call).toNat =
        inflow s + outflow t + (carries call').toNat
  signal : ∀ {s t : Shared} {signal : Signal}, I s → m.signal s signal = some t →
    inflow t + outflow s = inflow s + outflow t

variable {m} {I : Shared → Prop} {inflow outflow : Shared → ℕ} {carries : Call → Bool}
  {s t : Interleaved Shared Call} {turn : Turn Entry Reading Signal}

lemma changes_of_step (h : m.step s turn = some t) : m.Changes s.shared t.shared := by
  cases turn with
  | enter entry =>
    obtain ⟨out, hout, rfl⟩ := Option.map_eq_some_iff.mp h
    exact .enter hout
  | advance i reading =>
    obtain ⟨call, -, h⟩ := Option.bind_eq_some_iff.mp h
    obtain ⟨out, hout, rfl⟩ := Option.map_eq_some_iff.mp h
    exact .advance hout
  | signal signal =>
    obtain ⟨shared, hout, rfl⟩ := Option.map_eq_some_iff.mp h
    exact .signal hout

lemma countP_set_add {α : Type*} (p : α → Bool) {l : List α} {i : ℕ} {a : α}
    (h : l[i]? = some a) (b : α) :
    (l.set i b).countP p + (p a).toNat = l.countP p + (p b).toNat := by
  induction l generalizing i with
  | nil => cases h
  | cons x l ih =>
    cases i with
    | zero =>
      cases h
      cases ha : p a <;> cases hb : p b <;> simp [ha, hb]
    | succ i =>
      have hrest := ih h
      simp only [List.set_cons_succ, List.countP_cons]
      omega

lemma Flow.step (h : m.Flow I inflow outflow carries) (hI : I s.shared)
    (hs : inflow s.shared = outflow s.shared + s.calls.countP carries)
    (hstep : m.step s turn = some t) :
    inflow t.shared = outflow t.shared + t.calls.countP carries := by
  cases turn with
  | enter entry =>
    obtain ⟨out, hout, rfl⟩ := Option.map_eq_some_iff.mp hstep
    have hflow := h.enter hI hout
    have hcount : (s.calls ++ [out.2]).countP carries =
        s.calls.countP carries + (carries out.2).toNat := by
      cases hc : carries out.2 <;> simp [hc]
    dsimp only
    omega
  | advance i reading =>
    obtain ⟨call, hcall, hstep⟩ := Option.bind_eq_some_iff.mp hstep
    obtain ⟨out, hout, rfl⟩ := Option.map_eq_some_iff.mp hstep
    have hflow := h.advance hI hout
    have hcount := countP_set_add carries hcall out.2
    dsimp only
    omega
  | signal signal =>
    obtain ⟨shared, hout, rfl⟩ := Option.map_eq_some_iff.mp hstep
    have hflow := h.signal hI hout
    dsimp only
    omega

/-- Along every run, what came in is what went out and what the calls carry. -/
theorem flow_of_run {start : Shared} {turns : List (Turn Entry Reading Signal)}
    (h : m.Flow I inflow outflow carries) (hstart : I start)
    (hkeeps : ∀ {s t : Shared}, I s → m.Changes s t → I t)
    (hzero : inflow start = outflow start) (hrun : run m.step ⟨start, []⟩ turns = some s) :
    inflow s.shared = outflow s.shared + s.calls.countP carries := by
  have hboth : I s.shared ∧ inflow s.shared = outflow s.shared + s.calls.countP carries := by
    refine run_induction (motive := fun _ s => I s.shared ∧
      inflow s.shared = outflow s.shared + s.calls.countP carries) m.step ⟨hstart, hzero⟩ ?_ hrun
    rintro done turn u v - ⟨hI, hu⟩ hstep
    exact ⟨hkeeps hI (changes_of_step hstep), h.step hI hu hstep⟩
  exact hboth.2

/-- The steps of one call without the others. -/
def alone (m : Machine Shared Call Entry Reading Signal) (q : Shared × Call) (reading : Reading) :
    Option (Shared × Call) := m.advance q.1 q.2 reading

lemma run_alone {q r : Shared × Call} {readings : List Reading} (calls : List Call)
    (hrun : run m.alone q readings = some r) :
    run m.step ⟨q.1, calls ++ [q.2]⟩ (readings.map (.advance calls.length)) =
      some ⟨r.1, calls ++ [r.2]⟩ := by
  induction readings generalizing q with
  | nil =>
    cases hrun
    rfl
  | cons reading readings ih =>
    obtain ⟨u, hu, hrest⟩ := Option.bind_eq_some_iff.mp hrun
    have hstep : m.step ⟨q.1, calls ++ [q.2]⟩ (.advance calls.length reading) =
        some ⟨u.1, calls ++ [u.2]⟩ := by
      unfold alone at hu
      simp [step, hu]
    rw [List.map_cons, run_cons, hstep]
    exact ih hrest

end Machine

end Ulpf.Library
