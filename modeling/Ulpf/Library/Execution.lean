import Mathlib.Data.List.Induction

/-!
# Executions

A program that takes operations one after another is a partial step function; `none` stops
it. `run_induction` carries an invariant along a run, `Along` states a property of every
step of a run.
-/

namespace Ulpf.Library

variable {State Op : Type*} (step : State → Op → Option State)

def run : State → List Op → Option State
  | s, [] => some s
  | s, op :: ops => (step s op).bind fun t => run t ops

@[simp] lemma run_nil (s : State) : run step s [] = some s := rfl

lemma run_cons (s : State) (op : Op) (ops : List Op) :
    run step s (op :: ops) = (step s op).bind fun t => run step t ops := rfl

lemma run_append (s : State) (ops ops' : List Op) :
    run step s (ops ++ ops') = (run step s ops).bind fun t => run step t ops' := by
  induction ops generalizing s with
  | nil => rfl
  | cons op ops ih =>
    rw [List.cons_append, run_cons, run_cons, Option.bind_assoc]
    congr 1
    funext t
    exact ih t

lemma run_concat_eq_some {s t : State} {ops : List Op} {op : Op} :
    run step s (ops ++ [op]) = some t ↔ ∃ u, run step s ops = some u ∧ step u op = some t := by
  rw [run_append, Option.bind_eq_some_iff]
  apply exists_congr
  intro u
  rw [run_cons, Option.bind_eq_some_iff]
  simp

/-- A property of the operations done and the state reached holds of every run that starts
with it and takes only steps that keep it. -/
theorem run_induction {motive : List Op → State → Prop} {s t : State} {ops : List Op}
    (start : motive [] s)
    (next : ∀ done op u v, op ∈ ops → motive done u → step u op = some v →
      motive (done ++ [op]) v)
    (h : run step s ops = some t) : motive ops t := by
  induction ops using List.reverseRecOn generalizing t with
  | nil =>
    cases h
    exact start
  | append_singleton ops op ih =>
    obtain ⟨u, hu, hstep⟩ := (run_concat_eq_some step).mp h
    refine next ops op u t (by simp) (ih ?_ hu) hstep
    intro done op' v w hop'
    exact next done op' v w (List.mem_append_left _ hop')

/-- A run goes on as long as an invariant that steps keep rules out that it stops. -/
lemma exists_run_of_invariant {I : State → Prop} (total : ∀ s op, I s → (step s op).isSome)
    (next : ∀ s op t, I s → step s op = some t → I t) {s : State} (h : I s) (ops : List Op) :
    ∃ t, run step s ops = some t := by
  induction ops generalizing s with
  | nil => exact ⟨s, rfl⟩
  | cons op ops ih =>
    obtain ⟨u, hu⟩ := Option.isSome_iff_exists.mp (total s op h)
    rw [run_cons, hu]
    exact ih (next s op u h hu)

lemma run_isSome (total : ∀ s op, (step s op).isSome) (s : State) (ops : List Op) :
    ∃ t, run step s ops = some t :=
  exists_run_of_invariant (I := fun _ => True) step (fun s op _ => total s op)
    (fun _ _ _ _ _ => trivial) trivial ops

/-- Every step of the run satisfies `P`, judged in the state it starts from. -/
def Along (P : State → Op → Prop) : State → List Op → Prop
  | _, [] => True
  | s, op :: ops => P s op ∧ ∀ t, step s op = some t → Along P t ops

lemma along_congr {P Q : State → Op → Prop} (h : ∀ s op, P s op ↔ Q s op) (s : State)
    (ops : List Op) : Along step P s ops ↔ Along step Q s ops := by
  induction ops generalizing s with
  | nil => exact Iff.rfl
  | cons op ops ih =>
    unfold Along
    rw [h s op]
    simp only [ih]

/-- A property of the steps of a run may be shown after each part of the run. -/
theorem along_of_prefix {P : State → Op → Prop} {s : State} {ops : List Op}
    (h : ∀ done op u, (done ++ [op]) <+: ops → run step s done = some u → P u op) :
    Along step P s ops := by
  induction ops generalizing s with
  | nil => trivial
  | cons op ops ih =>
    refine ⟨h [] op s (List.prefix_append [op] ops) rfl, ?_⟩
    intro t ht
    apply ih
    intro done op' u hdone hrun
    apply h (op :: done) op' u (List.cons_prefix_cons.mpr ⟨rfl, hdone⟩)
    rw [run_cons, ht]
    exact hrun

/-- What every step that meets `C` keeps, a run of such steps keeps. -/
lemma invariant_of_along {P : State → Prop} {C : State → Op → Prop}
    (keeps : ∀ s op t, P s → C s op → step s op = some t → P t) {s t : State} {ops : List Op}
    (hP : P s) (halong : Along step C s ops) (hrun : run step s ops = some t) : P t := by
  induction ops generalizing s with
  | nil =>
    cases hrun
    exact hP
  | cons op ops ih =>
    obtain ⟨u, hu, hrest⟩ := Option.bind_eq_some_iff.mp hrun
    exact ih (keeps s op u hP halong.1 hu) (halong.2 u hu) hrest

/-- If under the invariant a step keeps `P` exactly when it meets `C`, then `P` holds of all
states of a run exactly when all its steps meet `C`. -/
theorem forall_reached_iff_along {I P : State → Prop} {C : State → Op → Prop}
    (next : ∀ s op t, I s → step s op = some t → I t)
    (keeps : ∀ s op t, I s → P s → step s op = some t → (P t ↔ C s op))
    {s t : State} (hinv : I s) (hP : P s) {ops : List Op} (hrun : run step s ops = some t) :
    (∀ done u, done <+: ops → run step s done = some u → P u) ↔ Along step C s ops := by
  induction ops generalizing s with
  | nil =>
    refine iff_of_true ?_ trivial
    intro done u hdone hrun
    rw [List.prefix_nil.mp hdone] at hrun
    cases hrun
    exact hP
  | cons op ops ih =>
    obtain ⟨v, hv, hrest⟩ := Option.bind_eq_some_iff.mp hrun
    have hiff := keeps s op v hinv hP hv
    have hrun_cons : ∀ done, run step s (op :: done) = run step v done := by
      intro done
      rw [run_cons, hv]
      rfl
    constructor
    · intro h
      have hPv : P v := h [op] v (List.prefix_append [op] ops) (hrun_cons [])
      refine ⟨hiff.mp hPv, ?_⟩
      intro v' hv'
      cases hv.symm.trans hv'
      rw [← ih (next s op v hinv hv) hPv hrest]
      intro done u hdone hrun
      exact h (op :: done) u (List.cons_prefix_cons.mpr ⟨rfl, hdone⟩) ((hrun_cons done).trans hrun)
    · rintro ⟨hC, halong⟩ done u hdone hreach
      cases done with
      | nil =>
        cases hreach
        exact hP
      | cons op' done =>
        obtain ⟨rfl, htail⟩ := List.cons_prefix_cons.mp hdone
        rw [hrun_cons] at hreach
        have hlater := ih (next s op' v hinv hv) (hiff.mpr hC) hrest
        exact hlater.mpr (halong v hv) done u htail hreach

end Ulpf.Library
