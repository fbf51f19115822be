import Ulpf.Library.RegexAnalysis

/-!
# Successive matches

`pieces` cuts a text into the matches of an expression and the elements between them. For an
expression that reads no empty text, the pieces are the text, and one of them is a match as soon
as the expression matches anywhere.
-/

namespace Ulpf.Library.Regex

variable {α A : Type} [DecidableEq α] (accepts : A → α → Bool) (word : α → Bool)

/-- The text that a piece stands for. -/
def Piece.text : Piece α → List α
  | .gap x => [x]
  | .found m _ => m

/-- The expression matches somewhere in the text. -/
def Occurs (r : Regex α A) (s : List α) : Prop :=
  ∃ a b, s = a ++ b ∧ run accepts word r ⟨a.reverse, b, []⟩ ≠ []

/-- All elements lie outside the matches. -/
def Unmatched (pieces : List (Piece α)) : Prop := ∀ m gs, .found m gs ∉ pieces

variable {accepts word}

lemma occurs_alt {r r' : Regex α A} {s : List α} :
    Occurs accepts word (alt r r') s ↔ Occurs accepts word r s ∨ Occurs accepts word r' s := by
  constructor
  · rintro ⟨a, b, rfl, h⟩
    rw [run, Ne, List.append_eq_nil_iff, not_and_or] at h
    exact h.imp (fun h => ⟨a, b, rfl, h⟩) (fun h => ⟨a, b, rfl, h⟩)
  · rintro (⟨a, b, rfl, h⟩ | ⟨a, b, rfl, h⟩)
    · refine ⟨a, b, rfl, ?_⟩
      rw [run]
      exact List.append_ne_nil_of_left_ne_nil h _
    · refine ⟨a, b, rfl, ?_⟩
      rw [run]
      exact List.append_ne_nil_of_right_ne_nil _ h

lemma Occurs.exists_lang {r : Regex α A} {s : List α} (h : Occurs accepts word r s) :
    ∃ m, Lang accepts r m ∧ m <:+: s := by
  obtain ⟨a, b, rfl, h⟩ := h
  obtain ⟨d, hd⟩ := List.exists_mem_of_ne_nil _ h
  obtain ⟨m, hm, hread⟩ := lang_of_mem_run hd
  refine ⟨m, hm, a, d.after, ?_⟩
  rw [List.append_assoc, ← hread.after]

section Pieces

variable {r : Regex α A} (hr : nullable r = false)
include hr

lemma between_of_firstMatch {before after : List α} {x : α} {d : Cursor α}
    (h : firstMatch accepts word r ⟨before, x :: after, []⟩ = some d) :
    between ⟨before, x :: after, []⟩ d = x :: after.take (after.length - d.after.length) := by
  obtain ⟨m, hm, hread⟩ := lang_of_mem_run (List.mem_of_mem_head? h)
  rw [between_eq hread]
  cases m with
  | nil =>
    rw [nullable_of_lang hm] at hr
    cases hr
  | cons y m =>
    have hafter : x = y ∧ after = m ++ d.after := List.cons.inj hread.after
    rw [hafter.1, hafter.2, List.length_append, Nat.add_sub_cancel, List.take_left]

lemma flatMap_text_pieces (skip : ℕ) (before after : List α) :
    (pieces accepts word r skip before after).flatMap Piece.text = after.drop skip := by
  induction after generalizing skip before with
  | nil => rw [pieces, List.drop_nil, List.flatMap_nil]
  | cons x after ih =>
    cases skip with
    | succ skip => rw [pieces, ih, List.drop_succ_cons]
    | zero =>
      rw [pieces]
      split
      · next d hd =>
        rw [List.flatMap_cons, Piece.text, ih, between_of_firstMatch hr hd, List.cons_append,
          List.take_append_drop, List.drop_zero]
      · rw [List.flatMap_cons, Piece.text, ih]
        rfl

lemma flatMap_pieces_of_unmatched {s : List α} (h : Unmatched (pieces accepts word r 0 [] s))
    {f : Piece α → List α} (hf : ∀ x, f (.gap x) = [x]) :
    (pieces accepts word r 0 [] s).flatMap f = s := by
  have htext : ∀ p ∈ pieces accepts word r 0 [] s, f p = p.text := by
    intro p hp
    cases p with
    | gap x => exact hf x
    | found m gs => exact absurd hp (h m gs)
  calc (pieces accepts word r 0 [] s).flatMap f
      = (pieces accepts word r 0 [] s).flatMap Piece.text := List.flatMap_congr htext
    _ = s := flatMap_text_pieces hr 0 [] s

omit hr in
lemma run_of_mem_pieces {skip : ℕ} {before after m : List α} {gs : List (String × List α)}
    (h : .found m gs ∈ pieces accepts word r skip before after) :
    ∃ a b, after = a ++ b ∧ run accepts word r ⟨a.reverse ++ before, b, []⟩ ≠ [] := by
  have hlater : ∀ {x : α} {before after : List α},
      (∃ a b, after = a ++ b ∧ run accepts word r ⟨a.reverse ++ x :: before, b, []⟩ ≠ []) →
      ∃ a b, x :: after = a ++ b ∧ run accepts word r ⟨a.reverse ++ before, b, []⟩ ≠ [] := by
    rintro x before after ⟨a, b, rfl, hrun⟩
    refine ⟨x :: a, b, rfl, ?_⟩
    rwa [List.reverse_cons, List.append_assoc, List.singleton_append]
  induction after generalizing skip before with
  | nil =>
    rw [pieces] at h
    cases h
  | cons x after ih =>
    cases skip with
    | succ skip =>
      rw [pieces] at h
      exact hlater (ih h)
    | zero =>
      rw [pieces] at h
      split at h
      · next d hd =>
        exact ⟨[], x :: after, rfl, List.ne_nil_of_mem (List.mem_of_mem_head? hd)⟩
      · rcases List.mem_cons.mp h with hgap | hmem
        · cases hgap
        · exact hlater (ih hmem)

lemma found_of_run {a b before : List α}
    (h : run accepts word r ⟨a.reverse ++ before, b, []⟩ ≠ []) :
    ∃ m gs, .found m gs ∈ pieces accepts word r 0 before (a ++ b) := by
  induction a generalizing before with
  | nil =>
    cases b with
    | nil =>
      obtain ⟨d, hd⟩ := List.exists_mem_of_ne_nil _ h
      obtain ⟨m, hm, hread⟩ := lang_of_mem_run hd
      have hnil : [] = m ++ d.after := hread.after
      rw [(List.append_eq_nil_iff.mp hnil.symm).1] at hm
      rw [nullable_of_lang hm] at hr
      cases hr
    | cons x after =>
      rw [List.nil_append, pieces]
      have hsome : (firstMatch accepts word r ⟨before, x :: after, []⟩).isSome = true :=
        List.isSome_head?.mpr h
      obtain ⟨d, hd⟩ := Option.isSome_iff_exists.mp hsome
      rw [hd]
      exact ⟨_, _, List.mem_cons_self⟩
  | cons x a ih =>
    rw [List.cons_append, pieces]
    split
    · exact ⟨_, _, List.mem_cons_self⟩
    · rw [List.reverse_cons, List.append_assoc, List.singleton_append] at h
      obtain ⟨m, gs, hmem⟩ := ih h
      exact ⟨m, gs, List.mem_cons_of_mem _ hmem⟩

/-- The successive matches are none exactly if the expression matches nowhere. -/
theorem unmatched_pieces_iff {s : List α} :
    Unmatched (pieces accepts word r 0 [] s) ↔ ¬Occurs accepts word r s := by
  constructor
  · rintro h ⟨a, b, rfl, hrun⟩
    rw [← List.append_nil a.reverse] at hrun
    obtain ⟨m, gs, hmem⟩ := found_of_run hr hrun
    exact h m gs hmem
  · intro h m gs hmem
    obtain ⟨a, b, rfl, hrun⟩ := run_of_mem_pieces hmem
    rw [List.append_nil] at hrun
    exact h ⟨a, b, rfl, hrun⟩

end Pieces

end Ulpf.Library.Regex
