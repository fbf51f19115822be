import Mathlib.Data.List.DropRight

/-!
# Stripped lists

A list without the elements at its two ends that satisfy a predicate, and the lists that
stripping does not change.
-/

namespace Ulpf.Library

variable {α : Type*} (p : α → Bool)

def strip (s : List α) : List α := (s.dropWhile p).rdropWhile p

/-- Neither end of the list satisfies `p`. -/
structure Bare (s : List α) : Prop where
  head : ∀ a ∈ s.head?, p a = false
  last : ∀ a ∈ s.getLast?, p a = false

variable {p}

lemma bare_nil : Bare p [] := ⟨by simp, by simp⟩

lemma bare_of_forall {s : List α} (h : ∀ a ∈ s, p a = false) : Bare p s where
  head a ha := h a (List.mem_of_mem_head? ha)
  last a ha := h a (List.mem_of_getLast? ha)

lemma bare_of_ends {l m r : List α} (hl : l ≠ []) (hr : r ≠ []) (hleft : ∀ a ∈ l, p a = false)
    (hright : ∀ a ∈ r, p a = false) : Bare p (l ++ (m ++ r)) where
  head a ha := by
    rw [List.head?_append_of_ne_nil _ hl] at ha
    exact hleft a (List.mem_of_mem_head? ha)
  last a ha := by
    rw [← List.append_assoc, List.getLast?_append_of_ne_nil _ hr] at ha
    exact hright a (List.mem_of_getLast? ha)

lemma rdropWhile_append_cons {a : α} (ha : p a = false) (l r : List α) :
    (l ++ a :: r).rdropWhile p = l ++ a :: r.rdropWhile p := by
  induction r using List.reverseRecOn with
  | nil => rw [List.rdropWhile_concat_neg _ _ _ (by simp [ha]), List.rdropWhile_nil]
  | append_singleton r b ih =>
    have hassoc : l ++ a :: (r ++ [b]) = (l ++ a :: r) ++ [b] := by simp
    rw [hassoc]
    cases hb : p b with
    | true => rw [List.rdropWhile_concat_pos _ _ _ hb, List.rdropWhile_concat_pos _ _ _ hb, ih]
    | false =>
      rw [List.rdropWhile_concat_neg _ _ _ (by simp [hb]),
        List.rdropWhile_concat_neg _ _ _ (by simp [hb])]
      simp

lemma dropWhile_append_cons {a : α} (ha : p a = false) (l r : List α) :
    (l ++ a :: r).dropWhile p = l.dropWhile p ++ a :: r := by
  induction l with
  | nil => exact List.dropWhile_cons_of_neg (by simp [ha])
  | cons b l ih =>
    rw [List.cons_append, List.dropWhile_cons, List.dropWhile_cons]
    split_ifs
    · exact ih
    · rfl

lemma strip_append_cons {a : α} (ha : p a = false) (l r : List α) :
    strip p (l ++ a :: r) = l.dropWhile p ++ a :: r.rdropWhile p := by
  rw [strip, dropWhile_append_cons ha, rdropWhile_append_cons ha]

lemma strip_cons_of_neg {a : α} (ha : p a = false) (s : List α) :
    strip p (a :: s) = a :: s.rdropWhile p := by
  rw [strip, List.dropWhile_cons_of_neg (by simp [ha])]
  exact rdropWhile_append_cons ha [] s

lemma strip_cons_of_pos {a : α} (ha : p a = true) (s : List α) : strip p (a :: s) = strip p s := by
  rw [strip, List.dropWhile_cons_of_pos ha, strip]

lemma strip_concat_of_pos {b : α} (hb : p b = true) (s : List α) :
    strip p (s ++ [b]) = strip p s := by
  induction s with
  | nil => rw [List.nil_append, strip_cons_of_pos hb]
  | cons a s ih =>
    rw [List.cons_append]
    cases ha : p a with
    | true => rw [strip_cons_of_pos ha, strip_cons_of_pos ha, ih]
    | false =>
      rw [strip_cons_of_neg ha, strip_cons_of_neg ha, List.rdropWhile_concat_pos _ _ _ hb]

lemma strip_rdropWhile (s : List α) : strip p (s.rdropWhile p) = strip p s := by
  induction s using List.reverseRecOn with
  | nil => rfl
  | append_singleton s b ih =>
    cases hb : p b with
    | true => rw [List.rdropWhile_concat_pos _ _ _ hb, strip_concat_of_pos hb, ih]
    | false => rw [List.rdropWhile_concat_neg _ _ _ (by simp [hb])]

lemma strip_enclosed {a b : α} (ha : p a = true) (hb : p b = true) (s : List α) :
    strip p (a :: (s ++ [b])) = strip p s := by
  rw [strip_cons_of_pos ha, strip_concat_of_pos hb]

lemma dropWhile_eq_self {s : List α} (h : Bare p s) : s.dropWhile p = s := by
  cases s with
  | nil => rfl
  | cons a s => rw [List.dropWhile_cons_of_neg (by simp [h.head a rfl])]

lemma strip_eq_self {s : List α} (h : Bare p s) : strip p s = s := by
  cases s with
  | nil => rfl
  | cons a s =>
    rw [strip, dropWhile_eq_self h, List.rdropWhile_eq_self_iff]
    intro hne
    rw [h.last _ (List.getLast?_eq_some_getLast hne)]
    exact Bool.false_ne_true

lemma bare_strip (s : List α) : Bare p (strip p s) := by
  induction s with
  | nil => exact bare_nil
  | cons a s ih =>
    cases ha : p a with
    | true => rwa [strip_cons_of_pos ha]
    | false =>
      rw [strip_cons_of_neg ha]
      refine ⟨by simpa using ha, ?_⟩
      intro b hb
      rw [← List.nil_append (a :: _), ← rdropWhile_append_cons ha [] s] at hb
      have hne : (([] ++ a :: s).rdropWhile p) ≠ [] := by
        rintro hnil
        rw [hnil] at hb
        cases hb
      rw [Option.mem_def, List.getLast?_eq_some_getLast hne, Option.some.injEq] at hb
      rw [← hb]
      simpa using List.rdropWhile_last_not p _ hne

lemma strip_eq_self_iff {s : List α} : strip p s = s ↔ Bare p s := by
  constructor
  · intro h
    rw [← h]
    exact bare_strip s
  · exact strip_eq_self

lemma strip_subset (s : List α) : strip p s ⊆ s := by
  intro a ha
  exact (List.dropWhile_sublist p).subset ((List.rdropWhile_prefix p _).subset ha)

end Ulpf.Library
