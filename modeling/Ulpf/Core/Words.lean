import Ulpf.Core.Text
import Ulpf.Library.Pieces

/-!
# Words of a text

`str::split_whitespace` cuts a text into its words, the pieces between whitespace that are not
empty.
-/

namespace Ulpf.Core
open Ulpf.Library

lemma isWhitespace_of_wordChar {c : Char} (h : c.isAlphanum = true ∨ c = '_') :
    isWhitespace c = false ∧ c ≠ '|' ∧ c ≠ '=' := by
  rcases h with h | rfl
  · change (decide (c.val ≥ 65 ∧ c.val ≤ 90) || (decide (c.val ≥ 97) && decide (c.val ≤ 122)) ||
      (decide (c.val ≥ 48) && decide (c.val ≤ 57))) = true at h
    simp only [Bool.or_eq_true, Bool.and_eq_true, decide_eq_true_eq, UInt32.le_iff_toNat_le,
      ge_iff_le] at h
    change ((65 ≤ c.toNat ∧ c.toNat ≤ 90) ∨ (97 ≤ c.toNat ∧ c.toNat ≤ 122)) ∨
      (48 ≤ c.toNat ∧ c.toNat ≤ 57) at h
    refine ⟨?_, ?_, ?_⟩
    · unfold isWhitespace
      simp only [Bool.or_eq_false_iff, Bool.and_eq_false_iff, decide_eq_false_iff_not,
        beq_eq_false_iff_ne]
      omega
    · rintro rfl
      revert h
      decide
    · rintro rfl
      revert h
      decide
  · decide

lemma isWhitespace_of_isDigit {c : Char} (h : c.isDigit = true) : isWhitespace c = false :=
  (isWhitespace_of_wordChar (Or.inl (by simp [Char.isAlphanum, h]))).1

lemma splitWhitespace_append_cons (s t : Text) {c : Char} (hc : isWhitespace c = true) :
    splitWhitespace (s ++ c :: t) = splitWhitespace s ++ splitWhitespace t := by
  rw [splitWhitespace, List.splitOnP_append_cons s t hc, List.filter_append]
  rfl

lemma splitWhitespace_blank_append {b : Text} (hb : ∀ c ∈ b, isWhitespace c = true) (s : Text) :
    splitWhitespace (b ++ s) = splitWhitespace s := by
  induction b with
  | nil => rfl
  | cons c b ih =>
    rw [List.forall_mem_cons] at hb
    have hcons := splitWhitespace_append_cons [] (b ++ s) hb.1
    rw [List.nil_append] at hcons
    rw [List.cons_append, hcons, ih hb.2]
    rfl

lemma splitWhitespace_word {w : Text} (h : ∀ c ∈ w, isWhitespace c = false) (hne : w ≠ []) :
    splitWhitespace w = [w] := by
  rw [splitWhitespace, List.splitOnP_eq_singleton h, List.filter_singleton]
  simp [hne]

lemma splitWhitespace_word_append {w rest : Text} (h : ∀ c ∈ w, isWhitespace c = false)
    (hne : w ≠ []) (hrest : ∀ c ∈ rest.head?, isWhitespace c = true) :
    splitWhitespace (w ++ rest) = w :: splitWhitespace rest := by
  cases rest with
  | nil =>
    rw [List.append_nil, splitWhitespace_word h hne]
    rfl
  | cons c rest =>
    have hc := hrest c rfl
    have hcons := splitWhitespace_append_cons [] rest hc
    rw [List.nil_append] at hcons
    rw [splitWhitespace_append_cons w rest hc, splitWhitespace_word h hne, hcons]
    rfl

lemma isWhitespace_of_splitWhitespace_nil {s : Text} (h : splitWhitespace s = []) :
    ∀ c ∈ s, isWhitespace c = true := by
  induction s with
  | nil => exact List.forall_mem_nil _
  | cons c s ih =>
    cases hc : isWhitespace c with
    | true =>
      have hcons := splitWhitespace_append_cons [] s hc
      rw [List.nil_append, h] at hcons
      exact List.forall_mem_cons.mpr ⟨hc, ih (List.append_eq_nil_iff.mp hcons.symm).2⟩
    | false =>
      obtain ⟨word, words, hs⟩ := List.exists_cons_of_ne_nil (List.splitOnP_ne_nil isWhitespace s)
      rw [splitWhitespace, List.splitOnP_cons_eq_if_modifyHead, hc, if_neg Bool.false_ne_true, hs,
        List.modifyHead_cons, List.filter_cons_of_pos (by simp)] at h
      cases h

lemma eq_of_splitWhitespace_singleton {s w : Text} (hbare : Bare isWhitespace s)
    (h : splitWhitespace s = [w]) : s = w := by
  have hsplit := List.takeWhile_append_dropWhile (p := fun c => !isWhitespace c) (l := s)
  have hsolid : ∀ c ∈ s.takeWhile (fun c => !isWhitespace c), isWhitespace c = false := by
    intro c hc
    simpa using List.mem_takeWhile_imp hc
  have hhead : ∀ c ∈ (s.dropWhile (fun c => !isWhitespace c)).head?, isWhitespace c = true := by
    intro c hc
    have hnot := List.head?_dropWhile_not (fun c => !isWhitespace c) s
    rw [Option.mem_def.mp hc] at hnot
    simpa using hnot
  have hne : s.takeWhile (fun c => !isWhitespace c) ≠ [] := by
    cases s with
    | nil => cases h
    | cons c s =>
      rw [List.takeWhile_cons_of_pos (by simp [hbare.head c rfl])]
      exact List.cons_ne_nil _ _
  rw [← hsplit, splitWhitespace_word_append hsolid hne hhead, List.cons.injEq] at h
  obtain ⟨hword, hrest⟩ := h
  have hblank := isWhitespace_of_splitWhitespace_nil hrest
  rcases List.eq_nil_or_concat' (s.dropWhile fun c => !isWhitespace c) with hnil | ⟨init, c, hlast⟩
  · rw [← hsplit, hnil, List.append_nil, hword]
  · have hc := hblank c (by rw [hlast]; simp)
    have hend : c ∈ s.getLast? := by
      rw [← hsplit, hlast, ← List.append_assoc, List.getLast?_concat]
      rfl
    rw [hbare.last c hend] at hc
    cases hc

lemma solid_of_mem_splitWhitespace {w s : Text} (h : w ∈ splitWhitespace s) :
    w ≠ [] ∧ ∀ c ∈ w, isWhitespace c = false := by
  obtain ⟨hmem, hne⟩ := List.mem_filter.mp h
  exact ⟨by simpa using hne, not_of_mem_piece hmem⟩

lemma subset_of_mem_splitWhitespace {w s : Text} (h : w ∈ splitWhitespace s) : w ⊆ s :=
  subset_of_mem_splitOnP (List.mem_of_mem_filter h)

lemma splitWhitespace_trim (s : Text) : splitWhitespace (trim s) = splitWhitespace s := by
  have hnil : splitWhitespace [] = [] := rfl
  have hright : ∀ s : Text, splitWhitespace (s.rdropWhile isWhitespace) = splitWhitespace s := by
    intro s
    induction s using List.reverseRecOn with
    | nil => rfl
    | append_singleton s c ih =>
      cases hc : isWhitespace c with
      | true =>
        rw [List.rdropWhile_concat_pos _ _ _ hc, ih, splitWhitespace_append_cons s [] hc, hnil,
          List.append_nil]
      | false => rw [List.rdropWhile_concat_neg _ _ _ (by simp [hc])]
  have hleft : splitWhitespace (s.dropWhile isWhitespace) = splitWhitespace s := by
    conv_rhs => rw [← List.takeWhile_append_dropWhile (p := isWhitespace) (l := s)]
    exact (splitWhitespace_blank_append (fun _ hc => List.mem_takeWhile_imp hc) _).symm
  exact (hright _).trans hleft

lemma contains_eq_true_iff {s : Text} {pat : String} :
    contains s pat = true ↔ pat.toList <:+: s := by
  unfold contains
  induction s with
  | nil =>
    unfold findFrom
    simp
  | cons c s ih =>
    unfold findFrom
    rw [List.infix_cons_iff, ← ih]
    split_ifs with hpat
    · simp [List.isPrefixOf_iff_prefix.mp hpat]
    · simp [mt List.isPrefixOf_iff_prefix.mpr hpat]

end Ulpf.Core
