import Mathlib.Data.List.Infix
import Ulpf.Library.Strip

/-!
# Pieces between separators

The pieces of a list between the elements that satisfy `q`, and their stripping. Where no
stripped element is a separator, a list may be stripped before it is cut. A list is also cut at
given positions.
-/

namespace Ulpf.Library

variable {α : Type*} {p q : α → Bool}

lemma splitOnP_append {l : List α} (hl : ∀ a ∈ l, q a = false) (s : List α) :
    (l ++ s).splitOnP q = (s.splitOnP q).modifyHead (l ++ ·) := by
  induction l with
  | nil => exact (congrFun List.modifyHead_id _).symm
  | cons a l ih =>
    rw [List.forall_mem_cons] at hl
    rw [List.cons_append, List.splitOnP_cons_eq_if_modifyHead, hl.1, if_neg Bool.false_ne_true,
      ih hl.2, List.modifyHead_modifyHead]
    rfl

lemma splitOnP_concat {b : α} (hb : q b = false) (s : List α) :
    ∃ pieces last, s.splitOnP q = pieces ++ [last] ∧
      (s ++ [b]).splitOnP q = pieces ++ [last ++ [b]] := by
  induction s with
  | nil => exact ⟨[], [], rfl, List.splitOnP_eq_singleton (by simpa using hb)⟩
  | cons a s ih =>
    obtain ⟨pieces, last, hs, hsb⟩ := ih
    rw [List.cons_append, List.splitOnP_cons_eq_if_modifyHead,
      List.splitOnP_cons_eq_if_modifyHead, hs, hsb]
    cases ha : q a with
    | true => exact ⟨[] :: pieces, last, rfl, rfl⟩
    | false =>
      cases pieces with
      | nil => exact ⟨[], a :: last, rfl, rfl⟩
      | cons piece pieces => exact ⟨(a :: piece) :: pieces, last, rfl, rfl⟩

lemma subset_of_mem_splitOnP {piece s : List α} (h : piece ∈ s.splitOnP q) : piece ⊆ s := by
  induction s generalizing piece with
  | nil =>
    rw [List.splitOnP_nil, List.mem_singleton] at h
    rw [h]
    exact List.nil_subset []
  | cons a s ih =>
    rw [List.splitOnP_cons_eq_if_modifyHead] at h
    split_ifs at h
    · rcases List.mem_cons.mp h with rfl | hmem
      · exact List.nil_subset _
      · exact List.subset_cons_of_subset a (ih hmem)
    · obtain ⟨first, rest, hs⟩ := List.exists_cons_of_ne_nil (List.splitOnP_ne_nil q s)
      rw [hs, List.modifyHead_cons, List.mem_cons] at h
      rw [hs] at ih
      rcases h with rfl | hmem
      · exact List.cons_subset_cons a (ih List.mem_cons_self)
      · exact List.subset_cons_of_subset a (ih (List.mem_cons_of_mem _ hmem))

lemma not_of_mem_piece {piece s : List α} (h : piece ∈ s.splitOnP q) :
    ∀ a ∈ piece, q a = false := by
  induction s generalizing piece with
  | nil =>
    rw [List.splitOnP_nil, List.mem_singleton] at h
    rw [h]
    exact List.forall_mem_nil _
  | cons a s ih =>
    rw [List.splitOnP_cons_eq_if_modifyHead] at h
    split_ifs at h with ha
    · rcases List.mem_cons.mp h with rfl | hmem
      · exact List.forall_mem_nil _
      · exact ih hmem
    · obtain ⟨first, rest, hs⟩ := List.exists_cons_of_ne_nil (List.splitOnP_ne_nil q s)
      rw [hs, List.modifyHead_cons, List.mem_cons] at h
      rw [hs] at ih
      rcases h with rfl | hmem
      · exact List.forall_mem_cons.mpr ⟨by simpa using ha, ih List.mem_cons_self⟩
      · exact ih (List.mem_cons_of_mem _ hmem)

lemma exists_piece_of_infix {l s : List α} (hl : ∀ a ∈ l, q a = false) (h : l <:+: s) :
    ∃ piece ∈ s.splitOnP q, l <:+: piece := by
  obtain ⟨before, after, rfl⟩ := h
  rw [List.append_assoc]
  induction before with
  | nil =>
    obtain ⟨first, rest, hs⟩ := List.exists_cons_of_ne_nil (List.splitOnP_ne_nil q after)
    refine ⟨l ++ first, ?_, List.infix_append' [] l first⟩
    rw [List.nil_append, splitOnP_append hl, hs]
    exact List.mem_cons_self
  | cons a before ih =>
    obtain ⟨piece, hmem, hwithin⟩ := ih
    rw [List.cons_append, List.splitOnP_cons_eq_if_modifyHead]
    split_ifs
    · exact ⟨piece, List.mem_cons_of_mem _ hmem, hwithin⟩
    · obtain ⟨first, rest, hs⟩ :=
        List.exists_cons_of_ne_nil (List.splitOnP_ne_nil q (before ++ (l ++ after)))
      rw [hs] at hmem ⊢
      rcases List.mem_cons.mp hmem with rfl | hrest
      · exact ⟨a :: piece, List.mem_cons_self, List.infix_cons hwithin⟩
      · exact ⟨piece, List.mem_cons_of_mem _ hrest, hwithin⟩

/-! ### Stripped pieces -/

lemma strip_append_bare {m : List α} (hm : Bare p m) (hne : m ≠ []) (l r : List α) :
    strip p (l ++ (m ++ r)) = l.dropWhile p ++ (m ++ r.rdropWhile p) := by
  obtain ⟨a, s, rfl⟩ := List.exists_cons_of_ne_nil hne
  have hlast := hm.last _ (List.getLast?_eq_some_getLast hne)
  have hr : ((a :: s) ++ r).rdropWhile p = (a :: s) ++ r.rdropWhile p := by
    have hcut := List.dropLast_append_getLast hne
    generalize (a :: s).getLast hne = b at hlast hcut
    rw [← hcut, List.append_assoc, List.append_assoc]
    exact rdropWhile_append_cons hlast _ r
  have hhead : p a = false := hm.head a rfl
  rw [strip, List.cons_append, dropWhile_append_cons hhead, rdropWhile_append_cons hhead,
    ← List.nil_append (a :: (s ++ r).rdropWhile p), ← rdropWhile_append_cons hhead [],
    List.nil_append, ← List.cons_append, hr]

lemma infix_strip {m s : List α} (hm : Bare p m) (h : m <:+: s) : m <:+: strip p s := by
  obtain ⟨l, r, rfl⟩ := h
  rcases eq_or_ne m [] with rfl | hne
  · exact List.nil_infix
  · rw [List.append_assoc, strip_append_bare hm hne]
    exact List.infix_append' _ m _

lemma map_strip_splitOnP_cons {a : α} (ha : p a = true) (hq : q a = false) (s : List α) :
    ((a :: s).splitOnP q).map (strip p) = (s.splitOnP q).map (strip p) := by
  rw [List.splitOnP_cons_eq_if_modifyHead, hq, if_neg Bool.false_ne_true]
  cases s.splitOnP q with
  | nil => rfl
  | cons first rest => rw [List.modifyHead_cons, List.map_cons, List.map_cons, strip_cons_of_pos ha]

lemma map_strip_splitOnP_concat {b : α} (hb : p b = true) (hq : q b = false) (s : List α) :
    ((s ++ [b]).splitOnP q).map (strip p) = (s.splitOnP q).map (strip p) := by
  obtain ⟨pieces, last, hs, hsb⟩ := splitOnP_concat hq s
  rw [hs, hsb, List.map_append, List.map_append, List.map_singleton, List.map_singleton,
    strip_concat_of_pos hb]

lemma map_strip_splitOnP_strip (h : ∀ a, p a = true → q a = false) (s : List α) :
    ((strip p s).splitOnP q).map (strip p) = (s.splitOnP q).map (strip p) := by
  have hright : ∀ s : List α,
      ((s.rdropWhile p).splitOnP q).map (strip p) = (s.splitOnP q).map (strip p) := by
    intro s
    induction s using List.reverseRecOn with
    | nil => rfl
    | append_singleton s b ih =>
      cases hb : p b with
      | true =>
        rw [List.rdropWhile_concat_pos _ _ _ hb, ih, map_strip_splitOnP_concat hb (h b hb)]
      | false => rw [List.rdropWhile_concat_neg _ _ _ (by simp [hb])]
  rw [strip, hright]
  induction s with
  | nil => rfl
  | cons a s ih =>
    cases ha : p a with
    | true => rw [List.dropWhile_cons_of_pos ha, ih, map_strip_splitOnP_cons ha (h a ha)]
    | false => rw [List.dropWhile_cons_of_neg (by simp [ha])]

/-! ### Cuts at positions -/

/-- The pieces of `s` before, between and after the positions `ps`. -/
def cutAt (s : List α) (ps : List ℕ) : List (List α) :=
  List.zipWith (fun start stop => (s.take stop).drop start) (0 :: ps.map (· + 1))
    (ps ++ [s.length])

lemma length_cutAt (s : List α) (ps : List ℕ) : (cutAt s ps).length = ps.length + 1 := by
  simp [cutAt]

lemma zipWith_slice_succ (a : α) (s : List α) (starts stops : List ℕ) :
    List.zipWith (fun start stop => ((a :: s).take stop).drop start) (starts.map (· + 1))
        (stops.map (· + 1)) =
      List.zipWith (fun start stop => (s.take stop).drop start) starts stops :=
  List.zipWith_map

lemma map_succ_append_length (a : α) (s : List α) (ps : List ℕ) :
    ps.map (· + 1) ++ [(a :: s).length] = (ps ++ [s.length]).map (· + 1) := by
  rw [List.map_append, List.map_singleton, List.length_cons]

lemma cutAt_cons (a : α) (s : List α) (ps : List ℕ) :
    cutAt (a :: s) (ps.map (· + 1)) = (cutAt s ps).modifyHead (a :: ·) := by
  cases ps with
  | nil => simp [cutAt]
  | cons p ps =>
    rw [cutAt, cutAt, map_succ_append_length, List.cons_append, List.map_cons, List.map_cons,
      List.map_cons, List.zipWith_cons_cons, List.zipWith_cons_cons, List.modifyHead_cons]
    exact congrArg _ (zipWith_slice_succ a s ((p + 1) :: ps.map (· + 1)) (ps ++ [s.length]))

lemma cutAt_cons_zero (a : α) (s : List α) (ps : List ℕ) :
    cutAt (a :: s) (0 :: ps.map (· + 1)) = [] :: cutAt s ps := by
  rw [cutAt, cutAt, List.cons_append, map_succ_append_length, List.map_cons,
    List.zipWith_cons_cons]
  exact congrArg _ (zipWith_slice_succ a s (0 :: ps.map (· + 1)) (ps ++ [s.length]))

end Ulpf.Library
