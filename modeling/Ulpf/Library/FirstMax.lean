import Mathlib.Data.List.Induction
import Mathlib.Order.MinMax

/-!
# First maximum above a threshold

A loop over candidates that keeps the first one of maximal score, provided the score is good
enough. The loop only moves to a strictly higher score, and remembers a candidate only when
its score is good.
-/

namespace Ulpf.Library

variable {α R : Type*} [LinearOrder R] [Zero R] (score : α → R) (good : R → Bool)

def takeBetter (acc : Option α × R) (a : α) : Option α × R :=
  if acc.2 < score a then (if good (score a) then some a else acc.1, score a) else acc

def best (l : List α) : Option α × R := l.foldl (takeBetter score good) (none, 0)

lemma best_concat (l : List α) (a : α) :
    best score good (l ++ [a]) = takeBetter score good (best score good l) a := by
  rw [best, List.foldl_append]
  rfl

lemma best_concat_snd (l : List α) (a : α) :
    (best score good (l ++ [a])).2 = max (best score good l).2 (score a) := by
  rw [best_concat, takeBetter]
  by_cases h : (best score good l).2 < score a
  · rw [if_pos h, max_eq_right h.le]
  · rw [if_neg h, max_eq_left (not_lt.mp h)]

lemma best_nonneg (l : List α) : 0 ≤ (best score good l).2 := by
  induction l using List.reverseRecOn with
  | nil => exact le_rfl
  | append_singleton l a ih =>
    rw [best_concat_snd]
    exact ih.trans (le_max_left _ _)

lemma le_best {l : List α} {a : α} (ha : a ∈ l) : score a ≤ (best score good l).2 := by
  induction l using List.reverseRecOn with
  | nil => cases ha
  | append_singleton l b ih =>
    rw [best_concat_snd]
    rcases List.mem_append.mp ha with hold | hlast
    · exact (ih hold).trans (le_max_left _ _)
    · rw [List.mem_singleton.mp hlast]
      exact le_max_right _ _

lemma best_attained (l : List α) :
    (best score good l).2 = 0 ∨ ∃ a ∈ l, score a = (best score good l).2 := by
  induction l using List.reverseRecOn with
  | nil => exact Or.inl rfl
  | append_singleton l a ih =>
    rw [best_concat_snd]
    rcases max_choice (best score good l).2 (score a) with h | h
    · rw [h]
      apply ih.imp_right
      rintro ⟨b, hb, heq⟩
      exact ⟨b, List.mem_append_left _ hb, heq⟩
    · exact Or.inr ⟨a, by simp, h.symm⟩

lemma best_lt {l : List α} {x : R} (hx : 0 < x) (h : ∀ a ∈ l, score a < x) :
    (best score good l).2 < x := by
  rcases best_attained score good l with hzero | ⟨a, ha, heq⟩
  · rwa [hzero]
  · rw [← heq]
    exact h a ha

/-- `c` is the first element of `l` of maximal score, and its score is positive and good. -/
def IsFirstMax (l : List α) (c : α) : Prop :=
  0 < score c ∧ good (score c) = true ∧
    ∃ before after, l = before ++ c :: after ∧ (∀ a ∈ before, score a < score c) ∧
      ∀ a ∈ after, score a ≤ score c

variable {score good}

lemma IsFirstMax.mem {l : List α} {c : α} (h : IsFirstMax score good l c) : c ∈ l := by
  obtain ⟨-, -, before, after, rfl, -, -⟩ := h
  simp

lemma IsFirstMax.le {l : List α} {c a : α} (h : IsFirstMax score good l c) (ha : a ∈ l) :
    score a ≤ score c := by
  obtain ⟨-, -, before, after, rfl, hbefore, hafter⟩ := h
  rcases List.mem_append.mp ha with hin | hin
  · exact (hbefore a hin).le
  · rcases List.mem_cons.mp hin with rfl | hin
    · exact le_rfl
    · exact hafter a hin

lemma IsFirstMax.best_le {l : List α} {c : α} (h : IsFirstMax score good l c) :
    (best score good l).2 ≤ score c := by
  rcases best_attained score good l with hzero | ⟨a, ha, heq⟩
  · rw [hzero]
    exact h.1.le
  · rw [← heq]
    exact h.le ha

lemma isFirstMax_concat_iff {l : List α} {a c : α} :
    IsFirstMax score good (l ++ [a]) c ↔
      (IsFirstMax score good l c ∧ score a ≤ score c) ∨
        (c = a ∧ 0 < score a ∧ good (score a) = true ∧ ∀ b ∈ l, score b < score a) := by
  constructor
  · rintro ⟨hpos, hgood, before, after, hsplit, hbefore, hafter⟩
    rcases List.eq_nil_or_concat after with rfl | ⟨after', b, rfl⟩
    · obtain ⟨rfl, hlast⟩ := List.append_inj' hsplit rfl
      obtain rfl : a = c := by simpa using hlast
      exact Or.inr ⟨rfl, hpos, hgood, hbefore⟩
    · rw [List.concat_eq_append, ← List.cons_append, ← List.append_assoc] at hsplit
      obtain ⟨rfl, hlast⟩ := List.append_inj' hsplit rfl
      obtain rfl : a = b := by simpa using hlast
      refine Or.inl ⟨⟨hpos, hgood, before, after', rfl, hbefore, ?_⟩, hafter a (by simp)⟩
      intro b hb
      exact hafter b (by simp [hb])
  · rintro (⟨⟨hpos, hgood, before, after, rfl, hbefore, hafter⟩, hle⟩ | ⟨rfl, hpos, hgood, hlt⟩)
    · refine ⟨hpos, hgood, before, after ++ [a], by simp, hbefore, ?_⟩
      intro b hb
      rcases List.mem_append.mp hb with hb | hb
      · exact hafter b hb
      · rw [List.mem_singleton.mp hb]
        exact hle
    · exact ⟨hpos, hgood, l, [], rfl, hlt, by simp⟩

/-- The loop ends with a candidate exactly when it is the first good maximum. -/
theorem best_fst_eq_some_iff (hmono : ∀ x y, x ≤ y → good x = true → good y = true) (l : List α)
    (c : α) : (best score good l).1 = some c ↔ IsFirstMax score good l c := by
  induction l using List.reverseRecOn with
  | nil =>
    constructor
    · intro h
      cases h
    · intro h
      cases h.mem
  | append_singleton l a ih =>
    rw [best_concat, takeBetter, isFirstMax_concat_iff]
    split_ifs with hlt hgood
    · have hbelow : ∀ b ∈ l, score b < score a := fun b hb => (le_best score good hb).trans_lt hlt
      constructor
      · intro h
        cases h
        exact Or.inr ⟨rfl, (best_nonneg score good l).trans_lt hlt, hgood, hbelow⟩
      · rintro (⟨hmax, hle⟩ | ⟨rfl, -⟩)
        · exact absurd (hbelow c hmax.mem) (not_lt.mpr hle)
        · rfl
    · rw [ih]
      constructor
      · intro hmax
        have hle := (le_best score good hmax.mem).trans hlt.le
        exact absurd (hmono _ _ hle hmax.2.1) hgood
      · rintro (⟨hmax, -⟩ | ⟨rfl, -, hgood', -⟩)
        · exact hmax
        · exact absurd hgood' hgood
    · rw [ih]
      constructor
      · intro hmax
        exact Or.inl ⟨hmax, (not_lt.mp hlt).trans hmax.best_le⟩
      · rintro (⟨hmax, -⟩ | ⟨rfl, hpos, -, hbelow⟩)
        · exact hmax
        · exact absurd (best_lt score good hpos hbelow) hlt

/-- It ends without one exactly when no candidate is good enough. -/
theorem best_fst_eq_none_iff (hmono : ∀ x y, x ≤ y → good x = true → good y = true) (l : List α) :
    (best score good l).1 = none ↔ ∀ a ∈ l, 0 < score a → good (score a) = false := by
  induction l using List.reverseRecOn with
  | nil => exact iff_of_true rfl (by simp)
  | append_singleton l a ih =>
    rw [best_concat, takeBetter, List.forall_mem_append, List.forall_mem_singleton]
    split_ifs with hlt hgood
    · have hpos := (best_nonneg score good l).trans_lt hlt
      simp [hpos, hgood]
    · simp [ih, hgood]
    · rw [ih]
      constructor
      · intro h
        refine ⟨h, ?_⟩
        intro hpos
        rw [Bool.eq_false_iff]
        intro hgood
        have hle := not_lt.mp hlt
        rcases best_attained score good l with hzero | ⟨b, hb, heq⟩
        · exact absurd (hzero ▸ hle) (not_le.mpr hpos)
        · have hgood' := hmono _ _ (heq ▸ hle) hgood
          rw [h b hb (hpos.trans_le (heq ▸ hle))] at hgood'
          cases hgood'
      · exact fun h => h.1

end Ulpf.Library
