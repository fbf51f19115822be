import Mathlib.Data.List.Pairwise
import Mathlib.Data.List.Perm.Basic
import Mathlib.Data.List.Sort
import Mathlib.Order.Basic

/-!
# Stable sorting by a score

A stable sort by descending score forgets the order of its input exactly if no two items have
the same score: items of one score keep their order.
-/

namespace Ulpf.Library

variable {α β K : Type*} [LinearOrder K]

/-- The items by descending score; equal ones keep their order. -/
def sortByScore (score : β → K) (l : List β) : List β :=
  l.insertionSort fun a b => score b ≤ score a

variable (score : β → K)

lemma perm_sortByScore (l : List β) : (sortByScore score l).Perm l := List.perm_insertionSort _ l

lemma pairwise_sortByScore (l : List β) :
    (sortByScore score l).Pairwise fun a b => score b ≤ score a := by
  have htotal : Std.Total fun a b : β => score b ≤ score a :=
    ⟨fun a b => le_total (score b) (score a)⟩
  have htrans : IsTrans β fun a b => score b ≤ score a := ⟨fun a b c hab hbc => hbc.trans hab⟩
  exact List.pairwise_insertionSort _ _

lemma sortByScore_eq_self {l : List β} (h : l.Pairwise fun a b => score b ≤ score a) :
    sortByScore score l = l := h.insertionSort_eq

lemma pair_sublist_sortByScore {l : List β} {a b : β} (htie : score a = score b)
    (h : [a, b].Sublist l) : [a, b].Sublist (sortByScore score l) :=
  List.pair_sublist_insertionSort htie.ge h

lemma sortByScore_eq_of_perm {l l' : List β} (hperm : l.Perm l')
    (hties : ∀ a ∈ l, ∀ b ∈ l, score a = score b → a = b) :
    sortByScore score l = sortByScore score l' := by
  refine @List.Perm.eq_of_pairwise _ (fun a b => score b ≤ score a) _ _ ?_ ?_ ?_ ?_
  · intro a b ha hb hab hba
    have ha' := (perm_sortByScore score l).mem_iff.mp ha
    have hb' := hperm.mem_iff.mpr ((perm_sortByScore score l').mem_iff.mp hb)
    exact hties a ha' b hb' (le_antisymm hba hab)
  · exact pairwise_sortByScore score l
  · exact pairwise_sortByScore score l'
  · exact ((perm_sortByScore score l).trans hperm).trans (perm_sortByScore score l').symm

lemma not_sublist_swap {l : List β} (hnodup : l.Nodup) {a b : β} (hne : a ≠ b)
    (h : [a, b].Sublist l) : ¬[b, a].Sublist l := by
  induction l with
  | nil => cases h
  | cons c l ih =>
    obtain ⟨hc, hl⟩ := List.nodup_cons.mp hnodup
    intro hswap
    cases h with
    | cons _ h =>
      cases hswap with
      | cons _ hswap => exact ih hl h hswap
      | cons_cons _ hswap => exact hc (h.subset (List.mem_cons_of_mem a List.mem_cons_self))
    | cons_cons _ h =>
      cases hswap with
      | cons _ hswap => exact hc (hswap.subset (List.mem_cons_of_mem b List.mem_cons_self))
      | cons_cons _ hswap => exact hne rfl

variable {score}

/-- Sorting forgets the order of its input exactly if all scores are distinct. -/
theorem sortByScore_perm_invariant_iff {g : α → β} {l : List α} (hnodup : (l.map g).Nodup) :
    (∀ l₁ l₂ : List α, l₁.Perm l → l₂.Perm l →
      sortByScore score (l₁.map g) = sortByScore score (l₂.map g)) ↔
      l.Pairwise fun a b => score (g a) ≠ score (g b) := by
  constructor
  · intro h
    rw [List.pairwise_iff_forall_sublist]
    intro a b hab htie
    have hne : g a ≠ g b := by
      have hpair : [g a, g b].Nodup := hnodup.sublist (hab.map g)
      simpa using hpair
    obtain ⟨rest, hrest⟩ := List.Sublist.exists_perm_append hab
    have hswap : (b :: a :: rest).Perm l := (List.Perm.swap a b rest).trans hrest.symm
    have hfirst := pair_sublist_sortByScore score htie
      (List.sublist_append_left [g a, g b] (rest.map g))
    have hsecond := pair_sublist_sortByScore score htie.symm
      (List.sublist_append_left [g b, g a] (rest.map g))
    have hsame : sortByScore score ((a :: b :: rest).map g) =
        sortByScore score ((b :: a :: rest).map g) := h _ _ hrest.symm hswap
    simp only [List.map_cons] at hsame
    simp only [List.cons_append, List.nil_append, hsame] at hfirst hsecond
    refine not_sublist_swap ?_ hne hfirst hsecond
    exact ((perm_sortByScore score _).trans (hswap.map g)).nodup_iff.mpr hnodup
  · intro h l₁ l₂ h₁ h₂
    apply sortByScore_eq_of_perm
    · exact (h₁.trans h₂.symm).map g
    · intro x hx y hy htie
      obtain ⟨a, ha, rfl⟩ := List.mem_map.mp hx
      obtain ⟨b, hb, rfl⟩ := List.mem_map.mp hy
      by_contra hne
      have hab : a ≠ b := fun heq => hne (congrArg g heq)
      have hsymm : Std.Symm fun a b : α => score (g a) ≠ score (g b) := ⟨fun a b hne => hne.symm⟩
      exact h.forall (h₁.mem_iff.mp ha) (h₁.mem_iff.mp hb) hab htie

end Ulpf.Library
