import Mathlib.Data.List.Infix

/-!
# Texts with parts replaced

Parts of a list are replaced by fillers, each of which starts and ends with a mark. A list without
marks that is found afterwards, and is not in a filler, was there before.
-/

namespace Ulpf.Library

variable {α : Type*}

/-- Parts of the first list are replaced in the second one. -/
inductive Filled (filler : List α → Prop) : List α → List α → Prop
  | nil : Filled filler [] []
  | keep (x : α) {s t : List α} : Filled filler s t → Filled filler (x :: s) (x :: t)
  | fill (part : List α) {f s t : List α} :
      filler f → Filled filler s t → Filled filler (part ++ s) (f ++ t)

/-- A filler consists of elements of one kind, with a mark on either side. -/
structure Sealed (mark inside : α → Bool) (f : List α) : Prop where
  first : ∃ x rest, f = x :: rest ∧ mark x = true
  last : ∃ init x, f = init ++ [x] ∧ mark x = true
  inside : ∀ x ∈ f, inside x = true

/-- The list has no marks and is not in a filler. -/
structure Traceable (mark inside : α → Bool) (w : List α) : Prop where
  unmarked : ∀ x ∈ w, mark x = false
  outside : ∃ x ∈ w, inside x = false

lemma found_beside_mark {init s w : List α} {x : α} (hx : x ∉ w)
    (h : w <:+: init ++ x :: s) : w <:+: init ∨ w <:+: s := by
  induction init with
  | nil =>
    rcases List.infix_cons_iff.mp h with hstart | hfound
    · cases w with
      | nil => exact Or.inl List.nil_infix
      | cons y w =>
        obtain rfl := (List.cons_prefix_cons.mp hstart).1
        exact absurd List.mem_cons_self hx
    · exact Or.inr hfound
  | cons y init ih =>
    rcases List.infix_cons_iff.mp h with hstart | hfound
    · left
      apply List.IsPrefix.isInfix
      rcases List.prefix_or_prefix_of_prefix hstart
          (List.prefix_append (y :: init) (x :: s)) with hshort | hlong
      · exact hshort
      · obtain ⟨rest, rfl⟩ := hlong
        have hrest : rest <+: x :: s := (List.prefix_append_right_inj (y :: init)).mp hstart
        cases rest with
        | nil => rw [List.append_nil]
        | cons z rest =>
          obtain rfl := (List.cons_prefix_cons.mp hrest).1
          exact absurd (List.mem_append_right _ List.mem_cons_self) hx
    · exact (ih hfound).imp_left List.infix_cons

namespace Filled

variable {filler : List α → Prop} {s t : List α}

lemma refl (s : List α) : Filled filler s s := by
  induction s with
  | nil => exact .nil
  | cons x s ih => exact .keep x ih

variable {mark inside : α → Bool} (hfiller : ∀ f, filler f → Sealed mark inside f)
include hfiller

lemma start_of_start (h : Filled filler s t) {w : List α} (hw : ∀ x ∈ w, mark x = false)
    (hstart : w <+: t) : w <+: s := by
  induction h generalizing w with
  | nil => exact hstart
  | keep x _ ih =>
    cases w with
    | nil => exact List.nil_prefix
    | cons y w =>
      rw [List.cons_prefix_cons] at hstart ⊢
      exact ⟨hstart.1, ih (fun z hz => hw z (List.mem_cons_of_mem y hz)) hstart.2⟩
  | fill part hf _ _ =>
    cases w with
    | nil => exact List.nil_prefix
    | cons y w =>
      obtain ⟨x, rest, rfl, hx⟩ := (hfiller _ hf).first
      rw [List.cons_append, List.cons_prefix_cons] at hstart
      rw [← hstart.1, hw y List.mem_cons_self] at hx
      cases hx

/-- What is found after the replacement was there before. -/
theorem trace (h : Filled filler s t) {w : List α} (hw : Traceable mark inside w)
    (hfound : w <:+: t) : w <:+: s := by
  induction h with
  | nil => exact hfound
  | keep x hfilled ih =>
    rcases List.infix_cons_iff.mp hfound with hstart | hrest
    · exact (start_of_start hfiller (.keep x hfilled) hw.unmarked hstart).isInfix
    · exact List.infix_cons (ih hrest)
  | fill part hf _ ih =>
    have hsealed := hfiller _ hf
    obtain ⟨init, x, rfl, hx⟩ := hsealed.last
    rw [List.append_assoc, List.singleton_append] at hfound
    have hmem : x ∉ w := by
      intro hmem
      rw [hw.unmarked x hmem] at hx
      cases hx
    rcases found_beside_mark hmem hfound with hin | hrest
    · obtain ⟨y, hy, hout⟩ := hw.outside
      rw [hsealed.inside y (List.mem_append_left _ (hin.subset hy))] at hout
      cases hout
    · exact (ih hrest).trans (List.suffix_append _ _).isInfix

end Filled

end Ulpf.Library
