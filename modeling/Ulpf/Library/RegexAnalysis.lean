import Ulpf.Library.Regex

/-!
# What the texts of an expression look like

Sound syntactic tests: whether an expression may read the empty text, whether its texts start
or end with an element of some kind, consist of such elements, or contain one. `sure a` says
that the atom accepts elements of the kind only.
-/

namespace Ulpf.Library.Regex

variable {α A : Type} {accepts : A → α → Bool}

def nullable : Regex α A → Bool
  | empty => true
  | one _ => false
  | literal s => s.isEmpty
  | start => true
  | stop => true
  | boundary => true
  | seq r r' => nullable r && nullable r'
  | alt r r' => nullable r || nullable r'
  | group r => nullable r
  | capture _ _ r => nullable r
  | rep r min _ _ => min == 0 || nullable r

section Kind

variable (sure : A → Bool) (p : α → Bool)

/-- All elements are of the kind. -/
def allIn : Regex α A → Bool
  | empty => true
  | one a => sure a
  | literal s => s.all p
  | start => true
  | stop => true
  | boundary => true
  | seq r r' => allIn r && allIn r'
  | alt r r' => allIn r && allIn r'
  | group r => allIn r
  | capture _ _ r => allIn r
  | rep r _ _ _ => allIn r

/-- The first element, if there is one, is of the kind. -/
def firstIn : Regex α A → Bool
  | empty => true
  | one a => sure a
  | literal s => s.head?.all p
  | start => true
  | stop => true
  | boundary => true
  | seq r r' => firstIn r && (!nullable r || firstIn r')
  | alt r r' => firstIn r && firstIn r'
  | group r => firstIn r
  | capture _ _ r => firstIn r
  | rep r _ _ _ => firstIn r

/-- The last element, if there is one, is of the kind. -/
def lastIn : Regex α A → Bool
  | empty => true
  | one a => sure a
  | literal s => s.getLast?.all p
  | start => true
  | stop => true
  | boundary => true
  | seq r r' => lastIn r' && (!nullable r' || lastIn r)
  | alt r r' => lastIn r && lastIn r'
  | group r => lastIn r
  | capture _ _ r => lastIn r
  | rep r _ _ _ => lastIn r

/-- Some element is of the kind. -/
def needs : Regex α A → Bool
  | empty => false
  | one a => sure a
  | literal s => s.any p
  | start => false
  | stop => false
  | boundary => false
  | seq r r' => needs r || needs r'
  | alt r r' => needs r && needs r'
  | group r => needs r
  | capture _ _ r => needs r
  | rep r min _ _ => min != 0 && needs r

end Kind

/-- The length of the shortest text. -/
def minLength : Regex α A → ℕ
  | empty => 0
  | one _ => 1
  | literal s => s.length
  | start => 0
  | stop => 0
  | boundary => 0
  | seq r r' => minLength r + minLength r'
  | alt r r' => min (minLength r) (minLength r')
  | group r => minLength r
  | capture _ _ r => minLength r
  | rep r n _ _ => n * minLength r

/-! ### Soundness -/

lemma minLength_le {r : Regex α A} {m : List α} (h : Lang accepts r m) :
    minLength r ≤ m.length := by
  induction r generalizing m with
  | empty => exact Nat.zero_le _
  | one a =>
    obtain ⟨x, rfl, -⟩ := h
    exact Nat.le_refl 1
  | literal s =>
    rw [show m = s from h]
    exact Nat.le_refl _
  | start => exact Nat.zero_le _
  | stop => exact Nat.zero_le _
  | boundary => exact Nat.zero_le _
  | seq r r' ih ih' =>
    obtain ⟨m₁, m₂, rfl, h₁, h₂⟩ := h
    rw [minLength, List.length_append]
    exact Nat.add_le_add (ih h₁) (ih' h₂)
  | alt r r' ih ih' =>
    rcases h with hleft | hright
    · exact Nat.le_trans (Nat.min_le_left _ _) (ih hleft)
    · exact Nat.le_trans (Nat.min_le_right _ _) (ih' hright)
  | group r ih => exact ih h
  | capture label named r ih => exact ih h
  | rep r n extra lazily ih =>
    obtain ⟨parts, rfl, hparts, hmin, -⟩ := h
    have hflatten : parts.length * minLength r ≤ parts.flatten.length := by
      clear hmin
      induction parts with
      | nil => rw [List.length_nil, Nat.zero_mul]; exact Nat.zero_le _
      | cons part parts ihp =>
        rw [List.forall_mem_cons] at hparts
        rw [List.length_cons, Nat.succ_mul, List.flatten_cons, List.length_append, Nat.add_comm]
        exact Nat.add_le_add (ih hparts.1) (ihp hparts.2)
    exact Nat.le_trans (Nat.mul_le_mul_right _ hmin) hflatten

lemma nullable_of_lang {r : Regex α A} (h : Lang accepts r []) : nullable r = true := by
  induction r with
  | empty => rfl
  | one a =>
    obtain ⟨x, hx, -⟩ := h
    cases hx
  | literal s =>
    rw [nullable, List.isEmpty_iff]
    exact h.symm
  | start => rfl
  | stop => rfl
  | boundary => rfl
  | seq r r' ih ih' =>
    obtain ⟨m, n, hsplit, hm, hn⟩ := h
    obtain ⟨rfl, rfl⟩ := List.append_eq_nil_iff.mp hsplit.symm
    rw [nullable, ih hm, ih' hn, Bool.and_self]
  | alt r r' ih ih' =>
    rw [nullable, Bool.or_eq_true]
    exact h.imp ih ih'
  | group r ih => exact ih h
  | capture label named r ih => exact ih h
  | rep r min extra lazily ih =>
    obtain ⟨parts, hsplit, hparts, hmin, -⟩ := h
    rw [nullable, Bool.or_eq_true, beq_iff_eq]
    cases parts with
    | nil => exact Or.inl (Nat.le_zero.mp hmin)
    | cons m parts =>
      have hm : m = [] := (List.append_eq_nil_iff.mp hsplit.symm).1
      subst hm
      exact Or.inr (ih (hparts [] List.mem_cons_self))

section Soundness

variable {sure : A → Bool} {p : α → Bool}
  (hsure : ∀ a x, sure a = true → accepts a x = true → p x = true)
include hsure

lemma forall_of_allIn {r : Regex α A} (hr : allIn sure p r = true) {m : List α}
    (h : Lang accepts r m) : ∀ x ∈ m, p x = true := by
  induction r generalizing m with
  | empty =>
    rw [show m = [] from h]
    exact List.forall_mem_nil _
  | one a =>
    obtain ⟨x, rfl, hx⟩ := h
    simpa using hsure a x hr hx
  | literal s =>
    rw [show m = s from h]
    exact List.all_eq_true.mp hr
  | start =>
    rw [show m = [] from h]
    exact List.forall_mem_nil _
  | stop =>
    rw [show m = [] from h]
    exact List.forall_mem_nil _
  | boundary =>
    rw [show m = [] from h]
    exact List.forall_mem_nil _
  | seq r r' ih ih' =>
    obtain ⟨m₁, m₂, rfl, h₁, h₂⟩ := h
    rw [allIn, Bool.and_eq_true] at hr
    rw [List.forall_mem_append]
    exact ⟨ih hr.1 h₁, ih' hr.2 h₂⟩
  | alt r r' ih ih' =>
    rw [allIn, Bool.and_eq_true] at hr
    rcases h with hleft | hright
    · exact ih hr.1 hleft
    · exact ih' hr.2 hright
  | group r ih => exact ih hr h
  | capture label named r ih => exact ih hr h
  | rep r min extra lazily ih =>
    obtain ⟨parts, rfl, hparts, -⟩ := h
    intro x hx
    obtain ⟨part, hpart, hmem⟩ := List.mem_flatten.mp hx
    exact ih hr (hparts part hpart) x hmem

omit hsure in
lemma head?_flatten {parts : List (List α)} (h : ∀ part ∈ parts, ∀ x ∈ part.head?, p x = true) :
    ∀ x ∈ parts.flatten.head?, p x = true := by
  induction parts with
  | nil =>
    intro x hx
    cases hx
  | cons part parts ih =>
    rw [List.forall_mem_cons] at h
    cases part with
    | nil => exact ih h.2
    | cons y part => exact h.1

lemma head?_of_firstIn {r : Regex α A} (hr : firstIn sure p r = true) {m : List α}
    (h : Lang accepts r m) : ∀ x ∈ m.head?, p x = true := by
  have hnil : ∀ x ∈ ([] : List α).head?, p x = true := by
    intro x hx
    cases hx
  induction r generalizing m with
  | empty =>
    rw [show m = [] from h]
    exact hnil
  | one a =>
    obtain ⟨x, rfl, hx⟩ := h
    simpa using hsure a x hr hx
  | literal s =>
    rw [show m = s from h]
    simpa [firstIn, Option.all_eq_true] using hr
  | start =>
    rw [show m = [] from h]
    exact hnil
  | stop =>
    rw [show m = [] from h]
    exact hnil
  | boundary =>
    rw [show m = [] from h]
    exact hnil
  | seq r r' ih ih' =>
    obtain ⟨m₁, m₂, rfl, h₁, h₂⟩ := h
    rw [firstIn, Bool.and_eq_true, Bool.or_eq_true, Bool.not_eq_true'] at hr
    cases m₁ with
    | nil =>
      rcases hr.2 with hsolid | hfirst
      · rw [nullable_of_lang h₁] at hsolid
        cases hsolid
      · exact ih' hfirst h₂
    | cons x m₁ =>
      have hx := ih hr.1 h₁
      exact hx
  | alt r r' ih ih' =>
    rw [firstIn, Bool.and_eq_true] at hr
    rcases h with hleft | hright
    · exact ih hr.1 hleft
    · exact ih' hr.2 hright
  | group r ih => exact ih hr h
  | capture label named r ih => exact ih hr h
  | rep r min extra lazily ih =>
    obtain ⟨parts, rfl, hparts, -⟩ := h
    exact head?_flatten fun part hpart => ih hr (hparts part hpart)

lemma getLast?_of_lastIn {r : Regex α A} (hr : lastIn sure p r = true) {m : List α}
    (h : Lang accepts r m) : ∀ x ∈ m.getLast?, p x = true := by
  have hnil : ∀ x ∈ ([] : List α).getLast?, p x = true := by
    intro x hx
    cases hx
  induction r generalizing m with
  | empty =>
    rw [show m = [] from h]
    exact hnil
  | one a =>
    obtain ⟨x, rfl, hx⟩ := h
    simpa using hsure a x hr hx
  | literal s =>
    rw [show m = s from h]
    simpa [lastIn, Option.all_eq_true] using hr
  | start =>
    rw [show m = [] from h]
    exact hnil
  | stop =>
    rw [show m = [] from h]
    exact hnil
  | boundary =>
    rw [show m = [] from h]
    exact hnil
  | seq r r' ih ih' =>
    obtain ⟨m₁, m₂, rfl, h₁, h₂⟩ := h
    rw [lastIn, Bool.and_eq_true, Bool.or_eq_true, Bool.not_eq_true'] at hr
    rcases List.eq_nil_or_concat' m₂ with rfl | ⟨m₂, x, rfl⟩
    · rw [List.append_nil]
      rcases hr.2 with hsolid | hlast
      · rw [nullable_of_lang h₂] at hsolid
        cases hsolid
      · exact ih hlast h₁
    · have hx := ih' hr.1 h₂
      rw [List.getLast?_concat] at hx
      rwa [← List.append_assoc, List.getLast?_concat]
  | alt r r' ih ih' =>
    rw [lastIn, Bool.and_eq_true] at hr
    rcases h with hleft | hright
    · exact ih hr.1 hleft
    · exact ih' hr.2 hright
  | group r ih => exact ih hr h
  | capture label named r ih => exact ih hr h
  | rep r min extra lazily ih =>
    obtain ⟨parts, rfl, hparts, -⟩ := h
    rw [← List.head?_reverse, List.reverse_flatten]
    apply head?_flatten
    intro part hpart
    rw [List.mem_reverse, List.mem_map] at hpart
    obtain ⟨piece, hpiece, rfl⟩ := hpart
    rw [List.head?_reverse]
    exact ih hr (hparts piece hpiece)

lemma exists_of_needs {r : Regex α A} (hr : needs sure p r = true) {m : List α}
    (h : Lang accepts r m) : ∃ x ∈ m, p x = true := by
  induction r generalizing m with
  | empty => cases hr
  | one a =>
    obtain ⟨x, rfl, hx⟩ := h
    exact ⟨x, List.mem_singleton.mpr rfl, hsure a x hr hx⟩
  | literal s =>
    rw [show m = s from h]
    exact List.any_eq_true.mp hr
  | start => cases hr
  | stop => cases hr
  | boundary => cases hr
  | seq r r' ih ih' =>
    obtain ⟨m₁, m₂, rfl, h₁, h₂⟩ := h
    rw [needs, Bool.or_eq_true] at hr
    rcases hr with hleft | hright
    · obtain ⟨x, hx, hp⟩ := ih hleft h₁
      exact ⟨x, List.mem_append_left _ hx, hp⟩
    · obtain ⟨x, hx, hp⟩ := ih' hright h₂
      exact ⟨x, List.mem_append_right _ hx, hp⟩
  | alt r r' ih ih' =>
    rw [needs, Bool.and_eq_true] at hr
    rcases h with hleft | hright
    · exact ih hr.1 hleft
    · exact ih' hr.2 hright
  | group r ih => exact ih hr h
  | capture label named r ih => exact ih hr h
  | rep r min extra lazily ih =>
    obtain ⟨parts, rfl, hparts, hmin, -⟩ := h
    rw [needs, Bool.and_eq_true, bne_iff_ne] at hr
    cases parts with
    | nil => exact absurd (Nat.le_zero.mp hmin) hr.1
    | cons part parts =>
      obtain ⟨x, hx, hp⟩ := ih hr.2 (hparts part List.mem_cons_self)
      exact ⟨x, List.mem_append_left _ hx, hp⟩

end Soundness

end Ulpf.Library.Regex
