import Ulpf.Library.RegexAnalysis

/-!
# The groups of a match

An expression without groups leaves the groups as they are, and a group adds the text between
its ends. The first match of a sequence is found from the first matches of its members, and a
bounded greedy repetition reads as much as it may.
-/

namespace Ulpf.Library.Regex

variable {α A : Type} [DecidableEq α] {accepts : A → α → Bool} {word : α → Bool}

/-! ### What a match captures -/

/-- No group captures anything. -/
def captureFree : Regex α A → Bool
  | empty => true
  | one _ => true
  | literal _ => true
  | start => true
  | stop => true
  | boundary => true
  | seq r r' => captureFree r && captureFree r'
  | alt r r' => captureFree r && captureFree r'
  | group r => captureFree r
  | capture _ _ _ => false
  | rep r _ _ _ => captureFree r

section Rounds

variable {step : Cursor α → List (Cursor α)} (hstep : ∀ c, ∀ d ∈ step c, d.groups = c.groups)
include hstep

omit [DecidableEq α] in
lemma groups_times {n : ℕ} {c d : Cursor α} (h : d ∈ times step n c) : d.groups = c.groups := by
  induction n generalizing c with
  | zero => rw [List.mem_singleton.mp h]
  | succ n ih =>
    obtain ⟨e, he, hd⟩ := List.mem_flatMap.mp h
    exact (ih hd).trans (hstep c e he)

omit [DecidableEq α] in
lemma groups_upTo {lazily : Bool} {n : ℕ} {c d : Cursor α} (h : d ∈ upTo step lazily n c) :
    d.groups = c.groups := by
  induction n generalizing c with
  | zero => rw [List.mem_singleton.mp h]
  | succ n ih =>
    rcases mem_upTo_succ h with rfl | ⟨e, he, hd⟩
    · rfl
    · exact (ih hd).trans (hstep c e he)

end Rounds

lemma groups_of_captureFree {r : Regex α A} (hr : captureFree r = true) {c d : Cursor α}
    (h : d ∈ run accepts word r c) : d.groups = c.groups := by
  induction r generalizing c d with
  | empty => rw [List.mem_singleton.mp h]
  | one a =>
    obtain ⟨x, -, -, hgroups⟩ := mem_readOne h
    exact hgroups
  | literal s => exact (mem_readAll h).2
  | start =>
    rw [run, List.mem_ite_nil_right, List.mem_singleton] at h
    rw [h.2]
  | stop =>
    rw [run, List.mem_ite_nil_right, List.mem_singleton] at h
    rw [h.2]
  | boundary =>
    rw [run, List.mem_ite_nil_right, List.mem_singleton] at h
    rw [h.2]
  | seq r r' ih ih' =>
    rw [captureFree, Bool.and_eq_true] at hr
    obtain ⟨e, he, hd⟩ := List.mem_flatMap.mp h
    exact (ih' hr.2 hd).trans (ih hr.1 he)
  | alt r r' ih ih' =>
    rw [captureFree, Bool.and_eq_true] at hr
    rcases List.mem_append.mp h with hleft | hright
    · exact ih hr.1 hleft
    · exact ih' hr.2 hright
  | group r ih => exact ih hr h
  | capture label named r ih => cases hr
  | rep r min extra lazily ih =>
    obtain ⟨e, he, hd⟩ := List.mem_flatMap.mp h
    have hround : ∀ c, ∀ d ∈ run accepts word r c, d.groups = c.groups := fun c d hd => ih hr hd
    exact (groups_upTo hround hd).trans (groups_times hround he)

lemma mem_run_capture {r : Regex α A} (hr : captureFree r = true) {label : String} {named : Bool}
    {c d : Cursor α} (h : d ∈ run accepts word (capture label named r) c) :
    ∃ m, Lang accepts r m ∧ Reads c m d ∧ d.groups = (label, m) :: c.groups := by
  obtain ⟨e, he, rfl⟩ := List.mem_map.mp h
  obtain ⟨m, hm, hread⟩ := lang_of_mem_run he
  refine ⟨m, hm, ⟨hread.after, hread.before⟩, ?_⟩
  rw [between_eq hread, groups_of_captureFree hr he]

omit [DecidableEq α] in
lemma lang_rep_one {a : A} {min extra : ℕ} {lazily : Bool} {m : List α}
    (h : Lang accepts (rep (one a) min (some extra) lazily) m) :
    (∀ x ∈ m, accepts a x = true) ∧ min ≤ m.length ∧ m.length ≤ min + extra := by
  obtain ⟨parts, rfl, hparts, hmin, hmax⟩ := h
  have hsingle : ∀ part ∈ parts, ∃ x, part = [x] ∧ accepts a x = true := hparts
  have hlength : parts.flatten.length = parts.length := by
    clear hmin hmax hparts
    induction parts with
    | nil => rfl
    | cons part parts ih =>
      rw [List.forall_mem_cons] at hsingle
      obtain ⟨⟨x, rfl, -⟩, hrest⟩ := hsingle
      rw [List.flatten_cons, List.length_append, ih hrest, List.length_singleton, Nat.add_comm]
      rfl
  refine ⟨?_, by omega, by have := hmax extra rfl; omega⟩
  intro x hx
  obtain ⟨part, hpart, hmem⟩ := List.mem_flatten.mp hx
  obtain ⟨y, rfl, hy⟩ := hsingle part hpart
  rwa [List.mem_singleton.mp hmem]

/-! ### First matches -/

lemma head?_flatMap {β γ : Type} {l : List β} {f : β → List γ} {b : β} {c : γ}
    (hl : l.head? = some b) (hf : (f b).head? = some c) : (l.flatMap f).head? = some c := by
  obtain ⟨tail, rfl⟩ := List.head?_eq_some_iff.mp hl
  rw [List.flatMap_cons, List.head?_append, hf]
  rfl

lemma exists_of_head?_flatMap {β γ : Type} {l : List β} {f : β → List γ} {c : γ}
    (h : (l.flatMap f).head? = some c) : ∃ b ∈ l, (f b).head? = some c := by
  induction l with
  | nil => cases h
  | cons b l ih =>
    rw [List.flatMap_cons, List.head?_append] at h
    cases hb : (f b).head? with
    | some c' =>
      rw [hb] at h
      exact ⟨b, List.mem_cons_self, hb.trans h⟩
    | none =>
      rw [hb] at h
      obtain ⟨b', hmem, hb'⟩ := ih h
      exact ⟨b', List.mem_cons_of_mem _ hmem, hb'⟩

lemma firstMatch_seq {r r' : Regex α A} {c d e : Cursor α}
    (h : firstMatch accepts word r c = some d) (h' : firstMatch accepts word r' d = some e) :
    firstMatch accepts word (seq r r') c = some e := head?_flatMap h h'

lemma firstMatch_one {a : A} {x : α} (hx : accepts a x = true) (before after : List α)
    (gs : List (String × List α)) :
    firstMatch accepts word (one a) ⟨before, x :: after, gs⟩ = some ⟨x :: before, after, gs⟩ := by
  rw [firstMatch, run, readOne]
  dsimp only
  rw [if_pos hx]
  rfl

lemma firstMatch_capture {r : Regex α A} {label : String} {named : Bool} {c d : Cursor α}
    (h : firstMatch accepts word r c = some d) :
    firstMatch accepts word (capture label named r) c =
      some { d with groups := (label, between c d) :: d.groups } := by
  rw [firstMatch] at h
  rw [firstMatch, run, List.head?_map, h]
  rfl

lemma firstMatch_exactly_succ {r : Regex α A} {n : ℕ} {c d e : Cursor α}
    (h : firstMatch accepts word r c = some d)
    (h' : firstMatch accepts word (rep r n (some 0) false) d = some e) :
    firstMatch accepts word (rep r (n + 1) (some 0) false) c = some e := by
  have hround : ∀ k c, run accepts word (rep r k (some 0) false) c =
      times (run accepts word r) k c := by
    intro k c
    rw [run]
    exact List.flatMap_singleton' _
  rw [firstMatch, hround] at h' ⊢
  exact head?_flatMap h h'

section Greedy

variable {a : A} {xs rest : List α} (hxs : ∀ x ∈ xs, accepts a x = true)

include hxs in
omit [DecidableEq α] in
lemma times_readOne (before : List α) (gs : List (String × List α)) :
    times (readOne (accepts a)) xs.length ⟨before, xs ++ rest, gs⟩ =
      [⟨xs.reverse ++ before, rest, gs⟩] := by
  induction xs generalizing before with
  | nil => rfl
  | cons x xs ih =>
    rw [List.forall_mem_cons] at hxs
    have hread : readOne (accepts a) ⟨before, x :: (xs ++ rest), gs⟩ =
        [⟨x :: before, xs ++ rest, gs⟩] := by
      simp [readOne, hxs.1]
    rw [List.length_cons, times, List.cons_append, hread, List.flatMap_singleton, ih hxs.2]
    simp

include hxs in
omit [DecidableEq α] in
/-- A greedy repetition reads on up to its bound or an element that it does not accept. -/
lemma head?_upTo {k : ℕ} (hlength : xs.length ≤ k)
    (hend : xs.length = k ∨ ∀ x ∈ rest.head?, accepts a x = false) (before : List α)
    (gs : List (String × List α)) :
    (upTo (readOne (accepts a)) false k ⟨before, xs ++ rest, gs⟩).head? =
      some ⟨xs.reverse ++ before, rest, gs⟩ := by
  induction xs generalizing k before with
  | nil =>
    cases k with
    | zero => rfl
    | succ k =>
      have hnone : readOne (accepts a) ⟨before, rest, gs⟩ = [] := by
        cases rest with
        | nil => rfl
        | cons y rest =>
          have hy := (hend.resolve_left (by simp)) y rfl
          simp [readOne, hy]
      rw [upTo, List.nil_append, hnone]
      rfl
  | cons x xs ih =>
    rw [List.forall_mem_cons] at hxs
    cases k with
    | zero => cases hlength
    | succ k =>
      have hread : readOne (accepts a) ⟨before, x :: (xs ++ rest), gs⟩ =
          [⟨x :: before, xs ++ rest, gs⟩] := by
        simp [readOne, hxs.1]
      have hrest := ih hxs.2 (Nat.le_of_succ_le_succ hlength)
        (hend.imp_left Nat.succ.inj) (x :: before)
      rw [upTo, List.cons_append, hread, if_neg Bool.false_ne_true, List.head?_append,
        List.filter_singleton]
      simp [hrest]

include hxs in
lemma firstMatch_rep {min extra : ℕ} (hmin : min ≤ xs.length) (hmax : xs.length ≤ min + extra)
    (hend : xs.length = min + extra ∨ ∀ x ∈ rest.head?, accepts a x = false) (before : List α)
    (gs : List (String × List α)) :
    firstMatch accepts word (rep (one a) min (some extra) false) ⟨before, xs ++ rest, gs⟩ =
      some ⟨xs.reverse ++ before, rest, gs⟩ := by
  obtain ⟨ys, zs, rfl, hys⟩ : ∃ ys zs, xs = ys ++ zs ∧ ys.length = min :=
    ⟨xs.take min, xs.drop min, (List.take_append_drop min xs).symm, List.length_take_of_le hmin⟩
  rw [List.forall_mem_append] at hxs
  rw [List.length_append, hys] at hmax hend
  have htimes := @times_readOne _ _ _ _ _ (zs ++ rest) hxs.1 before gs
  have hmore := head?_upTo (k := extra) hxs.2 (by omega) (hend.imp_left (by omega))
    (ys.reverse ++ before) gs
  rw [hys] at htimes
  have hrun : run accepts word (one a) = readOne (accepts a) := by
    funext c
    rw [run]
  rw [firstMatch, run, List.append_assoc, hrun, htimes, List.flatMap_singleton, Option.getD_some,
    hmore]
  simp

end Greedy

end Ulpf.Library.Regex
