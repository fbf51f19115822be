import Ulpf.Library.RegexContext

/-!
# Patterns on texts with blanks around them

A pattern that takes its core behind the start of the text, or anywhere in it, and then goes on
to the end, where the core starts and ends with other elements than blanks. With blanks around
a text it matches as before, if its parts read them, and nothing otherwise.
-/

namespace Ulpf.Library.Regex

variable {α A : Type} [DecidableEq α] {accepts : A → α → Bool} {word blank : α → Bool}

/-- The texts of the core are not empty, and blanks are not at their ends. -/
structure Core (accepts : A → α → Bool) (blank : α → Bool) (r : Regex α A) : Prop where
  first : ∀ m, Lang accepts r m → ∃ x rest, m = x :: rest ∧ blank x = false
  last : ∀ m, Lang accepts r m → ∃ init x, m = init ++ [x] ∧ blank x = false
  startFree : startFree r = true
  stopFree : stopFree r = true

omit [DecidableEq α] in
lemma core_of_analysis {sure : A → Bool}
    (hsure : ∀ a x, sure a = true → accepts a x = true → (!blank x) = true) {r : Regex α A}
    (hnullable : nullable r = false) (hfirst : firstIn sure (fun x => !blank x) r = true)
    (hlast : lastIn sure (fun x => !blank x) r = true) (hstart : Regex.startFree r = true)
    (hstop : Regex.stopFree r = true) : Core accepts blank r where
  first m hm := by
    cases m with
    | nil =>
      rw [nullable_of_lang hm] at hnullable
      cases hnullable
    | cons x rest =>
      have hx := head?_of_firstIn hsure hfirst hm x rfl
      exact ⟨x, rest, rfl, by simpa using hx⟩
  last m hm := by
    rcases List.eq_nil_or_concat' m with rfl | ⟨init, x, rfl⟩
    · rw [nullable_of_lang hm] at hnullable
      cases hnullable
    · have hx := getLast?_of_lastIn hsure hlast hm x List.getLast?_concat
      exact ⟨init, x, rfl, by simpa using hx⟩
  startFree := hstart
  stopFree := hstop

/-- The rest of the text, which the atom `dot` reads. -/
def rest (grouped : Bool) (dot : A) : Regex α A :=
  if grouped then group (rep (one dot) 0 none false) else rep (one dot) 0 none false

/-- `^core.*$` -/
def anchored (core : Regex α A) (grouped : Bool) (dot : A) : Regex α A :=
  seq start (seq core (seq (rest grouped dot) stop))

/-- `^.*?core.*$` -/
def free (core : Regex α A) (grouped : Bool) (dot : A) : Regex α A :=
  seq start (seq (rep (one dot) 0 none true) (seq core (seq (rest grouped dot) stop)))

/-- The matches of the core from which the rest of the text is read. -/
def complete (accepts : A → α → Bool) (word : α → Bool) (core : Regex α A) (dot : A)
    (c : Cursor α) : List (Cursor α) :=
  (run accepts word core c).flatMap fun d =>
    if d.after.all (accepts dot) then [⟨d.after.reverse ++ d.before, [], d.groups⟩] else []

lemma run_rest (core : Regex α A) (grouped : Bool) (dot : A) (c : Cursor α) :
    run accepts word (seq core (seq (rest grouped dot) stop)) c =
      complete accepts word core dot c := by
  rw [run, complete]
  apply List.flatMap_congr
  intro d _
  rw [run, ← flatMap_star_stop]
  cases grouped <;> rfl

def headGroups (cs : List (Cursor α)) : Option (List (String × List α)) :=
  cs.head?.map Cursor.groups

section Core

variable {core : Regex α A} (h : Core accepts blank core) (dot : A)

include h in
lemma complete_blank {c : Cursor α} (hc : ∀ x ∈ c.after.head?, blank x = true) :
    complete accepts word core dot c = [] := by
  have hnone : run accepts word core c = [] := by
    rw [List.eq_nil_iff_forall_not_mem]
    intro d hd
    obtain ⟨m, hm, hread⟩ := lang_of_mem_run hd
    obtain ⟨x, rest, rfl, hx⟩ := h.first m hm
    have hblank := hc x (by rw [hread.after]; rfl)
    rw [hx] at hblank
    cases hblank
  rw [complete, hnone]
  rfl

section Pad

variable {w : List α} (hw : ∀ x ∈ w, blank x = true) (hword : ∀ x, blank x = true → word x = false)
include h hw

lemma inside_of_mem_run {c d : Cursor α} (hd : d ∈ run accepts word core (c.pad w)) :
    d.inside w = true := by
  obtain ⟨m, hm, hread⟩ := lang_of_mem_run hd
  obtain ⟨init, x, rfl, hx⟩ := h.last m hm
  rw [Cursor.inside, decide_eq_true_eq]
  by_contra hshort
  have hsplit : c.after ++ w = (init ++ [x]) ++ d.after := hread.after
  have hdrop := congrArg (List.drop c.after.length) hsplit
  have hlength := congrArg List.length hsplit
  simp only [List.length_append, List.length_singleton] at hlength
  rw [List.drop_left, List.append_assoc, List.drop_append_of_le_length (by omega)] at hdrop
  have hmem : x ∈ w := by
    rw [hdrop]
    simp
  rw [hw x hmem] at hx
  cases hx

include hword

lemma run_pad (c : Cursor α) :
    run accepts word core (c.pad w) = (run accepts word core c).map (Cursor.pad w) := by
  have hhead : ∀ x ∈ w.head?, word x = false :=
    fun x hx => hword x (hw x (List.mem_of_mem_head? hx))
  rw [← pads_run hhead h.stopFree c, List.filter_eq_self.mpr]
  exact fun d hd => inside_of_mem_run h hw hd

lemma headGroups_pad (c : Cursor α) :
    headGroups (complete accepts word core dot (c.pad w)) =
      if w.all (accepts dot) then headGroups (complete accepts word core dot c) else none := by
  rw [complete, run_pad h hw hword, List.flatMap_map]
  cases hdots : w.all (accepts dot) with
  | false =>
    have hnone : ((run accepts word core c).flatMap fun d =>
        if (d.pad w).after.all (accepts dot) then
          [(⟨(d.pad w).after.reverse ++ (d.pad w).before, [], (d.pad w).groups⟩ : Cursor α)]
        else []) = [] := by
      rw [List.flatMap_eq_nil_iff]
      intro d _
      simp [Cursor.pad, List.all_append, hdots]
    rw [hnone]
    rfl
  | true =>
    have hsame : ((run accepts word core c).flatMap fun d =>
          if (d.pad w).after.all (accepts dot) then
            [(⟨(d.pad w).after.reverse ++ (d.pad w).before, [], (d.pad w).groups⟩ : Cursor α)]
          else []) =
        (complete accepts word core dot c).map fun e =>
          ⟨w.reverse ++ e.before, e.after, e.groups⟩ := by
      rw [complete, List.map_flatMap]
      apply List.flatMap_congr
      intro d _
      simp only [Cursor.pad, List.all_append, hdots, Bool.and_true]
      split_ifs
      · simp
      · rfl
    rw [hsame, if_pos rfl, headGroups, headGroups, List.head?_map, Option.map_map]
    rfl

end Pad

include h in
lemma headGroups_lead {b : List α} (hb : ∀ x ∈ b.head?, word x = false) (c : Cursor α) :
    headGroups (complete accepts word core dot (c.lead b [])) =
      headGroups (complete accepts word core dot c) := by
  have hsame : complete accepts word core dot (c.lead b []) =
      (complete accepts word core dot c).map (Cursor.lead b []) := by
    rw [complete, leads_run hb h.startFree c, List.flatMap_map, complete, List.map_flatMap]
    apply List.flatMap_congr
    intro d _
    have hafter : (d.lead b []).after = d.after := rfl
    rw [hafter]
    split_ifs
    · simp [Cursor.lead]
    · rfl
  rw [hsame, headGroups, headGroups, List.head?_map, Option.map_map]
  congr 1
  funext e
  simp [Cursor.lead]

end Core

/-! ### Blanks around a text -/

section Around

variable {core : Regex α A} (h : Core accepts blank core) (grouped : Bool) (dot : A)
  (hword : ∀ x, blank x = true → word x = false) {l w : List α} (hl : ∀ x ∈ l, blank x = true)
  (hw : ∀ x ∈ w, blank x = true)

lemma groupsOf_start (r : Regex α A) (text : List α) :
    groupsOf accepts word (seq start r) text =
      headGroups (run accepts word r ⟨[], text, []⟩) := by
  rw [groupsOf, search_start, Option.map_map]
  rfl

include h hword hl hw in
/-- With blanks before it, a text is not matched from its start on. -/
theorem groupsOf_anchored (t : List α) :
    groupsOf accepts word (anchored core grouped dot) (l ++ (t ++ w)) =
      if l = [] ∧ w.all (accepts dot) then groupsOf accepts word (anchored core grouped dot) t
      else none := by
  rw [anchored, groupsOf_start, groupsOf_start, run_rest, run_rest]
  cases l with
  | nil =>
    have hpad := headGroups_pad h dot hw hword ⟨[], t, []⟩
    simp only [true_and]
    exact hpad
  | cons x l =>
    rw [if_neg (by simp), complete_blank h dot]
    · rfl
    · intro y hy
      cases hy
      exact hl x List.mem_cons_self

/-- The first groups where the core may start anywhere behind `before`. -/
def anywhere (accepts : A → α → Bool) (word : α → Bool) (core : Regex α A) (dot : A)
    (before text : List α) : Option (List (String × List α)) :=
  headGroups ((run accepts word (rep (one dot) 0 none true) ⟨before, text, []⟩).flatMap
    (complete accepts word core dot))

lemma anywhere_cons (before : List α) (x : α) (text : List α) :
    anywhere accepts word core dot before (x :: text) =
      (headGroups (complete accepts word core dot ⟨before, x :: text, []⟩)).or
        (if accepts dot x then anywhere accepts word core dot (x :: before) text else none) := by
  rw [anywhere, flatMap_lazy_cons, headGroups, List.head?_append, anywhere, headGroups, headGroups]
  cases (complete accepts word core dot ⟨before, x :: text, []⟩).head? with
  | some d => rfl
  | none =>
    split_ifs
    · rfl
    · rfl

include h in
lemma anywhere_nil (before : List α) : anywhere accepts word core dot before [] = none := by
  rw [anywhere, flatMap_lazy_nil, complete_blank h dot]
  · rfl
  · intro x hx
    cases hx

include h hl in
lemma anywhere_blanks (before text : List α) :
    anywhere accepts word core dot before (l ++ text) =
      if l.all (accepts dot) then anywhere accepts word core dot (l.reverse ++ before) text
      else none := by
  induction l generalizing before with
  | nil => rfl
  | cons x l ih =>
    rw [List.forall_mem_cons] at hl
    rw [List.cons_append, anywhere_cons, complete_blank h dot, ih hl.2, List.all_cons]
    · cases accepts dot x with
      | false => rfl
      | true => simp [headGroups]
    · intro y hy
      cases hy
      exact hl.1

include h hw hword in
lemma anywhere_pad (before t : List α) :
    anywhere accepts word core dot before (t ++ w) =
      if w.all (accepts dot) then anywhere accepts word core dot before t else none := by
  induction t generalizing before with
  | nil =>
    have hblanks := @anywhere_blanks _ _ _ accepts word _ core h dot w hw before []
    rw [List.append_nil, anywhere_nil h] at hblanks
    rw [List.nil_append, hblanks, anywhere_nil h]
  | cons x t ih =>
    have hpad := headGroups_pad h dot hw hword ⟨before, x :: t, []⟩
    rw [Cursor.pad] at hpad
    rw [List.cons_append, anywhere_cons, anywhere_cons, ih, ← List.cons_append, hpad]
    cases w.all (accepts dot) with
    | true => rfl
    | false => simp

include h in
lemma anywhere_lead {b : List α} (hb : ∀ x ∈ b.head?, word x = false) (before t : List α) :
    anywhere accepts word core dot (before ++ b) t =
      anywhere accepts word core dot before t := by
  induction t generalizing before with
  | nil => rw [anywhere_nil h, anywhere_nil h]
  | cons x t ih =>
    have hlead := headGroups_lead h dot hb ⟨before, x :: t, []⟩
    rw [Cursor.lead, List.append_nil] at hlead
    rw [anywhere_cons, anywhere_cons, hlead, ← ih (x :: before), List.cons_append]

include h hword hl hw in
/-- With blanks before it, a text is matched as before if the lazy part reads the blanks. -/
theorem groupsOf_free (t : List α) :
    groupsOf accepts word (free core grouped dot) (l ++ (t ++ w)) =
      if l.all (accepts dot) ∧ w.all (accepts dot) then
        groupsOf accepts word (free core grouped dot) t
      else none := by
  have hfree : ∀ text, groupsOf accepts word (free core grouped dot) text =
      anywhere accepts word core dot [] text := by
    intro text
    rw [free, groupsOf_start, run, anywhere]
    congr 1
    apply List.flatMap_congr
    intro c _
    exact run_rest core grouped dot c
  have hb : ∀ x ∈ l.reverse.head?, word x = false := by
    intro x hx
    exact hword x (hl x (List.mem_reverse.mp (List.mem_of_mem_head? hx)))
  have hlead := anywhere_lead h dot hb [] t
  rw [List.nil_append] at hlead
  rw [hfree, hfree, anywhere_blanks h dot hl, List.append_nil, anywhere_pad h dot hword hw, hlead]
  cases l.all (accepts dot) with
  | true => simp
  | false => simp

end Around

end Ulpf.Library.Regex
