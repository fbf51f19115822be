import Ulpf.Library.RegexAnalysis

/-!
# Matches in a longer text

What an expression without anchors matches in a text does not change where the text is
continued on either side by elements that are not part of a word, apart from the matches that
reach beyond the text. Hence a pattern whose core starts and ends with other elements than
blanks matches a text with blanks around it as it matches the text alone.
-/

namespace Ulpf.Library

namespace Cursor

variable {α : Type}

/-- More text behind. -/
def pad (w : List α) (c : Cursor α) : Cursor α := { c with after := c.after ++ w }

/-- More text before, and groups that were captured there. -/
def lead (b : List α) (gs : List (String × List α)) (c : Cursor α) : Cursor α :=
  { c with before := c.before ++ b, groups := c.groups ++ gs }

/-- The position is not within the last elements `w`. -/
def inside (w : List α) (c : Cursor α) : Bool := w.length ≤ c.after.length

lemma inside_pad (w : List α) (c : Cursor α) : (c.pad w).inside w = true := by
  rw [inside, pad, List.length_append, decide_eq_true_eq]
  exact Nat.le_add_left _ _

end Cursor

namespace Regex

variable {α A : Type} [DecidableEq α] {accepts : A → α → Bool} {word : α → Bool}

/-- No end anchor. -/
def stopFree : Regex α A → Bool
  | empty => true
  | one _ => true
  | literal _ => true
  | start => true
  | stop => false
  | boundary => true
  | seq r r' => stopFree r && stopFree r'
  | alt r r' => stopFree r && stopFree r'
  | group r => stopFree r
  | capture _ _ r => stopFree r
  | rep r _ _ _ => stopFree r

/-- No start anchor. -/
def startFree : Regex α A → Bool
  | empty => true
  | one _ => true
  | literal _ => true
  | start => false
  | stop => true
  | boundary => true
  | seq r r' => startFree r && startFree r'
  | alt r r' => startFree r && startFree r'
  | group r => startFree r
  | capture _ _ r => startFree r
  | rep r _ _ _ => startFree r

lemma length_le_of_mem_run {r : Regex α A} {c d : Cursor α} (h : d ∈ run accepts word r c) :
    d.after.length ≤ c.after.length := by
  obtain ⟨m, -, hread⟩ := lang_of_mem_run h
  exact hread.length_le

/-! ### The number of rounds -/

omit [DecidableEq α] in
lemma upTo_of_after_nil (step : Cursor α → List (Cursor α)) (lazily : Bool) (n : ℕ) {c : Cursor α}
    (h : c.after.length = 0) : upTo step lazily n c = [c] := by
  cases n with
  | zero => rfl
  | succ n =>
    have hnone : (step c).filter (fun d => d.after.length < c.after.length) = [] := by
      rw [List.filter_eq_nil_iff]
      intro d _
      simp [h]
    rw [upTo, hnone]
    cases lazily <;> rfl

omit [DecidableEq α] in
lemma upTo_saturate (step : Cursor α → List (Cursor α)) (lazily : Bool) {n m : ℕ} {c : Cursor α}
    (hn : c.after.length ≤ n) (hm : c.after.length ≤ m) :
    upTo step lazily n c = upTo step lazily m c := by
  induction n generalizing m c with
  | zero =>
    rw [upTo_of_after_nil step lazily 0 (by omega), upTo_of_after_nil step lazily m (by omega)]
  | succ n ih =>
    cases m with
    | zero =>
      rw [upTo_of_after_nil step lazily 0 (by omega),
        upTo_of_after_nil step lazily (n + 1) (by omega)]
    | succ m =>
      have hmore : ((step c).filter fun d => d.after.length < c.after.length).flatMap
            (upTo step lazily n) =
          ((step c).filter fun d => d.after.length < c.after.length).flatMap
            (upTo step lazily m) := by
        apply List.flatMap_congr
        intro d hd
        have hshort : d.after.length < c.after.length := by
          simpa using (List.mem_filter.mp hd).2
        exact ih (by omega) (by omega)
      rw [upTo, upTo, hmore]

/-! ### Text behind -/

/-- The results within the text are those on the text alone. -/
def Pads (w : List α) (f : Cursor α → List (Cursor α)) : Prop :=
  ∀ c : Cursor α, (f (c.pad w)).filter (Cursor.inside w) = (f c).map (Cursor.pad w)

def Shrinks (f : Cursor α → List (Cursor α)) : Prop :=
  ∀ c, ∀ d ∈ f c, d.after.length ≤ c.after.length

omit [DecidableEq α] in
lemma Shrinks.times {f : Cursor α → List (Cursor α)} (h : Shrinks f) (n : ℕ) :
    Shrinks (Regex.times f n) := by
  induction n with
  | zero =>
    intro c d hd
    obtain rfl := List.mem_singleton.mp hd
    exact Nat.le_refl _
  | succ n ih =>
    intro c d hd
    obtain ⟨e, he, hde⟩ := List.mem_flatMap.mp hd
    exact Nat.le_trans (ih e d hde) (h c e he)

omit [DecidableEq α] in
lemma Shrinks.upTo {f : Cursor α → List (Cursor α)} (h : Shrinks f) (lazily : Bool) (n : ℕ) :
    Shrinks (Regex.upTo f lazily n) := by
  induction n with
  | zero =>
    intro c d hd
    obtain rfl := List.mem_singleton.mp hd
    exact Nat.le_refl _
  | succ n ih =>
    intro c d hd
    rcases mem_upTo_succ hd with rfl | ⟨e, he, hde⟩
    · exact Nat.le_refl _
    · exact Nat.le_trans (ih e d hde) (h c e he)

section Pads

variable {w : List α} {f g : Cursor α → List (Cursor α)}

omit [DecidableEq α] in
lemma Pads.flatMap (hf : Pads w f) (hshrink : Shrinks f) {cs cs' : List (Cursor α)}
    (h : cs'.filter (Cursor.inside w) = cs.map (Cursor.pad w)) :
    (cs'.flatMap f).filter (Cursor.inside w) = (cs.flatMap f).map (Cursor.pad w) := by
  have houtside : ∀ c : Cursor α, ¬c.inside w = true → (f c).filter (Cursor.inside w) = [] := by
    intro c hc
    rw [List.filter_eq_nil_iff]
    intro d hd hinside
    have hle := hshrink c d hd
    simp only [Cursor.inside, decide_eq_true_eq] at hc hinside
    omega
  have hfilter : (cs'.flatMap f).filter (Cursor.inside w) =
      (cs'.filter (Cursor.inside w)).flatMap fun c => (f c).filter (Cursor.inside w) := by
    clear h
    induction cs' with
    | nil => rfl
    | cons c cs' ih =>
      rw [List.flatMap_cons, List.filter_append, ih]
      by_cases hc : c.inside w = true
      · rw [List.filter_cons_of_pos hc, List.flatMap_cons]
      · rw [List.filter_cons_of_neg hc, houtside c hc, List.nil_append]
  rw [hfilter, h, List.flatMap_map, List.map_flatMap]
  exact List.flatMap_congr fun c _ => hf c

omit [DecidableEq α] in
lemma Pads.times (hf : Pads w f) (hshrink : Shrinks f) (n : ℕ) : Pads w (times f n) := by
  induction n with
  | zero =>
    intro c
    rw [Regex.times, Regex.times, List.filter_singleton, Cursor.inside_pad]
    rfl
  | succ n ih =>
    intro c
    exact ih.flatMap (hshrink.times n) (hf c)

omit [DecidableEq α] in
lemma Pads.upTo (hf : Pads w f) (hshrink : Shrinks f) (lazily : Bool) (n : ℕ) :
    Pads w (Regex.upTo f lazily n) := by
  induction n with
  | zero =>
    intro c
    rw [Regex.upTo, Regex.upTo, List.filter_singleton, Cursor.inside_pad]
    rfl
  | succ n ih =>
    intro c
    have hself : [c.pad w].filter (Cursor.inside w) = [c].map (Cursor.pad w) := by
      rw [List.filter_singleton, Cursor.inside_pad]
      rfl
    have hshort : ((f (c.pad w)).filter fun d => d.after.length < (c.pad w).after.length).filter
          (Cursor.inside w) =
        ((f c).filter fun d => d.after.length < c.after.length).map (Cursor.pad w) := by
      rw [List.filter_filter, List.filter_congr (fun d _ => Bool.and_comm _ _),
        ← List.filter_filter, hf c, List.filter_map]
      congr 1
      apply List.filter_congr
      intro d _
      simp [Cursor.pad]
    have hmore := ih.flatMap (hshrink.upTo lazily n) hshort
    rw [Regex.upTo, Regex.upTo]
    cases lazily with
    | true =>
      rw [if_pos rfl, if_pos rfl, List.map_cons, ← hmore, List.filter_cons_of_pos (c.inside_pad w)]
    | false =>
      rw [if_neg Bool.false_ne_true, if_neg Bool.false_ne_true, List.filter_append, hself, hmore,
        List.map_append]

omit [DecidableEq α] in
lemma pads_readOne (p : α → Bool) : Pads w (readOne p) := by
  intro c
  unfold readOne
  cases hafter : c.after with
  | nil =>
    cases w with
    | nil => simp [Cursor.pad, hafter]
    | cons x w =>
      simp only [Cursor.pad, hafter, List.nil_append, List.map_nil, List.filter_eq_nil_iff]
      intro d hd
      split_ifs at hd with hx
      · rw [List.mem_singleton.mp hd]
        simp [Cursor.inside]
      · cases hd
  | cons x after =>
    simp only [Cursor.pad, hafter, List.cons_append]
    split_ifs
    · simp [Cursor.inside, Cursor.pad]
    · rfl

lemma pads_readAll (s : List α) : Pads w (readAll s) := by
  induction s with
  | nil =>
    intro c
    rw [readAll, readAll, List.filter_singleton, Cursor.inside_pad]
    rfl
  | cons x s ih =>
    intro c
    apply ih.flatMap _ (pads_readOne _ c)
    intro c d hd
    exact (mem_readAll hd).1.length_le

end Pads

section Run

variable {w b : List α} (hw : ∀ x ∈ w.head?, word x = false) (hb : ∀ x ∈ b.head?, word x = false)

include hw in
omit [DecidableEq α] in
lemma atBoundary_pad (c : Cursor α) : atBoundary word (c.pad w) = atBoundary word c := by
  cases hafter : c.after with
  | nil =>
    have hnone : w.head?.any word = false := by
      cases w with
      | nil => rfl
      | cons x w => exact hw x rfl
    simp [atBoundary, Cursor.pad, hafter, hnone]
  | cons x after => simp [atBoundary, Cursor.pad, hafter]

omit [DecidableEq α] in
lemma between_pad (c d : Cursor α) : between (c.pad w) (d.pad w) = between c d := by
  simp only [between, Cursor.pad, List.length_append]
  rw [Nat.add_sub_add_right, List.take_append_of_le_length (Nat.sub_le _ _)]

include hw in
/-- Behind the text there may be more, if it does not continue a word. -/
theorem pads_run {r : Regex α A} (hr : stopFree r = true) : Pads w (run accepts word r) := by
  have hself : ∀ c : Cursor α, [c.pad w].filter (Cursor.inside w) = [c].map (Cursor.pad w) := by
    intro c
    rw [List.filter_singleton, Cursor.inside_pad]
    rfl
  induction r with
  | empty => exact hself
  | one a => exact pads_readOne _
  | literal s => exact pads_readAll s
  | start =>
    intro c
    by_cases hc : c.before = []
    · have hc' : (c.pad w).before = [] := hc
      rw [run, run, if_pos hc', if_pos hc, hself]
    · have hc' : (c.pad w).before ≠ [] := hc
      rw [run, run, if_neg hc', if_neg hc]
      rfl
  | stop => cases hr
  | boundary =>
    intro c
    rw [run, run, atBoundary_pad hw]
    split_ifs
    · exact hself c
    · rfl
  | seq r r' ih ih' =>
    rw [stopFree, Bool.and_eq_true] at hr
    intro c
    exact (ih' hr.2).flatMap (fun c d hd => length_le_of_mem_run hd) (ih hr.1 c)
  | alt r r' ih ih' =>
    rw [stopFree, Bool.and_eq_true] at hr
    intro c
    rw [run, run, List.filter_append, ih hr.1, ih' hr.2, List.map_append]
  | group r ih => exact ih hr
  | capture label named r ih =>
    intro c
    have hinside : ∀ cs : List (Cursor α), (cs.map fun d : Cursor α =>
          { d with groups := (label, between (c.pad w) d) :: d.groups }).filter (Cursor.inside w) =
        (cs.filter (Cursor.inside w)).map fun d =>
          { d with groups := (label, between (c.pad w) d) :: d.groups } := by
      intro cs
      rw [List.filter_map]
      rfl
    rw [run, run, hinside, ih hr c, List.map_map, List.map_map]
    apply List.map_congr_left
    intro d _
    have hlabel := between_pad (w := w) c d
    simp only [Function.comp_apply, hlabel]
    rfl
  | rep r min extra lazily ih =>
    have hshrink : Shrinks (run accepts word r) := fun c d hd => length_le_of_mem_run hd
    have hrounds : Pads w fun d : Cursor α =>
        upTo (run accepts word r) lazily (extra.getD d.after.length) d := by
      intro d
      cases extra with
      | some k => exact (ih hr).upTo hshrink lazily k d
      | none =>
        have hlonger := (ih hr).upTo hshrink lazily (d.pad w).after.length d
        have hlength : d.after.length ≤ (d.pad w).after.length := by
          simp only [Cursor.pad, List.length_append]
          omega
        rwa [upTo_saturate _ lazily hlength (Nat.le_refl _)] at hlonger
    intro c
    exact hrounds.flatMap (fun c d hd => hshrink.upTo lazily _ c d hd)
      ((ih hr).times hshrink min c)

end Run

/-! ### Text before -/

/-- The results do not depend on the text before. -/
def Leads (b : List α) (gs : List (String × List α)) (f : Cursor α → List (Cursor α)) : Prop :=
  ∀ c : Cursor α, f (c.lead b gs) = (f c).map (Cursor.lead b gs)

section Leads

variable {b : List α} {gs : List (String × List α)} {f : Cursor α → List (Cursor α)}

omit [DecidableEq α] in
lemma Leads.flatMap (hf : Leads b gs f) {cs cs' : List (Cursor α)}
    (h : cs' = cs.map (Cursor.lead b gs)) :
    cs'.flatMap f = (cs.flatMap f).map (Cursor.lead b gs) := by
  rw [h, List.flatMap_map, List.map_flatMap]
  exact List.flatMap_congr fun c _ => hf c

omit [DecidableEq α] in
lemma Leads.times (hf : Leads b gs f) (n : ℕ) : Leads b gs (Regex.times f n) := by
  induction n with
  | zero => exact fun c => rfl
  | succ n ih => exact fun c => ih.flatMap (hf c)

omit [DecidableEq α] in
lemma Leads.upTo (hf : Leads b gs f) (lazily : Bool) (n : ℕ) :
    Leads b gs (Regex.upTo f lazily n) := by
  induction n with
  | zero => exact fun c => rfl
  | succ n ih =>
    intro c
    have hshort : (f (c.lead b gs)).filter
          (fun d => d.after.length < (c.lead b gs).after.length) =
        ((f c).filter fun d => d.after.length < c.after.length).map (Cursor.lead b gs) := by
      rw [hf c, List.filter_map]
      rfl
    have hmore := ih.flatMap hshort
    rw [Regex.upTo, Regex.upTo, hmore]
    cases lazily with
    | true => rfl
    | false =>
      rw [if_neg Bool.false_ne_true, if_neg Bool.false_ne_true, List.map_append]
      rfl

omit [DecidableEq α] in
lemma leads_readOne (p : α → Bool) : Leads b gs (readOne p) := by
  intro c
  unfold readOne
  cases hafter : c.after with
  | nil => simp [Cursor.lead, hafter]
  | cons x after =>
    simp only [Cursor.lead, hafter]
    split_ifs <;> rfl

lemma leads_readAll (s : List α) : Leads b gs (readAll s) := by
  induction s with
  | nil => exact fun c => rfl
  | cons x s ih => exact fun c => ih.flatMap (leads_readOne _ c)

omit [DecidableEq α] in
lemma atBoundary_lead (hb : ∀ x ∈ b.head?, word x = false) (c : Cursor α) :
    atBoundary word (c.lead b gs) = atBoundary word c := by
  cases hbefore : c.before with
  | nil =>
    have hnone : b.head?.any word = false := by
      cases b with
      | nil => rfl
      | cons x b => exact hb x rfl
    simp [atBoundary, Cursor.lead, hbefore, hnone]
  | cons x before => simp [atBoundary, Cursor.lead, hbefore]

/-- Before the text there may be more, if no word runs into the text. -/
theorem leads_run (hb : ∀ x ∈ b.head?, word x = false) {r : Regex α A}
    (hr : startFree r = true) : Leads b gs (run accepts word r) := by
  induction r with
  | empty => exact fun c => rfl
  | one a => exact leads_readOne _
  | literal s => exact leads_readAll s
  | start => cases hr
  | stop =>
    intro c
    by_cases hc : c.after = []
    · have hc' : (c.lead b gs).after = [] := hc
      rw [run, run, if_pos hc', if_pos hc]
      rfl
    · have hc' : (c.lead b gs).after ≠ [] := hc
      rw [run, run, if_neg hc', if_neg hc]
      rfl
  | boundary =>
    intro c
    rw [run, run, atBoundary_lead hb]
    split_ifs <;> rfl
  | seq r r' ih ih' =>
    rw [startFree, Bool.and_eq_true] at hr
    exact fun c => (ih' hr.2).flatMap (ih hr.1 c)
  | alt r r' ih ih' =>
    rw [startFree, Bool.and_eq_true] at hr
    intro c
    rw [run, run, ih hr.1, ih' hr.2, List.map_append]
  | group r ih => exact ih hr
  | capture label named r ih =>
    intro c
    rw [run, run, ih hr c, List.map_map, List.map_map]
    rfl
  | rep r min extra lazily ih =>
    intro c
    have hrounds : Leads b gs fun d : Cursor α =>
        upTo (run accepts word r) lazily (extra.getD d.after.length) d :=
      fun d => (ih hr).upTo lazily _ d
    exact hrounds.flatMap ((ih hr).times min c)

end Leads

/-! ### Patterns with a core -/

omit [DecidableEq α] in
lemma upTo_stop (p : α → Bool) (after before : List α) (gs : List (String × List α)) {n : ℕ}
    (hn : after.length ≤ n) :
    (upTo (readOne p) false n ⟨before, after, gs⟩).flatMap
        (fun d => if d.after = [] then [d] else []) =
      if after.all p then [⟨after.reverse ++ before, [], gs⟩] else [] := by
  induction after generalizing before n with
  | nil =>
    rw [upTo_of_after_nil _ _ _ rfl]
    rfl
  | cons x after ih =>
    cases n with
    | zero => cases hn
    | succ n =>
      rw [List.length_cons, Nat.add_le_add_iff_right] at hn
      have hread : (readOne p ⟨before, x :: after, gs⟩).filter
            (fun d => d.after.length < (⟨before, x :: after, gs⟩ : Cursor α).after.length) =
          if p x then [⟨x :: before, after, gs⟩] else [] := by
        rw [readOne]
        dsimp only
        split_ifs
        · simp
        · rfl
      rw [upTo, hread, if_neg Bool.false_ne_true, List.flatMap_append]
      cases hx : p x with
      | true => simp [ih _ hn, hx]
      | false => simp [hx]

lemma flatMap_star_stop (a : A) (c : Cursor α) :
    (run accepts word (rep (one a) 0 none false) c).flatMap (run accepts word stop) =
      if c.after.all (accepts a) then [⟨c.after.reverse ++ c.before, [], c.groups⟩] else [] := by
  have hrun : run accepts word (rep (one a) 0 none false) c =
      upTo (readOne (accepts a)) false c.after.length c := by
    rw [run, times, List.flatMap_singleton]
    rfl
  rw [hrun]
  exact upTo_stop (accepts a) c.after c.before c.groups (Nat.le_refl _)

lemma flatMap_lazy_cons (a : A) (K : Cursor α → List (Cursor α)) (before : List α) (x : α)
    (after : List α) (gs : List (String × List α)) :
    (run accepts word (rep (one a) 0 none true) ⟨before, x :: after, gs⟩).flatMap K =
      K ⟨before, x :: after, gs⟩ ++ if accepts a x then
        (run accepts word (rep (one a) 0 none true) ⟨x :: before, after, gs⟩).flatMap K
      else [] := by
  have hread : (readOne (accepts a) ⟨before, x :: after, gs⟩).filter
        (fun d => d.after.length < (⟨before, x :: after, gs⟩ : Cursor α).after.length) =
      if accepts a x then [⟨x :: before, after, gs⟩] else [] := by
    rw [readOne]
    dsimp only
    split_ifs
    · simp
    · rfl
  have hrun : ∀ c : Cursor α, run accepts word (rep (one a) 0 none true) c =
      upTo (readOne (accepts a)) true c.after.length c := by
    intro c
    rw [run, times, List.flatMap_singleton]
    rfl
  rw [hrun, hrun, List.length_cons, upTo, hread, if_pos rfl, List.flatMap_cons]
  split_ifs
  · rw [List.flatMap_singleton]
  · rfl

lemma flatMap_lazy_nil (a : A) (K : Cursor α → List (Cursor α)) (before : List α)
    (gs : List (String × List α)) :
    (run accepts word (rep (one a) 0 none true) ⟨before, [], gs⟩).flatMap K =
      K ⟨before, [], gs⟩ := by
  have hrun : run accepts word (rep (one a) 0 none true) ⟨before, [], gs⟩ = [⟨before, [], gs⟩] := by
    rw [run, times, List.flatMap_singleton]
    rfl
  rw [hrun, List.flatMap_singleton]

/-- The groups of the leftmost match. -/
def groupsOf (accepts : A → α → Bool) (word : α → Bool) (r : Regex α A) (text : List α) :
    Option (List (String × List α)) :=
  (search accepts word r [] text).map fun found => found.2.groups

lemma search_start (r : Regex α A) (text : List α) :
    search accepts word (seq start r) [] text =
      (firstMatch accepts word r ⟨[], text, []⟩).map fun d => ([], d) := by
  have hrun : ∀ c : Cursor α, run accepts word (seq start r) c =
      if c.before = [] then run accepts word r c else [] := by
    intro c
    rw [run, run]
    split_ifs
    · rw [List.flatMap_singleton]
    · rfl
  have hlater : ∀ after before : List α, before ≠ [] →
      search accepts word (seq start r) before after = none := by
    intro after
    induction after with
    | nil =>
      intro before hbefore
      rw [search, firstMatch, hrun, if_neg hbefore]
      rfl
    | cons x after ih =>
      intro before hbefore
      rw [search, firstMatch, hrun, if_neg hbefore]
      exact ih _ (List.cons_ne_nil _ _)
  cases text with
  | nil =>
    rw [search, firstMatch, hrun, if_pos rfl]
    rfl
  | cons x after =>
    rw [search, firstMatch, hrun, if_pos rfl, firstMatch]
    cases (run accepts word r ⟨[], x :: after, []⟩).head? with
    | none => exact hlater after [x] (List.cons_ne_nil _ _)
    | some d => rfl

end Regex

end Ulpf.Library
