import Mathlib.Data.List.Basic
import Mathlib.Tactic.SplitIfs

/-!
# Regular expressions

Expressions over atoms, each of which accepts some of the elements, with anchors, groups and
greedy or lazy repetition. `Lang` is the set of texts that an expression may read; `run` lists
the matches at a position in the order of a backtracking search, so its first entry is the
match that leftmost-first engines report.
-/

namespace Ulpf.Library

/-- A captured group has a label, which is its name or, without one, its number. A repetition
takes `min` rounds and up to `extra` more, any number of them if there is no bound. -/
inductive Regex (α A : Type) where
  | empty
  | one (a : A)
  | literal (s : List α)
  | start
  | stop
  | boundary
  | seq (r r' : Regex α A)
  | alt (r r' : Regex α A)
  | group (r : Regex α A)
  | capture (label : String) (named : Bool) (r : Regex α A)
  | rep (r : Regex α A) (min : ℕ) (extra : Option ℕ) (lazily : Bool)

/-- A position in a text, what is before it in reverse, and the groups captured on the way, the
latest first. -/
structure Cursor (α : Type) where
  before : List α
  after : List α
  groups : List (String × List α)

namespace Regex

variable {α A : Type} [DecidableEq α] (accepts : A → α → Bool) (word : α → Bool)

/-! ### Languages -/

def Lang : Regex α A → List α → Prop
  | empty, m => m = []
  | one a, m => ∃ x, m = [x] ∧ accepts a x = true
  | literal s, m => m = s
  | start, m => m = []
  | stop, m => m = []
  | boundary, m => m = []
  | seq r r', m => ∃ m₁ m₂, m = m₁ ++ m₂ ∧ Lang r m₁ ∧ Lang r' m₂
  | alt r r', m => Lang r m ∨ Lang r' m
  | group r, m => Lang r m
  | capture _ _ r, m => Lang r m
  | rep r min extra _, m => ∃ parts : List (List α), m = parts.flatten ∧ (∀ p ∈ parts, Lang r p) ∧
      min ≤ parts.length ∧ ∀ k, extra = some k → parts.length ≤ min + k

/-! ### Matching -/

/-- The text between a position and a later one. -/
def between (c d : Cursor α) : List α := c.after.take (c.after.length - d.after.length)

def readOne (p : α → Bool) (c : Cursor α) : List (Cursor α) :=
  match c.after with
  | [] => []
  | x :: after => if p x then [⟨x :: c.before, after, c.groups⟩] else []

def readAll : List α → Cursor α → List (Cursor α)
  | [], c => [c]
  | x :: s, c => (readOne (· == x) c).flatMap (readAll s)

/-- Is the position between a word and something else? -/
def atBoundary (c : Cursor α) : Bool := c.before.head?.any word != c.after.head?.any word

def times (step : Cursor α → List (Cursor α)) : ℕ → Cursor α → List (Cursor α)
  | 0, c => [c]
  | n + 1, c => (step c).flatMap (times step n)

/-- Up to `n` rounds that all read something, the most or the fewest first. -/
def upTo (step : Cursor α → List (Cursor α)) (lazily : Bool) : ℕ → Cursor α → List (Cursor α)
  | 0, c => [c]
  | n + 1, c =>
    let more := ((step c).filter fun d => d.after.length < c.after.length).flatMap
      (upTo step lazily n)
    if lazily then c :: more else more ++ [c]

def run : Regex α A → Cursor α → List (Cursor α)
  | empty, c => [c]
  | one a, c => readOne (accepts a) c
  | literal s, c => readAll s c
  | start, c => if c.before = [] then [c] else []
  | stop, c => if c.after = [] then [c] else []
  | boundary, c => if atBoundary word c then [c] else []
  | seq r r', c => (run r c).flatMap (run r')
  | alt r r', c => run r c ++ run r' c
  | group r, c => run r c
  | capture label _ r, c =>
    (run r c).map fun d => { d with groups := (label, between c d) :: d.groups }
  | rep r min extra lazily, c =>
    (times (run r) min c).flatMap fun d => upTo (run r) lazily (extra.getD d.after.length) d

def firstMatch (r : Regex α A) (c : Cursor α) : Option (Cursor α) := (run accepts word r c).head?

/-- The leftmost match: what is before it in reverse, and where it ends. -/
def search (r : Regex α A) : List α → List α → Option (List α × Cursor α)
  | before, [] => (firstMatch accepts word r ⟨before, [], []⟩).map fun d => (before, d)
  | before, x :: after =>
    match firstMatch accepts word r ⟨before, x :: after, []⟩ with
    | some d => some (before, d)
    | none => search r (x :: before) after

/-- A text is cut into the elements outside all matches and the matches. -/
inductive Piece (α : Type) where
  | gap (x : α)
  | found (m : List α) (groups : List (String × List α))

/-- The successive matches of an expression that reads no empty text; `skip` elements belong
to the last match. -/
def pieces (r : Regex α A) : ℕ → List α → List α → List (Piece α)
  | _, _, [] => []
  | skip + 1, before, x :: after => pieces r skip (x :: before) after
  | 0, before, x :: after =>
    match firstMatch accepts word r ⟨before, x :: after, []⟩ with
    | some d =>
      .found (between ⟨before, x :: after, []⟩ d) d.groups ::
        pieces r (after.length - d.after.length) (x :: before) after
    | none => .gap x :: pieces r 0 (x :: before) after

/-! ### Matches read texts of the language -/

/-- The text `m` lies between the positions. -/
structure Reads (c : Cursor α) (m : List α) (d : Cursor α) : Prop where
  after : c.after = m ++ d.after
  before : d.before = m.reverse ++ c.before

omit [DecidableEq α] in
lemma Reads.refl (c : Cursor α) : Reads c [] c := ⟨rfl, rfl⟩

omit [DecidableEq α] in
lemma Reads.trans {c d e : Cursor α} {m n : List α} (h : Reads c m d) (h' : Reads d n e) :
    Reads c (m ++ n) e where
  after := by rw [h.after, h'.after, List.append_assoc]
  before := by rw [h'.before, h.before, List.reverse_append, List.append_assoc]

omit [DecidableEq α] in
lemma between_eq {c d : Cursor α} {m : List α} (h : Reads c m d) : between c d = m := by
  rw [between, h.after, List.length_append, Nat.add_sub_cancel, List.take_left]

omit [DecidableEq α] in
lemma Reads.length_le {c d : Cursor α} {m : List α} (h : Reads c m d) :
    d.after.length ≤ c.after.length := by
  rw [h.after, List.length_append]
  exact Nat.le_add_left _ _

omit [DecidableEq α] in
lemma mem_readOne {p : α → Bool} {c d : Cursor α} (h : d ∈ readOne p c) :
    ∃ x, p x = true ∧ Reads c [x] d ∧ d.groups = c.groups := by
  unfold readOne at h
  split at h
  · cases h
  · next x after hafter =>
    split_ifs at h with hx
    · rw [List.mem_singleton.mp h]
      exact ⟨x, hx, ⟨hafter, rfl⟩, rfl⟩
    · cases h

lemma mem_readAll {s : List α} {c d : Cursor α} (h : d ∈ readAll s c) :
    Reads c s d ∧ d.groups = c.groups := by
  induction s generalizing c with
  | nil =>
    rw [readAll, List.mem_singleton] at h
    rw [h]
    exact ⟨.refl c, rfl⟩
  | cons x s ih =>
    rw [readAll, List.mem_flatMap] at h
    obtain ⟨e, he, hd⟩ := h
    obtain ⟨y, hy, hread, hgroups⟩ := mem_readOne he
    obtain ⟨hrest, hgroups'⟩ := ih hd
    rw [beq_iff_eq] at hy
    subst hy
    exact ⟨hread.trans hrest, hgroups'.trans hgroups⟩

omit [DecidableEq α] in
lemma mem_upTo_succ {step : Cursor α → List (Cursor α)} {lazily : Bool} {n : ℕ} {c d : Cursor α}
    (h : d ∈ upTo step lazily (n + 1) c) : d = c ∨ ∃ e ∈ step c, d ∈ upTo step lazily n e := by
  rw [upTo] at h
  split_ifs at h
  · rcases List.mem_cons.mp h with hc | hmore
    · exact Or.inl hc
    · obtain ⟨e, he, hd⟩ := List.mem_flatMap.mp hmore
      exact Or.inr ⟨e, List.mem_of_mem_filter he, hd⟩
  · rcases List.mem_append.mp h with hmore | hc
    · obtain ⟨e, he, hd⟩ := List.mem_flatMap.mp hmore
      exact Or.inr ⟨e, List.mem_of_mem_filter he, hd⟩
    · exact Or.inl (List.mem_singleton.mp hc)

section Rounds

variable {step : Cursor α → List (Cursor α)} {P : List α → Prop}
  (hstep : ∀ c, ∀ d ∈ step c, ∃ m, P m ∧ Reads c m d)
include hstep

omit [DecidableEq α] in
lemma mem_times {n : ℕ} {c d : Cursor α} (h : d ∈ times step n c) :
    ∃ parts : List (List α), parts.length = n ∧ (∀ p ∈ parts, P p) ∧ Reads c parts.flatten d := by
  induction n generalizing c with
  | zero =>
    rw [times, List.mem_singleton] at h
    rw [h]
    exact ⟨[], rfl, List.forall_mem_nil _, .refl c⟩
  | succ n ih =>
    rw [times, List.mem_flatMap] at h
    obtain ⟨e, he, hd⟩ := h
    obtain ⟨m, hm, hread⟩ := hstep c e he
    obtain ⟨parts, hlength, hparts, hrest⟩ := ih hd
    refine ⟨m :: parts, by rw [List.length_cons, hlength],
      List.forall_mem_cons.mpr ⟨hm, hparts⟩, ?_⟩
    rw [List.flatten_cons]
    exact hread.trans hrest

omit [DecidableEq α] in
lemma mem_upTo {lazily : Bool} {n : ℕ} {c d : Cursor α} (h : d ∈ upTo step lazily n c) :
    ∃ parts : List (List α), parts.length ≤ n ∧ (∀ p ∈ parts, P p) ∧ Reads c parts.flatten d := by
  induction n generalizing c with
  | zero =>
    rw [upTo, List.mem_singleton] at h
    rw [h]
    exact ⟨[], Nat.le_refl 0, List.forall_mem_nil _, .refl c⟩
  | succ n ih =>
    rcases mem_upTo_succ h with rfl | ⟨e, he, hd⟩
    · exact ⟨[], Nat.zero_le _, List.forall_mem_nil _, .refl d⟩
    · obtain ⟨m, hm, hread⟩ := hstep c e he
      obtain ⟨parts, hlength, hparts, hrest⟩ := ih hd
      refine ⟨m :: parts, Nat.succ_le_succ hlength, List.forall_mem_cons.mpr ⟨hm, hparts⟩, ?_⟩
      rw [List.flatten_cons]
      exact hread.trans hrest

end Rounds

variable {accepts word}

/-- A match reads a text of the language. -/
theorem lang_of_mem_run {r : Regex α A} {c d : Cursor α} (h : d ∈ run accepts word r c) :
    ∃ m, Lang accepts r m ∧ Reads c m d := by
  induction r generalizing c d with
  | empty =>
    rw [run, List.mem_singleton] at h
    exact ⟨[], rfl, h ▸ .refl c⟩
  | one a =>
    obtain ⟨x, hx, hread, -⟩ := mem_readOne h
    exact ⟨[x], ⟨x, rfl, hx⟩, hread⟩
  | literal s => exact ⟨s, rfl, (mem_readAll h).1⟩
  | start =>
    rw [run, List.mem_ite_nil_right, List.mem_singleton] at h
    exact ⟨[], rfl, h.2 ▸ .refl c⟩
  | stop =>
    rw [run, List.mem_ite_nil_right, List.mem_singleton] at h
    exact ⟨[], rfl, h.2 ▸ .refl c⟩
  | boundary =>
    rw [run, List.mem_ite_nil_right, List.mem_singleton] at h
    exact ⟨[], rfl, h.2 ▸ .refl c⟩
  | seq r r' ih ih' =>
    rw [run, List.mem_flatMap] at h
    obtain ⟨e, he, hd⟩ := h
    obtain ⟨m, hm, hread⟩ := ih he
    obtain ⟨n, hn, hread'⟩ := ih' hd
    exact ⟨m ++ n, ⟨m, n, rfl, hm, hn⟩, hread.trans hread'⟩
  | alt r r' ih ih' =>
    rw [run, List.mem_append] at h
    rcases h with hleft | hright
    · obtain ⟨m, hm, hread⟩ := ih hleft
      exact ⟨m, Or.inl hm, hread⟩
    · obtain ⟨m, hm, hread⟩ := ih' hright
      exact ⟨m, Or.inr hm, hread⟩
  | group r ih => exact ih h
  | capture label named r ih =>
    rw [run, List.mem_map] at h
    obtain ⟨e, he, rfl⟩ := h
    obtain ⟨m, hm, hread⟩ := ih he
    exact ⟨m, hm, ⟨hread.after, hread.before⟩⟩
  | rep r min extra lazily ih =>
    rw [run, List.mem_flatMap] at h
    obtain ⟨e, he, hd⟩ := h
    obtain ⟨parts, hlength, hparts, hread⟩ := mem_times (fun c d hd => ih hd) he
    obtain ⟨parts', hlength', hparts', hread'⟩ := mem_upTo (fun c d hd => ih hd) hd
    refine ⟨(parts ++ parts').flatten, ⟨parts ++ parts', rfl, ?_, ?_, ?_⟩, ?_⟩
    · intro p hp
      rcases List.mem_append.mp hp with hfirst | hmore
      · exact hparts p hfirst
      · exact hparts' p hmore
    · rw [List.length_append, hlength]
      exact Nat.le_add_right _ _
    · rintro k rfl
      rw [List.length_append, hlength]
      exact Nat.add_le_add_left hlength' min
    · rw [List.flatten_append]
      exact hread.trans hread'

end Regex

end Ulpf.Library
