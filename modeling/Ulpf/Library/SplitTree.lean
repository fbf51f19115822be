import Mathlib.Data.List.Induction
import Mathlib.Data.Nat.Init
import Mathlib.Data.Set.Function

/-!
# Split hash trees

A split rule cuts every list of at least two items into two non-empty parts, and so
determines one binary tree for each non-empty list. Over a node function `h` such a
tree has a root. This file proves when the root determines the list, and when a chain
of siblings that climbs to the root can only start at a leaf.
-/

namespace Ulpf.Library

variable {α : Type*}

/-- A rule that cuts a block of `n > 1` items into two non-empty parts. -/
structure SplitRule where
  cut : ℕ → ℕ
  cut_pos : ∀ n, 1 < n → 0 < cut n
  cut_lt : ∀ n, 1 < n → cut n < n

namespace SplitRule

/-- Blocks that reach past the cut of a larger block are cut at the same place. -/
def Stable (r : SplitRule) : Prop :=
  ∀ m n, r.cut n < m → m ≤ n → r.cut m = r.cut n

variable (r : SplitRule)

def left (l : List α) : List α := l.take (r.cut l.length)

def right (l : List α) : List α := l.drop (r.cut l.length)

@[simp] lemma left_append_right (l : List α) : r.left l ++ r.right l = l :=
  List.take_append_drop _ _

lemma length_left {l : List α} (h : 1 < l.length) : (r.left l).length = r.cut l.length := by
  rw [left, List.length_take]
  exact min_eq_left (r.cut_lt _ h).le

lemma length_right (l : List α) : (r.right l).length = l.length - r.cut l.length :=
  List.length_drop

lemma left_ne_nil {l : List α} (h : 1 < l.length) : r.left l ≠ [] := by
  have hpos := r.cut_pos _ h
  rw [← List.length_pos_iff, r.length_left h]
  exact hpos

lemma right_ne_nil {l : List α} (h : 1 < l.length) : r.right l ≠ [] := by
  have hlt := r.cut_lt _ h
  rw [← List.length_pos_iff, r.length_right]
  omega

lemma length_left_lt {l : List α} (h : 1 < l.length) : (r.left l).length < l.length := by
  rw [r.length_left h]
  exact r.cut_lt _ h

lemma length_right_lt {l : List α} (h : 1 < l.length) : (r.right l).length < l.length := by
  have hpos := r.cut_pos _ h
  rw [r.length_right]
  omega

/-- Induction along the cuts of a non-empty list. -/
theorem list_induction {motive : (l : List α) → l ≠ [] → Prop}
    (single : ∀ a, motive [a] (List.cons_ne_nil a []))
    (split : ∀ (l : List α) (hne : l ≠ []) (h : 1 < l.length), motive (r.left l) (r.left_ne_nil h) →
      motive (r.right l) (r.right_ne_nil h) → motive l hne)
    (l : List α) (hne : l ≠ []) : motive l hne := by
  induction hn : l.length using Nat.strong_induction_on generalizing l with
  | _ n ih =>
    subst hn
    by_cases h : 1 < l.length
    · exact split l hne h (ih _ (r.length_left_lt h) _ _ rfl) (ih _ (r.length_right_lt h) _ _ rfl)
    · have hpos := List.length_pos_iff.mpr hne
      obtain ⟨a, rfl⟩ := List.length_eq_one_iff.mp (by omega : l.length = 1)
      exact single a

end SplitRule

/-- Binary trees with a digest at every leaf. -/
inductive HashTree (α : Type*) where
  | leaf (a : α)
  | node (l r : HashTree α)

namespace HashTree

def root (h : α → α → α) : HashTree α → α
  | leaf a => a
  | node l r => h (l.root h) (r.root h)

def leaves : HashTree α → List α
  | leaf a => [a]
  | node l r => l.leaves ++ r.leaves

/-- The argument pairs of `h` at the inner nodes. -/
def pairs (h : α → α → α) : HashTree α → List (α × α)
  | leaf _ => []
  | node l r => (l.root h, r.root h) :: (l.pairs h ++ r.pairs h)

/-- Two trees that branch at the same places. -/
def SameShape : HashTree α → HashTree α → Prop
  | leaf _, leaf _ => True
  | node l r, node l' r' => l.SameShape l' ∧ r.SameShape r'
  | _, _ => False

/-- The node function is injective on `P`, and never gives a digest of `L` there. -/
structure Separated (h : α → α → α) (L : Set α) (P : Set (α × α)) : Prop where
  inj : Set.InjOn (fun p : α × α => h p.1 p.2) P
  ne : ∀ a ∈ L, ∀ p ∈ P, a ≠ h p.1 p.2

/-- All leaves of the tree lie in `L` and all its pairs in `P`. -/
structure Within (h : α → α → α) (L : Set α) (P : Set (α × α)) (t : HashTree α) : Prop where
  leaves_mem : ∀ a ∈ t.leaves, a ∈ L
  pairs_mem : ∀ p ∈ t.pairs h, p ∈ P

variable {h : α → α → α} {L : Set α} {P : Set (α × α)}

lemma Within.pair {l r : HashTree α} (w : (node l r).Within h L P) : (l.root h, r.root h) ∈ P :=
  w.pairs_mem _ List.mem_cons_self

lemma Within.left {l r : HashTree α} (w : (node l r).Within h L P) : l.Within h L P where
  leaves_mem a ha := w.leaves_mem a (List.mem_append_left _ ha)
  pairs_mem p hp := w.pairs_mem p (List.mem_cons_of_mem _ (List.mem_append_left _ hp))

lemma Within.right {l r : HashTree α} (w : (node l r).Within h L P) : r.Within h L P where
  leaves_mem a ha := w.leaves_mem a (List.mem_append_right _ ha)
  pairs_mem p hp := w.pairs_mem p (List.mem_cons_of_mem _ (List.mem_append_right _ hp))

lemma Within.leaf_mem {a : α} (w : (leaf a).Within h L P) : a ∈ L :=
  w.leaves_mem a List.mem_cons_self

/-- On trees of one shape, an injective node function makes the root determine the tree. -/
theorem eq_of_root_eq_of_sameShape (hinj : Set.InjOn (fun p : α × α => h p.1 p.2) P)
    (t u : HashTree α) (ht : t.Within h L P) (hu : u.Within h L P) (hs : t.SameShape u)
    (hr : t.root h = u.root h) : t = u := by
  induction t generalizing u with
  | leaf a =>
    cases u with
    | leaf b => exact congrArg leaf hr
    | node l r => exact hs.elim
  | node l r ihl ihr =>
    cases u with
    | leaf b => exact hs.elim
    | node l' r' =>
      have hp := hinj ht.pair hu.pair hr
      simp only [Prod.mk.injEq] at hp
      rw [ihl l' ht.left hu.left hs.1 hp.1, ihr r' ht.right hu.right hs.2 hp.2]

/-- With separated leaves and nodes the root determines the tree, its shape included. -/
theorem eq_of_root_eq (sep : Separated h L P) (t u : HashTree α) (ht : t.Within h L P)
    (hu : u.Within h L P) (hr : t.root h = u.root h) : t = u := by
  induction t generalizing u with
  | leaf a =>
    cases u with
    | leaf b => exact congrArg leaf hr
    | node l r => exact (sep.ne a ht.leaf_mem _ hu.pair hr).elim
  | node l r ihl ihr =>
    cases u with
    | leaf b => exact (sep.ne b hu.leaf_mem _ ht.pair hr.symm).elim
    | node l' r' =>
      have hp := sep.inj ht.pair hu.pair hr
      simp only [Prod.mk.injEq] at hp
      rw [ihl l' ht.left hu.left hp.1, ihr r' ht.right hu.right hp.2]

end HashTree

/-! ### Climbing to the root -/

/-- A sibling digest and the side on which it stands. -/
inductive Sibling (α : Type*) where
  | left (a : α)
  | right (a : α)

namespace Sibling

/-- The arguments of the node function when `x` meets its sibling. -/
def pair (x : α) : Sibling α → α × α
  | left a => (a, x)
  | right a => (x, a)

def join (h : α → α → α) (x : α) (s : Sibling α) : α := h (s.pair x).1 (s.pair x).2

end Sibling

/-- The digest reached from `x` along the siblings, the lowest first. -/
def climb (h : α → α → α) (x : α) (path : List (Sibling α)) : α := path.foldl (Sibling.join h) x

/-- The pairs hashed on the way up. -/
def climbPairs (h : α → α → α) : α → List (Sibling α) → List (α × α)
  | _, [] => []
  | x, s :: path => s.pair x :: climbPairs h (s.join h x) path

@[simp] lemma climb_nil (h : α → α → α) (x : α) : climb h x [] = x := rfl

@[simp] lemma climb_concat (h : α → α → α) (x : α) (path : List (Sibling α)) (s : Sibling α) :
    climb h x (path ++ [s]) = s.join h (climb h x path) := by
  simp [climb]

lemma climbPairs_concat (h : α → α → α) (x : α) (path : List (Sibling α)) (s : Sibling α) :
    climbPairs h x (path ++ [s]) = climbPairs h x path ++ [s.pair (climb h x path)] := by
  induction path generalizing x with
  | nil => rfl
  | cons t path ih =>
    simp only [List.cons_append, climbPairs, ih]
    rfl

namespace HashTree

def siblings (h : α → α → α) : HashTree α → ℕ → List (Sibling α)
  | leaf _, _ => []
  | node l r, i =>
    if i < l.leaves.length then l.siblings h i ++ [.right (r.root h)]
    else r.siblings h (i - l.leaves.length) ++ [.left (l.root h)]

/-- Climbing from a leaf along its siblings reaches the root. -/
theorem climb_siblings (h : α → α → α) (t : HashTree α) (i : ℕ) (x : α)
    (hx : t.leaves[i]? = some x) : climb h x (t.siblings h i) = t.root h := by
  induction t generalizing i with
  | leaf a =>
    cases i with
    | zero => simpa [leaves, siblings, root] using hx.symm
    | succ i => simp [leaves] at hx
  | node l r ihl ihr =>
    rw [leaves, List.getElem?_append] at hx
    by_cases hi : i < l.leaves.length
    · rw [if_pos hi] at hx
      rw [siblings, if_pos hi, climb_concat, ihl i hx]
      rfl
    · rw [if_neg hi] at hx
      rw [siblings, if_neg hi, climb_concat, ihr _ hx]
      rfl

/-- A climb that ends at the root of a separated tree starts at one of its leaves, whatever
siblings were offered on the way. -/
theorem mem_leaves_of_climb_eq_root {h : α → α → α} {L : Set α} {P : Set (α × α)}
    (sep : Separated h L P) (t : HashTree α) (ht : t.Within h L P) (x : α) (hx : x ∈ L)
    (path : List (Sibling α)) (hpath : ∀ p ∈ climbPairs h x path, p ∈ P)
    (hr : climb h x path = t.root h) : x ∈ t.leaves := by
  induction path using List.reverseRecOn generalizing t with
  | nil =>
    cases t with
    | leaf a => exact List.mem_singleton.mpr hr
    | node l r => exact (sep.ne x hx _ ht.pair hr).elim
  | append_singleton path s ih =>
    rw [climbPairs_concat] at hpath
    have hs : s.pair (climb h x path) ∈ P := hpath _ (by simp)
    have hlow : ∀ p ∈ climbPairs h x path, p ∈ P := fun p hp =>
      hpath p (List.mem_append_left _ hp)
    rw [climb_concat] at hr
    cases t with
    | leaf a => exact (sep.ne a ht.leaf_mem _ hs hr.symm).elim
    | node l r =>
      have hp := sep.inj hs ht.pair hr
      cases s with
      | left a =>
        have hc := (Prod.mk.inj hp).2
        exact List.mem_append_right _ (ih r ht.right hlow hc)
      | right a =>
        have hc := (Prod.mk.inj hp).1
        exact List.mem_append_left _ (ih l ht.left hlow hc)

end HashTree

/-! ### The tree of a list -/

namespace SplitRule

variable (r : SplitRule)

/-- The tree that a split rule gives to a non-empty list. -/
def tree (l : List α) (hne : l ≠ []) : HashTree α :=
  if h : 1 < l.length then
    .node (tree (r.left l) (r.left_ne_nil h)) (tree (r.right l) (r.right_ne_nil h))
  else .leaf (l.head hne)
termination_by l.length
decreasing_by
  · exact r.length_left_lt h
  · exact r.length_right_lt h

@[simp] lemma tree_singleton (a : α) (hne : [a] ≠ []) : r.tree [a] hne = .leaf a := by
  rw [tree, dif_neg (by simp)]
  rfl

lemma tree_split {l : List α} (h : 1 < l.length) (hne : l ≠ []) :
    r.tree l hne =
      .node (r.tree (r.left l) (r.left_ne_nil h)) (r.tree (r.right l) (r.right_ne_nil h)) := by
  rw [tree, dif_pos h]

@[simp] lemma leaves_tree (l : List α) (hne : l ≠ []) : (r.tree l hne).leaves = l := by
  induction l, hne using r.list_induction with
  | single a => simp [HashTree.leaves]
  | split l hne h ihl ihr =>
    rw [r.tree_split h, HashTree.leaves, ihl, ihr, left_append_right]

lemma sameShape_tree (l m : List α) (hl : l ≠ []) (hm : m ≠ []) (hlen : l.length = m.length) :
    (r.tree l hl).SameShape (r.tree m hm) := by
  induction l, hl using r.list_induction generalizing m with
  | single a =>
    obtain ⟨b, rfl⟩ := List.length_eq_one_iff.mp hlen.symm
    simp [HashTree.SameShape]
  | split l hne h ihl ihr =>
    have h' : 1 < m.length := hlen ▸ h
    rw [r.tree_split h, r.tree_split h']
    refine ⟨ihl _ _ ?_, ihr _ _ ?_⟩
    · rw [r.length_left h, r.length_left h', hlen]
    · rw [r.length_right, r.length_right, hlen]

def head (h : α → α → α) (l : List α) (hne : l ≠ []) : α := (r.tree l hne).root h

@[simp] lemma head_singleton (h : α → α → α) (a : α) (hne : [a] ≠ []) : r.head h [a] hne = a := by
  simp [head, HashTree.root]

lemma head_split (h : α → α → α) {l : List α} (hlen : 1 < l.length) (hne : l ≠ []) :
    r.head h l hne =
      h (r.head h (r.left l) (r.left_ne_nil hlen))
        (r.head h (r.right l) (r.right_ne_nil hlen)) := by
  rw [head, r.tree_split hlen]
  rfl

variable {h : α → α → α} {L : Set α} {P : Set (α × α)}

/-- Heads of lists of one length agree only on equal lists. -/
theorem eq_of_head_eq_of_length_eq (hinj : Set.InjOn (fun p : α × α => h p.1 p.2) P) {l m : List α}
    (hl : l ≠ []) (hm : m ≠ []) (hwl : (r.tree l hl).Within h L P)
    (hwm : (r.tree m hm).Within h L P) (hlen : l.length = m.length)
    (heq : r.head h l hl = r.head h m hm) : l = m := by
  have hs := r.sameShape_tree l m hl hm hlen
  have ht := HashTree.eq_of_root_eq_of_sameShape hinj _ _ hwl hwm hs heq
  rw [← r.leaves_tree l hl, ht, r.leaves_tree]

/-- With separated leaves and nodes the head determines the list, its length included. -/
theorem eq_of_head_eq (sep : HashTree.Separated h L P) {l m : List α} (hl : l ≠ [])
    (hm : m ≠ []) (hwl : (r.tree l hl).Within h L P) (hwm : (r.tree m hm).Within h L P)
    (heq : r.head h l hl = r.head h m hm) : l = m := by
  have ht := HashTree.eq_of_root_eq sep _ _ hwl hwm heq
  rw [← r.leaves_tree l hl, ht, r.leaves_tree]

end SplitRule

end Ulpf.Library
