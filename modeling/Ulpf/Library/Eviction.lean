import Mathlib.Data.List.Perm.Basic
import Mathlib.Data.Nat.Init

/-!
# Eviction orders

A bounded cache that keeps its keys in a list and evicts from the front of it. First-in first-out
leaves the list alone on a use of a resident key, least-recently-used moves the key to the back.
As long as both hold the same keys, they go on to do so exactly if they evict the same key.
-/

namespace Ulpf.Library.Eviction

variable {Key : Type*}

inductive Call (Key : Type*) where
  | lookup (key : Key)
  | enter (key : Key)

/-- The keys once there is room for another one. -/
def makeRoom (capacity : ℕ) (keys : List Key) : List Key :=
  if capacity ≤ keys.length then keys.tail else keys

lemma makeRoom_sublist (capacity : ℕ) (keys : List Key) :
    (makeRoom capacity keys).Sublist keys := by
  unfold makeRoom
  split_ifs
  · exact keys.tail_sublist
  · exact List.Sublist.refl keys

lemma nodup_makeRoom_concat {capacity : ℕ} {keys : List Key} {key : Key} (h : keys.Nodup)
    (hnew : key ∉ keys) : (makeRoom capacity keys ++ [key]).Nodup := by
  have hsub := makeRoom_sublist capacity keys
  rw [(List.perm_append_singleton key _).nodup_iff]
  exact List.nodup_cons.mpr ⟨fun hkey => hnew (hsub.subset hkey), h.sublist hsub⟩

variable [DecidableEq Key]

/-- A use makes a resident key the most recent one. -/
def touch (recency : List Key) (key : Key) : List Key :=
  if key ∈ recency then recency.erase key ++ [key] else recency

/-- First in, first out. -/
def fifo (capacity : ℕ) (queue : List Key) : Call Key → List Key
  | .lookup _ => queue
  | .enter key => if key ∈ queue then queue else makeRoom capacity queue ++ [key]

/-- Least recently used first out. -/
def lru (capacity : ℕ) (recency : List Key) : Call Key → List Key
  | .lookup key => touch recency key
  | .enter key => if key ∈ recency then touch recency key else makeRoom capacity recency ++ [key]

/-- An entry that needs room finds the first key in to be the least recently used one. -/
def EvictsAlike (capacity : ℕ) (queue recency : List Key) : Call Key → Prop
  | .lookup _ => True
  | .enter key => key ∈ queue ∨ queue.length < capacity ∨ queue.head? = recency.head?

lemma touch_perm (recency : List Key) (key : Key) : (touch recency key).Perm recency := by
  unfold touch
  split_ifs with hkey
  · exact (List.perm_append_singleton key _).trans (List.perm_cons_erase hkey).symm
  · exact List.Perm.refl recency

lemma nodup_lru {capacity : ℕ} {recency : List Key} (h : recency.Nodup) (call : Call Key) :
    (lru capacity recency call).Nodup := by
  cases call with
  | lookup key => exact (touch_perm recency key).nodup_iff.mpr h
  | enter key =>
    rw [lru]
    split_ifs with hkey
    · exact (touch_perm recency key).nodup_iff.mpr h
    · exact nodup_makeRoom_concat h hkey

omit [DecidableEq Key] in
lemma tail_perm_iff {queue recency : List Key} (hnodup : queue.Nodup) (h : queue.Perm recency) :
    queue.tail.Perm recency.tail ↔ queue.head? = recency.head? := by
  cases queue with
  | nil =>
    rw [h.nil_eq]
    simp
  | cons x queue =>
    cases recency with
    | nil => cases h.eq_nil
    | cons y recency =>
      simp only [List.tail_cons, List.head?_cons, Option.some_inj]
      constructor
      · intro htail
        rcases List.mem_cons.mp (h.subset List.mem_cons_self) with hxy | hx
        · exact hxy
        · exact absurd (htail.mem_iff.mpr hx) (List.nodup_cons.mp hnodup).1
      · rintro rfl
        exact h.cons_inv

/-- While both hold the same keys, a call keeps it so exactly if it evicts alike. -/
theorem fifo_perm_lru_iff {capacity : ℕ} {queue recency : List Key} (hnodup : queue.Nodup)
    (h : queue.Perm recency) (call : Call Key) :
    (fifo capacity queue call).Perm (lru capacity recency call) ↔
      EvictsAlike capacity queue recency call := by
  cases call with
  | lookup key => exact iff_of_true (h.trans (touch_perm recency key).symm) trivial
  | enter key =>
    rw [fifo, lru, EvictsAlike]
    by_cases hkey : key ∈ queue
    · rw [if_pos hkey, if_pos (h.mem_iff.mp hkey)]
      exact iff_of_true (h.trans (touch_perm recency key).symm) (Or.inl hkey)
    · rw [if_neg hkey, if_neg (mt h.mem_iff.mpr hkey), List.perm_append_right_iff,
        or_iff_right hkey, makeRoom, makeRoom, ← h.length_eq]
      split_ifs with hfull
      · rw [tail_perm_iff hnodup h]
        exact (or_iff_right (Nat.not_lt.mpr hfull)).symm
      · exact iff_of_true h (Or.inl (Nat.lt_of_not_le hfull))

end Ulpf.Library.Eviction
