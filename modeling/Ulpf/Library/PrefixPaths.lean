import Mathlib.Data.List.Nodup
import Mathlib.Tactic.SplitIfs
import Ulpf.Library.PrefixTree

/-!
# Paths in prefix trees

The node at the end of a path of keys, and what an update of one child does to the nodes at
all paths.
-/

namespace Ulpf.Library.PrefixTree

variable {Key Value : Type*}

/-- The keys of the children. -/
def keys (t : PrefixTree Key Value) : List Key := t.children.map Prod.fst

lemma length_keys (t : PrefixTree Key Value) : t.keys.length = t.children.length :=
  List.length_map _

@[simp] lemma keys_modifyValue (t : PrefixTree Key Value) (g : Value → Value) :
    (t.modifyValue g).keys = t.keys := by
  cases t
  rfl

variable [DecidableEq Key]

/-- The node that a path of keys leads to. -/
def find : PrefixTree Key Value → List Key → Option (PrefixTree Key Value)
  | t, [] => some t
  | t, k :: path => (t.child k).bind fun c => c.find path

/-- The value at the end of a path, `absent` where there is no node. -/
def valueAt (absent : Value) (t : PrefixTree Key Value) (path : List Key) : Value :=
  ((t.find path).map value).getD absent

variable {t : PrefixTree Key Value} {key : Key}
  {f : Option (PrefixTree Key Value) → PrefixTree Key Value}

@[simp] lemma find_nil (t : PrefixTree Key Value) : t.find [] = some t := rfl

lemma find_cons (t : PrefixTree Key Value) (k : Key) (path : List Key) :
    t.find (k :: path) = (t.child k).bind fun c => c.find path := rfl

lemma find_alter (t : PrefixTree Key Value) (key k : Key)
    (f : Option (PrefixTree Key Value) → PrefixTree Key Value) (path : List Key) :
    (t.alter key f).find (k :: path) =
      if k = key then (f (t.child key)).find path else t.find (k :: path) := by
  split_ifs with h
  · subst h
    rw [find_cons, child_alter_self]
    rfl
  · rw [find_cons, child_alter_of_ne t h, find_cons]

@[simp] lemma find_leaf_cons (v : Value) (k : Key) (path : List Key) :
    (leaf v : PrefixTree Key Value).find (k :: path) = none := rfl

@[simp] lemma valueAt_nil (absent : Value) (t : PrefixTree Key Value) :
    t.valueAt absent [] = t.value := rfl

lemma valueAt_leaf (v : Value) (path : List Key) :
    (leaf v : PrefixTree Key Value).valueAt v path = v := by
  cases path <;> rfl

lemma valueAt_alter (absent : Value) (t : PrefixTree Key Value) (key k : Key)
    (f : Option (PrefixTree Key Value) → PrefixTree Key Value) (path : List Key) :
    (t.alter key f).valueAt absent (k :: path) =
      if k = key then (f (t.child key)).valueAt absent path else t.valueAt absent (k :: path) := by
  unfold valueAt
  rw [find_alter]
  split_ifs <;> rfl

lemma valueAt_cons (absent : Value) (t : PrefixTree Key Value) (k : Key) (path : List Key) :
    t.valueAt absent (k :: path) = ((t.child k).getD (leaf absent)).valueAt absent path := by
  cases h : t.child k with
  | none =>
    rw [Option.getD_none, valueAt_leaf, valueAt, find_cons, h]
    rfl
  | some c => simp [valueAt, find_cons, h]

lemma valueAt_modifyValue (absent : Value) (t : PrefixTree Key Value) (g : Value → Value)
    (path : List Key) :
    (t.modifyValue g).valueAt absent path =
      if path = [] then g (t.valueAt absent path) else t.valueAt absent path := by
  cases t with
  | node v children => cases path <;> rfl

/-! ### Children -/

lemma keys_alterEntry {α : Type*} (key : Key) (f : Option α → α) (entries : List (Key × α)) :
    (alterEntry key f entries).map Prod.fst =
      if key ∈ entries.map Prod.fst then entries.map Prod.fst
      else entries.map Prod.fst ++ [key] := by
  induction entries with
  | nil => rfl
  | cons entry entries ih =>
    obtain ⟨k, a⟩ := entry
    unfold alterEntry
    by_cases hk : k = key
    · simp [hk]
    · have hne : key ≠ k := Ne.symm hk
      simp only [hk, if_false, List.map_cons, ih, List.mem_cons, hne, false_or]
      split_ifs <;> rfl

lemma keys_alter (t : PrefixTree Key Value) (key : Key)
    (f : Option (PrefixTree Key Value) → PrefixTree Key Value) :
    (t.alter key f).keys = if key ∈ t.keys then t.keys else t.keys ++ [key] :=
  keys_alterEntry key f t.children

lemma nodup_keys_alter (h : t.keys.Nodup) : (t.alter key f).keys.Nodup := by
  rw [keys_alter]
  split_ifs with hmem
  · exact h
  · refine List.nodup_append.mpr ⟨h, List.nodup_singleton key, ?_⟩
    rintro k hk k' hk' rfl
    rw [List.mem_singleton] at hk'
    exact hmem (hk' ▸ hk)

/-! ### Properties of all nodes -/

/-- `P` holds of every node that a path of keys reaches. -/
def Everywhere (P : PrefixTree Key Value → Prop) (t : PrefixTree Key Value) : Prop :=
  ∀ path node, t.find path = some node → P node

variable {P : PrefixTree Key Value → Prop}

lemma Everywhere.here (h : Everywhere P t) : P t := h [] t rfl

lemma Everywhere.child {c : PrefixTree Key Value} (h : Everywhere P t)
    (hc : t.child key = some c) : Everywhere P c := by
  intro path node hnode
  apply h (key :: path)
  rw [find_cons, hc]
  exact hnode

lemma everywhere_leaf {v : Value} (h : P (leaf v)) : Everywhere P (leaf v) := by
  intro path node hnode
  cases path with
  | nil =>
    cases hnode
    exact h
  | cons k path => cases hnode

/-- What a node and its children need for the tree to be as good as before, except for itself. -/
lemma Everywhere.alter (h : Everywhere P t) (hhere : P (t.alter key f))
    (hchild : Everywhere P (f (t.child key))) : Everywhere P (t.alter key f) := by
  intro path node hnode
  cases path with
  | nil =>
    cases hnode
    exact hhere
  | cons k path =>
    rw [find_alter] at hnode
    split_ifs at hnode with hk
    · exact hchild path node hnode
    · exact h (k :: path) node hnode

lemma Everywhere.modifyValue {g : Value → Value} (h : Everywhere P t)
    (hhere : P (t.modifyValue g)) : Everywhere P (t.modifyValue g) := by
  intro path node hnode
  cases path with
  | nil =>
    cases hnode
    exact hhere
  | cons k path =>
    cases t with
    | node v children => exact h (k :: path) node hnode

end Ulpf.Library.PrefixTree
