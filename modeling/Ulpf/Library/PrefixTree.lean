import Mathlib.Data.Nat.Notation

/-!
# Prefix trees

Trees whose edges carry keys, each node with a value. The children of a node are an
association list in the order in which they were added.
-/

namespace Ulpf.Library

inductive PrefixTree (Key Value : Type*) where
  | node (value : Value) (children : List (Key × PrefixTree Key Value))

namespace PrefixTree

variable {Key Value : Type*}

def value : PrefixTree Key Value → Value
  | node value _ => value

def children : PrefixTree Key Value → List (Key × PrefixTree Key Value)
  | node _ children => children

def leaf (value : Value) : PrefixTree Key Value := node value []

def modifyValue (f : Value → Value) : PrefixTree Key Value → PrefixTree Key Value
  | node value children => node (f value) children

variable [DecidableEq Key]

def child (t : PrefixTree Key Value) (key : Key) : Option (PrefixTree Key Value) :=
  t.children.lookup key

/-- The entry of `key` becomes `f` of what it was. -/
def alterEntry {α : Type*} (key : Key) (f : Option α → α) : List (Key × α) → List (Key × α)
  | [] => [(key, f none)]
  | (k, a) :: entries =>
    if k = key then (k, f (some a)) :: entries else (k, a) :: alterEntry key f entries

def alter (t : PrefixTree Key Value) (key : Key)
    (f : Option (PrefixTree Key Value) → PrefixTree Key Value) : PrefixTree Key Value :=
  node t.value (alterEntry key f t.children)

lemma lookup_alterEntry {α : Type*} (key k : Key) (f : Option α → α) (entries : List (Key × α)) :
    (alterEntry key f entries).lookup k =
      if k = key then some (f (entries.lookup key)) else entries.lookup k := by
  induction entries with
  | nil =>
    by_cases h : k = key
    · simp [alterEntry, h]
    · simp [alterEntry, List.lookup_cons, beq_false_of_ne h, h]
  | cons entry entries ih =>
    obtain ⟨k', a⟩ := entry
    unfold alterEntry
    by_cases hkey : k' = key
    · subst hkey
      by_cases h : k = k'
      · simp [h]
      · simp [List.lookup_cons, beq_false_of_ne h, h]
    · by_cases h : k = k'
      · subst h
        simp [hkey]
      · have hkey' : (key == k') = false := beq_false_of_ne (Ne.symm hkey)
        simp [hkey, List.lookup_cons, beq_false_of_ne h, hkey', ih]

@[simp] lemma value_alter (t : PrefixTree Key Value) (key : Key)
    (f : Option (PrefixTree Key Value) → PrefixTree Key Value) : (t.alter key f).value = t.value :=
  rfl

@[simp] lemma child_alter_self (t : PrefixTree Key Value) (key : Key)
    (f : Option (PrefixTree Key Value) → PrefixTree Key Value) :
    (t.alter key f).child key = some (f (t.child key)) := by
  unfold alter child children
  rw [lookup_alterEntry, if_pos rfl]

lemma child_alter_of_ne (t : PrefixTree Key Value) {key k : Key} (h : k ≠ key)
    (f : Option (PrefixTree Key Value) → PrefixTree Key Value) :
    (t.alter key f).child k = t.child k := by
  unfold alter child children
  rw [lookup_alterEntry, if_neg h]

@[simp] lemma child_leaf (value : Value) (key : Key) :
    (leaf value : PrefixTree Key Value).child key = none := rfl

/-- `P` holds of the value of every node that a path of keys reaches. -/
inductive Holds (P : Value → Prop) : PrefixTree Key Value → Prop where
  | intro {t : PrefixTree Key Value} (hvalue : P t.value)
      (hchildren : ∀ key c, t.child key = some c → Holds P c) : Holds P t

variable {P : Value → Prop} {t c : PrefixTree Key Value} {key : Key}

lemma Holds.value (h : Holds P t) : P t.value := by
  cases h with
  | intro hvalue hchildren => exact hvalue

lemma Holds.child (h : Holds P t) (hc : t.child key = some c) : Holds P c := by
  cases h with
  | intro hvalue hchildren => exact hchildren key c hc

lemma holds_leaf {value : Value} (h : P value) : Holds P (leaf value : PrefixTree Key Value) :=
  .intro h fun _ _ hc => by cases hc

lemma Holds.modifyValue {f : Value → Value} (h : Holds P t) (hf : P (f t.value)) :
    Holds P (t.modifyValue f) := by
  cases t with
  | node value children => exact .intro hf fun key c hc => h.child hc

lemma Holds.alter (h : Holds P t) {f : Option (PrefixTree Key Value) → PrefixTree Key Value}
    (hf : Holds P (f (t.child key))) : Holds P (t.alter key f) := by
  apply Holds.intro
  · exact h.value
  · intro k c hc
    by_cases hk : k = key
    · subst hk
      rw [child_alter_self] at hc
      cases hc
      exact hf
    · rw [child_alter_of_ne t hk] at hc
      exact h.child hc

lemma Holds.mono {Q : Value → Prop} (h : Holds P t) (hPQ : ∀ v, P v → Q v) : Holds Q t := by
  induction h with
  | intro hvalue hchildren ih => exact .intro (hPQ _ hvalue) ih

end PrefixTree

end Ulpf.Library
