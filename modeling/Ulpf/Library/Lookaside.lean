import Mathlib.Data.Set.Basic
import Ulpf.Library.Execution

/-!
# Lookaside tables

A table in front of a function: items have a key and a value, and a step may enter the value
of its own item under the key of its own item, whatever else it evicts. Hits then return the
function's value as long as items with one key have one value.
-/

namespace Ulpf.Library

variable {State Item Key Value : Type*} (step : State → Item → Option State)
  (peek : State → Key → Option Value) (key : Item → Option Key) (value : Item → Value)

/-- Every entry is the entry of one of the items. -/
def EntriesFrom (items : Set Item) (s : State) : Prop :=
  ∀ k v, peek s k = some v → ∃ a ∈ items, key a = some k ∧ value a = v

/-- A step enters nothing but the entry of its own item. -/
def EntersOwn : Prop :=
  ∀ s a t, step s a = some t → ∀ k v, peek t k = some v →
    peek s k = some v ∨ (key a = some k ∧ value a = v)

def HitsValue (s : State) (a : Item) : Prop :=
  ∀ k v, key a = some k → peek s k = some v → v = value a

def KeysDetermine (items : Set Item) : Prop :=
  ∀ a ∈ items, ∀ b ∈ items, ∀ k, key a = some k → key b = some k → value a = value b

variable {step peek key value}

lemma EntriesFrom.next {items : Set Item} {s t : State} {a : Item}
    (h : EntriesFrom peek key value items s) (hown : EntersOwn step peek key value)
    (ha : a ∈ items) (hstep : step s a = some t) : EntriesFrom peek key value items t := by
  intro k v hv
  rcases hown s a t hstep k v hv with hold | hnew
  · exact h k v hold
  · exact ⟨a, ha, hnew⟩

lemma EntriesFrom.hitsValue {items : Set Item} {s : State} {a : Item}
    (h : EntriesFrom peek key value items s) (hkeys : KeysDetermine key value items)
    (ha : a ∈ items) : HitsValue peek key value s a := by
  intro k v hk hv
  obtain ⟨b, hb, hbk, rfl⟩ := h k v hv
  exact hkeys b hb a ha k hbk hk

/-- Along a run over items whose keys determine their values, every hit is right. -/
theorem along_hitsValue {items : Set Item} (hown : EntersOwn step peek key value)
    (hkeys : KeysDetermine key value items) {s : State} (hs : EntriesFrom peek key value items s)
    {ops : List Item} (hops : ∀ a ∈ ops, a ∈ items) :
    Along step (HitsValue peek key value) s ops := by
  induction ops generalizing s with
  | nil => trivial
  | cons a ops ih =>
    have ha : a ∈ items := hops a List.mem_cons_self
    refine ⟨hs.hitsValue hkeys ha, ?_⟩
    intro t hstep
    apply ih (hs.next hown ha hstep)
    intro b hb
    exact hops b (List.mem_cons_of_mem a hb)

end Ulpf.Library
